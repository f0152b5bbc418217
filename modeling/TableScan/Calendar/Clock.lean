import TableScan.Text.Digit

/-! Times of day to the microsecond, and offsets from universal time. -/

namespace TableScan

structure Clock where
  hour : Fin 24
  minute : Fin 60
  second : Fin 60
  microsecond : Fin 1000000
deriving DecidableEq, Repr

/-- Microseconds east of universal time, less than a day. Offsets that were read from text, or that
come with a count, and those that a caller gives denote the same, and are only told apart where they
are shown within a collection. -/
structure Offset where
  microseconds : Int
  withinDay : microseconds.natAbs < 86400000000
  wasRead : Bool
deriving DecidableEq, Repr

namespace Clock

open Text

def midnight : Clock := ⟨0, 0, 0, 0⟩

def microseconds (c : Clock) : Nat :=
  ((c.hour * 60 + c.minute) * 60 + c.second) * 1000000 + c.microsecond

def ofMicroseconds (n : Nat) : Clock :=
  ⟨⟨n / 3600000000 % 24, Nat.mod_lt _ (by decide)⟩, ⟨n / 60000000 % 60, Nat.mod_lt _ (by decide)⟩,
    ⟨n / 1000000 % 60, Nat.mod_lt _ (by decide)⟩, ⟨n % 1000000, Nat.mod_lt _ (by decide)⟩⟩

def toChars (c : Clock) : List Char :=
  padded 2 c.hour ++ ':' :: padded 2 c.minute ++ ':' :: padded 2 c.second ++
    if c.microsecond.val = 0 then [] else '.' :: padded 6 c.microsecond

def ofNumbers? (hour minute second microsecond : Nat) : Option Clock :=
  if h : hour < 24 ∧ minute < 60 ∧ second < 60 ∧ microsecond < 1000000 then
    some ⟨⟨hour, h.1⟩, ⟨minute, h.2.1⟩, ⟨second, h.2.2.1⟩, ⟨microsecond, h.2.2.2⟩⟩
  else none

/-- A number of microseconds from the digits after the point; those beyond the sixth are dropped. -/
def readFraction (digits : List Char) : Nat :=
  readNumeral (digits.take 6) * Nat.pow 10 (6 - digits.length)

def splitSeconds? (hour minute : Nat) : List Char → Option (Clock × List Char)
  | ':' :: s₁ :: s₂ :: rest =>
    if isAsciiDigit s₁ && isAsciiDigit s₂ then
      match rest with
      | point :: fraction =>
        if point = '.' ∨ point = ',' then
          let digits := fraction.takeWhile isAsciiDigit
          if digits = [] then none
          else (ofNumbers? hour minute (readNumeral [s₁, s₂]) (readFraction digits)).map
            (·, fraction.dropWhile isAsciiDigit)
        else (ofNumbers? hour minute (readNumeral [s₁, s₂]) 0).map (·, rest)
      | [] => (ofNumbers? hour minute (readNumeral [s₁, s₂]) 0).map (·, [])
    else none
  | rest => (ofNumbers? hour minute 0 0).map (·, rest)

def split? : List Char → Option (Clock × List Char)
  | h₁ :: h₂ :: ':' :: m₁ :: m₂ :: rest =>
    if [h₁, h₂, m₁, m₂].all isAsciiDigit then
      splitSeconds? (readNumeral [h₁, h₂]) (readNumeral [m₁, m₂]) rest
    else none
  | _ => none

end Clock

namespace Offset

open Text

def utc : Offset := ⟨0, by decide, true⟩

def seconds (o : Offset) : Int := o.microseconds / 1000000

def ofMicroseconds? (wasRead : Bool) (n : Int) : Option Offset :=
  if withinDay : n.natAbs < 86400000000 then some ⟨n, withinDay, wasRead⟩ else none

def toChars (o : Offset) : List Char :=
  let n := o.microseconds.natAbs
  let sign := if o.microseconds < 0 then '-' else '+'
  let fraction := if n % 1000000 = 0 then [] else '.' :: padded 6 (n % 1000000)
  sign :: padded 2 (n / 3600000000) ++ ':' :: padded 2 (n / 60000000 % 60) ++
    if n % 60000000 = 0 then [] else ':' :: padded 2 (n / 1000000 % 60) ++ fraction

def signed? (wasRead : Bool) (sign : Char) (n : Nat) : Option Offset :=
  if sign = '+' then ofMicroseconds? wasRead n
  else if sign = '-' ∨ sign = '\u2212' then ofMicroseconds? wasRead (-(n : Int))
  else none

def readHours? (h₁ h₂ m₁ m₂ : Char) : Option Nat :=
  if [h₁, h₂, m₁, m₂].all isAsciiDigit ∧ readNumeral [m₁, m₂] < 60 then
    some ((readNumeral [h₁, h₂] * 60 + readNumeral [m₁, m₂]) * 60000000)
  else none

def ofText? : List Char → Option Offset
  | [z] => if z = 'Z' ∨ z = 'z' then some utc else none
  | [sign, h₁, h₂, ':', m₁, m₂] => (readHours? h₁ h₂ m₁ m₂).bind (signed? true sign)
  | [sign, h₁, h₂, m₁, m₂] => (readHours? h₁ h₂ m₁ m₂).bind (signed? true sign)
  | _ => none

def readSeconds? : List Char → Option Nat
  | [] => some 0
  | ':' :: s₁ :: s₂ :: rest =>
    if isAsciiDigit s₁ && isAsciiDigit s₂ then
      match rest with
      | [] => some (readNumeral [s₁, s₂] * 1000000)
      | '.' :: digits =>
        if digits.length = 6 ∧ digits.all isAsciiDigit then
          some (readNumeral [s₁, s₂] * 1000000 + readNumeral digits)
        else none
      | _ => none
    else none
  | _ => none

def ofExactText? : List Char → Option Offset
  | sign :: h₁ :: h₂ :: ':' :: m₁ :: m₂ :: rest =>
    (readHours? h₁ h₂ m₁ m₂).bind fun n =>
      (readSeconds? rest).bind fun more => signed? false sign (n + more)
  | _ => none

end Offset

/-- No offset reads as local time. -/
def readOffset? (read : List Char → Option Offset) : List Char → Option (Option Offset)
  | [] => some none
  | cs => (read cs).map some

structure DayTime where
  clock : Clock
  offset : Option Offset
deriving DecidableEq, Repr

namespace DayTime

def toChars (t : DayTime) : List Char := t.clock.toChars ++ (t.offset.elim [] Offset.toChars)

def toText (t : DayTime) : String := String.ofList t.toChars

def ofText? (read : List Char → Option Offset) (cs : List Char) : Option DayTime :=
  (Clock.split? cs).bind fun (clock, rest) => (readOffset? read rest).map (⟨clock, ·⟩)

def universal (t : DayTime) : Int :=
  t.clock.microseconds - t.offset.elim 0 Offset.microseconds

def sameTime (s t : DayTime) : Bool :=
  s.offset.isSome == t.offset.isSome && s.universal == t.universal

end DayTime

end TableScan
