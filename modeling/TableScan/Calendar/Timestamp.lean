import TableScan.Calendar.DateTime
import TableScan.Number.Word
import TableScan.Number.Binary64.Text

/-! Moments in the forms people write them: dates and times of day with several separators, and
numbers that count seconds, or milliseconds when they are large, since the start of 1970. -/

namespace TableScan

/-- A moment whose year may still be zero. -/
structure Stamp where
  civil : Civil
  time : DayTime
deriving DecidableEq, Repr

namespace Stamp

open Text

def toDateTime? (s : Stamp) : Option DateTime := (Date.ofCivil? s.civil).map (⟨·, s.time⟩)

def isSeparator (c : Char) : Bool := c == 'T' || c == 't' || c == ' ' || c == '_'

def ofText? (cs : List Char) : Option Stamp :=
  match Civil.split? cs with
  | some (civil, separator :: rest) =>
    if isSeparator separator then (DayTime.ofText? Offset.ofText? rest).map (⟨civil, ·⟩) else none
  | _ => none

def epochDay : Int := 719528

def ofSeconds? (seconds : Int) (microseconds : Nat) : Option Stamp :=
  let second := seconds + microseconds / 1000000
  let day := second / 86400 + epochDay
  if 0 ≤ day ∧ day < (Civil.yearStart 10000 : Nat) then
    some ⟨Civil.ofDayCount day.toNat,
      .ofMicroseconds ((second % 86400).toNat * 1000000 + microseconds % 1000000), some .utc⟩
  else none

/-- Numbers above this count milliseconds. -/
def watershed : Nat := 20000000000

def secondsOf (count : Int) : Int := if count.natAbs ≤ watershed then count else count / 1000

def ofCount? (count : Int) : Option Stamp :=
  ofSeconds? (secondsOf count) (if count.natAbs ≤ watershed then 0 else (count % 1000).toNat * 1000)

open Binary64 (Ratio)

def floor (negative : Bool) (r : Ratio) : Int :=
  if negative then -((r.numerator + r.denominator - 1) / r.denominator : Nat)
  else (r.numerator / r.denominator : Nat)

/-- A ratio as it is after rounding to a binary number; none that is too large. -/
def inBinary (r : Ratio) : Ratio :=
  match Binary64.ofRatio false r with
  | .finite _ e f => Binary64.magnitude e f
  | _ => ⟨0, 1⟩

def aboveFloor (negative : Bool) (r : Ratio) : Ratio :=
  let rest := r.numerator % r.denominator
  inBinary ⟨if negative ∧ rest ≠ 0 then r.denominator - rest else rest, r.denominator⟩

/-- A part counted in smaller units: the product computed in binary, then rounded to a whole number,
halves up. -/
def partIn (units : Nat) (part : Ratio) : Nat :=
  let r := inBinary ⟨part.numerator * units, part.denominator⟩
  (2 * r.numerator + r.denominator) / (2 * r.denominator)

def ofBinary? : Binary64 → Option Stamp
  | .finite negative e f =>
    let r := Binary64.magnitude e f
    let count := floor negative r
    if watershed * r.denominator < r.numerator then
      ofSeconds? (count / 1000) ((count % 1000).toNat * 1000 + partIn 1000 (aboveFloor negative r))
    else ofSeconds? count (partIn 1000000 (aboveFloor negative r))
  | _ => none

def readWord? (cs : List Char) : Option Int :=
  let (negative, digits) := Decimal.splitSign cs
  if digits ≠ [] ∧ digits.all isAsciiDigit then
    let n : Int := if negative then -(readNumeral digits : Int) else readNumeral digits
    if isWord n then some n else none
  else none

def readFractional? (cs : List Char) : Option Binary64 :=
  let rest := (Decimal.splitSign cs).2
  match rest.dropWhile isAsciiDigit with
  | '.' :: _ =>
    if isWord (readNumeral (rest.takeWhile isAsciiDigit)) then
      (Decimal.read? cs).map Binary64.ofDecimal
    else none
  | _ => none

def ofAnyText? (cs : List Char) : Option Stamp :=
  match ofText? cs with
  | some s => some s
  | none =>
    match readWord? cs with
    | some n => ofCount? n
    | none => (readFractional? cs).bind ofBinary?

end Stamp

/-- A date in words, or a count whose whole seconds fall on midnight. -/
def Civil.ofAnyText? (cs : List Char) : Option Civil :=
  match Civil.split? cs with
  | some (civil, []) => some civil
  | _ =>
    match (Stamp.readWord? cs).bind fun n => Stamp.ofSeconds? (Stamp.secondsOf n) 0 with
    | some s => if s.time.clock = .midnight then some s.civil else none
    | none => none

end TableScan
