import TableScan.Text.Digit

/-! Calendar dates of the Gregorian rules extended to all years from 0 to 9999; a `Date` is one of
year 1 or later. -/

namespace TableScan

structure Civil where
  year : Nat
  month : Nat
  day : Nat
deriving DecidableEq, Repr

namespace Civil

def isLeap (year : Nat) : Bool := year % 4 == 0 && (year % 100 != 0 || year % 400 == 0)

def monthLengths (year : Nat) : List Nat :=
  [31, if isLeap year then 29 else 28, 31, 30, 31, 30, 31, 31, 30, 31, 30, 31]

def daysInMonth (year month : Nat) : Nat := ((0 :: monthLengths year)[month]?).getD 0

/-- The day exists; the year may be zero. -/
def exists? (c : Civil) : Bool :=
  c.year ≤ 9999 && 1 ≤ c.day && c.day ≤ daysInMonth c.year c.month

def yearStart (year : Nat) : Nat :=
  365 * year + (year + 3) / 4 - (year + 99) / 100 + (year + 399) / 400

def dayCount (c : Civil) : Nat :=
  yearStart c.year + ((monthLengths c.year).take (c.month - 1)).foldl (· + ·) 0 + (c.day - 1)

def yearOf (days : Nat) : Nat :=
  let guess := days * 400 / 146097
  if days < yearStart guess then guess - 1
  else if yearStart (guess + 1) ≤ days then guess + 1
  else guess

def monthDay : (month : Nat) → List Nat → (days : Nat) → Nat × Nat
  | month, [], days => (month, days + 1)
  | month, length :: lengths, days =>
    if days < length then (month, days + 1) else monthDay (month + 1) lengths (days - length)

def ofDayCount (days : Nat) : Civil :=
  let year := yearOf days
  let (month, day) := monthDay 1 (monthLengths year) (days - yearStart year)
  ⟨year, month, day⟩

open Text

def toChars (c : Civil) : List Char :=
  padded 4 c.year ++ '-' :: padded 2 c.month ++ '-' :: padded 2 c.day

def split? : List Char → Option (Civil × List Char)
  | y₁ :: y₂ :: y₃ :: y₄ :: '-' :: m₁ :: m₂ :: '-' :: d₁ :: d₂ :: rest =>
    if [y₁, y₂, y₃, y₄, m₁, m₂, d₁, d₂].all isAsciiDigit then
      let civil : Civil :=
        ⟨readNumeral [y₁, y₂, y₃, y₄], readNumeral [m₁, m₂], readNumeral [d₁, d₂]⟩
      if civil.exists? then some (civil, rest) else none
    else none
  | _ => none

end Civil

structure Date where
  civil : Civil
  real : civil.exists? = true ∧ 1 ≤ civil.year
deriving DecidableEq, Repr

namespace Date

def ofCivil? (c : Civil) : Option Date :=
  if real : c.exists? = true ∧ 1 ≤ c.year then some ⟨c, real⟩ else none

def toChars (d : Date) : List Char := d.civil.toChars

def toText (d : Date) : String := String.ofList d.toChars

def ofText? (cs : List Char) : Option Date :=
  match Civil.split? cs with
  | some (civil, []) => ofCivil? civil
  | _ => none

theorem ofCivil?_civil (d : Date) : ofCivil? d.civil = some d := by
  simp [ofCivil?, d.real]

end Date

end TableScan
