import TableScan.Number.Decimal
import TableScan.Text.Blank

/-! Reading decimal numbers. A numeral has a sign, digits with at most one point, and an exponent,
all but one digit optional; the special numbers are words of either case. -/

namespace TableScan.Decimal

open Text

def splitSign : List Char → Bool × List Char
  | '-' :: cs => (true, cs)
  | '+' :: cs => (false, cs)
  | cs => (false, cs)

def readExponent? : List Char → Option Int
  | [] => some 0
  | c :: cs =>
    let (negative, digits) := splitSign cs
    if (c = 'e' ∨ c = 'E') ∧ digits ≠ [] ∧ digits.all isAsciiDigit then
      some (if negative then -(readNumeral digits : Int) else readNumeral digits)
    else none

def splitFraction : List Char → List Char × List Char
  | '.' :: cs => (cs.takeWhile isAsciiDigit, cs.dropWhile isAsciiDigit)
  | cs => ([], cs)

def readFinite? (negative : Bool) (cs : List Char) : Option Decimal :=
  let whole := cs.takeWhile isAsciiDigit
  let (fraction, rest) := splitFraction (cs.dropWhile isAsciiDigit)
  if whole = [] ∧ fraction = [] then none
  else (readExponent? rest).map fun exponent =>
    .finite negative (readNumeral (whole ++ fraction)) (exponent - fraction.length)

def readPayload? (digits : List Char) : Option Nat :=
  if digits.all isAsciiDigit then some (readNumeral digits) else none

def readSpecial? (negative : Bool) (cs : List Char) : Option Decimal :=
  match cs.map Char.toLower with
  | ['i', 'n', 'f'] | ['i', 'n', 'f', 'i', 'n', 'i', 't', 'y'] => some (.infinity negative)
  | 'n' :: 'a' :: 'n' :: payload => (readPayload? payload).map (.nan negative false ·)
  | 's' :: 'n' :: 'a' :: 'n' :: payload => (readPayload? payload).map (.nan negative true ·)
  | _ => none

/-- A number written with ASCII digits and nothing around it. -/
def read? (cs : List Char) : Option Decimal :=
  let (negative, rest) := splitSign cs
  (readFinite? negative rest).orElse fun _ => readSpecial? negative rest

def asciiDigits (cs : List Char) : List Char :=
  cs.map fun c => (digit? c).elim c Nat.digitChar

def exponentLimit : Int := 999999999999999999

/-- The leading digit and the last digit lie within the widest range of exponents. -/
def isRepresentable : Decimal → Bool
  | .finite _ c e => adjusted c e ≤ exponentLimit && -2 * exponentLimit + 1 ≤ e
  | _ => true

/-- A number in free form: blanks around it and underscores within are dropped. -/
def ofText? (cs : List Char) : Option Decimal :=
  (read? (asciiDigits ((trimBy isBlank cs).filter (· != '_')))).filter isRepresentable

inductive ExponentPart where
  | power (exponent : Int)
  | infinity
  | quiet
  | signaling

/-- A number from its sign, its digits and its exponent or kind; an infinity has no use for the
digits. -/
def ofParts (negative : Bool) (digits : List Nat) : ExponentPart → Decimal
  | .power exponent => .finite negative (digits.foldl (10 * · + ·) 0) exponent
  | .infinity => .infinity negative
  | .quiet => .nan negative false (digits.foldl (10 * · + ·) 0)
  | .signaling => .nan negative true (digits.foldl (10 * · + ·) 0)

end TableScan.Decimal
