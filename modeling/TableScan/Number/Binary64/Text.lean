import TableScan.Number.Binary64
import TableScan.Number.Decimal.Reader

/-! The text of a binary number: the fewest decimal digits that read back as the number, nearest to
it among those. -/

namespace TableScan.Binary64

open Text

structure Digits where
  coefficient : Nat
  exponent : Int

def leadingExponent (r : Ratio) : Int :=
  let guess : Int := Decimal.digitCount r.numerator - Decimal.digitCount r.denominator
  let scaled := r.scaled 10 (-guess)
  if scaled.numerator < scaled.denominator then guess - 1 else guess

def distance (x y : Nat) : Nat := (x - y) + (y - x)

/-- The nearest to the ratio of those of its two neighbours with the last digit at the given
exponent that read back; of two equally near ones the even one. -/
def neighbour? (r : Ratio) (exponent : Int) : Option Digits :=
  let scaled := r.scaled 10 (-exponent)
  let below := scaled.numerator / scaled.denominator
  let readsBack c := ofRatio false (Ratio.scaled ⟨c, 1⟩ 10 exponent) == ofRatio false r
  let offset c := distance (c * scaled.denominator) scaled.numerator
  let nearer :=
    offset below < offset (below + 1) || (offset below = offset (below + 1) && below % 2 = 0)
  if readsBack below && (nearer || !readsBack (below + 1)) then some ⟨below, exponent⟩
  else if readsBack (below + 1) then some ⟨below + 1, exponent⟩
  else none

def shortestFrom (r : Ratio) (leading : Int) : (fuel : Nat) → (count : Nat) → Digits
  | 0, count => ⟨(r.scaled 10 (count - 1 - leading)).nearest, leading - count + 1⟩
  | fuel + 1, count =>
    match neighbour? r (leading - count + 1) with
    | some digits => digits
    | none => shortestFrom r leading fuel (count + 1)

/-- Seventeen digits always suffice. -/
def shortest (r : Ratio) : Digits := shortestFrom r (leadingExponent r) 16 1

def stripZeros (digits : List Char) : List Char := (digits.reverse.dropWhile (· == '0')).reverse

def exponentText (exponent : Int) : List Char :=
  'e' :: (if exponent < 0 then '-' else '+') :: padded 2 exponent.natAbs

/-- Positional from 10^-4 to below 10^16, with at least one digit after the point; else one digit
before the point. -/
def layout (digits : List Char) (leading : Int) : List Char :=
  if leading < -4 ∨ 16 ≤ leading then
    (if digits.length = 1 then digits else Decimal.pointed digits 1) ++ exponentText leading
  else if (digits.length : Int) ≤ leading + 1 then
    digits ++ List.replicate (leading + 1 - digits.length).toNat '0' ++ ['.', '0']
  else Decimal.pointed digits (leading + 1)

def toChars : Binary64 → List Char
  | .finite negative e f =>
    Decimal.signText negative ++
      if significand e f = 0 then "0.0".toList
      else
        let found := shortest (magnitude e f)
        layout (stripZeros (numeral found.coefficient))
          (found.exponent + Decimal.digitCount found.coefficient - 1)
  | .infinity negative => Decimal.signText negative ++ "inf".toList
  | .nan => "nan".toList

def toText (x : Binary64) : String := String.ofList x.toChars

def toDecimal (x : Binary64) : Decimal := (Decimal.read? x.toChars).getD (.nan false false 0)

/-- The number nearest to what a text denotes: a decimal numeral, or an infinity or not-a-number
without payload. -/
def read? (cs : List Char) : Option Binary64 :=
  match Decimal.read? cs with
  | some (.nan _ false payload) =>
    if payload = 0 ∧ cs.all (!isAsciiDigit ·) then some .nan else none
  | some (.nan _ true _) => none
  | some d => some (ofDecimal d)
  | none => none

end TableScan.Binary64
