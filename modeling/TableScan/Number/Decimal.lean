import TableScan.Text.Digit

/-! Decimal numbers: a sign, a whole coefficient and a power of ten, the two infinities, and the
not-a-numbers. `10` and `1.0E+1` are equal numbers with different coefficients, and both are kept as
written. -/

namespace TableScan

inductive Decimal where
  | finite (negative : Bool) (coefficient : Nat) (exponent : Int)
  | infinity (negative : Bool)
  /-- A payload of zero is none. -/
  | nan (negative signaling : Bool) (payload : Nat)
deriving DecidableEq, Repr, Inhabited

namespace Decimal

open Text

/-- The length of the numeral. The number of bits tells it, or a length that is one too small. -/
def digitCount (n : Nat) : Nat :=
  let fewest := n.log2 * 30102999566 / 100000000000
  if Nat.pow 10 fewest ≤ n ∧ n < Nat.pow 10 (fewest + 1) then fewest + 1
  else if Nat.pow 10 (fewest + 1) ≤ n ∧ n < Nat.pow 10 (fewest + 2) then fewest + 2
  else (numeral n).length

theorem length_numeral_of_lt {n k : Nat} (least : Nat.pow 10 k ≤ n)
    (most : n < Nat.pow 10 (k + 1)) : (numeral n).length = k + 1 := by
  rw [numeral_eq_toDigits]
  apply Nat.le_antisymm
  · exact (Nat.length_toDigits_le_iff (by decide) (by omega)).2 most
  · rcases k with _ | k
    · exact Nat.length_toDigits_pos
    · exact Nat.lt_of_not_le fun short =>
        Nat.not_lt.2 least ((Nat.length_toDigits_le_iff (by decide) (by omega)).1 short)

theorem digitCount_eq_length (n : Nat) : digitCount n = (numeral n).length := by
  unfold digitCount
  extract_lets fewest
  split
  · next within => exact (length_numeral_of_lt within.1 within.2).symm
  · split
    · next within => exact (length_numeral_of_lt within.1 within.2).symm
    · rfl

def ofInt (n : Int) : Decimal := .finite (n < 0) n.natAbs 0

def isFinite : Decimal → Bool
  | .finite .. => true
  | _ => false

def isZero : Decimal → Bool
  | .finite _ c _ => c == 0
  | _ => false

def wholePart? (coefficient : Nat) (exponent : Int) : Option Nat :=
  if coefficient = 0 then some 0
  else if 0 ≤ exponent then some (coefficient * Nat.pow 10 exponent.toNat)
  else if exponent.natAbs < digitCount coefficient ∧
      coefficient % Nat.pow 10 exponent.natAbs = 0 then
    some (coefficient / Nat.pow 10 exponent.natAbs)
  else none

def wholeDigits (coefficient : Nat) (exponent : Int) : Nat :=
  if 0 ≤ exponent then coefficient * Nat.pow 10 exponent.toNat
  else if digitCount coefficient ≤ exponent.natAbs then 0
  else coefficient / Nat.pow 10 exponent.natAbs

def adjusted (coefficient : Nat) (exponent : Int) : Int := exponent + digitCount coefficient - 1

def magnitudeBelow (coefficient : Nat) (exponent : Int) (n : Nat) : Bool :=
  if coefficient = 0 then true
  else if adjusted coefficient exponent ≠ adjusted n 0 then
    adjusted coefficient exponent < adjusted n 0
  else if 0 ≤ exponent then coefficient * Nat.pow 10 exponent.toNat < n
  else coefficient < n * Nat.pow 10 exponent.natAbs

def magnitudeAbove (coefficient : Nat) (exponent : Int) (n : Nat) : Bool :=
  if coefficient = 0 then false
  else if adjusted coefficient exponent ≠ adjusted n 0 then
    adjusted n 0 < adjusted coefficient exponent
  else if 0 ≤ exponent then n < coefficient * Nat.pow 10 exponent.toNat
  else n * Nat.pow 10 exponent.natAbs < coefficient

def isBelow : Decimal → Int → Bool
  | .finite negative c e, n =>
    if n = 0 then negative && c != 0
    else if 0 < n then negative || magnitudeBelow c e n.natAbs
    else negative && magnitudeAbove c e n.natAbs
  | .infinity negative, _ => negative
  | .nan .., _ => false

def isNan : Decimal → Bool
  | .nan .. => true
  | _ => false

def isSignaling : Decimal → Bool
  | .nan _ signaling _ => signaling
  | _ => false

/-- Equal as numbers: both zero, or of one sign and equal once brought to the smaller exponent. -/
def sameNumber : Decimal → Decimal → Bool
  | .finite s c e, .finite s' c' e' =>
    if c = 0 ∨ c' = 0 then c == c'
    else if e = e' then s == s' && c == c'
    else s == s' && adjusted c e == adjusted c' e' &&
      (if e < e' then c == c' * Nat.pow 10 (e' - e).toNat
        else c * Nat.pow 10 (e - e').toNat == c')
  | .infinity s, .infinity s' => s == s'
  | _, _ => false

def signText (negative : Bool) : List Char := if negative then ['-'] else []

def exponentText (exponent : Int) : List Char :=
  'E' :: (if exponent < 0 then '-' else '+') :: numeral exponent.natAbs

def pointed (digits : List Char) (whole : Int) : List Char :=
  if 0 < whole then
    digits.take whole.toNat ++ '.' :: digits.drop whole.toNat
  else '0' :: '.' :: List.replicate (-whole).toNat '0' ++ digits

/-- Without an exponent when that needs no trailing zeros and at most five zeros after the point,
else with one digit before the point. -/
def finiteText (coefficient : Nat) (exponent : Int) : List Char :=
  let digits := numeral coefficient
  let leading := exponent + digits.length - 1
  if exponent = 0 then digits
  else if exponent < 0 ∧ -6 ≤ leading then pointed digits (exponent + digits.length)
  else (if digits.length = 1 then digits else pointed digits 1) ++ exponentText leading

def payloadText (payload : Nat) : List Char := if payload = 0 then [] else numeral payload

def toChars : Decimal → List Char
  | .finite negative c e => signText negative ++ finiteText c e
  | .infinity negative => signText negative ++ "Infinity".toList
  | .nan negative signaling payload =>
    signText negative ++ (if signaling then "sNaN" else "NaN").toList ++ payloadText payload

def toText (d : Decimal) : String := String.ofList d.toChars

end Decimal

end TableScan
