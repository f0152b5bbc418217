import TableScan.Number.Decimal

/-! The number format of the store: 38 digits, leading digit from 10^-128 to 10^126. A number that
the format would have to change in any way, be it only its exponent, is refused with the conditions
that the change would raise. -/

namespace TableScan.Decimal

inductive Condition where
  | overflow
  | underflow
  | inexact
  | rounded
  | clamped
deriving DecidableEq, Repr

def precision : Nat := 38
def leastLeading : Int := -128
def greatestLeading : Int := 126

/-- The exponent of the last digit of the smallest number. -/
def leastExponent : Int := leastLeading - precision + 1

/-- The coefficient without its last `count` digits, a half going to the even neighbour. -/
def dropDigits (count coefficient : Nat) : Nat :=
  let quotient := coefficient / Nat.pow 10 count
  let rest := 2 * (coefficient % Nat.pow 10 count)
  if rest > Nat.pow 10 count ∨ (rest = Nat.pow 10 count ∧ quotient % 2 = 1) then quotient + 1
  else quotient

def losesDigits (count coefficient : Nat) : Bool := coefficient % Nat.pow 10 count != 0

def underflowConditions (count coefficient : Nat) : List Condition :=
  if digitCount coefficient < count then [.underflow, .inexact, .rounded, .clamped]
  else if !losesDigits count coefficient then [.rounded]
  else if dropDigits count coefficient = 0 then [.underflow, .inexact, .rounded, .clamped]
  else [.underflow, .inexact, .rounded]

def roundingConditions (count coefficient : Nat) (exponent : Int) : List Condition :=
  if !losesDigits count coefficient then [.rounded]
  else if greatestLeading < adjusted (dropDigits count coefficient) (exponent + count) then
    [.overflow, .inexact, .rounded]
  else [.inexact, .rounded]

def conditions (coefficient : Nat) (exponent : Int) : List Condition :=
  if coefficient = 0 then
    if leastExponent ≤ exponent ∧ exponent ≤ greatestLeading then [] else [.clamped]
  else if greatestLeading < adjusted coefficient exponent then [.overflow, .inexact, .rounded]
  else if adjusted coefficient exponent < leastLeading ∧ exponent < leastExponent then
    underflowConditions (leastExponent - exponent).toNat coefficient
  else if precision < digitCount coefficient then
    roundingConditions (digitCount coefficient - precision) coefficient exponent
  else []

/-- A not-a-number whose payload has more digits than the precision loses sign and payload. -/
def trimPayload : Decimal → Decimal
  | .nan negative signaling payload =>
    if precision < digitCount payload then .nan false false 0 else .nan negative signaling payload
  | d => d

def inFormat : Decimal → Except (List Condition) Decimal
  | .finite negative c e =>
    if conditions c e = [] then .ok (.finite negative c e) else .error (conditions c e)
  | d => .ok d.trimPayload

end TableScan.Decimal
