import TableScan.Number.Decimal

/-! Binary floating point of 64 bits, in exact arithmetic. A finite number is a significand times a
power of two; reading a ratio takes the nearest number, a half going to the even significand. -/

namespace TableScan

/-- Two to the power of 52: what the hidden bit of a significand counts, and the number of stored
fractions. -/
abbrev hiddenBit : Nat := 4503599627370496

inductive Binary64 where
  /-- The biased exponent and the stored fraction; the exponent zero is the subnormal range. -/
  | finite (negative : Bool) (exponent : Fin 2047) (fraction : Fin hiddenBit)
  | infinity (negative : Bool)
  | nan
deriving DecidableEq, Repr

namespace Binary64

instance : Inhabited Binary64 := ⟨.nan⟩

def significand (exponent : Fin 2047) (fraction : Fin hiddenBit) : Nat :=
  if exponent.val = 0 then fraction.val else hiddenBit + fraction.val

def quantum (exponent : Fin 2047) : Int := (max exponent.val 1 : Nat) - 1075

structure Ratio where
  numerator : Nat
  denominator : Nat

def magnitude (exponent : Fin 2047) (fraction : Fin hiddenBit) : Ratio :=
  ⟨significand exponent fraction * Nat.pow 2 (quantum exponent).toNat,
    Nat.pow 2 (-(quantum exponent)).toNat⟩

/-- The nearest whole number, a half going to the even neighbour. -/
def Ratio.nearest (r : Ratio) : Nat :=
  let quotient := r.numerator / r.denominator
  let rest := 2 * (r.numerator % r.denominator)
  if rest > r.denominator ∨ (rest = r.denominator ∧ quotient % 2 = 1) then quotient + 1
  else quotient

def Ratio.scaled (r : Ratio) (base : Nat) (exponent : Int) : Ratio :=
  ⟨r.numerator * Nat.pow base exponent.toNat, r.denominator * Nat.pow base (-exponent).toNat⟩

def Ratio.order (r : Ratio) : Int :=
  let guess : Int := (r.numerator.log2 : Int) - r.denominator.log2
  let scaled := r.scaled 2 (-guess)
  if scaled.numerator < scaled.denominator then guess - 1 else guess

/-- Packs a significand below 2^53 that counts the given power of two, at least -1074. -/
def pack (negative : Bool) (significand : Nat) (power : Int) : Binary64 :=
  if small : significand < hiddenBit then .finite negative 0 ⟨significand, small⟩
  else
    let biased := (power + 1075).toNat
    if inRange : biased < 2047 then
      .finite negative ⟨biased, inRange⟩
        ⟨(significand - hiddenBit) % hiddenBit, Nat.mod_lt _ (by decide)⟩
    else .infinity negative

def ofRatio (negative : Bool) (r : Ratio) : Binary64 :=
  if r.numerator = 0 then .finite negative 0 0
  else
    let power := max (r.order - 52) (-1074)
    let rounded := (r.scaled 2 (-power)).nearest
    if rounded = 2 * hiddenBit then pack negative hiddenBit (power + 1)
    else pack negative rounded power

/-- The number nearest to a decimal number; magnitudes from 10^310 on are infinite and those below
10^-330 are zero. -/
def ofDecimal : Decimal → Binary64
  | .finite negative c e =>
    if c = 0 ∨ Decimal.adjusted c e < -330 then .finite negative 0 0
    else if 310 ≤ Decimal.adjusted c e then .infinity negative
    else ofRatio negative (Ratio.scaled ⟨c, 1⟩ 10 e)
  | .infinity negative => .infinity negative
  | .nan .. => .nan

def ofNat (n : Nat) : Binary64 := ofRatio false ⟨n, 1⟩

def exactDecimal : Binary64 → Decimal
  | .finite negative exponent fraction =>
    let q := quantum exponent
    let m := significand exponent fraction
    if 0 ≤ q then .finite negative (m * Nat.pow 2 q.toNat) 0
    else
      let shift := twos (-q).toNat m
      .finite negative (m / Nat.pow 2 shift * Nat.pow 5 ((-q).toNat - shift))
        (-((-q).toNat - shift : Nat))
  | .infinity negative => .infinity negative
  | .nan => .nan false false 0
where
  /-- How many of the `limit` factors of two divide the number; all of them divide zero. -/
  twos : (limit : Nat) → Nat → Nat
    | 0, _ => 0
    | limit + 1, m => if m % 2 = 0 then twos limit (m / 2) + 1 else 0

def isFinite : Binary64 → Bool
  | .finite .. => true
  | _ => false

def isZero : Binary64 → Bool
  | .finite _ e f => significand e f == 0
  | _ => false

end Binary64

end TableScan
