import Mathlib.Algebra.Order.Floor.Semifield
import Mathlib.Data.Rat.Floor
import Mathlib.Tactic.FieldSimp
import Mathlib.Tactic.Linarith
import Mathlib.Tactic.NormNum
import Mathlib.Tactic.Positivity
import TableScan.Proofs.DecimalValue
import TableScan.Number.Binary64

/-! Rounding to binary numbers. Main statements: the rounding of a ratio depends on its value alone,
and what is nearer to a binary number than half the way to its neighbours is rounded to it. -/

namespace TableScan.Binary64

namespace Ratio

variable {r s : Ratio} {n : Nat}

def value (r : Ratio) : ℚ := r.numerator / r.denominator

theorem pow_toNat_div_pow_toNat {base : Nat} (positive : 0 < base) (k : Int) :
    (base : ℚ) ^ k.toNat / (base : ℚ) ^ (-k).toNat = (base : ℚ) ^ k := by
  have nonzero : (base : ℚ) ≠ 0 := by exact_mod_cast positive.ne'
  rcases Int.le_total 0 k with up | down
  · obtain ⟨n, rfl⟩ := Int.eq_ofNat_of_zero_le up
    simp
  · obtain ⟨n, same⟩ := Int.eq_ofNat_of_zero_le (Int.neg_nonneg.2 down)
    rw [show k = -(n : Int) by omega]
    simp

theorem value_scaled {base : Nat} (positive : 0 < base) (r : Ratio) (k : Int) :
    (r.scaled base k).value = r.value * (base : ℚ) ^ k := by
  rw [← pow_toNat_div_pow_toNat positive, value, value, scaled]
  simp only [Nat.pow_eq, Nat.cast_mul, Nat.cast_pow]
  exact (div_mul_div_comm _ _ _ _).symm

theorem denominator_scaled_pos {base : Nat} (positive : 0 < base) (some : 0 < r.denominator)
    (k : Int) : 0 < (r.scaled base k).denominator :=
  Nat.mul_pos some (Nat.pow_pos positive)

theorem value_eq_zero_iff (some : 0 < r.denominator) : r.value = 0 ↔ r.numerator = 0 := by
  simp [value, div_eq_zero_iff, some.ne']

theorem value_eq_add (some : 0 < r.denominator) :
    r.value = (r.numerator / r.denominator : Nat) +
      ((r.numerator % r.denominator : Nat) : ℚ) / r.denominator := by
  have nonzero : (r.denominator : ℚ) ≠ 0 := by exact_mod_cast some.ne'
  have parts : (r.denominator : ℚ) * (r.numerator / r.denominator : Nat) +
      (r.numerator % r.denominator : Nat) = r.numerator := by
    exact_mod_cast Nat.div_add_mod r.numerator r.denominator
  rw [value, ← parts]
  field_simp

theorem abs_value_sub_nearest_le (some : 0 < r.denominator) :
    |r.value - r.nearest| ≤ 1 / 2 := by
  have positive : (0 : ℚ) < r.denominator := by exact_mod_cast some
  have less : ((r.numerator % r.denominator : Nat) : ℚ) < r.denominator := by
    exact_mod_cast Nat.mod_lt _ some
  have nonnegative : (0 : ℚ) ≤ (r.numerator % r.denominator : Nat) := Nat.cast_nonneg _
  rw [value_eq_add some, nearest]
  split_ifs with up
  · have half : (r.denominator : ℚ) ≤ 2 * (r.numerator % r.denominator : Nat) := by
      exact_mod_cast up.elim Nat.le_of_lt fun both => both.1.symm.le
    rw [Nat.cast_add, Nat.cast_one, abs_le]
    constructor
    · have : 1 / 2 ≤ ((r.numerator % r.denominator : Nat) : ℚ) / r.denominator := by
        rw [div_le_div_iff₀ (by norm_num) positive]
        linarith
      linarith
    · have : ((r.numerator % r.denominator : Nat) : ℚ) / r.denominator ≤ 1 := by
        rw [div_le_one positive]
        exact less.le
      linarith
  · have half : 2 * ((r.numerator % r.denominator : Nat) : ℚ) ≤ r.denominator := by
      exact_mod_cast Nat.le_of_not_lt fun more => up (.inl more)
    rw [add_sub_cancel_left, abs_of_nonneg (by positivity),
      div_le_div_iff₀ positive (by norm_num)]
    linarith

/-- What is nearer to a whole number than a half is rounded to it. -/
theorem nearest_eq (some : 0 < r.denominator) (near : |r.value - n| < 1 / 2) : r.nearest = n := by
  have half := abs_value_sub_nearest_le some
  rw [abs_le] at half
  rw [abs_lt] at near
  have below : (r.nearest : ℚ) < n + 1 := by linarith
  have above : (n : ℚ) < r.nearest + 1 := by linarith
  norm_cast at below above
  omega

theorem nearest_eq_floor (some : 0 < r.denominator) :
    r.nearest = if r.value - ⌊r.value⌋₊ > 1 / 2 ∨
      (r.value - ⌊r.value⌋₊ = 1 / 2 ∧ ⌊r.value⌋₊ % 2 = 1) then ⌊r.value⌋₊ + 1 else ⌊r.value⌋₊ := by
  have positive : (0 : ℚ) < r.denominator := by exact_mod_cast some
  have floor : ⌊r.value⌋₊ = r.numerator / r.denominator := Nat.floor_div_eq_div _ _
  have rest : r.value - (r.numerator / r.denominator : Nat) =
      ((r.numerator % r.denominator : Nat) : ℚ) / r.denominator := by
    rw [value_eq_add some, add_sub_cancel_left]
  have more : 1 / 2 < ((r.numerator % r.denominator : Nat) : ℚ) / r.denominator ↔
      r.denominator < 2 * (r.numerator % r.denominator) := by
    rw [div_lt_div_iff₀ (by norm_num) positive, one_mul, mul_comm]
    exact_mod_cast Iff.rfl
  have half : ((r.numerator % r.denominator : Nat) : ℚ) / r.denominator = 1 / 2 ↔
      2 * (r.numerator % r.denominator) = r.denominator := by
    rw [div_eq_div_iff positive.ne' (by norm_num), one_mul, mul_comm]
    exact_mod_cast Iff.rfl
  simp only [nearest, floor, rest, gt_iff_lt, more, half]

theorem nearest_congr (some : 0 < r.denominator) (some' : 0 < s.denominator)
    (same : r.value = s.value) : r.nearest = s.nearest := by
  rw [nearest_eq_floor some, nearest_eq_floor some', same]

theorem value_bounds (base : Nat) {i j : Nat} (some : 0 < r.denominator) (positive : 0 < base)
    (numerator : base ^ i ≤ r.numerator ∧ r.numerator < base ^ (i + 1))
    (denominator : base ^ j ≤ r.denominator ∧ r.denominator < base ^ (j + 1)) :
    (base : ℚ) ^ ((i : Int) - j - 1) ≤ r.value ∧ r.value < (base : ℚ) ^ ((i : Int) - j + 1) := by
  have nonzero : (base : ℚ) ≠ 0 := by exact_mod_cast positive.ne'
  have size : (0 : ℚ) < r.denominator := by exact_mod_cast some
  have power (k : Nat) : (0 : ℚ) < (base : ℚ) ^ k := by positivity
  constructor
  · rw [show (i : Int) - j - 1 = i - (j + 1 : Nat) by omega, zpow_sub₀ nonzero, zpow_natCast,
      zpow_natCast, value, div_le_div_iff₀ (power _) size]
    have product := Nat.mul_le_mul numerator.1 denominator.2.le
    exact_mod_cast product
  · rw [show (i : Int) - j + 1 = (i + 1 : Nat) - j by omega, zpow_sub₀ nonzero, zpow_natCast,
      zpow_natCast, value, div_lt_div_iff₀ size (power _)]
    have product := Nat.mul_lt_mul_of_lt_of_le numerator.2 denominator.1 some
    exact_mod_cast product

/-- A guess at the leading power that is at most one too high is put right by a comparison. -/
theorem leading_bounds {base : Nat} {guess : Int} (some : 0 < r.denominator) (positive : 0 < base)
    (least : (base : ℚ) ^ (guess - 1) ≤ r.value) (most : r.value < (base : ℚ) ^ (guess + 1)) :
    let scaled := r.scaled base (-guess)
    let leading := if scaled.numerator < scaled.denominator then guess - 1 else guess
    (base : ℚ) ^ leading ≤ r.value ∧ r.value < (base : ℚ) ^ (leading + 1) := by
  intro scaled leading
  have power : (0 : ℚ) < (base : ℚ) ^ guess := zpow_pos (by exact_mod_cast positive) _
  have size : (0 : ℚ) < scaled.denominator := by
    exact_mod_cast denominator_scaled_pos positive some _
  have below : scaled.numerator < scaled.denominator ↔ r.value < (base : ℚ) ^ guess := by
    have whole := value_scaled positive r (-guess)
    rw [zpow_neg, ← div_eq_mul_inv] at whole
    rw [← div_lt_one power, ← whole, value, div_lt_one size]
    exact_mod_cast Iff.rfl
  by_cases less : scaled.numerator < scaled.denominator
  · simp only [leading, if_pos less]
    exact ⟨least, by rw [Int.sub_add_cancel]; exact below.1 less⟩
  · simp only [leading, if_neg less]
    exact ⟨not_lt.1 (mt below.2 less), most⟩

theorem order_bounds (some : 0 < r.denominator) (positive : 0 < r.numerator) :
    (2 : ℚ) ^ r.order ≤ r.value ∧ r.value < 2 ^ (r.order + 1) := by
  obtain ⟨least, most⟩ := value_bounds 2 some (by decide)
    ⟨Nat.log2_self_le positive.ne', Nat.lt_log2_self⟩ ⟨Nat.log2_self_le some.ne', Nat.lt_log2_self⟩
  exact leading_bounds some (by decide) least most

theorem order_eq {k : Int} (some : 0 < r.denominator) (positive : 0 < r.numerator)
    (least : (2 : ℚ) ^ k ≤ r.value) (most : r.value < 2 ^ (k + 1)) : r.order = k := by
  obtain ⟨least', most'⟩ := order_bounds some positive
  have below := (zpow_lt_zpow_iff_right₀ (by norm_num : (1 : ℚ) < 2)).1 (least.trans_lt most')
  have above := (zpow_lt_zpow_iff_right₀ (by norm_num : (1 : ℚ) < 2)).1 (least'.trans_lt most)
  omega

end Ratio

open Ratio

variable {r s : Ratio} {negative : Bool} {m : Nat} {q : Int}

/-- Rounding depends on the value alone. -/
theorem ofRatio_congr (some : 0 < r.denominator) (some' : 0 < s.denominator)
    (same : r.value = s.value) : ofRatio negative r = ofRatio negative s := by
  have zero : r.numerator = 0 ↔ s.numerator = 0 := by
    rw [← value_eq_zero_iff some, ← value_eq_zero_iff some', same]
  by_cases none : r.numerator = 0
  · rw [ofRatio, ofRatio, if_pos none, if_pos (zero.1 none)]
  · obtain ⟨least, most⟩ := order_bounds some' (Nat.pos_of_ne_zero (mt zero.2 none))
    rw [← same] at least most
    have order := order_eq some (Nat.pos_of_ne_zero none) least most
    have rounded (k : Int) : (r.scaled 2 k).nearest = (s.scaled 2 k).nearest :=
      nearest_congr (denominator_scaled_pos (by decide) some k)
        (denominator_scaled_pos (by decide) some' k)
        (by rw [value_scaled (by decide), value_scaled (by decide), same])
    rw [ofRatio, ofRatio, if_neg none, if_neg (mt zero.2 none)]
    simp only [order, rounded]

/-- A ratio is nearer to a significand with its power than to half the way to the next number on
either side; the way down from a power of two is shorter. -/
structure Near (r : Ratio) (m : Nat) (q : Int) : Prop where
  half : |r.value - m * 2 ^ q| < 2 ^ q / 2
  quarter : m = hiddenBit → m * 2 ^ q - r.value < 2 ^ q / 4

structure Packs (m : Nat) (q : Int) : Prop where
  positive : 0 < m
  short : m < 2 * hiddenBit
  least : -1074 ≤ q
  full : hiddenBit ≤ m ∨ q = -1074

theorem nearest_scaled_eq {n : Nat} {k : Int} (some : 0 < r.denominator)
    (near : |r.value - n * 2 ^ k| < 2 ^ k / 2) : (r.scaled 2 (-k)).nearest = n := by
  have power : (0 : ℚ) < 2 ^ k := zpow_pos (by norm_num) k
  refine nearest_eq (denominator_scaled_pos (by decide) some _) ?_
  have moved : (r.scaled 2 (-k)).value - n = (r.value - n * 2 ^ k) / 2 ^ k := by
    rw [value_scaled (by decide), zpow_neg, Nat.cast_ofNat]
    field_simp
  rw [moved, abs_div, abs_of_pos power, div_lt_iff₀ power]
  linarith

theorem hiddenBit_mul_zpow (q : Int) : (hiddenBit : ℚ) * 2 ^ q = 2 ^ (52 + q) := by
  rw [zpow_add₀ (by norm_num)]
  norm_num

/-- Rounding to the power that the leading bit leads to. -/
theorem ofRatio_eq_pack {n : Nat} {k : Int} (some : 0 < r.numerator)
    (power : max (r.order - 52) (-1074) = k) (rounded : (r.scaled 2 (-k)).nearest = n) :
    ofRatio negative r =
      if n = 2 * hiddenBit then pack negative hiddenBit (k + 1) else pack negative n k := by
  rw [ofRatio, if_neg some.ne']
  simp only [power, rounded]

/-- Below a power of two the numbers lie twice as dense: what is near to it there is rounded up to it
from the power below. -/
theorem ofRatio_of_dense (some : 0 < r.denominator) (positive : 0 < r.numerator) (higher : -1074 < q)
    (below : r.value < hiddenBit * 2 ^ q) (quarter : hiddenBit * 2 ^ q - r.value < 2 ^ q / 4) :
    ofRatio negative r = pack negative hiddenBit q := by
  have power : (0 : ℚ) < 2 ^ q := zpow_pos (by norm_num) q
  have top := hiddenBit_mul_zpow q
  have half : (2 : ℚ) ^ (q - 1) = 2 ^ q / 2 := zpow_sub_one₀ (by norm_num) q
  have order : r.order = 51 + q := by
    refine order_eq some positive ?_ ?_
    · rw [show (51 : Int) + q = 52 + (q - 1) by omega, ← hiddenBit_mul_zpow, half]
      linarith
    · rwa [show (51 : Int) + q + 1 = 52 + q by omega, ← top]
  have twice : ((2 * hiddenBit : Nat) : ℚ) * (2 ^ q / 2) = hiddenBit * 2 ^ q := by
    rw [Nat.cast_mul, Nat.cast_ofNat]
    ring
  have near : |r.value - (2 * hiddenBit : Nat) * 2 ^ (q - 1)| < 2 ^ (q - 1) / 2 := by
    rw [half, twice, abs_lt]
    exact ⟨by linarith, (sub_neg.2 below).trans (by positivity)⟩
  rw [ofRatio_eq_pack positive (by omega) (nearest_scaled_eq some near), if_pos rfl,
    Int.sub_add_cancel]

/-- What is near to a significand with its power is rounded to it. -/
theorem ofRatio_of_near (some : 0 < r.denominator) (packs : Packs m q) (near : Near r m q) :
    ofRatio negative r = pack negative m q := by
  obtain ⟨below, above⟩ := abs_lt.1 near.half
  have power : (0 : ℚ) < 2 ^ q := zpow_pos (by norm_num) q
  have one : (1 : ℚ) * 2 ^ q ≤ m * 2 ^ q :=
    mul_le_mul_of_nonneg_right (by exact_mod_cast packs.positive) power.le
  have positive : 0 < r.numerator := by
    refine Nat.pos_of_ne_zero fun zero => ?_
    rw [(value_eq_zero_iff some).2 zero] at below
    linarith
  obtain ⟨least, most⟩ := order_bounds some positive
  have top := hiddenBit_mul_zpow q
  have short : ((m : ℚ) + 1) * 2 ^ q ≤ (2 * hiddenBit) * 2 ^ q :=
    mul_le_mul_of_nonneg_right (by exact_mod_cast packs.short) power.le
  have exact : max (r.order - 52) (-1074) = q → ofRatio negative r = pack negative m q :=
    fun same => (ofRatio_eq_pack positive same (nearest_scaled_eq some near.half)).trans
      (if_neg packs.short.ne)
  -- Below a power of two the numbers lie twice as dense, but for the lowest one.
  rcases lt_or_ge r.value (hiddenBit * 2 ^ q) with less | more
  · have order : r.order < 52 + q :=
      (zpow_lt_zpow_iff_right₀ (by norm_num : (1 : ℚ) < 2)).1 (least.trans_lt (top ▸ less))
    by_cases lowest : q = -1074
    · exact exact (by omega)
    · have full : hiddenBit ≤ m := packs.full.resolve_right lowest
      have full' : (m : ℚ) < hiddenBit + 1 := by
        refine lt_of_mul_lt_mul_right ?_ power.le
        linarith
      have bit : m = hiddenBit := by
        norm_cast at full'
        omega
      subst bit
      have higher := packs.least
      exact ofRatio_of_dense some positive (by omega) less (near.quarter rfl)
  · refine exact ?_
    have order : r.order = 52 + q := by
      refine order_eq some positive (top ▸ more) ?_
      rw [show (52 : Int) + q + 1 = 52 + (q + 1) by omega, ← hiddenBit_mul_zpow,
        zpow_add_one₀ (by norm_num)]
      linarith
    have lowest := packs.least
    omega

section Magnitude

variable {e : Fin 2047} {f : Fin hiddenBit}

theorem significand_lt (e : Fin 2047) (f : Fin hiddenBit) : significand e f < 2 * hiddenBit := by
  unfold significand
  split_ifs <;> omega

theorem packs_magnitude (some : significand e f ≠ 0) : Packs (significand e f) (quantum e) where
  positive := Nat.pos_of_ne_zero some
  short := significand_lt e f
  least := by
    unfold quantum
    omega
  full := by
    unfold significand quantum
    split_ifs with zero <;> omega

theorem pack_magnitude : pack negative (significand e f) (quantum e) = .finite negative e f := by
  by_cases zero : e.val = 0
  · have whole : significand e f = f.val := if_pos zero
    have none : (0 : Fin 2047) = e := Fin.ext zero.symm
    rw [whole, pack, dif_pos f.isLt, none]
  · have whole : significand e f = hiddenBit + f.val := if_neg zero
    have biased : (quantum e + 1075).toNat = e.val := by
      unfold quantum
      omega
    have short : (hiddenBit + f.val - hiddenBit) % hiddenBit = f.val := by
      rw [Nat.add_sub_cancel_left, Nat.mod_eq_of_lt f.isLt]
    rw [whole, pack, dif_neg (by omega)]
    simp only [biased, e.isLt, dif_pos, short]

theorem value_magnitude (e : Fin 2047) (f : Fin hiddenBit) :
    (magnitude e f).value = significand e f * 2 ^ quantum e := by
  rw [← Nat.cast_ofNat (R := ℚ) (n := 2), ← pow_toNat_div_pow_toNat (by decide), value, magnitude]
  simp only [Nat.pow_eq, Nat.cast_mul, Nat.cast_pow]
  exact mul_div_assoc _ _ _

theorem denominator_magnitude_pos (e : Fin 2047) (f : Fin hiddenBit) :
    0 < (magnitude e f).denominator :=
  Nat.pow_pos (by decide)

theorem ofRatio_of_near_magnitude (some : 0 < r.denominator) (nonzero : significand e f ≠ 0)
    (near : Near r (significand e f) (quantum e)) : ofRatio negative r = .finite negative e f :=
  (ofRatio_of_near some (packs_magnitude nonzero) near).trans pack_magnitude

theorem ofRatio_magnitude (nonzero : significand e f ≠ 0) :
    ofRatio negative (magnitude e f) = .finite negative e f := by
  have power : (0 : ℚ) < 2 ^ quantum e := zpow_pos (by norm_num) _
  refine ofRatio_of_near_magnitude (denominator_magnitude_pos e f) nonzero ⟨?_, fun _ => ?_⟩
  · rw [value_magnitude, sub_self, abs_zero]
    positivity
  · rw [value_magnitude, sub_self]
    positivity

end Magnitude

end TableScan.Binary64
