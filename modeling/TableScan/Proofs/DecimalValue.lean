import Mathlib.Algebra.Order.Field.Power
import Mathlib.Data.Rat.Cast.Order
import Mathlib.Tactic.Ring
import TableScan.Number.Decimal

/-! The rational number that a finite decimal number is. Main statement: decimal numbers that count as
the same are zero, or of one sign and magnitude. -/

namespace TableScan.Decimal

def magnitude (coefficient : Nat) (exponent : Int) : ℚ := coefficient * 10 ^ exponent

def rational : Decimal → ℚ
  | .finite negative c e => if negative then -magnitude c e else magnitude c e
  | .infinity _ | .nan .. => 0

variable {c c' n : Nat} {e e' : Int}

theorem magnitude_mul_pow (c k : Nat) (e : Int) :
    magnitude (c * 10 ^ k) e = magnitude c (e + k) := by
  simp only [magnitude, Nat.cast_mul, Nat.cast_pow, Nat.cast_ofNat]
  rw [zpow_add₀ (by norm_num), zpow_natCast]
  ring

theorem magnitude_eq_zero_iff : magnitude c e = 0 ↔ c = 0 := by
  simp [magnitude, zpow_ne_zero]

/-- The whole number that is read off a coefficient and a power of ten is their product. -/
theorem magnitude_of_wholePart? (whole : wholePart? c e = some n) : (n : ℚ) = magnitude c e := by
  unfold wholePart? at whole
  split_ifs at whole with zero up exact
  · cases whole
    simp [magnitude, zero]
  · cases whole
    obtain ⟨k, rfl⟩ := Int.eq_ofNat_of_zero_le up
    have moved := magnitude_mul_pow c k 0
    rw [Int.zero_add] at moved
    rw [← moved]
    simp [magnitude]
  · obtain ⟨k, rfl⟩ := Int.eq_negSucc_of_lt_zero (Int.not_le.1 up)
    obtain ⟨-, divides⟩ := exact
    cases whole
    have parts : c = c / 10 ^ (k + 1) * 10 ^ (k + 1) :=
      (Nat.div_mul_cancel (Nat.dvd_of_mod_eq_zero divides)).symm
    have moved := magnitude_mul_pow (c / 10 ^ (k + 1)) (k + 1) (Int.negSucc k)
    rw [← parts, show Int.negSucc k + ((k + 1 : Nat) : Int) = 0 by omega] at moved
    rw [moved]
    simp [magnitude]

/-- Numbers that count as the same are both zero, or of one sign and magnitude. -/
theorem magnitude_eq_of_sameNumber {s s' : Bool}
    (same : (finite s c e).sameNumber (finite s' c' e') = true) :
    c = 0 ∧ c' = 0 ∨ c ≠ 0 ∧ c' ≠ 0 ∧ s = s' ∧ magnitude c e = magnitude c' e' := by
  simp only [sameNumber] at same
  split_ifs at same with zero level lower
  · have both : c = c' := by simpa using same
    have none : c = 0 := zero.elim id fun other => both.trans other
    exact .inl ⟨none, both ▸ none⟩
  all_goals
    simp only [Bool.and_eq_true, beq_iff_eq] at same
    obtain ⟨some, some'⟩ := not_or.1 zero
  · exact .inr ⟨some, some', same.1, by rw [same.2, level]⟩
  · refine .inr ⟨some, some', same.1.1, ?_⟩
    have moved := magnitude_mul_pow c' (e' - e).toNat e
    rw [show e + ((e' - e).toNat : Int) = e' by omega] at moved
    rw [same.2, ← moved, Nat.pow_eq]
  · refine .inr ⟨some, some', same.1.1, ?_⟩
    have moved := magnitude_mul_pow c (e - e').toNat e'
    rw [show e' + ((e - e').toNat : Int) = e by omega] at moved
    rw [← same.2, ← moved, Nat.pow_eq]

theorem isFinite_eq_of_sameNumber {d d' : Decimal} (same : d.sameNumber d' = true) :
    d.isFinite = d'.isFinite := by
  cases d <;> cases d' <;> first | rfl | cases same

end TableScan.Decimal
