import TableScan.Number.Binary64.Text
import TableScan.Proofs.BinaryRounding
import TableScan.Proofs.Equality
import TableScan.Proofs.NumeralGrammar
import TableScan.Value.Equality

/-! The text of a binary number. Main statements: the text of a finite number is a numeral, whose value
is rounded to the number; and numbers whose texts denote the same number are the same. -/

namespace TableScan.Binary64

open Text Ratio

variable {r s : Ratio} {e : Fin 2047} {f : Fin hiddenBit} {negative : Bool}

/-! ## Digits that read back -/

theorem pow_digitCount_bounds {n : Nat} (positive : 0 < n) :
    10 ^ (Decimal.digitCount n - 1) ≤ n ∧ n < 10 ^ (Decimal.digitCount n - 1 + 1) := by
  rw [Decimal.digitCount_eq_length, numeral_eq_toDigits]
  have some : 0 < (Nat.toDigits 10 n).length := Nat.length_toDigits_pos
  constructor
  · rcases one : (Nat.toDigits 10 n).length - 1 with _ | k
    · exact positive
    · refine Nat.not_lt.1 fun less => ?_
      have short := (Nat.length_toDigits_le_iff (by decide) (Nat.succ_pos k)).2 less
      omega
  · rw [Nat.sub_add_cancel some]
    exact (Nat.length_toDigits_le_iff (by decide) some).1 (Nat.le_refl _)

theorem zpow_leadingExponent_le (some : 0 < r.denominator) (positive : 0 < r.numerator) :
    (10 : ℚ) ^ leadingExponent r ≤ r.value := by
  have count (n : Nat) : 0 < Decimal.digitCount n := by
    rw [Decimal.digitCount_eq_length]
    exact length_numeral_pos n
  obtain ⟨least, most⟩ := value_bounds 10 some (by decide)
    (pow_digitCount_bounds positive) (pow_digitCount_bounds some)
  have guess : ((Decimal.digitCount r.numerator - 1 : Nat) : Int) -
      (Decimal.digitCount r.denominator - 1 : Nat) =
        Decimal.digitCount r.numerator - Decimal.digitCount r.denominator := by
    have one := count r.numerator
    have other := count r.denominator
    omega
  rw [guess] at least most
  exact (leading_bounds some (by decide) least most).1

def Digits.ratio (ds : Digits) : Ratio := Ratio.scaled ⟨ds.coefficient, 1⟩ 10 ds.exponent

theorem Digits.value_ratio (ds : Digits) :
    ds.ratio.value = Decimal.magnitude ds.coefficient ds.exponent := by
  rw [ratio, value_scaled (by decide), value, Decimal.magnitude]
  simp

theorem Digits.denominator_ratio_pos (ds : Digits) : 0 < ds.ratio.denominator :=
  denominator_scaled_pos (by decide) Nat.one_pos _

theorem readsBack_of_neighbour? {k : Int} {ds : Digits} (found : neighbour? r k = some ds) :
    ofRatio false ds.ratio = ofRatio false r := by
  unfold neighbour? at found
  simp only [Bool.and_eq_true, beq_iff_eq] at found
  split_ifs at found with below above
  · cases found
    exact below.1
  · cases found
    exact above

/-- A relative error of half of 10^-16 is less than half the way to the next binary number. -/
theorem near_of_error_le
    (error : |s.value - (magnitude e f).value| ≤ (magnitude e f).value / (2 * 10 ^ 16)) :
    Near s (significand e f) (quantum e) := by
  have power : (0 : ℚ) < 2 ^ quantum e := zpow_pos (by norm_num) _
  rw [value_magnitude] at error
  refine ⟨error.trans_lt ?_, fun bit => ?_⟩
  · have short : (significand e f : ℚ) * 2 ^ quantum e ≤ 2 * 4503599627370496 * 2 ^ quantum e := by
      refine mul_le_mul_of_nonneg_right ?_ power.le
      have short : significand e f ≤ 2 * hiddenBit := (significand_lt e f).le
      exact_mod_cast short
    linarith
  · rw [abs_sub_comm] at error
    have below := (le_abs_self _).trans error
    rw [bit] at below ⊢
    rw [show ((hiddenBit : Nat) : ℚ) = 4503599627370496 from Nat.cast_ofNat] at below ⊢
    linarith

theorem readsBack_of_seventeen (nonzero : significand e f ≠ 0) {c : Nat} {k : Int}
    (leading : (10 : ℚ) ^ (k + 16) ≤ (magnitude e f).value)
    (rounded : ((magnitude e f).scaled 10 (-k)).nearest = c) :
    ofRatio false (Digits.ratio ⟨c, k⟩) = .finite false e f := by
  have some := denominator_magnitude_pos e f
  have unit : (0 : ℚ) < 10 ^ k := zpow_pos (by norm_num) k
  refine ofRatio_of_near_magnitude (Digits.denominator_ratio_pos _) nonzero (near_of_error_le ?_)
  have half := abs_value_sub_nearest_le (r := (magnitude e f).scaled 10 (-k))
    (denominator_scaled_pos (by decide) some (-k))
  rw [rounded, value_scaled (by decide), zpow_neg, Nat.cast_ofNat, abs_sub_comm] at half
  have whole : (Digits.ratio ⟨c, k⟩).value - (magnitude e f).value =
      (c - (magnitude e f).value * (10 ^ k)⁻¹) * 10 ^ k := by
    rw [Digits.value_ratio, Decimal.magnitude]
    field_simp
  rw [zpow_add₀ (by norm_num)] at leading
  rw [whole, abs_mul, abs_of_pos unit]
  have scaled := mul_le_mul_of_nonneg_right half unit.le
  norm_num at leading
  linarith

/-- The shortest digits of a binary number, from any count on, read back as the number. -/
theorem readsBack_shortestFrom (nonzero : significand e f ≠ 0) (fuel count : Nat)
    (limit : fuel + count = 17) :
    ofRatio false (shortestFrom (magnitude e f) (leadingExponent (magnitude e f)) fuel count).ratio =
      .finite false e f := by
  have some := denominator_magnitude_pos e f
  have positive : 0 < (magnitude e f).numerator :=
    Nat.mul_pos (Nat.pos_of_ne_zero nonzero) (Nat.pow_pos (by decide))
  induction fuel generalizing count with
  | zero =>
    have seventeen : count = 17 := by omega
    subst seventeen
    refine readsBack_of_seventeen nonzero ?_ ?_
    · have leading := zpow_leadingExponent_le some positive
      rwa [show leadingExponent (magnitude e f) - (17 : Nat) + 1 + 16 =
        leadingExponent (magnitude e f) by omega]
    · exact congrArg (fun k => ((magnitude e f).scaled 10 k).nearest) (by omega)
  | succ fuel ih =>
    rw [shortestFrom]
    cases found : neighbour? (magnitude e f) (leadingExponent (magnitude e f) - count + 1) with
    | none => exact ih (count + 1) (by omega)
    | some ds => exact (readsBack_of_neighbour? found).trans (ofRatio_magnitude nonzero)

theorem readsBack_shortest (nonzero : significand e f ≠ 0) :
    ofRatio false (shortest (magnitude e f)).ratio = .finite false e f :=
  readsBack_shortestFrom nonzero 16 1 rfl

/-! ## The layout of digits -/

open Decimal (Mantissa PowerPart Numeral signPart_signText)

variable {digits : List Char}

theorem powerPart_exponentText (k : Int) : PowerPart (exponentText k) k := by
  have all : ∀ c ∈ padded 2 k.natAbs, isAsciiDigit c = true := fun c => isAsciiDigit_of_mem_padded
  have some : padded 2 k.natAbs ≠ [] := by
    simp [padded, numeral_ne_nil]
  by_cases below : k < 0
  · have part := PowerPart.some (c := 'e') (.inl rfl) .minus some all
    rw [if_pos rfl, readNumeral_padded, show -(k.natAbs : Int) = k by omega] at part
    rwa [exponentText, if_pos below]
  · have part := PowerPart.some (c := 'e') (.inl rfl) .plus some all
    rw [if_neg (by decide), readNumeral_padded, show (k.natAbs : Int) = k by omega] at part
    rwa [exponentText, if_neg below]

theorem mantissa_pointed (point : Int) (all : ∀ c ∈ digits, isAsciiDigit c = true)
    (some : digits ≠ []) (within : point ≤ digits.length) :
    Mantissa (Decimal.pointed digits point) (readNumeral digits) (digits.length - point).toNat := by
  unfold Decimal.pointed
  split_ifs with inside
  · have counted : Mantissa (digits.take point.toNat ++ '.' :: digits.drop point.toNat)
        (readNumeral (digits.take point.toNat ++ digits.drop point.toNat))
        (digits.drop point.toNat).length :=
      .pointed (.inl (by simp only [ne_eq, List.take_eq_nil_iff, some, or_false]; omega))
      (fun c found => all c (List.mem_of_mem_take found))
      (fun c found => all c (List.mem_of_mem_drop found))
    rw [List.take_append_drop, List.length_drop] at counted
    rwa [show ((digits.length : Int) - point).toNat = digits.length - point.toNat by omega]
  · have zeros : ∀ c ∈ List.replicate (-point).toNat '0' ++ digits, isAsciiDigit c = true := by
      rw [List.forall_mem_append]
      refine ⟨fun c zero => ?_, all⟩
      rw [List.eq_of_mem_replicate zero]
      decide
    have counted : Mantissa (['0'] ++ '.' :: (List.replicate (-point).toNat '0' ++ digits))
        (readNumeral (['0'] ++ (List.replicate (-point).toNat '0' ++ digits)))
        (List.replicate (-point).toNat '0' ++ digits).length :=
      .pointed (.inl (by decide)) (List.forall_mem_singleton.2 rfl) zeros
    have joined := readNumeral_zeros_append ((-point).toNat + 1) digits
    rw [List.replicate_succ, List.cons_append] at joined
    simp only [List.singleton_append, joined, List.length_append, List.length_replicate] at counted
    rwa [show ((digits.length : Int) - point).toNat = (-point).toNat + digits.length by omega]

/-- Digits in any layout are a numeral, whose leading digit counts the given power of ten. -/
theorem numeral_layout (negative : Bool) (leading : Int)
    (all : ∀ c ∈ digits, isAsciiDigit c = true) (some : digits ≠ []) :
    ∃ c k, Numeral (Decimal.signText negative ++ layout digits leading) (.finite negative c k) ∧
      Decimal.magnitude c k =
        Decimal.magnitude (readNumeral digits) (leading + 1 - digits.length) := by
  have signed := signPart_signText negative
  have positive := List.length_pos_iff.2 some
  unfold layout
  split_ifs with scientific single long
  · refine ⟨_, _, .mk signed (.whole some all) (powerPart_exponentText leading), ?_⟩
    exact congrArg _ (by omega)
  · refine ⟨_, _, .mk signed (mantissa_pointed 1 all some (by omega))
      (powerPart_exponentText leading), congrArg _ (by omega)⟩
  · generalize count : (leading + 1 - (digits.length : Int)).toNat = n
    have front : ∀ c ∈ digits ++ List.replicate n '0', isAsciiDigit c = true := by
      rw [List.forall_mem_append]
      refine ⟨all, fun c zero => ?_⟩
      rw [List.eq_of_mem_replicate zero]
      decide
    have counted : Mantissa (digits ++ List.replicate n '0' ++ '.' :: ['0'])
        (readNumeral (digits ++ List.replicate n '0' ++ ['0'])) ['0'].length :=
      .pointed (.inl (by simp [some])) front (List.forall_mem_singleton.2 rfl)
    have value : readNumeral (digits ++ List.replicate n '0' ++ ['0']) =
        readNumeral digits * 10 ^ (n + 1) := by
      rw [List.append_assoc, ← List.replicate_succ', readNumeral, Nat.ofDigitChars_append,
        Nat.ofDigitChars_replicate_zero, Nat.mul_comm]
      rfl
    have numeral := Numeral.mk signed counted .none
    rw [List.append_nil] at numeral
    refine ⟨_, _, numeral, ?_⟩
    rw [value, Decimal.magnitude_mul_pow, List.length_singleton]
    exact congrArg _ (by omega)
  · have counted := mantissa_pointed (leading + 1) all some (by omega)
    have numeral := Numeral.mk signed counted .none
    rw [List.append_nil] at numeral
    exact ⟨_, _, numeral, congrArg _ (by omega)⟩

theorem exists_zeros_stripZeros (digits : List Char) :
    ∃ n, digits = stripZeros digits ++ List.replicate n '0' := by
  refine ⟨(digits.reverse.takeWhile (· == '0')).length, ?_⟩
  have zeros : digits.reverse.takeWhile (· == '0') =
      List.replicate (digits.reverse.takeWhile (· == '0')).length '0' :=
    List.eq_replicate_of_mem fun c found => by
      simpa using List.all_eq_true.1 List.all_takeWhile c found
  rw [← List.reverse_inj, stripZeros, List.reverse_append, List.reverse_reverse,
    List.reverse_replicate, ← zeros, List.takeWhile_append_dropWhile]

/-- The digits of a positive number without the zeros at their end. -/
theorem stripZeros_numeral {c : Nat} (positive : 0 < c) :
    (∀ x ∈ stripZeros (numeral c), isAsciiDigit x = true) ∧ stripZeros (numeral c) ≠ [] ∧
      ∃ n, c = readNumeral (stripZeros (numeral c)) * 10 ^ n ∧
        Decimal.digitCount c = (stripZeros (numeral c)).length + n := by
  obtain ⟨n, split⟩ := exists_zeros_stripZeros (numeral c)
  generalize stripZeros (numeral c) = kept at split ⊢
  have value : c = readNumeral kept * 10 ^ n := by
    rw [← readNumeral_numeral c, split, readNumeral, Nat.ofDigitChars_append,
      Nat.ofDigitChars_replicate_zero, Nat.mul_comm]
    rfl
  refine ⟨fun x found => isAsciiDigit_of_mem_numeral (n := c) ?_, ?_, n, value, ?_⟩
  · rw [split]
    exact List.mem_append_left _ found
  · rintro rfl
    rw [value] at positive
    exact absurd positive (by simp [readNumeral])
  · rw [Decimal.digitCount_eq_length, split, List.length_append, List.length_replicate]

/-! ## The decimal number of a binary one -/

theorem eq_zero_of_significand (zero : significand e f = 0) : e = 0 ∧ f = 0 := by
  unfold significand at zero
  split_ifs at zero with lowest
  · exact ⟨Fin.ext lowest, Fin.ext zero⟩
  · omega

theorem ofRatio_zero (none : r.numerator = 0) : ofRatio negative r = .finite negative 0 0 := by
  rw [ofRatio, if_pos none]

theorem significand_eq_zero_of_ofRatio (none : r.numerator = 0)
    (rounded : ofRatio false r = .finite false e f) : significand e f = 0 := by
  rw [ofRatio_zero none] at rounded
  cases rounded
  rfl

/-- The text of a finite number is a numeral of its sign, of zero just if the number is zero; and what
has the value of that numeral is rounded to the number. -/
theorem exists_numeral (negative : Bool) (e : Fin 2047) (f : Fin hiddenBit) :
    ∃ c k, Numeral (finite negative e f).toChars (.finite negative c k) ∧
      (c = 0 ↔ significand e f = 0) ∧
      ∀ r : Ratio, 0 < r.denominator → r.value = Decimal.magnitude c k →
        ofRatio false r = .finite false e f := by
  by_cases zero : significand e f = 0
  · obtain ⟨rfl, rfl⟩ := eq_zero_of_significand zero
    refine ⟨0, -1, ?_, iff_of_true rfl zero, fun r some equal => ofRatio_zero ?_⟩
    · rw [toChars, if_pos zero]
      have counted : Mantissa (['0'] ++ '.' :: ['0']) (readNumeral (['0'] ++ ['0'])) ['0'].length :=
        .pointed (.inl (by decide)) (List.forall_mem_singleton.2 rfl) (List.forall_mem_singleton.2 rfl)
      exact .mk (signPart_signText negative) counted .none
    · exact (value_eq_zero_iff some).1 (equal.trans (Decimal.magnitude_eq_zero_iff.2 rfl))
  · have back := readsBack_shortest zero
    rw [toChars, if_neg zero]
    generalize shortest (magnitude e f) = found at back
    have positive : 0 < found.coefficient := by
      refine Nat.pos_of_ne_zero fun none => zero (significand_eq_zero_of_ofRatio ?_ back)
      rw [Digits.ratio, scaled, none, Nat.zero_mul]
    obtain ⟨all, some, n, value, count⟩ := stripZeros_numeral positive
    obtain ⟨c, k, numeral, same⟩ := numeral_layout negative
      (found.exponent + Decimal.digitCount found.coefficient - 1) all some
    have whole : Decimal.magnitude c k = found.ratio.value := by
      rw [same, Digits.value_ratio, value, Decimal.magnitude_mul_pow, ← value, count]
      exact congrArg _ (by omega)
    refine ⟨c, k, numeral, ?_, fun r some equal => ?_⟩
    · rw [Digits.value_ratio] at whole
      rw [← Decimal.magnitude_eq_zero_iff (e := k), whole, Decimal.magnitude_eq_zero_iff]
      exact iff_of_false positive.ne' zero
    · rw [ofRatio_congr some found.denominator_ratio_pos (equal.trans whole), back]

theorem exists_toDecimal (negative : Bool) (e : Fin 2047) (f : Fin hiddenBit) :
    ∃ c k, (finite negative e f).toDecimal = .finite negative c k ∧
      (c = 0 ↔ significand e f = 0) ∧
      ∀ r : Ratio, 0 < r.denominator → r.value = Decimal.magnitude c k →
        ofRatio false r = .finite false e f := by
  obtain ⟨c, k, numeral, rest⟩ := exists_numeral negative e f
  refine ⟨c, k, ?_, rest⟩
  rw [toDecimal, (Decimal.read?_eq_some_iff rfl).2 numeral, Option.getD_some]

theorem exists_of_isFinite {x : Binary64} (special : x.isFinite = true) :
    ∃ negative e f, x = finite negative e f := by
  cases x with
  | finite negative e f => exact ⟨negative, e, f, rfl⟩
  | infinity _ | nan => cases special

theorem isFinite_toDecimal (x : Binary64) : x.toDecimal.isFinite = x.isFinite := by
  cases x with
  | infinity negative => cases negative <;> rfl
  | nan => rfl
  | finite negative e f =>
    obtain ⟨c, k, read, -⟩ := exists_toDecimal negative e f
    rw [read]
    rfl

theorem isFinite_exactDecimal (x : Binary64) : x.exactDecimal.isFinite = x.isFinite := by
  cases x with
  | infinity _ | nan => rfl
  | finite negative e f =>
    simp only [exactDecimal]
    split_ifs <;> rfl

theorem toDecimal_eq_exactDecimal {x : Binary64} (special : x.isFinite = false) :
    x.toDecimal = x.exactDecimal := by
  cases x with
  | finite _ _ _ => cases special
  | infinity negative => cases negative <;> rfl
  | nan => rfl

theorem exists_exactDecimal_zero (negative : Bool) :
    ∃ k, (finite negative 0 0).exactDecimal = .finite negative 0 k := by
  have none : significand 0 0 = 0 := rfl
  simp only [exactDecimal, none, Nat.zero_mul, Nat.zero_div]
  split_ifs <;> exact ⟨_, rfl⟩

/-- Binary numbers whose texts denote the same number are the same. -/
theorem sameNumber_exactDecimal {x y : Binary64}
    (same : x.toDecimal.sameNumber y.toDecimal = true) :
    x.exactDecimal.sameNumber y.exactDecimal = true := by
  have level := Decimal.isFinite_eq_of_sameNumber same
  rw [isFinite_toDecimal, isFinite_toDecimal] at level
  cases special : x.isFinite with
  | false =>
    rwa [← toDecimal_eq_exactDecimal special, ← toDecimal_eq_exactDecimal (level ▸ special)]
  | true =>
    obtain ⟨s, e, f, rfl⟩ := exists_of_isFinite special
    obtain ⟨s', e', f', rfl⟩ := exists_of_isFinite (level ▸ special)
    obtain ⟨c, k, read, zero, back⟩ := exists_toDecimal s e f
    obtain ⟨c', k', read', zero', back'⟩ := exists_toDecimal s' e' f'
    rw [read, read'] at same
    rcases Decimal.magnitude_eq_of_sameNumber same with ⟨none, none'⟩ | ⟨some, some', rfl, equal⟩
    · obtain ⟨rfl, rfl⟩ := eq_zero_of_significand (zero.1 none)
      obtain ⟨rfl, rfl⟩ := eq_zero_of_significand (zero'.1 none')
      obtain ⟨k, exact⟩ := exists_exactDecimal_zero s
      obtain ⟨k', exact'⟩ := exists_exactDecimal_zero s'
      rw [exact, exact']
      rfl
    · have ratio := Digits.denominator_ratio_pos ⟨c, k⟩
      have one := back _ ratio (Digits.value_ratio _)
      have other := back' _ ratio ((Digits.value_ratio _).trans equal)
      cases one.symm.trans other
      refine Decimal.sameNumber_self ?_
      rw [isFinite_exactDecimal]
      rfl

end TableScan.Binary64
