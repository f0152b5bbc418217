import Mathlib.Algebra.Group.Nat.Defs
import TableScan.Text.Digit

/-! What numerals and padded numerals are made of, and that reading them ends where they end. -/

namespace TableScan.Text

variable {c : Char} {digits : List Char}

theorem isAsciiDigit_of_mem_numeral {n : Nat} (member : c ∈ numeral n) : isAsciiDigit c = true := by
  rw [numeral_eq_toDigits] at member
  have digit := Nat.isDigit_of_mem_toDigits (by decide) (by decide) member
  simp only [Char.isDigit, Bool.and_eq_true, decide_eq_true_eq, UInt32.le_iff_toNat_le] at digit
  simp only [isAsciiDigit, Bool.and_eq_true, decide_eq_true_eq]
  exact digit

theorem length_numeral_pos (n : Nat) : 0 < (numeral n).length := by
  rw [numeral_eq_toDigits]
  exact Nat.length_toDigits_pos

theorem numeral_ne_nil (n : Nat) : numeral n ≠ [] := List.length_pos_iff.1 (length_numeral_pos n)

theorem isAsciiDigit_of_mem_padded {width n : Nat} (member : c ∈ padded width n) :
    isAsciiDigit c = true := by
  rcases List.mem_append.1 member with zero | later
  · rw [List.eq_of_mem_replicate zero]
    decide
  · exact isAsciiDigit_of_mem_numeral later

theorem readNumeral_zeros_append (count : Nat) (digits : List Char) :
    readNumeral (List.replicate count '0' ++ digits) = readNumeral digits := by
  rw [readNumeral, Nat.ofDigitChars_append, Nat.ofDigitChars_replicate_zero, Nat.mul_zero, readNumeral]

theorem readNumeral_padded (width n : Nat) : readNumeral (padded width n) = n := by
  rw [padded, readNumeral_zeros_append, readNumeral_numeral]

theorem length_padded {width n : Nat} (positive : 0 < width) (within : n < 10 ^ width) :
    (padded width n).length = width := by
  have short : (numeral n).length ≤ width := by
    rw [numeral_eq_toDigits]
    exact (Nat.length_toDigits_le_iff (by decide) positive).2 within
  rw [padded, List.length_append, List.length_replicate]
  omega

theorem exists_padded_two {n : Nat} (within : n < 100) :
    ∃ a b, padded 2 n = [a, b] ∧ isAsciiDigit a = true ∧ isAsciiDigit b = true ∧
      readNumeral [a, b] = n := by
  have length := length_padded (by decide : 0 < 2) within
  have digit : ∀ c ∈ padded 2 n, isAsciiDigit c = true := fun c => isAsciiDigit_of_mem_padded
  have value := readNumeral_padded 2 n
  match padded 2 n, length, digit, value with
  | [a, b], _, digit, value => exact ⟨a, b, rfl, digit a (by simp), digit b (by simp), value⟩

theorem exists_padded_four {n : Nat} (within : n < 10000) :
    ∃ a b c d, padded 4 n = [a, b, c, d] ∧
      (isAsciiDigit a = true ∧ isAsciiDigit b = true ∧ isAsciiDigit c = true ∧
        isAsciiDigit d = true) ∧ readNumeral [a, b, c, d] = n := by
  have length := length_padded (by decide : 0 < 4) within
  have digit : ∀ c ∈ padded 4 n, isAsciiDigit c = true := fun c => isAsciiDigit_of_mem_padded
  have value := readNumeral_padded 4 n
  match padded 4 n, length, digit, value with
  | [a, b, c, d], _, digit, value =>
    exact ⟨a, b, c, d, rfl, ⟨digit a (by simp), digit b (by simp), digit c (by simp),
      digit d (by simp)⟩, value⟩

def EndsDigits (cs : List Char) : Prop := ∀ c ∈ cs.head?, isAsciiDigit c = false

theorem takeWhile_digits {rest : List Char} (all : ∀ c ∈ digits, isAsciiDigit c = true)
    (ends : EndsDigits rest) : (digits ++ rest).takeWhile isAsciiDigit = digits := by
  rw [List.takeWhile_append_of_pos all]
  cases rest with
  | nil => simp
  | cons c rest => simp [ends c rfl]

theorem dropWhile_digits {rest : List Char} (all : ∀ c ∈ digits, isAsciiDigit c = true)
    (ends : EndsDigits rest) : (digits ++ rest).dropWhile isAsciiDigit = rest := by
  rw [List.dropWhile_append_of_pos all]
  cases rest with
  | nil => rfl
  | cons c rest => simp [ends c rfl]

/-- Only characters beyond ASCII have digits that stand for them. -/
theorem elim_digit?_eq_self {c : Char} (ascii : c.toNat < 128) :
    (digit? c).elim c Nat.digitChar = c := by
  unfold digit?
  split
  · next digit =>
    simp only [isAsciiDigit, Bool.and_eq_true, decide_eq_true_eq] at digit
    apply Char.toNat_inj.1
    rw [Option.elim_some, Nat.toNat_digitChar_of_lt_ten (by omega)]
    omega
  · have beyond : ∀ first ∈ digitZeros, 128 ≤ first := by decide
    have none : digitZeros.find? (fun first => first ≤ c.toNat && c.toNat < first + 10) = none := by
      rw [List.find?_eq_none]
      intro first member
      have := beyond first member
      simp only [Bool.and_eq_true, decide_eq_true_eq]
      omega
    rw [none]
    rfl

end TableScan.Text
