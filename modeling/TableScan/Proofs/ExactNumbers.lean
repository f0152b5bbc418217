import TableScan.Proofs.DecimalValue
import TableScan.Proofs.Encoding
import TableScan.Proofs.MappingKeys
import TableScan.Proofs.NumeralGrammar

/-! Numbers in the store. Main statement: a number is written as it is or refused, never rounded; its
text denotes it with sign, coefficient and exponent, and is read as the number; and no text but a
numeral is read as a number, which is then the one that the numeral denotes. -/

namespace TableScan

open Attempt Coercion Outcome Text Value AttributeValue

namespace Decimal

variable {c : Nat} {e : Int} {d : Decimal}

/-- At most 38 digits, the last counting 10^-165 or more and the first 10^126 or less; of zero only
the exponent matters. -/
def Fits (c : Nat) (e : Int) : Prop :=
  if c = 0 then -165 ≤ e ∧ e ≤ 126
  else (numeral c).length ≤ 38 ∧ -165 ≤ e ∧ e + (numeral c).length - 1 ≤ 126

theorem underflowConditions_ne_nil (count c : Nat) : underflowConditions count c ≠ [] := by
  unfold underflowConditions
  split_ifs <;> exact List.cons_ne_nil _ _

theorem roundingConditions_ne_nil (count c : Nat) (e : Int) : roundingConditions count c e ≠ [] := by
  unfold roundingConditions
  split_ifs <;> exact List.cons_ne_nil _ _

/-- Bringing a number into the format raises nothing just if it fits. -/
theorem conditions_eq_nil_iff : conditions c e = [] ↔ Fits c e := by
  have positive := length_numeral_pos c
  by_cases zero : c = 0
  · have allowed : (if -165 ≤ e ∧ e ≤ 126 then ([] : List Condition) else [.clamped]) = [] ↔
        -165 ≤ e ∧ e ≤ 126 := by
      by_cases within : -165 ≤ e ∧ e ≤ 126 <;> simp [within]
    simpa [conditions, Fits, zero, leastExponent, leastLeading, precision, greatestLeading]
  · rw [conditions, Fits, if_neg zero, if_neg zero]
    simp only [adjusted, digitCount_eq_length, precision, leastExponent, leastLeading,
      greatestLeading]
    split_ifs with above below long
    · simp only [false_iff]
      omega
    · simp only [underflowConditions_ne_nil, false_iff]
      omega
    · simp only [roundingConditions_ne_nil, false_iff]
      omega
    · simp only [true_iff]
      omega

theorem fits_natAbs_iff {n : Int} : Fits n.natAbs 0 ↔ n.natAbs < 10 ^ 38 := by
  have short : (numeral n.natAbs).length ≤ 38 ↔ n.natAbs < 10 ^ 38 := by
    rw [numeral_eq_toDigits]
    exact Nat.length_toDigits_le_iff (by decide) (by decide)
  unfold Fits
  split_ifs with zero
  · simp [zero]
  · rw [← short]
    omega

theorem toText_ofInt (n : Int) : (ofInt n).toText = toString n := by
  cases n with
  | ofNat m =>
    have plain : (ofInt (.ofNat m)).toChars = numeral m := by
      simp [ofInt, toChars, signText, finiteText]
    rw [toText, plain]
    exact String.ofList_toList
  | negSucc m =>
    have plain : (ofInt (.negSucc m)).toChars = '-' :: numeral (m + 1) := by
      simp [ofInt, toChars, signText, finiteText, Int.negSucc_lt_zero, Int.natAbs_negSucc]
    rw [toText, plain, numeral, String.ofList_cons, String.ofList_toList]
    rfl

theorem numberText_of_fits (negative : Bool) (fits : Fits c e) :
    numberText (.finite negative c e) = .ok (toText (.finite negative c e)) := by
  rw [← conditions_eq_nil_iff] at fits
  simp [numberText, inFormat, fits]

theorem numberText_of_not_fits (negative : Bool) (fits : ¬Fits c e) :
    numberText (.finite negative c e) = .error (.outOfFormat (conditions c e)) := by
  rw [← conditions_eq_nil_iff] at fits
  simp [numberText, inFormat, fits]

end Decimal

open Decimal

namespace Value

variable {t : String} {x : Value}

/-- What a number's text is stored as is no finite number but the one that it denotes. -/
theorem denotes_of_storedNumber (stored : storedNumber (.text t) = .ok x) :
    ∃ d, x = .decimal d ∧ (d.isFinite = true → Denotes t d) := by
  have denoted : denotedNumber (.text t) = .ok (readNumberText t) := rfl
  rw [storedNumber, denoted, ok_bind] at stored
  cases read : readNumberText t with
  | finite negative c e =>
    rw [read, inFormat] at stored
    split_ifs at stored
    cases stored
    refine ⟨_, rfl, fun finite => ?_⟩
    rw [← read] at finite ⊢
    exact denotes_of_readNumberText finite
  | infinity negative =>
    rw [read] at stored
    cases stored
    exact ⟨_, rfl, fun finite => by cases finite⟩
  | nan negative signaling payload =>
    rw [read] at stored
    cases stored
    refine ⟨_, rfl, fun finite => ?_⟩
    simp only [trimPayload] at finite
    split_ifs at finite <;> cases finite

end Value

namespace Coercion

variable {v x : Value} {n : Int} {d : Decimal}

theorem gives_toInt_of_int? (integral : v.int? = some n) : (toInt v).Gives (.int n) := by
  unfold Value.int? at integral
  split at integral <;> cases integral
  all_goals exact gives_accept.2 rfl

theorem exists_of_gives_toInt_decimal (given : (toInt (.decimal d)).Gives x) :
    ∃ n : Int, x = .int n ∧ d.isFinite = true ∧ (n : ℚ) = d.rational := by
  cases d with
  | infinity _ | nan _ _ _ => exact absurd given not_gives_reject
  | finite negative c e =>
    rw [toInt, intOfDecimal] at given
    cases whole : wholePart? c e with
    | none =>
      rw [whole] at given
      exact absurd given not_gives_reject
    | some n =>
      rw [whole] at given
      refine ⟨_, (gives_accept.1 given).symm, rfl, ?_⟩
      have size := magnitude_of_wholePart? whole
      cases negative <;> simp [rational, size]

theorem eq_of_gives_toDecimal_decimal (given : (toDecimal (.decimal d)).Gives x) :
    x = .decimal d ∧ d.isFinite = true := by
  rw [toDecimal, finiteDecimal] at given
  split at given
  · next finite => exact ⟨(gives_accept.1 given).symm, finite⟩
  · exact absurd given not_gives_reject

end Coercion

namespace Attribute

variable {a : Attribute} {element : Bool} {v w : Value} {d : Decimal} {t : String}

theorem encode_of_validate (fits : validate (a.operandType element) v = .ok w) :
    a.encode element v =
      (AttributeValue.ofValue w).mapError (encodingFailure a.name) := by
  unfold encode
  rw [operandType] at fits
  simp only [fits]
  cases AttributeValue.ofValue w <;> rfl

theorem exists_of_encode {encoded : AttributeValue} (written : a.encode element v = .ok encoded) :
    ∃ x raw, validate (a.operandType element) v = .ok x ∧ unsorted x = .ok raw ∧
      encoded = raw.sorted := by
  cases fits : validate (a.operandType element) v with
  | error rejection =>
    unfold encode at written
    rw [operandType] at fits
    rw [fits] at written
    cases rejection <;> cases written
  | ok x =>
    rw [encode_of_validate fits, AttributeValue.ofValue_eq] at written
    cases plain : unsorted x with
    | error cause =>
      rw [plain] at written
      cases written
    | ok raw =>
      rw [plain] at written
      cases written
      exact ⟨x, raw, rfl, plain, rfl⟩

theorem encode_number (fits : validate (a.operandType element) v = .ok w)
    (plain : unsorted w = (numberText d).map .number) (written : numberText d = .ok t) :
    a.encode element v = .ok (.number t) := by
  rw [encode_of_validate fits, AttributeValue.ofValue_eq, plain, written]
  rfl

theorem encode_number_refused {cause : Fault} (fits : validate (a.operandType element) v = .ok w)
    (plain : unsorted w = (numberText d).map .number) (refused : numberText d = .error cause) :
    a.encode element v = .error (.encoding a.name (.fault cause)) := by
  rw [encode_of_validate fits, AttributeValue.ofValue_eq, plain, refused]
  exact congrArg Except.error (encodingFailure_eq (reported_numberText d cause refused))

theorem decode_number (stored : storedNumber (.text t) = .ok v)
    (fits : (coerce a.type v).Gives w) : a.decode (AttributeValue.number t).toValue = .ok w :=
  decode_eq_ok stored (validate_eq_ok_iff.2 fits)

/-- A whole number of at most 38 digits is written in digits and read from them; no other is written. -/
theorem whole_exact_or_refused {n : Int} (typed : a.operandType element = .int)
    (typed' : a.type = .int) (integral : v.int? = some n) :
    (n.natAbs < 10 ^ 38 → a.encode element v = .ok (.number (toString n)) ∧
      Denotes (toString n) (.ofInt n) ∧
      a.decode (AttributeValue.number (toString n)).toValue = .ok (.int n)) ∧
    (10 ^ 38 ≤ n.natAbs → ∃ cause, a.encode element v = .error (.encoding a.name cause)) := by
  have fits : validate (a.operandType element) v = .ok (.int n) := by
    rw [typed, validate_eq_ok_iff]
    exact gives_toInt_of_int? integral
  refine ⟨fun small => ?_, fun large => ?_⟩
  · have written := numberText_of_fits (decide (n < 0)) (fits_natAbs_iff.2 small)
    have stored := (storedNumber_of_numberText rfl written).2
    rw [show Decimal.finite (decide (n < 0)) n.natAbs 0 = .ofInt n from rfl, toText_ofInt]
      at written stored
    refine ⟨encode_number fits rfl written, ?_, decode_number stored ?_⟩
    · rw [← toText_ofInt]
      exact denotes_toText rfl
    · rw [typed']
      exact gives_toInt_ofInt n
  · have beyond : ¬Fits n.natAbs 0 := fun within => by
      have small := fits_natAbs_iff.1 within
      omega
    exact ⟨_, encode_number_refused fits rfl (numberText_of_not_fits (decide (n < 0)) beyond)⟩

/-- A finite decimal number that fits is written as a text that denotes it, and read from that; no
other is written. -/
theorem decimal_exact_or_refused (typed : a.operandType element = .decimal)
    (typed' : a.type = .decimal) (negative : Bool) (c : Nat) (e : Int) :
    (Fits c e → ∃ t, a.encode element (.decimal (.finite negative c e)) = .ok (.number t) ∧
      Denotes t (.finite negative c e) ∧
      a.decode (AttributeValue.number t).toValue = .ok (.decimal (.finite negative c e))) ∧
    (¬Fits c e → ∃ cause,
      a.encode element (.decimal (.finite negative c e)) = .error (.encoding a.name cause)) := by
  have fits : validate (a.operandType element) (.decimal (.finite negative c e)) =
      .ok (.decimal (.finite negative c e)) := by
    rw [typed, validate_eq_ok_iff]
    exact gives_toDecimal rfl
  refine ⟨fun within => ?_, fun beyond => ?_⟩
  · have written := numberText_of_fits negative within
    refine ⟨_, encode_number fits rfl written, denotes_toText rfl,
      decode_number (storedNumber_of_numberText rfl written).2 ?_⟩
    rw [typed']
    exact gives_toDecimal rfl
  · exact ⟨_, encode_number_refused fits rfl (numberText_of_not_fits negative beyond)⟩

theorem exists_of_decode_whole (typed : a.type = .int)
    (decoded : a.decode (AttributeValue.number t).toValue = .ok w) :
    ∃ (n : Int) (d : Decimal), w = .int n ∧ Denotes t d ∧ (n : ℚ) = d.rational := by
  obtain ⟨v, stored, fits⟩ := decode_eq_ok_iff.1 decoded
  rw [typed, validate_eq_ok_iff] at fits
  obtain ⟨d, rfl, denoted⟩ := denotes_of_storedNumber stored
  obtain ⟨n, rfl, finite, value⟩ := exists_of_gives_toInt_decimal fits
  exact ⟨n, d, rfl, denoted finite, value⟩

theorem exists_of_decode_decimal (typed : a.type = .decimal)
    (decoded : a.decode (AttributeValue.number t).toValue = .ok w) :
    ∃ d, w = .decimal d ∧ Denotes t d := by
  obtain ⟨v, stored, fits⟩ := decode_eq_ok_iff.1 decoded
  rw [typed, validate_eq_ok_iff] at fits
  obtain ⟨d, rfl, denoted⟩ := denotes_of_storedNumber stored
  obtain ⟨rfl, finite⟩ := eq_of_gives_toDecimal_decimal fits
  exact ⟨d, rfl, denoted finite⟩

/-- Whole numbers of at most 38 digits and finite decimal numbers that fit are written as texts
that denote them, and read from these; all others are refused under the attribute's name. What is
read from a text is the number that the text denotes. -/
theorem exact_or_refused (name field : String) (element : Bool) :
    let ints : Attribute := ⟨name, field, .int⟩
    let decimals : Attribute := ⟨name, field, .decimal⟩
    (∀ v n, v.int? = some n →
      (n.natAbs < 10 ^ 38 → ints.encode element v = .ok (.number (toString n)) ∧
        Denotes (toString n) (.ofInt n) ∧
        ints.decode (AttributeValue.number (toString n)).toValue = .ok (.int n)) ∧
      (10 ^ 38 ≤ n.natAbs →
        ∃ cause, ints.encode element v = .error (.encoding name cause))) ∧
    (∀ negative c e, let d := Decimal.finite negative c e
      (Fits c e → ∃ t, decimals.encode element (.decimal d) = .ok (.number t) ∧ Denotes t d ∧
        decimals.decode (AttributeValue.number t).toValue = .ok (.decimal d)) ∧
      (¬Fits c e →
        ∃ cause, decimals.encode element (.decimal d) = .error (.encoding name cause))) ∧
    ∀ t x,
      (ints.decode (AttributeValue.number t).toValue = .ok x →
        ∃ (n : Int) (d : Decimal), x = .int n ∧ Denotes t d ∧ (n : ℚ) = d.rational) ∧
      (decimals.decode (AttributeValue.number t).toValue = .ok x →
        ∃ d, x = .decimal d ∧ Denotes t d) := by
  intro ints decimals
  have same : ints.operandType element = .int ∧ decimals.operandType element = .decimal := by
    cases element <;> exact ⟨rfl, rfl⟩
  exact ⟨fun v n => whole_exact_or_refused same.1 rfl, decimal_exact_or_refused same.2 rfl,
    fun t x => ⟨exists_of_decode_whole rfl, exists_of_decode_decimal rfl⟩⟩

end Attribute

end TableScan
