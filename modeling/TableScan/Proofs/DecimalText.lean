import TableScan.AttributeValue.Encoding
import TableScan.AttributeValue.Decoding
import TableScan.Proofs.Attempt
import TableScan.Proofs.Digits

/-! The text of a decimal number. Main statement: reading it gives the number back, with its sign, its
coefficient and its exponent. -/

namespace TableScan.Decimal

open Text

variable {whole fraction rest : List Char} {k : Int} (negative : Bool)

theorem splitSign_of_digit {c : Char} {cs : List Char} (digit : isAsciiDigit c = true) :
    splitSign (c :: cs) = (false, c :: cs) := by
  rw [splitSign.eq_def]
  split
  · next same =>
    cases same
    cases digit
  · next same =>
    cases same
    cases digit
  · rfl

theorem splitSign_signText {cs : List Char} (starts : ∃ c rest, cs = c :: rest ∧ isAsciiDigit c = true) :
    splitSign (signText negative ++ cs) = (negative, cs) := by
  cases negative with
  | true => rfl
  | false =>
    obtain ⟨c, rest, rfl, digit⟩ := starts
    exact splitSign_of_digit digit

theorem readExponent?_exponentText (k : Int) : readExponent? (exponentText k) = some k := by
  have digits : (numeral k.natAbs).all isAsciiDigit = true :=
    List.all_eq_true.2 fun c => isAsciiDigit_of_mem_numeral
  have sign : splitSign ((if k < 0 then '-' else '+') :: numeral k.natAbs) =
      (decide (k < 0), numeral k.natAbs) := by
    by_cases negative : k < 0 <;> simp [negative, splitSign]
  simp only [exponentText, readExponent?, sign, or_true, digits, ne_eq, numeral_ne_nil,
    not_false_eq_true, and_self, if_true, readNumeral_numeral, decide_eq_true_eq, Option.some.injEq]
  split <;> omega

structure Ends (rest : List Char) (k : Int) : Prop where
  stops : EndsDigits rest
  pointless : splitFraction rest = ([], rest)
  exponent : readExponent? rest = some k

theorem ends_nil : Ends [] 0 where
  stops := by
    intro _ given
    cases given
  pointless := rfl
  exponent := rfl

theorem ends_exponentText (k : Int) : Ends (exponentText k) k where
  stops := by
    intro _ given
    cases given
    decide
  pointless := rfl
  exponent := readExponent?_exponentText k

theorem readFinite?_whole (ends : Ends rest k) (digits : ∀ c ∈ whole, isAsciiDigit c = true)
    (nonempty : whole ≠ []) :
    readFinite? negative (whole ++ rest) = some (.finite negative (readNumeral whole) k) := by
  simp [readFinite?, takeWhile_digits digits ends.stops, dropWhile_digits digits ends.stops,
    ends.pointless, nonempty, ends.exponent]

theorem readFinite?_pointed (ends : Ends rest k) (digits : ∀ c ∈ whole, isAsciiDigit c = true)
    (nonempty : whole ≠ []) (more : ∀ c ∈ fraction, isAsciiDigit c = true) :
    readFinite? negative (whole ++ '.' :: (fraction ++ rest)) =
      some (.finite negative (readNumeral (whole ++ fraction)) (k - fraction.length)) := by
  have point : EndsDigits ('.' :: (fraction ++ rest)) := by
    intro _ given
    cases given
    decide
  have parts : splitFraction ('.' :: (fraction ++ rest)) = (fraction, rest) :=
    Prod.ext (takeWhile_digits more ends.stops) (dropWhile_digits more ends.stops)
  simp [readFinite?, takeWhile_digits digits point, dropWhile_digits digits point, parts, nonempty,
    ends.exponent]

theorem readFinite?_pointed_append {ds : List Char} {point : Int} (ends : Ends rest k)
    (digits : ∀ c ∈ ds, isAsciiDigit c = true) (nonempty : ds ≠ []) (within : point ≤ ds.length) :
    readFinite? negative (pointed ds point ++ rest) =
      some (.finite negative (readNumeral ds) (k - (ds.length - point))) := by
  unfold pointed
  split
  · next inside =>
    have begun : ds.take point.toNat ≠ [] := by
      simp only [ne_eq, List.take_eq_nil_iff, nonempty, or_false]
      omega
    have front : ∀ c ∈ ds.take point.toNat, isAsciiDigit c = true :=
      fun c member => digits c (List.mem_of_mem_take member)
    have back : ∀ c ∈ ds.drop point.toNat, isAsciiDigit c = true :=
      fun c member => digits c (List.mem_of_mem_drop member)
    have read := readFinite?_pointed negative ends front begun back
    rw [List.take_append_drop, List.length_drop] at read
    rw [List.append_assoc, List.cons_append, read]
    congr
    omega
  · next before =>
    have zeros : ∀ c ∈ List.replicate (-point).toNat '0' ++ ds, isAsciiDigit c = true := by
      intro c member
      rcases List.mem_append.1 member with zero | later
      · rw [List.eq_of_mem_replicate zero]
        decide
      · exact digits c later
    have zero : ∀ c ∈ ['0'], isAsciiDigit c = true := List.forall_mem_singleton.2 rfl
    have read := readFinite?_pointed negative ends zero (by decide) zeros
    have joined : readNumeral (['0'] ++ (List.replicate (-point).toNat '0' ++ ds)) =
        readNumeral ds := by
      rw [← List.append_assoc]
      exact readNumeral_zeros_append ((-point).toNat + 1) ds
    rw [joined, List.length_append, List.length_replicate, List.singleton_append] at read
    simp only [List.cons_append, List.append_assoc] at read ⊢
    rw [read]
    congr
    omega

/-- The text of a finite number without its sign, in each of its forms. -/
theorem readFinite?_finiteText (c : Nat) (e : Int) :
    readFinite? negative (finiteText c e) = some (.finite negative c e) := by
  have digits : ∀ x ∈ numeral c, isAsciiDigit x = true := fun x => isAsciiDigit_of_mem_numeral
  have positive := length_numeral_pos c
  have nonempty : numeral c ≠ [] := List.length_pos_iff.1 positive
  have value := readNumeral_numeral c
  simp only [finiteText]
  split
  · next zero =>
    have read := readFinite?_whole negative ends_nil digits nonempty
    rw [List.append_nil] at read
    rw [read, value, zero]
  · split
    · next plain =>
      have within : e + (numeral c).length ≤ (numeral c).length := by omega
      have read := readFinite?_pointed_append negative ends_nil digits nonempty within
      rw [List.append_nil] at read
      rw [read, value]
      congr
      omega
    · split
      · next single =>
        rw [readFinite?_whole negative (ends_exponentText _) digits nonempty, value, single]
        congr
        omega
      · next several =>
        rw [readFinite?_pointed_append negative (ends_exponentText _) digits nonempty (by omega), value]
        congr
        omega

theorem finiteText_starts (c : Nat) (e : Int) :
    ∃ x rest, finiteText c e = x :: rest ∧ isAsciiDigit x = true := by
  have digits : ∀ x ∈ numeral c, isAsciiDigit x = true := fun x => isAsciiDigit_of_mem_numeral
  simp only [finiteText, pointed]
  obtain ⟨d, ds, written⟩ := List.exists_cons_of_ne_nil (numeral_ne_nil c)
  rw [written] at digits ⊢
  have digit := digits d (by simp)
  split
  · exact ⟨d, ds, rfl, digit⟩
  · split
    · split
      · next inside =>
        obtain ⟨k, count⟩ : ∃ k, (e + ((d :: ds).length : Nat)).toNat = k + 1 :=
          ⟨_, (Nat.succ_pred_eq_of_pos (by omega)).symm⟩
        rw [count]
        exact ⟨d, _, rfl, digit⟩
      · exact ⟨'0', _, rfl, by decide⟩
    · split
      · exact ⟨d, _, rfl, digit⟩
      · exact ⟨d, _, rfl, digit⟩

theorem read?_toChars {d : Decimal} (finite : d.isFinite = true) : read? d.toChars = some d := by
  cases d with
  | finite negative c e =>
    rw [read?, toChars, splitSign_signText negative (finiteText_starts c e)]
    simp only [readFinite?_finiteText, Option.orElse]
  | infinity _ | nan _ _ _ => cases finite

theorem toNat_lt_of_isAsciiDigit {x : Char} (digit : isAsciiDigit x = true) : x.toNat < 128 := by
  simp only [isAsciiDigit, Bool.and_eq_true, decide_eq_true_eq] at digit
  omega

theorem isBlank_of_isAsciiDigit {x : Char} (digit : isAsciiDigit x = true) : isBlank x = false := by
  simp only [isAsciiDigit, Bool.and_eq_true, decide_eq_true_eq] at digit
  simp only [isBlank, isWhiteSpace, Bool.or_eq_false_iff, Bool.and_eq_false_iff, beq_eq_false_iff_ne,
    decide_eq_false_iff_not]
  omega

def IsNumeric (x : Char) : Prop := isAsciiDigit x = true ∨ x ∈ ['-', '+', '.', 'E']

theorem isNumeric_toChars {d : Decimal} (finite : d.isFinite = true) : ∀ x ∈ d.toChars, IsNumeric x := by
  have numerals (n : Nat) : ∀ x ∈ numeral n, IsNumeric x := fun x member =>
    .inl (isAsciiDigit_of_mem_numeral member)
  have marks : ∀ x ∈ ['-', '+', '.', 'E'], IsNumeric x := fun x member => .inr member
  have exponents (k : Int) : ∀ x ∈ exponentText k, IsNumeric x := by
    simp only [exponentText, List.forall_mem_cons]
    refine ⟨marks _ (by decide), marks _ ?_, numerals _⟩
    split <;> decide
  have signs (negative : Bool) : ∀ x ∈ signText negative, IsNumeric x := by
    cases negative with
    | false => exact List.forall_mem_nil _
    | true => exact List.forall_mem_singleton.2 (marks _ (by decide))
  have points (n : Nat) (k : Int) : ∀ x ∈ pointed (numeral n) k, IsNumeric x := by
    unfold pointed
    split
    · simp only [List.forall_mem_append, List.forall_mem_cons]
      exact ⟨fun x member => numerals n x (List.mem_of_mem_take member), marks _ (by decide),
        fun x member => numerals n x (List.mem_of_mem_drop member)⟩
    · simp only [List.forall_mem_append, List.forall_mem_cons]
      refine ⟨⟨.inl (by decide), marks _ (by decide), fun x member => ?_⟩, numerals n⟩
      rw [List.eq_of_mem_replicate member]
      exact .inl (by decide)
  cases d with
  | finite negative c e =>
    simp only [toChars, List.forall_mem_append, finiteText]
    refine ⟨signs negative, ?_⟩
    split
    · exact numerals c
    · split
      · exact points c _
      · rw [List.forall_mem_append]
        refine ⟨?_, exponents _⟩
        split
        · exact numerals c
        · exact points c 1
  | infinity _ | nan _ _ _ => cases finite

theorem ascii_toChars {d : Decimal} (finite : d.isFinite = true) : ∀ x ∈ d.toChars, x.toNat < 128 := by
  have marks : ∀ x ∈ ['-', '+', '.', 'E'], x.toNat < 128 := by simp
  exact fun x member => (isNumeric_toChars finite x member).elim toNat_lt_of_isAsciiDigit (marks x)

theorem asciiDigits_toChars {d : Decimal} (finite : d.isFinite = true) :
    asciiDigits d.toChars = d.toChars :=
  (List.map_congr_left fun x member => elim_digit?_eq_self (ascii_toChars finite x member)).trans
    (List.map_id _)

theorem readNumberText_toText {d : Decimal} (finite : d.isFinite = true) :
    Value.readNumberText d.toText = d := by
  rw [Value.readNumberText, toText, String.toList_ofList, asciiDigits_toChars finite,
    read?_toChars finite, Option.getD_some]

/-- A finite number is read in free form as well, unless it is beyond the widest range. -/
theorem ofText?_toChars {d : Decimal} (finite : d.isFinite = true) :
    ofText? d.toChars = if d.isRepresentable then some d else none := by
  have shown : ∀ x ∈ d.toChars, isBlank x = false ∧ (x != '_') = true := by
    have marks : ∀ x ∈ ['-', '+', '.', 'E'], isBlank x = false ∧ (x != '_') = true := by
      simp [isBlank, isWhiteSpace]
    refine fun x member => (isNumeric_toChars finite x member).elim (fun digit => ?_) (marks x)
    have other : x ≠ '_' := by
      rintro rfl
      exact absurd digit (by decide)
    exact ⟨isBlank_of_isAsciiDigit digit, by simpa using other⟩
  have kept : d.toChars.filter (· != '_') = d.toChars :=
    List.filter_eq_self.2 fun x member => (shown x member).2
  rw [ofText?, trimBy_eq_self fun x member => (shown x member).1, kept, asciiDigits_toChars finite,
    read?_toChars finite, Option.filter_some]

/-- What the store keeps of a finite number is the number as it is. -/
theorem storedNumber_of_numberText {d : Decimal} {s : String} (finite : d.isFinite = true)
    (written : AttributeValue.numberText d = .ok s) :
    s = d.toText ∧ Value.storedNumber (.text s) = .ok (.decimal d) := by
  cases d with
  | finite negative c e =>
    rw [AttributeValue.numberText, inFormat] at written
    split at written
    · cases written
    · next kept same =>
      split at same
      · next none =>
        cases same
        cases written
        refine ⟨rfl, ?_⟩
        have read := readNumberText_toText (d := .finite negative c e) rfl
        simp only [Value.storedNumber, Value.denotedNumber, Value.number?, Value.text?, read,
          Attempt.ok_bind, inFormat, none, if_true, Attempt.pure_eq_ok]
      · cases same
  | infinity _ | nan _ _ _ => cases finite

end TableScan.Decimal
