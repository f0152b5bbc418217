import Mathlib.Data.List.Nodup
import TableScan.Proofs.RoundTrip
import TableScan.Proofs.Storable

/-! The texts that stand for the keys of mappings, and what they are read as. A key comes back from
its text just if it is a text, a date, an identifier or a number within the limits of reading, or a
member of an enumeration whose value is the text by which the member is shown; bytes are read as the
longer text that shows them. -/

namespace TableScan

open Coercion Outcome Value Text

namespace Text

theorem exists_numeral_cons {n : Nat} (positive : 0 < n) :
    ∃ c cs, numeral n = c :: cs ∧ c ≠ '0' := by
  rw [numeral_eq_toDigits]
  induction n using Nat.strongRecOn with
  | _ n ih =>
    rw [Nat.toDigits_eq_if (by decide)]
    split
    · next small =>
      have digits : ∀ m < 10, 0 < m → m.digitChar ≠ '0' := by decide
      exact ⟨_, _, rfl, digits n small positive⟩
    · next large =>
      obtain ⟨c, cs, written, other⟩ := ih (n / 10) (by omega) (by omega)
      exact ⟨c, _, by rw [written]; rfl, other⟩

theorem length_le_length_flatMap {α : Type} {shown : Char → List α}
    (some : ∀ c, 0 < (shown c).length) (cs : List Char) :
    cs.length ≤ (cs.flatMap shown).length := by
  induction cs with
  | nil => exact Nat.le_refl 0
  | cons c cs ih =>
    have one := some c
    rw [List.flatMap_cons, List.length_append, List.length_cons]
    omega

theorem length_le_length_utf8 (cs : List Char) : cs.length ≤ (utf8 (String.ofList cs)).length := by
  have bytes : utf8 (String.ofList cs) = cs.flatMap String.utf8EncodeChar := by
    simp [utf8, String.toUTF8, String.toByteArray_ofList, List.utf8Encode]
  rw [bytes]
  refine length_le_length_flatMap (fun c => ?_) cs
  rw [String.length_utf8EncodeChar]
  exact c.utf8Size_pos

theorem length_escapeHex_pos (c : Char) : 0 < (escapeHex c).length := by
  unfold escapeHex
  split
  · exact Nat.zero_lt_succ _
  · split <;> exact Nat.zero_lt_succ _

theorem length_escapeChar_pos (quote c : Char) : 0 < (escapeChar quote c).length := by
  unfold escapeChar
  split_ifs <;> first | exact length_escapeHex_pos c | exact Nat.zero_lt_succ _

/-- Bytes are shown by a longer text. -/
theorem length_lt_length_quotedBytes (bs : List UInt8) : bs.length < (quotedBytes bs).length := by
  have some (quote c : Char) :
      0 < (if c.toNat < 0x7F then escapeChar quote c else escapeHex c).length := by
    split
    · exact length_escapeChar_pos quote c
    · exact length_escapeHex_pos c
  have shown := length_le_length_flatMap (some (quoteFor (bs.map fun b => Char.ofNat b.toNat)))
    (bs.map fun b => Char.ofNat b.toNat)
  rw [List.length_map] at shown
  simp only [quotedBytes, List.length_cons, List.length_append]
  omega

end Text

namespace Whole

open Text

variable {c : Char} {cs : List Char}

theorem readNumeral_unsigned (digits : ∀ x ∈ c :: cs, isAsciiDigit x = true) (other : c ≠ '0') :
    readNumeral (c :: cs) = if (c :: cs).length ≤ lengthLimit then
      .ok (Text.readNumeral (c :: cs) : Int) else .error .tooLong := by
  have whole : (c :: cs ++ []).takeWhile isAsciiDigit = c :: cs :=
    takeWhile_digits digits (by simp [EndsDigits])
  rw [List.append_nil] at whole
  have unsigned : c ≠ '-' := by
    rintro rfl
    exact absurd (digits '-' (by simp)) (by decide)
  unfold readNumeral
  split
  next negative rest sign =>
  split at sign
  · next first =>
    cases first
    exact absurd rfl unsigned
  · cases sign
    simp only [whole, Bool.false_eq_true, if_false, Nat.add_zero, Nat.lt_irrefl]
    split
    · next none => cases none
    · next zero =>
      cases zero
      exact absurd rfl other
    · simp only [← Nat.not_le, ite_not]

theorem readNumeral_negative (digits : ∀ x ∈ c :: cs, isAsciiDigit x = true) (other : c ≠ '0') :
    readNumeral ('-' :: c :: cs) = if ('-' :: c :: cs).length ≤ lengthLimit then
      .ok (-(Text.readNumeral (c :: cs) : Int)) else .error .tooLong := by
  have whole : (c :: cs ++ []).takeWhile isAsciiDigit = c :: cs :=
    takeWhile_digits digits (by simp [EndsDigits])
  rw [List.append_nil] at whole
  unfold readNumeral
  simp only [whole, if_true, Nat.lt_irrefl, if_false]
  split
  · next none => cases none
  · next zero =>
    cases zero
    exact absurd rfl other
  · simp only [← Nat.not_le, ite_not, List.length_cons]

theorem read_numeralInt (n : Int) :
    Whole.read (numeralInt n) =
      if (numeralInt n).length ≤ lengthLimit then .ok n else .error .tooLong := by
  have numeral : readNumeral (numeralInt n) =
      if (numeralInt n).length ≤ lengthLimit then .ok n else .error .tooLong := by
    by_cases zero : n = 0
    · subst zero
      decide
    · obtain ⟨c, cs, written, other⟩ := exists_numeral_cons (Int.natAbs_pos.2 zero)
      have digits : ∀ x ∈ c :: cs, isAsciiDigit x = true := fun x member =>
        isAsciiDigit_of_mem_numeral (written ▸ member)
      have value : Text.readNumeral (c :: cs) = n.natAbs := by
        rw [← written, readNumeral_numeral]
      unfold numeralInt
      split
      · next negative =>
        rw [written, readNumeral_negative digits other, value, show -(n.natAbs : Int) = n by omega]
      · next negative =>
        rw [written, readNumeral_unsigned digits other, value, show (n.natAbs : Int) = n by omega]
  rw [read, numeral]
  split_ifs <;> rfl

end Whole

inductive FieldType.OfKeys : FieldType → Prop where
  | scalar {t : FieldType} (member : t.OfSets) : OfKeys t
  | texts {e : Enumeration} (base : e.base ≠ .int)
    (values : ∀ entry ∈ e.members, ∃ s, entry.2 = .text s) (names : (e.members.map (·.1)).Nodup) :
    OfKeys (.enumeration e)

/-- The text that stands for one key is read as another. -/
inductive KeyReads : FieldType → Value → Value → Prop where
  | text (s : String) : KeyReads .text (.text s) (.text s)
  | int {n : Int} (short : (Text.numeralInt n).length ≤ Whole.lengthLimit) :
    KeyReads .int (.int n) (.int n)
  | decimal {d : Decimal} (representable : d.isRepresentable = true) :
    KeyReads .decimal (.decimal d) (.decimal d)
  | uuid (u : Uuid) : KeyReads .uuid (.uuid u) (.uuid u)
  | date (d : Date) : KeyReads .date (.date d) (.date d)
  | member {e : Enumeration} {name s other : String} :
    KeyReads (.enumeration e) (e.memberOf (name, .text s))
      (e.memberOf (other, .text s!"{e.name}.{name}"))

theorem FieldType.OfKeys.storable {t : FieldType} (key : t.OfKeys) : Storable t := by
  cases key with
  | scalar member => exact .scalar member
  | texts base values _ => exact .texts base values

theorem Outcome.Gives.unique {α : Type} {o : Outcome α} {x y : α} (one : o.Gives x)
    (other : o.Gives y) : x = y := by
  obtain ⟨_, one⟩ := one
  obtain ⟨_, other⟩ := other
  cases one.symm.trans other
  rfl

namespace Coercion

variable {e : Enumeration} {t : String} {w : Value}

theorem gives_toMember_text_iff (base : e.base ≠ .int) :
    (toMember e (.text t)).Gives w ↔
      ∃ entry, e.members.find? (fun other => same other.2 (.text t)) = some entry ∧
        e.memberOf entry = w := by
  have searched : searchMember e (.text t) = .ok (equalMember e (.text t)) := by
    unfold searchMember
    cases kind : e.base with
    | plain =>
      unfold searchPlain
      cases equalMember e (.text t) <;> rfl
    | text => rfl
    | int => exact absurd kind base
  unfold toMember
  rw [if_neg (by simp [isMemberOf]), searched]
  cases found : e.members.find? fun other => same other.2 (.text t) with
  | none =>
    have absent : equalMember e (.text t) = none := congrArg (Option.map e.memberOf) found
    simp [searchEqual, absent]
  | some entry =>
    have present : equalMember e (.text t) = some (e.memberOf entry) :=
      congrArg (Option.map e.memberOf) found
    simp [present]

end Coercion

namespace Keeps

variable {t : FieldType} {e : Enumeration} {k k' : Value}

theorem same_member_iff (base : e.base ≠ .int) (names : (e.members.map (·.1)).Nodup)
    (kept : Keeps (.enumeration e) k) (kept' : Keeps (.enumeration e) k') :
    same k k' = true ↔ k = k' := by
  cases kept with
  | intMember other _ _ => exact absurd other base
  | @textMember _ name s _ owns =>
  cases kept' with
  | intMember other _ _ => exact absurd other base
  | @textMember _ name' s' _ owns' =>
  constructor
  · intro equal
    refine congrArg e.memberOf ?_
    simp only [Enumeration.memberOf] at equal
    cases kind : e.base with
    | plain =>
      simp only [kind, same, sameScalar, BEq.rfl, Bool.true_and, beq_iff_eq] at equal
      exact List.inj_on_of_nodup_map names (List.mem_of_find?_eq_some owns)
        (List.mem_of_find?_eq_some owns') equal
    | text =>
      simp only [kind, same, sameScalar, number?, text?, Option.isSome_some, Bool.true_and,
        beq_iff_eq, Option.some.injEq] at equal
      subst equal
      exact Option.some.inj (owns.symm.trans owns')
    | int => exact absurd kind base
  · intro equal
    rw [equal]
    exact same_textMember base name' s'

theorem same_self_of_key (key : t.OfKeys) (kept : Keeps t k) : same k k = true := by
  cases key with
  | scalar member => exact kept.same_self member
  | texts base _ names => exact (same_member_iff base names kept kept).2 rfl

theorem same_comm_of_key (key : t.OfKeys) (kept : Keeps t k) (kept' : Keeps t k') :
    same k k' = same k' k := by
  cases key with
  | scalar member => exact kept.same_comm member kept'
  | texts base _ names =>
    rw [Bool.eq_iff_iff, same_member_iff base names kept kept',
      same_member_iff base names kept' kept, eq_comm]

theorem hashFault?_of_key (key : t.OfKeys) (kept : Keeps t k) : k.hashFault? = none := by
  cases key with
  | scalar member => exact kept.hashFault?_eq_none member
  | texts => cases kept <;> rfl

end Keeps

section Reading

variable {t : FieldType} {e : Enumeration} {k k' w : Value} {shown : String}

theorem display?_member (base : e.base ≠ .int) (name s : String) :
    (e.memberOf (name, .text s)).display? = some s!"{e.name}.{name}" := by
  unfold Enumeration.memberOf
  cases kind : e.base with
  | plain | text => rfl
  | int => exact absurd kind base

theorem display?_int (n : Int) : (Value.int n).display? = intText? n := rfl

theorem gives_toInt_numeral_iff {n : Int} :
    (toInt (.text (String.ofList (numeralInt n)))).Gives w ↔
      (numeralInt n).length ≤ Whole.lengthLimit ∧ w = .int n := by
  have read : toInt (.text (String.ofList (numeralInt n))) =
      intOfText (String.ofList (numeralInt n)) := rfl
  rw [read, intOfText, String.toList_ofList, Whole.read_numeralInt]
  split_ifs with short
  · simp [short, eq_comm]
  · simp [short]

theorem gives_toDecimal_toText_iff {d : Decimal} (finite : d.isFinite = true) :
    (toDecimal (.text d.toText)).Gives w ↔ d.isRepresentable = true ∧ w = .decimal d := by
  have read : toDecimal (.text d.toText) = decimalOfText d.toText := rfl
  rw [read, decimalOfText, Decimal.toText, String.toList_ofList, Decimal.ofText?_toChars finite]
  cases representable : d.isRepresentable with
  | true => simp [finiteDecimal, finite, eq_comm]
  | false => simp

theorem exists_of_gives_member (base : e.base ≠ .int)
    (values : ∀ entry ∈ e.members, ∃ s, entry.2 = .text s)
    (given : (coerce (.enumeration e) (.text shown)).Gives w) :
    (∃ name, w = e.memberOf (name, .text shown)) ∧ Keeps (.enumeration e) w := by
  obtain ⟨⟨name, value⟩, found, rfl⟩ := (gives_toMember_text_iff base).1 given
  obtain ⟨s, rfl⟩ := values _ (List.mem_of_find?_eq_some found)
  have equal := List.find?_some found
  rw [same_text, beq_iff_eq] at equal
  subst equal
  exact ⟨⟨name, rfl⟩, .textMember base found⟩

/-- A key whose text is read as what equals another key is read as that key. Bytes are not looked
at. -/
theorem keyReads_of_gives (key : t.OfKeys) (other : t ≠ .bytes) (kept : Keeps t k)
    (kept' : Keeps t k') (display : k.display? = some shown)
    (given : (coerce t (.text shown)).Gives w) (equal : same w k' = true)
    (unique : same k k' = true → k = k') : KeyReads t k k' := by
  cases key with
  | scalar member =>
    cases member with
    | bytes => exact absurd rfl other
    | text =>
      cases kept with | text s =>
      obtain rfl : s = shown := Option.some.inj display
      cases gives_accept.1 given
      rw [← unique equal]
      exact .text s
    | int =>
      cases kept with | int n =>
      rw [display?_int, intText?] at display
      split at display <;> cases display
      obtain ⟨short, rfl⟩ := gives_toInt_numeral_iff.1 given
      rw [← unique equal]
      exact .int short
    | decimal =>
      cases kept with | @decimal d finite =>
      obtain rfl : d.toText = shown := Option.some.inj display
      obtain ⟨representable, rfl⟩ := (gives_toDecimal_toText_iff finite).1 given
      rw [← unique equal]
      exact .decimal representable
    | uuid =>
      cases kept with | uuid u =>
      obtain rfl : u.toText = shown := Option.some.inj display
      change (toUuid _).Gives w at given
      obtain rfl := given.unique (gives_toUuid_toText u)
      rw [← unique equal]
      exact .uuid u
    | date =>
      cases kept with | date d =>
      obtain rfl : d.toText = shown := Option.some.inj display
      change (toDate _).Gives w at given
      obtain rfl := given.unique (gives_toDate_toText d)
      rw [← unique equal]
      exact .date d
  | @texts e base values names =>
    cases kept with
    | intMember other _ _ => exact absurd other base
    | @textMember _ name s _ owns =>
    obtain rfl := Option.some.inj ((display?_member base name s).symm.trans display)
    obtain ⟨⟨other, rfl⟩, owned⟩ := exists_of_gives_member base values given
    rw [← (owned.same_member_iff base names kept').1 equal]
    exact .member

/-- The text of a key that comes back is read as the key that it comes back as. -/
theorem KeyReads.gives (reads : KeyReads t k k') (key : t.OfKeys) (kept' : Keeps t k') :
    ∃ shown, k.display? = some shown ∧ (coerce t (.text shown)).Gives k' := by
  cases reads with
  | text s => exact ⟨s, rfl, gives_accept.2 rfl⟩
  | @int n short =>
    have within : Decimal.digitCount n.natAbs ≤ digitLimit := by
      rw [Decimal.digitCount_eq_length]
      refine Nat.le_trans ?_ short
      unfold numeralInt
      split
      · exact Nat.le_succ _
      · exact Nat.le_refl _
    refine ⟨_, by rw [display?_int, intText?, if_pos within], ?_⟩
    exact gives_toInt_numeral_iff.2 ⟨short, rfl⟩
  | @decimal d representable =>
    cases kept' with | decimal finite =>
    exact ⟨d.toText, rfl, (gives_toDecimal_toText_iff finite).2 ⟨representable, rfl⟩⟩
  | uuid u => exact ⟨_, rfl, gives_toUuid_toText u⟩
  | date d => exact ⟨_, rfl, gives_toDate_toText d⟩
  | @member e name s other =>
    cases key with
    | scalar member => cases member
    | texts base _ _ =>
    refine ⟨_, display?_member base name s, ?_⟩
    generalize target : e.memberOf (other, .text s!"{e.name}.{name}") = k' at kept'
    cases kept' with
    | intMember other _ _ => exact absurd other base
    | textMember _ owns =>
      cases target
      exact gives_toMember_text base owns

theorem KeyReads.unique {other : Value} (key : t.OfKeys) (kept : Keeps t k)
    (keptOther : Keeps t other)
    (reads : KeyReads t k k') (again : KeyReads t other k') : k = other := by
  cases reads with
  | text | int | decimal | uuid | date =>
    cases again
    rfl
  | @member e name s target =>
    cases key with
    | scalar member => cases member
    | texts base _ names =>
    generalize same : e.memberOf (target, .text s!"{e.name}.{name}") = k' at again
    cases again with | @member _ second _ _ =>
    have names' : s!"{e.name}.{name}" = s!"{e.name}.{second}" := by
      injection same with _ _ _ text
      injection text
    have equal : toString name = toString second := by
      have chars := congrArg String.toList names'
      simpa [String.toList_inj] using chars
    obtain rfl : name = second := equal
    cases kept with | textMember _ owns =>
    cases keptOther with | textMember _ owns' =>
    rw [List.inj_on_of_nodup_map names (List.mem_of_find?_eq_some owns)
      (List.mem_of_find?_eq_some owns') rfl]

theorem exists_of_gives_bytes {bs : List UInt8} (display : (Value.bytes bs).display? = some shown)
    (given : (coerce .bytes (.text shown)).Gives w) :
    ∃ longer, w = .bytes longer ∧ bs.length < longer.length := by
  obtain rfl : String.ofList (quotedBytes bs) = shown := Option.some.inj display
  obtain rfl := gives_accept.1 given
  exact ⟨_, rfl, Nat.lt_of_lt_of_le (length_lt_length_quotedBytes bs) (length_le_length_utf8 _)⟩

end Reading

end TableScan
