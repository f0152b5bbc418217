import TableScan.Proofs.BinaryText
import TableScan.Proofs.ExactNumbers
import TableScan.Proofs.Merging

/-! Numbers in the store that are not finite. Main statement: what is encoded denotes finite numbers
exactly when the operand carries no other; and an operand is refused if it carries the positive
infinity or a plain not-a-number, but not if it carries the negative infinity or a not-a-number with a
sign, a signal or a payload, whose texts the store's client takes for numbers. -/

namespace TableScan

open Attempt Coercion Text Value AttributeValue

namespace Decimal

variable {d d' : Decimal} {s : String} {negative : Bool} {c : Char} {cs : List Char}

/-- A number that is not finite and has another text than the two that are refused. -/
def Passes : Decimal → Prop
  | .finite .. => False
  | .infinity negative => negative = true
  | .nan negative signaling payload =>
    (negative = true ∨ signaling = true ∨ payload ≠ 0) ∧ (numeral payload).length ≤ 38

theorem inFormat_nan (negative signaling : Bool) (payload : Nat) :
    inFormat (.nan negative signaling payload) =
      .ok (if 38 < (numeral payload).length then .nan false false 0
        else .nan negative signaling payload) := by
  rw [← digitCount_eq_length]
  rfl

theorem numberText_of_passes (passes : d.Passes) : numberText d = .ok d.toText := by
  cases d with
  | finite _ _ _ => cases passes
  | infinity negative =>
    cases passes
    rfl
  | nan negative signaling payload =>
    obtain ⟨other, short⟩ := passes
    rw [numberText, inFormat_nan, if_neg (Nat.not_lt.2 short)]
    cases negative <;> cases signaling <;> cases payload <;> first | rfl | simp at other

theorem numberText_of_not_passes (special : d.isFinite = false) (passes : ¬d.Passes) :
    numberText d = .error .nonFinite := by
  cases d with
  | finite _ _ _ => cases special
  | infinity negative =>
    cases negative with
    | false => rfl
    | true => exact absurd rfl passes
  | nan negative signaling payload =>
    have plain : (if 38 < (numeral payload).length then .nan false false 0
        else .nan negative signaling payload) = Decimal.nan false false 0 := by
      split_ifs with long
      · rfl
      · simpa [Passes, Nat.not_lt.1 long] using passes
    rw [numberText, inFormat_nan, plain]
    rfl

theorem isFinite_of_letter (letter : c ∈ ['I', 'N', 's'])
    (read : read? (signText negative ++ c :: cs) = some d) : d.isFinite = false := by
  have other : isAsciiDigit c = false ∧ c ≠ '.' ∧ c ≠ '-' ∧ c ≠ '+' := by
    simp only [List.mem_cons, List.not_mem_nil, or_false] at letter
    rcases letter with rfl | rfl | rfl <;> decide
  obtain ⟨digit, point, unsigned⟩ := other
  have pointless : splitFraction (c :: cs) = ([], c :: cs) := by
    rw [splitFraction.eq_def]
    split
    · next same => exact absurd (List.cons.inj same).1 point
    · rfl
  have unread : readFinite? negative (c :: cs) = none := by
    simp [readFinite?, digit, pointless]
  rw [read?, splitSign_append (signPart_signText negative) ⟨c, cs, rfl, unsigned⟩] at read
  simp only [unread] at read
  exact isFinite_of_readSpecial? read

theorem exists_letter_toChars (special : d.isFinite = false) :
    ∃ negative c cs, c ∈ ['I', 'N', 's'] ∧ d.toChars = signText negative ++ c :: cs := by
  cases d with
  | finite _ _ _ => cases special
  | infinity negative => exact ⟨negative, 'I', _, by decide, rfl⟩
  | nan negative signaling payload =>
    cases signaling
    · exact ⟨negative, 'N', _, by decide, List.append_assoc _ _ _⟩
    · exact ⟨negative, 's', _, by decide, List.append_assoc _ _ _⟩

theorem not_denotes_toText (special : d.isFinite = false) : ¬Denotes d.toText d' := by
  intro denotes
  obtain ⟨negative, c, cs, letter, chars⟩ := exists_letter_toChars special
  have ascii : asciiDigits (signText negative) = signText negative := by
    cases negative <;> decide
  have kept : (digit? c).elim c Nat.digitChar = c := by
    simp only [List.mem_cons, List.not_mem_nil, or_false] at letter
    rcases letter with rfl | rfl | rfl <;> decide
  rw [Denotes, toText, String.toList_ofList, chars, asciiDigits, List.map_append, List.map_cons,
    kept] at denotes
  have read := (read?_eq_some_iff denotes.isFinite).2 denotes
  rw [asciiDigits] at ascii
  rw [ascii] at read
  exact absurd denotes.isFinite (by simp [isFinite_of_letter letter read])

/-- A number that is written denotes itself, or is not finite and denotes none. -/
theorem cases_of_numberText (written : numberText d = .ok s) :
    s = d.toText ∧ (d.isFinite = true ∧ Denotes s d ∨
      d.isFinite = false ∧ d.Passes ∧ ∀ d', ¬Denotes s d') := by
  cases special : d.isFinite with
  | true =>
    have same := (storedNumber_of_numberText special written).1
    exact ⟨same, .inl ⟨rfl, same ▸ denotes_toText special⟩⟩
  | false =>
    by_cases passes : d.Passes
    · cases (numberText_of_passes passes).symm.trans written
      exact ⟨rfl, .inr ⟨rfl, passes, fun d' => not_denotes_toText special⟩⟩
    · rw [numberText_of_not_passes special passes] at written
      cases written

end Decimal

open Decimal

namespace Value

variable {v : Value} {d : Decimal} {items : List Value} {entries : List (Value × Value)}

/-- A number in a value, other than in the key of a mapping and in what another value of the same key
replaces. -/
inductive Carries : Value → Decimal → Prop where
  | decimal (d : Decimal) : Carries (.decimal d) d
  | float (x : Binary64) : Carries (.float x) x.exactDecimal
  | member {enumeration name : String} {base : EnumBase} {v : Value} {d : Decimal}
    (inner : Carries v d) : Carries (.member enumeration base name v) d
  | item {v x : Value} {d : Decimal} {items : List Value} (source : sequenceItems? v = some items)
    (member : x ∈ items) (inner : Carries x d) : Carries v d
  | entry {entry : Value × Value} {d : Decimal} {entries : List (Value × Value)}
    (stays : Stays entries entry) (inner : Carries entry.2 d) : Carries (.map entries) d

theorem carries_member_iff {enumeration name : String} {base : EnumBase} :
    Carries (.member enumeration base name v) d ↔ Carries v d := by
  constructor
  · intro carries
    cases carries with
    | member inner => exact inner
    | item source => cases source
  · exact .member

theorem carries_map_iff :
    Carries (.map entries) d ↔ ∃ entry, Stays entries entry ∧ Carries entry.2 d := by
  constructor
  · intro carries
    cases carries with
    | entry stays inner => exact ⟨_, stays, inner⟩
    | item source => cases source
  · rintro ⟨entry, stays, inner⟩
    exact .entry stays inner

theorem carries_items_iff (source : sequenceItems? v = some items) :
    Carries v d ↔ ∃ x ∈ items, Carries x d := by
  constructor
  · intro carries
    cases carries with
    | item source' member inner =>
      cases source.symm.trans source'
      exact ⟨_, member, inner⟩
    | _ => cases source
  · rintro ⟨x, member, inner⟩
    exact .item source member inner

theorem carries_float_iff {x : Binary64} : Carries (.float x) d ↔ x.exactDecimal = d := by
  constructor
  · intro carries
    cases carries with
    | float => rfl
    | item source => cases source
  · rintro rfl
    exact .float x

theorem carries_decimal_iff {d' : Decimal} : Carries (.decimal d') d ↔ d' = d := by
  constructor
  · intro carries
    cases carries with
    | decimal => rfl
    | item source => cases source
  · rintro rfl
    exact .decimal d'

/-- A binary number that is not finite is what its text says. -/
theorem carries_float_toDecimal_iff {x : Binary64} (special : d.isFinite = false) :
    Carries (.float x) d ↔ x.toDecimal = d := by
  rw [carries_float_iff]
  cases finite : x.isFinite with
  | false => rw [Binary64.toDecimal_eq_exactDecimal finite]
  | true =>
    refine iff_of_false ?_ ?_
    · rintro rfl
      rw [Binary64.isFinite_exactDecimal, finite] at special
      cases special
    · rintro rfl
      rw [Binary64.isFinite_toDecimal, finite] at special
      cases special

/-- A member of a set carries a number that is not finite just if that is its native form. -/
theorem carries_iff_of_native (v : Value) {n : Value} (plain : v.native = .ok n)
    (hashes : n.hashFault? = none) (special : d.isFinite = false) :
    v.Carries d ↔ n = .decimal d := by
  cases v with
  | member _ _ _ v =>
    rw [carries_member_iff]
    exact carries_iff_of_native v plain hashes special
  | float x =>
    cases plain
    rw [carries_float_toDecimal_iff special, Value.decimal.injEq]
  | decimal d' =>
    cases plain
    rw [carries_decimal_iff, Value.decimal.injEq]
  | list items | tuple items | set items | frozenset items | map entries =>
    obtain ⟨_, -, same⟩ := bind_eq_ok_iff.1 plain
    cases same
    cases hashes
  | _ =>
    cases plain
    refine iff_of_false (fun carries => ?_) nofun
    cases carries with
    | item source => cases source
termination_by structural v

end Value

namespace AttributeValue

inductive Sends : AttributeValue → String → Prop where
  | number (s : String) : Sends (.number s) s
  | member {members : List String} {s : String} (found : s ∈ members) : Sends (.numberSet members) s
  | item {items : List AttributeValue} {w : AttributeValue} {s : String} (found : w ∈ items)
    (inner : Sends w s) : Sends (.list items) s
  | entry {entries : List (String × AttributeValue)} {entry : String × AttributeValue} {s : String}
    (found : entry ∈ entries) (inner : Sends entry.2 s) : Sends (.map entries) s

theorem sends_sorted_iff {w : AttributeValue} {s : String} : w.sorted.Sends s ↔ w.Sends s := by
  cases w with
  | numberSet members =>
    constructor
    · rintro ⟨⟩
      exact .member ((List.mergeSort_perm _ _).subset ‹_›)
    · rintro ⟨⟩
      exact .member ((List.mergeSort_perm _ _).symm.subset ‹_›)
  | textSet members => exact iff_of_false nofun nofun
  | _ => rfl

/-- The numbers of a value that are not finite are sent as their texts, and what is sent else denotes
a number. -/
structure Tells (v : Value) (w : AttributeValue) : Prop where
  carried : ∀ d, v.Carries d → d.isFinite = false → d.Passes ∧ w.Sends d.toText
  sent : ∀ s, w.Sends s → (∃ d, Denotes s d) ∨
    ∃ d, v.Carries d ∧ d.isFinite = false ∧ s = d.toText

variable {v : Value} {w : AttributeValue} {d : Decimal} {items : List Value}
  {entries : List (Value × Value)}

theorem tells_number (only : ∀ d', d'.isFinite = false → (v.Carries d' ↔ d = d'))
    (written : (numberText d).map .number = .ok w) : Tells v w := by
  obtain ⟨s, printed, rfl⟩ := map_eq_ok_iff.1 written
  obtain ⟨rfl, cases⟩ := cases_of_numberText printed
  refine ⟨fun d' carries special => ?_, fun s sends => ?_⟩
  · cases (only d' special).1 carries
    rcases cases with ⟨finite, -⟩ | ⟨-, passes, -⟩
    · rw [special] at finite
      cases finite
    · exact ⟨passes, .number _⟩
  · cases sends
    rcases cases with ⟨-, denotes⟩ | ⟨special, -⟩
    · exact .inl ⟨d, denotes⟩
    · exact .inr ⟨d, (only d special).2 rfl, special, rfl⟩

theorem tells_nothing (none : ∀ d, d.isFinite = false → ¬v.Carries d) (silent : ∀ s, ¬w.Sends s) :
    Tells v w :=
  ⟨fun d carries special => absurd carries (none d special),
    fun s sends => absurd sends (silent s)⟩

theorem eq_decimal_of_storedNumber? {n : Value} (number : storedNumber? n = some d)
    (special : d.isFinite = false) : n = .decimal d := by
  cases n <;> cases number
  · cases special
  · cases special
  · rfl

theorem eq_of_same_decimal {n : Value} {d' : Decimal} (number : storedNumber? n = some d')
    (equal : same n (.decimal d) = true) (special : d.isFinite = false) : d' = d := by
  have numbers : d'.sameNumber d = true := by
    cases n <;> cases number <;> exact equal
  have special' := (isFinite_eq_of_sameNumber numbers).trans special
  cases d with
  | finite _ _ _ => cases special
  | nan _ _ _ => cases d' <;> cases numbers
  | infinity negative =>
    cases d' with
    | infinity negative' => rw [beq_iff_eq.1 (show (negative' == negative) = true from numbers)]
    | finite _ _ _ | nan _ _ _ => cases numbers

theorem carries_iff_mem_natives {natives : List Value} (source : sequenceItems? v = some items)
    (each : List.Forall₂ (fun x n => x.native = .ok n ∧ n.hashFault? = none) items natives)
    (special : d.isFinite = false) : v.Carries d ↔ .decimal d ∈ natives := by
  rw [carries_items_iff source]
  constructor
  · rintro ⟨x, member, carries⟩
    obtain ⟨n, found, plain, hashes⟩ := exists_mem_of_forall₂ each.flip x member
    rwa [← (carries_iff_of_native x plain hashes special).1 carries]
  · intro found
    obtain ⟨x, member, plain, hashes⟩ := exists_mem_of_forall₂ each _ found
    exact ⟨x, member, (carries_iff_of_native x plain hashes special).2 rfl⟩

theorem tells_set (source : sequenceItems? v = some items)
    (encoded : unsorted (.set items) = .ok w) : Tells v w := by
  obtain ⟨natives, each, set⟩ := exists_natives encoded
  have carries (d : Decimal) (special : d.isFinite = false) :
      v.Carries d ↔ .decimal d ∈ natives := carries_iff_mem_natives source each special
  rcases set with ⟨written⟩ | ⟨-, texts⟩ | ⟨-, bytes⟩
  · refine ⟨fun d carried special => ?_, fun s sends => ?_⟩
    · obtain ⟨n, kept, equal⟩ := exists_mem_distinct ((carries d special).1 carried)
      obtain ⟨s, sent, d', number, printed⟩ := exists_mem_of_forall₂ written.flip n kept
      have same : d' = d := by
        rcases equal with rfl | equal
        · exact (Option.some.inj number).symm
        · exact eq_of_same_decimal number equal special
      subst same
      obtain ⟨rfl, ⟨finite, -⟩ | ⟨-, passes, -⟩⟩ := cases_of_numberText printed
      · rw [special] at finite
        cases finite
      · exact ⟨passes, .member sent⟩
    · cases sends with
      | member sent =>
        obtain ⟨n, kept, d, number, printed⟩ := exists_mem_of_forall₂ written s sent
        obtain ⟨rfl, ⟨-, denotes⟩ | ⟨special, -⟩⟩ := cases_of_numberText printed
        · exact .inl ⟨d, denotes⟩
        · cases eq_decimal_of_storedNumber? number special
          exact .inr ⟨d, (carries d special).2 ((distinct_distinct natives).2 kept), special, rfl⟩
  · refine tells_nothing (fun d special carried => ?_) fun s sends => by cases sends
    obtain ⟨n, kept, equal⟩ := exists_mem_distinct ((carries d special).1 carried)
    obtain ⟨s, -, rfl⟩ := exists_mem_of_forall₂ texts.flip n kept
    simp [same, sameScalar, number?] at equal
  · refine tells_nothing (fun d special carried => ?_) fun s sends => by cases sends
    obtain ⟨n, kept, equal⟩ := exists_mem_distinct ((carries d special).1 carried)
    obtain ⟨bs, -, rfl⟩ := exists_mem_of_forall₂ bytes.flip n kept
    simp [same, sameScalar, number?] at equal

theorem tells_list {parts : List AttributeValue} (source : sequenceItems? v = some items)
    (each : List.Forall₂ (fun x part => unsorted x = .ok part) items parts)
    (inner : ∀ x ∈ items, ∀ w, unsorted x = .ok w → Tells x w) : Tells v (.list parts) := by
  refine ⟨fun d carries special => ?_, fun s sends => ?_⟩
  · obtain ⟨x, member, carries⟩ := (carries_items_iff source).1 carries
    obtain ⟨part, found, written⟩ := exists_mem_of_forall₂ each.flip x member
    obtain ⟨passes, sends⟩ := (inner x member part written).carried d carries special
    exact ⟨passes, .item found sends⟩
  · cases sends with
    | item found sends =>
      obtain ⟨x, member, written⟩ := exists_mem_of_forall₂ each _ found
      refine ((inner x member _ written).sent s sends).imp_right fun ⟨d, carries, rest⟩ => ?_
      exact ⟨d, .item source member carries, rest⟩

theorem tells_map (written : unsorted (.map entries) = .ok w)
    (inner : ∀ entry ∈ entries, ∀ w, unsorted entry.2 = .ok w → Tells entry.2 w) :
    Tells (.map entries) w := by
  obtain ⟨parts, rfl, kept, parted⟩ := exists_stays written
  refine ⟨fun d carries special => ?_, fun s sends => ?_⟩
  · obtain ⟨entry, stays, carries⟩ := carries_map_iff.1 carries
    obtain ⟨part, found, written⟩ := kept entry stays
    obtain ⟨passes, sends⟩ := (inner entry stays.mem _ written).carried d carries special
    exact ⟨passes, .entry found sends⟩
  · cases sends with
    | entry found sends =>
      obtain ⟨entry, stays, written⟩ := parted _ found
      refine ((inner entry stays.mem _ written).sent s sends).imp_right fun ⟨d, carries, rest⟩ => ?_
      exact ⟨d, .entry stays carries, rest⟩

mutual

theorem tells_of_unsorted (v : Value) {w : AttributeValue} (written : unsorted v = .ok w) :
    Tells v w := by
  cases v with
  | member _ _ _ v =>
    have inner := tells_of_unsorted v written
    exact ⟨fun d carries => inner.carried d (carries_member_iff.1 carries), fun s sends =>
      (inner.sent s sends).imp_right fun ⟨d, carries, rest⟩ =>
        ⟨d, carries_member_iff.2 carries, rest⟩⟩
  | int n =>
    refine tells_number (d := .ofInt n) (fun d' special => iff_of_false (fun carries => ?_) ?_) written
    · cases carries with
      | item source => cases source
    · rintro rfl
      cases special
  | float x => exact tells_number (fun d' special => carries_float_toDecimal_iff special) written
  | decimal d => exact tells_number (fun d' _ => carries_decimal_iff) written
  | list items =>
    obtain ⟨parts, each, rfl⟩ := unsorted_list_iff.1 written
    exact tells_list rfl each (tells_of_mem items)
  | tuple items =>
    have listed : unsorted (.list items) = .ok w := written
    obtain ⟨parts, each, rfl⟩ := unsorted_list_iff.1 listed
    exact tells_list rfl each (tells_of_mem items)
  | set items | frozenset items =>
    have whole : unsorted (.set items) = .ok w := written
    exact tells_set rfl whole
  | map entries => exact tells_map written (tells_of_mem_entries entries)
  | time t => cases written
  | _ =>
    cases written
    refine tells_nothing (fun d _ carries => ?_) nofun
    cases carries with
    | item source => cases source
termination_by structural v

theorem tells_of_mem (items : List Value) :
    ∀ x ∈ items, ∀ w, unsorted x = .ok w → Tells x w := by
  cases items with
  | nil => simp
  | cons v items =>
    exact List.forall_mem_cons.2 ⟨fun w => tells_of_unsorted v, tells_of_mem items⟩
termination_by structural items

theorem tells_of_mem_entries (entries : List (Value × Value)) :
    ∀ entry ∈ entries, ∀ w, unsorted entry.2 = .ok w → Tells entry.2 w := by
  cases entries with
  | nil => simp
  | cons entry entries =>
    obtain ⟨k, v⟩ := entry
    exact List.forall_mem_cons.2 ⟨fun w => tells_of_unsorted v, tells_of_mem_entries entries⟩
termination_by structural entries

end

end AttributeValue

namespace Attribute

variable {a : Attribute} {element : Bool} {v x : Value}

/-- An operand that carries a number which is not finite is refused, unless the text of that number
passes for a number; and an attribute value denotes finite numbers, and no others, exactly when what
was encoded carries no others. -/
theorem encode_finite_iff (fits : validate (a.operandType element) v = .ok x) :
    (∀ d, x.Carries d → d.isFinite = false → ¬d.Passes →
      ∃ cause, a.encode element v = .error (.encoding a.name cause)) ∧
    ∀ w, a.encode element v = .ok w →
      ((∀ s, w.Sends s → ∃ d, Denotes s d) ↔ ∀ d, x.Carries d → d.isFinite = true) := by
  have encoded := encode_of_validate fits
  refine ⟨fun d carries special stopped => ?_, fun w written => ?_⟩
  · cases written : AttributeValue.ofValue x with
    | error cause =>
      rw [written] at encoded
      exact ⟨_, encoded.trans (congrArg Except.error
        (encodingFailure_eq (reported_ofValue x cause written)))⟩
    | ok w =>
      rw [AttributeValue.ofValue_eq] at written
      obtain ⟨raw, plain, -⟩ := map_eq_ok_iff.1 written
      exact absurd ((tells_of_unsorted x plain).carried d carries special).1 stopped
  · rw [encoded, AttributeValue.ofValue_eq] at written
    cases plain : unsorted x with
    | error cause =>
      rw [plain] at written
      cases written
    | ok raw =>
      rw [plain] at written
      cases written
      have tells := tells_of_unsorted x plain
      simp only [sends_sorted_iff]
      constructor
      · intro denotes d carries
        by_contra special
        obtain ⟨-, sends⟩ := tells.carried d carries (Bool.eq_false_iff.2 special)
        obtain ⟨d', denoted⟩ := denotes _ sends
        exact not_denotes_toText (Bool.eq_false_iff.2 special) denoted
      · intro finite s sends
        refine (tells.sent s sends).elim id fun ⟨d, carries, special, _⟩ => ?_
        rw [finite d carries] at special
        cases special

def score : Attribute := ⟨"score", "score", .optional .float⟩

/-- The negative infinity is sent, and the positive one refused. -/
theorem encode_finite_iff_score :
    validate (score.operandType false) (.float (.infinity true)) =
        .ok (.float (.infinity true)) ∧
      score.encode false (.float (.infinity true)) = .ok (.number "-Infinity") ∧
      (¬∀ s, (AttributeValue.number "-Infinity").Sends s → ∃ d, Denotes s d) ∧
      validate (score.operandType false) (.float (.infinity false)) =
        .ok (.float (.infinity false)) ∧
      ∃ cause, score.encode false (.float (.infinity false)) =
        .error (.encoding "score" cause) := by
  have fits : validate (score.operandType false) (.float (.infinity true)) =
      .ok (.float (.infinity true)) := rfl
  have fits' : validate (score.operandType false) (.float (.infinity false)) =
      .ok (.float (.infinity false)) := rfl
  have written : score.encode false (.float (.infinity true)) = .ok (.number "-Infinity") := rfl
  refine ⟨fits, written, fun denotes => ?_, fits', ?_⟩
  · have finite := ((encode_finite_iff fits).2 _ written).1 denotes _ (.float _)
    cases finite
  · exact (encode_finite_iff fits').1 _ (.float _) rfl nofun

/-- Not every number that is sent is finite. -/
theorem not_forall_denotes :
    ¬∀ (a : Attribute) (element : Bool) (v : Value) (w : AttributeValue),
      a.encode element v = .ok w → ∀ s, w.Sends s → ∃ d, Denotes s d := by
  intro denotes
  obtain ⟨d, denoted⟩ :=
    denotes score false (.float (.infinity true)) (.number "-Infinity") rfl _ (.number _)
  exact not_denotes_toText (d := .infinity true) rfl denoted

end Attribute

end TableScan
