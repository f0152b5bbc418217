import Mathlib.Data.List.Sort
import Mathlib.Data.String.Basic
import TableScan.Proofs.NativeText

/-! Sets of texts and numbers as operands. Main statement: the order in which the members of a set were
put into it does not matter; the set is encoded to the native texts of what its members stand for, each
greater than the one before it, or it is refused in every order. -/

namespace TableScan

open Attempt Coercion Outcome Value AttributeValue

inductive SetsOf (t : FieldType) : FieldType → Prop where
  | alone {kind : Collection} (unordered : kind.isSet = true) : SetsOf t (.collection kind t)
  | optional {kind : Collection} {ts : List FieldType} (absent : ts.any FieldType.isNull = true)
    (only : FieldType.presentAlternatives ts = [.collection kind t]) (unordered : kind.isSet = true) :
    SetsOf t (.union ts)

def IsSetOf (items : List Value) (v : Value) : Prop := v = .set items ∨ v = .frozenset items

variable {t u : FieldType} {v w : Value} {b : AttributeValue} {items ys : List Value}

namespace SetsOf

variable {kind : Collection}

theorem writes_collection_iff (unordered : kind.isSet = true) (set : IsSetOf items v) :
    Writes (.collection kind t) v b ↔
      ∃ ys, List.Forall₂ (fun x y => (coerce t x).Gives y ∧ y.hashFault? = none) items ys ∧
        unsorted (.set (distinct ys)) = .ok b := by
  have source : sequenceItems? v = some items := sequenceItems?_set set
  cases kind with
  | list | mutableSequence | sequence | tuple => cases unordered
  | set | mutableSet | frozenset | abstractSet =>
    simp only [Writes, coerce, fitCollection, gives_fromSequence, source, Option.some.injEq,
      exists_eq_left', gives_map, gives_fitMembers]
    constructor
    · rintro ⟨_, ⟨_, ⟨ys, each, rfl⟩, rfl⟩, written⟩
      exact ⟨ys, each, written⟩
    · rintro ⟨ys, each, written⟩
      exact ⟨_, ⟨_, ⟨ys, each, rfl⟩, rfl⟩, written⟩

/-- A set is fitted member by member, and what is the same as an earlier member is left out. -/
theorem writes_iff (sets : SetsOf t u) (set : IsSetOf items v) :
    Writes u v b ↔
      ∃ ys, List.Forall₂ (fun x y => (coerce t x).Gives y ∧ y.hashFault? = none) items ys ∧
        unsorted (.set (distinct ys)) = .ok b := by
  cases sets with
  | alone unordered => exact writes_collection_iff unordered set
  | optional absent only unordered =>
    have present : v ≠ .null := by
      rcases set with rfl | rfl <;> exact nofun
    rw [← writes_collection_iff unordered set]
    simp only [Writes, gives_coerce_union only absent, present, false_and, false_or, ne_eq,
      not_false_eq_true, true_and]

theorem collects (sets : SetsOf t u) (single : t.Single) : Collects t u := by
  cases sets with
  | alone unordered => exact .alone (.set unordered single)
  | optional absent only unordered => exact .optional absent only (.set unordered single)

end SetsOf

namespace IsSetOf

variable {e : Enumeration}

theorem not_gives_toMember (set : IsSetOf items v)
    (values : ∀ entry ∈ e.members, same entry.2 v = false) : ¬(toMember e v).Gives w := by
  have unknown : e.members.find? (fun entry => same entry.2 v) = none :=
    List.find?_eq_none.2 fun entry member => by simp [values entry member]
  have equal : equalMember e v = none := by rw [equalMember, Enumeration.find?, unknown]; rfl
  have searched : searchMember e v = .ok none := by
    unfold searchMember searchPlain
    rw [equal]
    rcases set with rfl | rfl <;> cases e.base <;> rfl
  have compared : searchEqual e v = .ok none := by
    unfold searchEqual
    rw [equal]
    rcases set with rfl | rfl <;> rfl
  have other : isMemberOf e v = false := by rcases set with rfl | rfl <;> rfl
  rw [toMember, other, searched, compared]
  exact not_gives_reject

theorem not_gives_single (set : IsSetOf items v) (single : t.Single) : ¬(coerce t v).Gives w := by
  cases single with
  | member member => cases member <;> rcases set with rfl | rfl <;> exact not_gives_reject
  | float | datetime => rcases set with rfl | rfl <;> exact not_gives_reject
  | texts base values | numbers base values =>
    refine not_gives_toMember set fun entry member => ?_
    obtain ⟨_, held⟩ := values entry member
    rcases set with rfl | rfl <;> rw [held] <;> rfl

end IsSetOf

/-- Different instances stay so when they are fitted, or become one value. -/
theorem mem_distinct_of_fits {others : List Value} (single : t.Single)
    (instances : ∀ x ∈ items, Instance t x) (different : Distinct items) (perm : others.Perm items)
    (each : List.Forall₂ (fun x y => (coerce t x).Gives y) others ys) : ∀ y ∈ ys, y ∈ distinct ys := by
  have settled : ∀ y ∈ ys, Lone t y ∧ (y ∈ items ∨ ∀ z, Lone t z → same z y = true → z = y) := by
    intro y found
    obtain ⟨x, member, fits⟩ := exists_mem_of_forall₂ each y found
    have within := perm.subset member
    obtain ⟨lone, -, rfl | only⟩ := (instances x within).of_gives single fits
    · exact ⟨lone, .inl within⟩
    · exact ⟨lone, .inr only⟩
  intro y found
  obtain ⟨z, kept, rfl | equal⟩ := exists_mem_distinct found
  · exact kept
  obtain ⟨lone, one⟩ := settled y found
  obtain ⟨lone', other⟩ := settled z ((distinct_distinct ys).2 kept)
  have equal' : same y z = true := (lone.same_comm lone').trans equal
  -- Two values that are the same but not one are both left as they are: then they are two members.
  have unchanged : y = z := by
    rcases one with within | only
    · rcases other with within' | only'
      · exact different.eq_of_same within within' equal' equal
      · exact only' y lone equal'
    · exact (only z lone' equal).symm
  exact unchanged ▸ kept

theorem AttributeValue.sorted_gathered {texts : List String} (different : texts.Nodup) :
    ∃ ascending, (t.gathered texts).sorted = t.gathered ascending ∧ ascending.Pairwise (· < ·) ∧
      ∀ s, s ∈ ascending ↔ s ∈ texts := by
  have perm := List.mergeSort_perm texts fun s t => decide (s ≤ t)
  refine ⟨texts.mergeSort fun s t => decide (s ≤ t), ?_, ?_, fun s => perm.mem_iff⟩
  · unfold FieldType.gathered
    by_cases numeric : t.isNumeric = true
    · rw [if_pos (.inl numeric), if_pos (.inl numeric), sorted]
    · cases texts with
      | nil => simp [sorted]
      | cons s texts =>
        have some : ((s :: texts).mergeSort fun s t => decide (s ≤ t)) ≠ [] := fun none => by
          simpa [none] using perm.length_eq
        rw [if_neg (by simp [numeric]), if_neg (not_or.2 ⟨numeric, some⟩), sorted]
  · have apart : List.Pairwise (· ≠ ·) (texts.mergeSort fun s t => decide (s ≤ t)) :=
      perm.nodup_iff.2 different
    exact (apart.and (pairwise_mergeSort_texts texts)).imp fun {s s'} both =>
      lt_of_le_of_ne (of_decide_eq_true both.2) both.1

namespace Attribute

variable {a : Attribute} {others others' : List Value} {encoded : AttributeValue} {element : Bool}

section Members

variable (textual : t.Textual) (instances : ∀ x ∈ items, Instance t x) (perm : others.Perm items)
  (sets : SetsOf t a.type) (set : IsSetOf others v)

include textual instances perm sets set

/-- An encoded set has the texts of its members, each of which is encoded alone. -/
theorem exists_texts_of_encode (different : Distinct items)
    (written : a.encode false v = .ok encoded) :
    (∀ x ∈ others, ∃ b, Writes t x b) ∧ ∃ texts, encoded = t.gathered texts ∧
      texts.Pairwise (· < ·) ∧
        ∀ s, s ∈ texts ↔ ∃ x ∈ others, (t.standIn x).nativeText? = some s := by
  obtain ⟨b, writes, rfl⟩ := encode_eq_ok_iff_writes.1 written
  obtain ⟨ys, each, plain⟩ := (sets.writes_iff set).1 writes
  have fits := each.imp fun _ _ => And.left
  have kept := mem_distinct_of_fits textual.single instances different perm fits
  have within : distinct ys ⊆ ys := (distinct_distinct ys).2
  have settled {x y : Value} (member : x ∈ others) (given : (coerce t x).Gives y) :
      Lone t y ∧ y.nativeText? = (t.standIn x).nativeText? :=
    have whole := (instances x (perm.subset member)).of_gives textual.single given
    ⟨whole.1, whole.2.1⟩
  have lone : ∀ y ∈ distinct ys, Lone t y := by
    intro y found
    obtain ⟨x, member, given⟩ := exists_mem_of_forall₂ fits y (within found)
    exact (settled member given).1
  obtain ⟨texts, rfl, nodup, members, alone⟩ :=
    exists_texts lone textual.other (distinct_distinct ys).1 plain
  obtain ⟨ascending, sorted, increasing, same⟩ := AttributeValue.sorted_gathered (t := t) nodup
  refine ⟨fun x member => ?_, ascending, sorted, increasing, fun s => ?_⟩
  · obtain ⟨y, found, given⟩ := exists_mem_of_forall₂ fits.flip x member
    exact (alone y (kept y found)).imp fun b plain => ⟨y, given, plain⟩
  · rw [same, members]
    constructor
    · rintro ⟨y, found, text⟩
      obtain ⟨x, member, given⟩ := exists_mem_of_forall₂ fits y (within found)
      exact ⟨x, member, (settled member given).2.symm.trans text⟩
    · rintro ⟨x, member, text⟩
      obtain ⟨y, found, given⟩ := exists_mem_of_forall₂ fits.flip x member
      exact ⟨y, kept y found, (settled member given).2.trans text⟩

theorem exists_encode_of_members (each : ∀ x ∈ others, ∃ b, Writes t x b) :
    ∃ encoded, a.encode false v = .ok encoded := by
  have fitted : ∀ x ∈ others, ∃ y, ((coerce t x).Gives y ∧ y.hashFault? = none) ∧ Lone t y ∧
      ∃ b, unsorted y = .ok b := by
    intro x member
    obtain ⟨b, y, given, plain⟩ := each x member
    obtain ⟨lone, -⟩ := (instances x (perm.subset member)).of_gives textual.single given
    exact ⟨y, ⟨given, lone.hashFault?_eq_none⟩, lone, b, plain⟩
  obtain ⟨ys, both⟩ := exists_forall₂_iff.2 fitted
  have alone : ∀ y ∈ distinct ys, Lone t y ∧ ∃ b, unsorted y = .ok b := by
    intro y found
    obtain ⟨-, -, -, alone⟩ := exists_mem_of_forall₂ both y ((distinct_distinct ys).2 found)
    exact alone
  obtain ⟨b, plain⟩ := exists_unsorted_set (fun y found => (alone y found).1) textual.other
    fun y found => (alone y found).2
  have writes : Writes a.type v b :=
    (sets.writes_iff set).2 ⟨ys, both.imp fun _ _ => And.left, plain⟩
  exact ⟨_, encode_eq_ok_iff_writes.2 ⟨b, writes, rfl⟩⟩

end Members

theorem not_encode_element (textual : t.Textual) (sets : SetsOf t a.type) (set : IsSetOf items v) :
    a.encode true v ≠ .ok encoded := by
  intro written
  obtain ⟨b, ⟨y, given, -⟩, -⟩ := encode_eq_ok_iff_writes.1 written
  have given := (sets.collects textual.single).gives_coerce_element.1 given
  exact set.not_gives_single textual.single given

theorem encode_of_perm (textual : t.Textual) (instances : ∀ x ∈ items, Instance t x)
    (different : Distinct items) (perm : others.Perm items) (perm' : others'.Perm items)
    (sets : SetsOf t a.type) (set : IsSetOf others v) (set' : IsSetOf others' w)
    (written : a.encode false v = .ok encoded) : a.encode false w = .ok encoded := by
  obtain ⟨each, texts, rfl, ascending, members⟩ :=
    exists_texts_of_encode textual instances perm sets set different written
  have turned : others'.Perm others := perm'.trans perm.symm
  -- The members are those of the first order, and each of them is encoded alone.
  obtain ⟨encoded, written'⟩ := exists_encode_of_members textual instances perm' sets set'
    fun x member => each x (turned.subset member)
  obtain ⟨-, texts', rfl, ascending', members'⟩ :=
    exists_texts_of_encode textual instances perm' sets set' different written'
  -- Increasing lists of the same texts are one list.
  have same : texts' = texts := ascending'.eq_of_mem_iff ascending fun s => by
    rw [members, members']
    exact exists_congr fun x => and_congr_left fun _ => turned.mem_iff
  rw [written', same]

/-- Two sets of the same different instances are encoded alike or both refused, in whatever order the
instances were put in; and what they are encoded to has the texts of the instances, each greater than
the one before it. A moment among dates has the text of its date, and a truth value among whole
numbers that of its number. -/
theorem encode_set_ordered (textual : t.Textual) (instances : ∀ x ∈ items, Instance t x)
    (different : Distinct items) (perm : others.Perm items) (sets : SetsOf t a.type)
    (set : IsSetOf items v) (set' : IsSetOf others w) (element : Bool) :
    (∀ encoded, a.encode element v = .ok encoded ↔ a.encode element w = .ok encoded) ∧
    ∀ encoded, a.encode element v = .ok encoded →
      ∃ texts, (encoded = .textSet texts ∨ encoded = .numberSet texts) ∧
        texts.Pairwise (· < ·) ∧
        ∀ s, s ∈ texts ↔ ∃ x ∈ items, (t.standIn x).nativeText? = some s := by
  cases element with
  | true =>
    refine ⟨fun encoded => iff_of_false ?_ ?_, fun encoded written => absurd written ?_⟩
    · exact not_encode_element textual sets set
    · exact not_encode_element textual sets set'
    · exact not_encode_element textual sets set
  | false =>
    refine ⟨fun encoded => ⟨?_, ?_⟩, fun encoded written => ?_⟩
    · exact encode_of_perm textual instances different (.refl items) perm sets set set'
    · exact encode_of_perm textual instances different perm (.refl items) sets set' set
    · obtain ⟨-, texts, rfl, ascending, members⟩ :=
        exists_texts_of_encode textual instances (.refl items) sets set different written
      refine ⟨texts, ?_, ascending, members⟩
      unfold FieldType.gathered
      split_ifs
      · exact .inr rfl
      · exact .inl rfl

end Attribute

namespace Sample

def holidays : Attribute := ⟨"holidays", "holidays", .optional (.collection .set .date)⟩

def rates : Attribute := ⟨"rates", "rates", .collection .frozenset .float⟩

def newYear : Value := .date ⟨⟨2024, 1, 1⟩, by decide⟩

def leapDay : Value := .datetime ⟨dueDate, ⟨.midnight, none⟩⟩

def nine : Value := .float (.ofNat 9)

def ten : Value := .float (.ofNat 10)

theorem distinct_holidays : Distinct [leapDay, newYear] := by
  simp only [Distinct, List.pairwise_pair]
  rfl

theorem distinct_rates : Distinct [nine, ten] := by
  simp only [Distinct, List.pairwise_pair]
  rfl

/-- The texts are ordered by their characters: ten comes before nine. -/
theorem encode_set_ordered_holidays :
    holidays.encode false (.set [leapDay, newYear]) =
        .ok (.textSet ["2024-01-01", "2024-02-29"]) ∧
      rates.encode false (.set [nine, ten]) = .ok (.numberSet ["10.0", "9.0"]) := by
  have dates : holidays.encode false (.frozenset [newYear, leapDay]) =
      .ok (AttributeValue.sorted (.textSet ["2024-01-01", "2024-02-29"])) := rfl
  have numbers : rates.encode false (.frozenset [ten, nine]) =
      .ok (AttributeValue.sorted (.numberSet ["10.0", "9.0"])) := rfl
  rw [AttributeValue.sorted, List.mergeSort_of_pairwise (by decide)] at dates
  rw [AttributeValue.sorted, List.mergeSort_of_pairwise (by decide)] at numbers
  have days : ∀ x ∈ [leapDay, newYear], Instance .date x := by
    intro x member
    rcases List.mem_pair.1 member with rfl | rfl
    · exact .moment _
    · exact .date _
  have floats : ∀ x ∈ [nine, ten], Instance .float x := by
    intro x member
    rcases List.mem_pair.1 member with rfl | rfl <;> exact .float _
  have turned {x y : Value} : [y, x].Perm [x, y] := .swap x y []
  constructor
  · exact ((Attribute.encode_set_ordered (a := holidays) ⟨.member .date, nofun⟩ days
      distinct_holidays turned (.optional rfl rfl rfl) (.inl rfl) (.inr rfl) false).1 _).2 dates
  · exact ((Attribute.encode_set_ordered (a := rates) ⟨.float, nofun⟩ floats
      distinct_rates turned (.alone rfl) (.inl rfl) (.inr rfl) false).1 _).2 numbers

/-- The native text of a moment is not that of its date. -/
theorem not_forall_nativeText : ¬∀ (t : FieldType) (a : Attribute) (items : List Value) (v : Value)
    (encoded : AttributeValue), t.Textual → (∀ x ∈ items, Instance t x) → Distinct items →
    SetsOf t a.type → IsSetOf items v → a.encode false v = .ok encoded →
      ∃ texts, (encoded = .textSet texts ∨ encoded = .numberSet texts) ∧ texts.Pairwise (· < ·) ∧
        ∀ s, s ∈ texts ↔ ∃ x ∈ items, x.nativeText? = some s := by
  intro native
  have written : holidays.encode false (.set [leapDay]) =
      .ok (AttributeValue.sorted (.textSet ["2024-02-29"])) := rfl
  rw [AttributeValue.sorted, List.mergeSort_singleton] at written
  have moments : ∀ x ∈ [leapDay], Instance .date x := by
    intro x member
    cases List.mem_singleton.1 member
    exact .moment _
  obtain ⟨texts, same | same, -, members⟩ := native .date holidays [leapDay] _ _
    ⟨.member .date, nofun⟩ moments (List.pairwise_singleton _ _) (.optional rfl rfl rfl)
    (.inl rfl) written
  · cases same
    have found := (members "2024-02-29T00:00:00").2 ⟨leapDay, List.mem_singleton_self _, rfl⟩
    exact absurd found (by decide)
  · cases same

end Sample

end TableScan
