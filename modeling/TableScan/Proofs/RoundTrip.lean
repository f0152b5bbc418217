import TableScan.Proofs.Overrun
import TableScan.Proofs.SetWriting

/-! From a value to the store and back. Main statement: a kept value that can be written is read again
as an equal value, which is kept, and is written as the same attribute value. -/

namespace TableScan

open Attempt Value AttributeValue Coercion

namespace AttributeValue

theorem toValues_eq_map (parts : List AttributeValue) : toValues parts = parts.map toValue := by
  induction parts with
  | nil => rfl
  | cons part parts ih => rw [toValues, ih, List.map_cons]

theorem toEntries_eq_map (parts : List (String × AttributeValue)) :
    toEntries parts = parts.map fun part => (.text part.1, part.2.toValue) := by
  induction parts with
  | nil => rfl
  | cons part parts ih => rw [toEntries, ih, List.map_cons]

theorem ofTagged_list {items : List Value} {parts : List AttributeValue}
    (back : List.Forall₂ (fun x b => b.toValue.ofTagged = .ok x.readBack) items parts) :
    (AttributeValue.list parts).toValue.ofTagged = .ok (.list (items.map readBack)) := by
  have read : ofTaggedAll (toValues parts) = .ok (items.map readBack) := by
    rw [ofTaggedAll_eq_mapM, toValues_eq_map, mapM_eq_ok_iff, List.forall₂_map_left_iff,
      List.forall₂_map_right_iff]
    exact back.flip
  change (ofTaggedAll (toValues parts) >>= fun natives => pure (Value.list natives)) = _
  rw [read]
  rfl

theorem ofTagged_map {entries : List (Value × Value)} {parts : List (String × AttributeValue)}
    (back : List.Forall₂ (fun entry part => entry.1 = .text part.1 ∧
      part.2.toValue.ofTagged = .ok entry.2.readBack) entries parts) :
    (AttributeValue.map parts).toValue.ofTagged =
      .ok (.map (entries.map fun entry => (entry.1, entry.2.readBack))) := by
  have read : ofTaggedEntries (toEntries parts) =
      .ok (entries.map fun entry => (entry.1, entry.2.readBack)) := by
    rw [ofTaggedEntries_eq_mapM, toEntries_eq_map, mapM_eq_ok_iff, List.forall₂_map_left_iff,
      List.forall₂_map_right_iff]
    refine (back.imp fun entry part both => ?_).flip
    rw [flip, both.2, both.1]
    rfl
  change (ofTaggedEntries (toEntries parts) >>= fun natives => pure (Value.map natives)) = _
  rw [read]
  rfl

theorem ofTagged_number {d : Decimal} {a : AttributeValue} (finite : d.isFinite = true)
    (written : (numberText d).map .number = .ok a) : a.toValue.ofTagged = .ok (.decimal d) := by
  obtain ⟨s, shown, rfl⟩ := map_eq_ok_iff.1 written
  exact (Decimal.storedNumber_of_numberText finite shown).2

end AttributeValue

namespace Keeps

variable {t : FieldType} {w : Value} {a : AttributeValue}

theorem exists_mem_zip {ts : List FieldType} {items : List Value} {x : Value}
    (length : ts.length = items.length) (member : x ∈ items) : ∃ t, (t, x) ∈ ts.zip items := by
  rw [← List.map_snd_zip (Nat.le_of_eq length.symm)] at member
  obtain ⟨⟨t, _⟩, found, rfl⟩ := List.mem_map.1 member
  exact ⟨t, found⟩

theorem ofTagged_toValue (kept : Keeps t w) (written : unsorted w = .ok a) :
    a.toValue.ofTagged = .ok w.readBack := by
  induction kept generalizing a with
  | text | bool | bytes | null | uuid | date | datetime | absent =>
    cases written
    rfl
  | int n => exact ofTagged_number (d := .ofInt n) rfl written
  | decimal finite => exact ofTagged_number finite written
  | textMember =>
    cases written
    rfl
  | @intMember e name n => exact ofTagged_number (d := .ofInt n) rfl written
  | list _ _ ih | sequence _ ih =>
    obtain ⟨parts, each, rfl⟩ := unsorted_list_iff.1 written
    rw [readBack, readBackAll_eq_map]
    exact ofTagged_list (forall₂_imp_of_mem (fun x found _ => ih x found) each)
  | set member each different ih | frozenset member each different ih =>
    rw [readBack, readBackAll_eq_map]
    exact ofTagged_of_writtenSet member each different (fun x found b => ih x found)
      ((unsorted_set_iff member each different).1 written)
  | @tuple ts items length _ ih =>
    obtain ⟨parts, each, rfl⟩ := unsorted_list_iff.1 written
    rw [readBack, readBackAll_eq_map]
    have back : ∀ x ∈ items, ∀ b, unsorted x = .ok b → b.toValue.ofTagged = .ok x.readBack := by
      intro x member b written
      obtain ⟨t, found⟩ := exists_mem_zip length member
      exact ih (t, x) found written
    exact ofTagged_list (forall₂_imp_of_mem back each)
  | map names _ different ih =>
    obtain ⟨parts, each, rfl⟩ := (unsorted_map_iff names different).1 written
    rw [readBack, readBackEntries_eq_map]
    exact ofTagged_map (forall₂_imp_of_mem
      (fun entry found _ both => ⟨both.1, ih entry found both.2⟩) each)
  | present _ _ _ ih => exact ih written

theorem same_textMember {e : Enumeration} (base : e.base ≠ .int) (name s : String) :
    same (e.memberOf (name, .text s)) (e.memberOf (name, .text s)) = true := by
  unfold Enumeration.memberOf
  cases kind : e.base with
  | plain => simp [same, sameScalar]
  | text => simp [same, sameScalar, number?, text?]
  | int => exact absurd kind base

theorem same_intMember {e : Enumeration} (base : e.base = .int) (name : String) (n : Int) :
    same (e.memberOf (name, .int n)) (e.memberOf (name, .int n)) = true := by
  rw [Enumeration.memberOf, base]
  exact Decimal.sameNumber_self (d := .ofInt n) rfl

theorem same_map {entries : List (Value × Value)} (names : ∀ entry ∈ entries, ∃ s, entry.1 = .text s)
    (each : ∀ entry ∈ entries, same entry.2.reread entry.2 = true) :
    same (.map (entries.map fun entry => (entry.1, entry.2.reread))) (.map entries) = true := by
  rw [same.eq_def]
  simp only [List.length_map, BEq.rfl, Bool.true_and, allEntriesFound_iff, List.forall_mem_map]
  intro entry found
  obtain ⟨s, text⟩ := names entry found
  exact ⟨entry, found, by simp [text, same_text], each entry found⟩

theorem sameItems_reread {items : List Value} (each : ∀ x ∈ items, same x.reread x = true) :
    sameItems (items.map reread) items = true := by
  rw [sameItems_iff, List.forall₂_map_left_iff]
  exact List.forall₂_same.2 each

theorem same_set_of_perm {items others : List Value} (member : t.OfSets)
    (each : ∀ x ∈ items, Keeps t x) (perm : others.Perm items) :
    (others.length == items.length && allFound others items) = true := by
  simp only [perm.length_eq, BEq.rfl, Bool.true_and, allFound_iff]
  intro x found
  exact ⟨x, perm.subset found, (each x (perm.subset found)).same_self member⟩

theorem same_reread (kept : Keeps t w) : same w.reread w = true := by
  induction kept with
  | text s => exact (Keeps.text s).same_self .text
  | int n => exact (Keeps.int n).same_self .int
  | bool b => cases b <;> rfl
  | bytes bs => exact (Keeps.bytes bs).same_self .bytes
  | null | absent => rfl
  | decimal finite => exact (Keeps.decimal finite).same_self .decimal
  | uuid u => exact (Keeps.uuid u).same_self .uuid
  | date d => exact (Keeps.date d).same_self .date
  | datetime => exact DateTime.sameInstant_asRead _
  | textMember base _ => exact same_textMember base _ _
  | intMember base _ _ => exact same_intMember base _ _
  | list _ _ ih | sequence _ ih =>
    rw [reread, rereadAll_eq_map]
    exact sameItems_reread ih
  | set member each | frozenset member each =>
    exact same_set_of_perm member each (.refl _)
  | @tuple ts items length _ ih =>
    rw [reread, rereadAll_eq_map]
    refine sameItems_reread fun x member => ?_
    obtain ⟨t, found⟩ := exists_mem_zip length member
    exact ih (t, x) found
  | map names _ _ ih =>
    rw [reread, rereadEntries_eq_map]
    exact same_map names ih
  | present _ _ _ ih => exact ih

theorem forall_mem_zip_map {ts : List FieldType} {items : List Value} {P : FieldType → Value → Prop}
    (each : ∀ p ∈ ts.zip items, P p.1 p.2.reread) : ∀ p ∈ ts.zip (items.map reread), P p.1 p.2 := by
  rw [List.zip_map_right, List.forall_mem_map]
  exact each

theorem kept_reread (kept : Keeps t w) : Keeps t w.reread := by
  induction kept with
  | text s => exact .text s
  | int n => exact .int n
  | bool b => exact .bool b
  | bytes bs => exact .bytes bs
  | null => exact .null
  | decimal finite => exact .decimal finite
  | uuid u => exact .uuid u
  | date d => exact .date d
  | datetime whole => exact .datetime (DateTime.isWholeMinutes_asRead whole)
  | textMember base owns => exact .textMember base owns
  | intMember base owns words => exact .intMember base owns words
  | list typed _ ih =>
    rw [reread, rereadAll_eq_map]
    exact .list typed (List.forall_mem_map.2 ih)
  | sequence _ ih =>
    rw [reread, rereadAll_eq_map]
    exact .sequence (List.forall_mem_map.2 ih)
  | set member each different => exact .set member each different
  | frozenset member each different => exact .frozenset member each different
  | tuple length _ ih =>
    rw [reread, rereadAll_eq_map]
    exact .tuple (by simpa using length) (forall_mem_zip_map ih)
  | map names _ different ih =>
    rw [reread, rereadEntries_eq_map]
    refine .map (List.forall_mem_map.2 names) (List.forall_mem_map.2 ih) ?_
    rw [List.map_map]
    exact different
  | absent absent only => exact .absent absent only
  | present absent only _ ih => exact .present absent only ih

theorem exists_sorted_of_eq (kept : Keeps t w) (written : unsorted w = .ok a) (plain : a.sorted = a) :
    ∃ v, Keeps t v ∧ unsorted v = .ok a.sorted ∧ same v.reread w = true :=
  ⟨w, kept, by rw [plain, written], kept.same_reread⟩

/-- The members of a set in the order in which its attribute value is sorted. -/
theorem exists_perm_sorted {items : List Value} (member : t.OfSets) (each : ∀ x ∈ items, Keeps t x)
    (different : Value.Distinct items) (written : unsorted (.set items) = .ok a) :
    ∃ others : List Value, others.Perm items ∧ (∀ x ∈ others, Keeps t x) ∧ Value.Distinct others ∧
      unsorted (.set others) = .ok a.sorted := by
  obtain ⟨others, perm, sorted⟩ :=
    exists_perm_writtenSet_sorted ((unsorted_set_iff member each different).1 written)
  have kept : ∀ x ∈ others, Keeps t x := fun x found => each x (perm.subset found)
  have apart := distinct_of_perm member each different perm
  exact ⟨others, perm, kept, apart, (unsorted_set_iff member kept apart).2 sorted⟩

/-- A kept value that can be written is also kept in the order in which its attribute value is
sorted. -/
theorem exists_sorted (kept : Keeps t w) (written : unsorted w = .ok a) :
    ∃ v, Keeps t v ∧ unsorted v = .ok a.sorted ∧ same v.reread w = true := by
  induction kept with
  | text | bool | bytes | null | uuid | date | datetime | absent | textMember =>
    cases written
    exact exists_sorted_of_eq (by constructor <;> assumption) rfl rfl
  | int | decimal | intMember =>
    obtain ⟨_, _, rfl⟩ := map_eq_ok_iff.1 written
    exact exists_sorted_of_eq (by constructor <;> assumption) written rfl
  | list typed each | sequence each | tuple length each =>
    obtain ⟨_, _, rfl⟩ := unsorted_list_iff.1 written
    exact exists_sorted_of_eq (by constructor <;> assumption) written rfl
  | map names each different =>
    obtain ⟨_, _, rfl⟩ := (unsorted_map_iff names different).1 written
    exact exists_sorted_of_eq (.map names each different) written rfl
  | set member each different =>
    obtain ⟨others, perm, kept, apart, sorted⟩ := exists_perm_sorted member each different written
    exact ⟨.set others, .set member kept apart, sorted, same_set_of_perm member each perm⟩
  | frozenset member each different =>
    obtain ⟨others, perm, kept, apart, sorted⟩ := exists_perm_sorted member each different written
    exact ⟨.frozenset others, .frozenset member kept apart, sorted,
      same_set_of_perm member each perm⟩
  | present absent only _ ih =>
    obtain ⟨v, kept, sorted, same⟩ := ih written
    exact ⟨v, .present absent only kept, sorted, same⟩

end Keeps

end TableScan
