import TableScan.Proofs.Counting

/-! Native forms. Main statement: what has a native form has one in which nothing is left to be
replaced, at any depth, and whatever is of such a form is its own native form. -/

namespace TableScan.Value

open Attempt

variable {v w n : Value} {items natives : List Value} {entries pairs : List (Value × Value)}

def parts : Value → List Value
  | .list items | .tuple items | .set items | .frozenset items => items
  | .map entries => entries.map (·.1) ++ entries.map (·.2)
  | .member _ _ _ v => [v]
  | _ => []

theorem mem_parts_of_mem {entry : Value × Value} (member : entry ∈ entries) :
    entry.2 ∈ (map entries).parts :=
  List.mem_append_right _ (List.mem_map_of_mem member)

theorem sizeOf_lt_of_mem_parts {part : Value} (found : part ∈ v.parts) : sizeOf part < sizeOf v := by
  cases v with
  | list items | tuple items | set items | frozenset items =>
    have smaller : sizeOf part < sizeOf items := List.sizeOf_lt_of_mem found
    simp only [list.sizeOf_spec, tuple.sizeOf_spec, set.sizeOf_spec, frozenset.sizeOf_spec]
    omega
  | map entries =>
    simp only [parts, List.mem_append, List.mem_map] at found
    rcases found with ⟨entry, stored, rfl⟩ | ⟨entry, stored, rfl⟩
    all_goals
      have smaller := List.sizeOf_lt_of_mem stored
      have whole : sizeOf entry = 1 + sizeOf entry.1 + sizeOf entry.2 := rfl
      simp only [map.sizeOf_spec]
      omega
  | member enumeration base name held =>
    cases List.mem_singleton.1 found
    simp only [member.sizeOf_spec]
    omega
  | _ => cases found

@[elab_as_elim]
theorem induction_on_parts {motive : Value → Prop} (v : Value)
    (step : ∀ v, (∀ part ∈ v.parts, motive part) → motive v) : motive v :=
  step v fun part _ => induction_on_parts part step
termination_by sizeOf v
decreasing_by exact sizeOf_lt_of_mem_parts ‹_›

inductive Within (v : Value) : Value → Prop where
  | here : Within v v
  | deeper {part whole : Value} (member : part ∈ whole.parts) (inner : Within v part) :
    Within v whole

/-- Nothing is to be replaced at the top: the value is of a kind that the store knows, the members of
a set have no parts, can be members and are different, and the keys of a mapping are different
texts. -/
def IsSettled : Value → Prop
  | .null | .bool _ | .int _ | .decimal _ | .text _ | .bytes _ | .time _ | .list _ => True
  | .set items => (∀ x ∈ items, x.isSingle = true ∧ x.hashFault? = none) ∧ Distinct items
  | .map entries => (∀ entry ∈ entries, ∃ s, entry.1 = .text s) ∧ Distinct (entries.map (·.1))
  | .float _ | .datetime _ | .date _ | .uuid _ | .tuple _ | .frozenset _ | .member .. => False

def IsNormal (v : Value) : Prop := ∀ w : Value, w.Within v → w.IsSettled

theorem isNormal_iff : v.IsNormal ↔ v.IsSettled ∧ ∀ part ∈ v.parts, part.IsNormal := by
  constructor
  · intro normal
    exact ⟨normal v .here, fun part member w inner => normal w (.deeper member inner)⟩
  · intro given w within
    cases within with
    | here => exact given.1
    | deeper member inner => exact given.2 _ member w inner

theorem isNormal_list_iff : IsNormal (.list items) ↔ ∀ x ∈ items, x.IsNormal := by
  rw [isNormal_iff]
  exact and_iff_right trivial

theorem isNormal_text (s : String) : IsNormal (.text s) :=
  isNormal_iff.2 ⟨trivial, List.forall_mem_nil _⟩

theorem isNormal_map_iff : IsNormal (.map entries) ↔
    (∀ entry ∈ entries, (∃ s, entry.1 = .text s) ∧ entry.2.IsNormal) ∧
      Distinct (entries.map (·.1)) := by
  have keys (names : ∀ entry ∈ entries, ∃ s, entry.1 = .text s) :
      ∀ entry ∈ entries, entry.1.IsNormal := by
    intro entry member
    obtain ⟨s, name⟩ := names entry member
    exact name ▸ isNormal_text s
  rw [isNormal_iff, parts, List.forall_mem_append, List.forall_mem_map, List.forall_mem_map,
    IsSettled, forall₂_and]
  constructor
  · rintro ⟨⟨names, different⟩, -, values⟩
    exact ⟨⟨names, values⟩, different⟩
  · rintro ⟨⟨names, values⟩, different⟩
    exact ⟨⟨names, different⟩, keys names, values⟩

/-- Of normal values just those without parts can be members of a set. -/
theorem IsNormal.isSingle (normal : v.IsNormal) (hashes : v.hashFault? = none) :
    v.isSingle = true := by
  have settled := (isNormal_iff.1 normal).1
  cases v with
  | list items | set items | map entries => cases hashes
  | tuple items | frozenset items | member _ _ _ v => exact settled.elim
  | _ => rfl

theorem isNormal_set_iff : IsNormal (.set items) ↔
    (∀ x ∈ items, x.IsNormal ∧ x.hashFault? = none) ∧ Distinct items := by
  rw [isNormal_iff, parts, IsSettled]
  constructor
  · rintro ⟨⟨members, different⟩, normal⟩
    exact ⟨fun x found => ⟨normal x found, (members x found).2⟩, different⟩
  · rintro ⟨members, different⟩
    refine ⟨⟨fun x found => ?_, different⟩, fun x found => (members x found).1⟩
    obtain ⟨normal, hashes⟩ := members x found
    exact ⟨normal.isSingle hashes, hashes⟩

/-- The first of equal members stays, so what stays is as it was among them. -/
theorem isNormal_set_distinct (members : ∀ x ∈ natives, x.IsNormal ∧ x.hashFault? = none) :
    IsNormal (.set (distinct natives)) := by
  obtain ⟨different, kept⟩ := distinct_distinct natives
  exact isNormal_set_iff.2 ⟨fun x found => members x (kept found), different⟩

theorem isNormal_map_ofEntries
    (each : ∀ pair ∈ pairs, (∃ s, pair.1 = .text s) ∧ pair.2.IsNormal) :
    IsNormal (.map (ofEntries pairs)) :=
  isNormal_map_iff.2 ⟨forall_mem_ofEntries (P := fun k => ∃ s, k = .text s) (Q := IsNormal) each,
    distinct_keys_ofEntries pairs⟩

theorem isNormal_of_native (plain : v.native = .ok n) : n.IsNormal := by
  induction v using induction_on_parts generalizing n with
  | step v ih =>
    cases v with
    | member _ _ _ v => exact ih v (List.mem_singleton_self v) plain
    | set items | frozenset items =>
      obtain ⟨natives, found, same⟩ := bind_eq_ok_iff.1 plain
      cases same
      rw [nativeMembers_eq_ok_iff] at found
      apply isNormal_set_distinct
      intro x member
      obtain ⟨y, source, native, hashes⟩ := exists_mem_of_forall₂ found x member
      exact ⟨ih y source native, hashes⟩
    | list items | tuple items =>
      obtain ⟨natives, found, same⟩ := bind_eq_ok_iff.1 plain
      cases same
      rw [nativeItems_eq_mapM, mapM_eq_ok_iff] at found
      apply isNormal_list_iff.2
      intro x member
      obtain ⟨y, source, native⟩ := exists_mem_of_forall₂ found x member
      exact ih y source native
    | map entries =>
      obtain ⟨pairs, found, same⟩ := bind_eq_ok_iff.1 plain
      cases same
      rw [nativeEntries_eq_ok_texts_iff] at found
      apply isNormal_map_ofEntries
      intro pair member
      obtain ⟨entry, source, key, native⟩ := exists_mem_of_forall₂ found pair member
      obtain ⟨s, -, name⟩ := keyText_eq_ok_iff.1 key
      exact ⟨⟨s, name⟩, ih entry.2 (mem_parts_of_mem source) native⟩
    | _ =>
      cases plain
      exact isNormal_iff.2 ⟨trivial, List.forall_mem_nil _⟩

theorem IsNormal.native_eq (normal : v.IsNormal) : v.native = .ok v := by
  induction v using induction_on_parts with
  | step v ih =>
    cases v with
    | set items =>
      obtain ⟨members, different⟩ := isNormal_set_iff.1 normal
      have natives : nativeMembers items = .ok items := by
        apply nativeMembers_eq_ok_iff.2
        apply List.forall₂_same.2
        intro x member
        exact ⟨ih x member (members x member).1, (members x member).2⟩
      rw [native, natives, ok_bind, distinct_eq_self different]
      rfl
    | list items =>
      have natives : nativeItems items = .ok items := by
        rw [nativeItems_eq_mapM, mapM_eq_ok_iff]
        apply List.forall₂_same.2
        intro x member
        exact ih x member (isNormal_list_iff.1 normal x member)
      rw [native, natives]
      rfl
    | map entries =>
      obtain ⟨each, different⟩ := isNormal_map_iff.1 normal
      have natives : nativeEntries entries = .ok entries := by
        apply nativeEntries_eq_ok_texts_iff.2
        apply List.forall₂_same.2
        intro entry member
        obtain ⟨⟨s, name⟩, whole⟩ := each entry member
        exact ⟨keyText_eq_ok_iff.2 ⟨s, by rw [name]; rfl, name⟩,
          ih entry.2 (mem_parts_of_mem member) whole⟩
      rw [native, natives, ok_bind, ofEntries_eq_self different]
      rfl
    | float _ | datetime _ | date _ | uuid _ | tuple _ | frozenset _ | member _ _ _ _ =>
      exact (normal _ .here).elim
    | _ => rfl

/-- A native form is normal, and it is its own native form; so is every normal value. -/
theorem native_normal (v : Value) :
    (∀ n, v.native = .ok n → n.IsNormal ∧ n.native = .ok n) ∧ (v.IsNormal → v.native = .ok v) := by
  refine ⟨fun n plain => ?_, IsNormal.native_eq⟩
  have normal := isNormal_of_native plain
  exact ⟨normal, normal.native_eq⟩

def palette : Value :=
  .map [(.int 7, .list [
    .member "Palette" .plain "WARM" (.frozenset [
      .text "red", .member "Colour" .plain "RED" (.text "red"), .bytes [255]]),
    .tuple [.date Sample.dueDate, .bool true, .float (.ofNat 1)]])]

def paletteForm : Value :=
  .map [(.text "7", .list [
    .set [.text "red", .bytes [255]],
    .list [.text "2024-02-29", .bool true, .decimal (.finite false 10 (-1))]])]

theorem native_normal_palette :
    palette.native = .ok paletteForm ∧ paletteForm.IsNormal ∧
      paletteForm.native = .ok paletteForm := by
  have plain : palette.native = .ok paletteForm := rfl
  exact ⟨plain, (native_normal palette).1 _ plain⟩

end TableScan.Value
