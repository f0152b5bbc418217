import TableScan.Proofs.MappingKeys

/-! Entries and members whose native forms are the same. Main statements: of the entries of a mapping
whose keys have one text the last stays, and a set has one member for each of the native forms. -/

namespace TableScan

open Attempt Value AttributeValue

namespace Value

variable {v : Value} {entries pairs : List (Value × Value)} {entry : Value × Value}

/-- The entry is the last with a key of its text, so that its value is the one that stays. -/
inductive Stays : List (Value × Value) → Value × Value → Prop where
  | here {entry : Value × Value} {entries : List (Value × Value)}
    (last : ∀ later ∈ entries, later.1.display? ≠ entry.1.display?) : Stays (entry :: entries) entry
  | later {first entry : Value × Value} {entries : List (Value × Value)}
    (stays : Stays entries entry) : Stays (first :: entries) entry

theorem Stays.mem (stays : Stays entries entry) : entry ∈ entries := by
  induction stays with
  | here => exact List.mem_cons_self
  | later _ ih => exact List.mem_cons_of_mem _ ih

theorem stays_cons_iff {first : Value × Value} :
    Stays (first :: entries) entry ↔
      entry = first ∧ (∀ later ∈ entries, later.1.display? ≠ first.1.display?) ∨
        Stays entries entry := by
  constructor
  · intro stays
    cases stays with
    | here last => exact .inl ⟨rfl, last⟩
    | later stays => exact .inr stays
  · rintro (⟨rfl, last⟩ | stays)
    · exact .here last
    · exact .later stays

theorem stays_append_singleton_iff {final : Value × Value} :
    Stays (entries ++ [final]) entry ↔
      entry = final ∨ entry.1.display? ≠ final.1.display? ∧ Stays entries entry := by
  induction entries with
  | nil =>
    rw [List.nil_append, stays_cons_iff]
    simp only [List.not_mem_nil, false_implies, implies_true, and_true]
    constructor
    · exact fun stays => .inl (stays.elim id nofun)
    · exact fun stays => .inl (stays.elim id fun both => nomatch both.2)
  | cons first entries ih =>
    rw [List.cons_append, stays_cons_iff, stays_cons_iff, ih, List.forall_mem_append,
      List.forall_mem_singleton]
    constructor
    · rintro (⟨rfl, before, apart⟩ | rfl | ⟨apart, stays⟩)
      · exact .inr ⟨apart.symm, .inl ⟨rfl, before⟩⟩
      · exact .inl rfl
      · exact .inr ⟨apart, .inr stays⟩
    · rintro (rfl | ⟨apart, ⟨rfl, before⟩ | stays⟩)
      · exact .inr (.inl rfl)
      · exact .inl ⟨rfl, before, apart.symm⟩
      · exact .inr (.inr ⟨apart, stays⟩)

/-- What stays of some entries is related to what stays of entries with the same texts. -/
theorem Stays.exists_of_forall₂ {R : Value × Value → Value × Value → Prop}
    (texts : ∀ entry pair, R entry pair → entry.1.display? = pair.1.display?)
    (each : List.Forall₂ R entries pairs) (stays : Stays entries entry) :
    ∃ pair, Stays pairs pair ∧ R entry pair := by
  induction each with
  | nil => cases stays
  | @cons first other rest others one each ih =>
    rcases stays_cons_iff.1 stays with ⟨rfl, last⟩ | stays
    · refine ⟨other, .here fun later found => ?_, one⟩
      obtain ⟨before, within, related⟩ := exists_mem_of_forall₂ each later found
      rw [← texts _ _ related, ← texts _ _ one]
      exact last before within
    · obtain ⟨pair, stays, related⟩ := ih stays
      exact ⟨pair, .later stays, related⟩

theorem same_names_iff {key other : Value} (name : ∃ s, key = .text s) (name' : ∃ s, other = .text s) :
    same key other = true ↔ key = other := by
  obtain ⟨s, rfl⟩ := name
  obtain ⟨s', rfl⟩ := name'
  simp [same_text]

theorem display?_names_iff {key other : Value} (name : ∃ s, key = .text s)
    (name' : ∃ s, other = .text s) : key.display? = other.display? ↔ key = other := by
  obtain ⟨s, rfl⟩ := name
  obtain ⟨s', rfl⟩ := name'
  simp [display?]

theorem mem_insertEntry_iff {key : Value} (name : ∃ s, key = .text s)
    (names : ∀ entry ∈ entries, ∃ s, entry.1 = .text s)
    (different : Distinct (entries.map (·.1))) :
    entry ∈ insertEntry key v entries ↔ entry = (key, v) ∨ entry.1 ≠ key ∧ entry ∈ entries := by
  induction entries with
  | nil => simp [insertEntry]
  | cons first entries ih =>
    obtain ⟨first, x⟩ := first
    rw [List.forall_mem_cons] at names
    rw [List.map_cons, Distinct, List.pairwise_cons, List.forall_mem_map] at different
    rw [insertEntry]
    split
    · next found =>
      cases (same_names_iff names.1 name).1 found
      -- No later entry has the key that is replaced here.
      have apart : entry ∈ entries → entry.1 ≠ first := by
        rintro member rfl
        have self := (same_names_iff names.1 names.1).2 rfl
        rw [different.1 entry member] at self
        cases self
      rw [List.mem_cons, List.mem_cons]
      constructor
      · exact Or.imp_right fun member => ⟨apart member, .inr member⟩
      · refine Or.imp_right fun both => both.2.elim (fun same => ?_) id
        exact absurd (congrArg Prod.fst same) both.1
    · next other =>
      have apart : first ≠ key := fun same => other ((same_names_iff names.1 name).2 same)
      rw [List.mem_cons, List.mem_cons, ih names.2 different.2]
      constructor
      · rintro (rfl | rfl | ⟨differs, member⟩)
        · exact .inr ⟨apart, .inl rfl⟩
        · exact .inl rfl
        · exact .inr ⟨differs, .inr member⟩
      · rintro (rfl | ⟨differs, rfl | member⟩)
        · exact .inr (.inl rfl)
        · exact .inl rfl
        · exact .inr (.inr ⟨differs, member⟩)

theorem mem_ofEntries_iff (names : ∀ entry ∈ entries, ∃ s, entry.1 = .text s) :
    entry ∈ ofEntries entries ↔ Stays entries entry := by
  induction entries using List.reverseRecOn with
  | nil => exact iff_of_false List.not_mem_nil nofun
  | append_singleton entries final ih =>
    rw [List.forall_mem_append, List.forall_mem_singleton] at names
    have kept : ∀ entry ∈ ofEntries entries, ∃ s, entry.1 = .text s := fun entry found =>
      (forall_mem_ofEntries (P := fun k => ∃ s, k = .text s) (Q := fun _ => True)
        (fun entry found => ⟨names.1 entry found, trivial⟩) entry found).1
    have added : ofEntries (entries ++ [final]) =
        insertEntry final.1 final.2 (ofEntries entries) := by
      rw [ofEntries, List.foldl_append]
      rfl
    rw [stays_append_singleton_iff, ← ih names.1, added,
      mem_insertEntry_iff names.2 kept (distinct_keys_ofEntries entries)]
    refine or_congr_right (and_congr_left fun member => ?_)
    exact (display?_names_iff (kept entry member) names.2).not.symm

end Value

namespace AttributeValue

variable {entries : List (Value × Value)} {items : List Value} {w : AttributeValue}

theorem exists_stays (written : unsorted (.map entries) = .ok w) :
    ∃ parts, w = .map parts ∧
      (∀ entry, Stays entries entry → ∃ part ∈ parts, unsorted entry.2 = .ok part.2) ∧
      ∀ part ∈ parts, ∃ entry, Stays entries entry ∧ unsorted entry.2 = .ok part.2 := by
  rw [unsorted, native] at written
  obtain ⟨whole, plain, given⟩ := bind_eq_ok_iff.1 written
  obtain ⟨natives, found, same⟩ := bind_eq_ok_iff.1 plain
  cases same
  obtain ⟨parts, encoded, same⟩ := bind_eq_ok_iff.1 given
  cases same
  rw [nativeEntries_eq_ok_texts_iff] at found
  rw [ofNativeEntries_eq_mapM, mapM_eq_ok_iff] at encoded
  have names : ∀ pair ∈ natives, ∃ s, pair.1 = .text s := by
    intro pair member
    obtain ⟨_, -, key, -⟩ := exists_mem_of_forall₂ found pair member
    obtain ⟨s, -, name⟩ := keyText_eq_ok_iff.1 key
    exact ⟨s, name⟩
  have texts : ∀ entry pair : Value × Value,
      keyText entry.1 = .ok pair.1 ∧ entry.2.native = .ok pair.2 →
        entry.1.display? = pair.1.display? := by
    intro entry pair both
    obtain ⟨s, shown, name⟩ := keyText_eq_ok_iff.1 both.1
    rw [shown, name]
    rfl
  refine ⟨parts, rfl, fun entry stays => ?_, fun part member => ?_⟩
  · obtain ⟨pair, kept, -, plain⟩ := stays.exists_of_forall₂ texts found
    obtain ⟨part, member, written⟩ := exists_mem_of_forall₂ encoded.flip pair
      ((mem_ofEntries_iff names).2 kept)
    obtain ⟨b, value, rfl⟩ := map_eq_ok_iff.1 written
    exact ⟨_, member, bind_eq_ok_iff.2 ⟨_, plain, value⟩⟩
  · obtain ⟨pair, kept, written⟩ := exists_mem_of_forall₂ encoded part member
    obtain ⟨b, value, rfl⟩ := map_eq_ok_iff.1 written
    obtain ⟨entry, stays, -, plain⟩ := ((mem_ofEntries_iff names).1 kept).exists_of_forall₂
      (fun pair entry both => (texts entry pair both).symm) found.flip
    exact ⟨entry, stays, bind_eq_ok_iff.2 ⟨_, plain, value⟩⟩

/-- The attribute value of a set is made from the native forms of its members. -/
theorem exists_natives (written : unsorted (.set items) = .ok w) :
    ∃ natives, List.Forall₂ (fun x n => x.native = .ok n ∧ n.hashFault? = none) items natives ∧
      SetOf (distinct natives) w := by
  rw [unsorted, native] at written
  obtain ⟨whole, plain, given⟩ := bind_eq_ok_iff.1 written
  obtain ⟨natives, found, same⟩ := bind_eq_ok_iff.1 plain
  cases same
  exact ⟨natives, nativeMembers_eq_ok_iff.1 found, ofSet_eq_ok_iff.1 given⟩

end AttributeValue

end TableScan
