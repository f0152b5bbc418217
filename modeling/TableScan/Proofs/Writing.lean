import TableScan.Proofs.Attempt
import TableScan.Proofs.DecimalText
import TableScan.Proofs.Keeping

/-! What kept values are written as, part by part. -/

namespace TableScan

open Attempt Value

variable {t : FieldType} {v w x y : Value} {a : AttributeValue} {items : List Value}

namespace Value

theorem nativeItems_eq_mapM (items : List Value) : nativeItems items = items.mapM native := by
  induction items with
  | nil => rfl
  | cons v items ih => rw [nativeItems, List.mapM_cons, ih]

theorem hashed_eq_ok_iff : hashed v = .ok w ↔ v = w ∧ v.hashFault? = none := by
  unfold hashed
  cases v.hashFault? <;> simp

/-- The members of a native set are the native forms of the items, each of which can be a member. -/
theorem nativeMembers_eq_ok_iff {natives : List Value} :
    nativeMembers items = .ok natives ↔
      List.Forall₂ (fun x n => x.native = .ok n ∧ n.hashFault? = none) items natives := by
  induction items generalizing natives with
  | nil => simp [nativeMembers, eq_comm]
  | cons v items ih =>
    simp only [nativeMembers, bind_eq_ok_iff, hashed_eq_ok_iff, ih, pure_eq_ok, Except.ok.injEq]
    constructor
    · intro given
      obtain ⟨n, plain, _, ⟨rfl, hashes⟩, rest, others, rfl⟩ := given
      exact .cons ⟨plain, hashes⟩ others
    · intro given
      rcases given with _ | ⟨⟨plain, hashes⟩, others⟩
      exact ⟨_, plain, _, ⟨rfl, hashes⟩, _, others, rfl⟩

theorem nativeEntries_eq_ok_iff {entries natives : List (Value × Value)}
    (names : ∀ entry ∈ entries, ∃ s, entry.1 = .text s) :
    nativeEntries entries = .ok natives ↔
      List.Forall₂ (fun entry pair => entry.1 = pair.1 ∧ native entry.2 = .ok pair.2) entries natives := by
  induction entries generalizing natives with
  | nil => simp [nativeEntries, eq_comm]
  | cons entry entries ih =>
    obtain ⟨k, v⟩ := entry
    rw [List.forall_mem_cons] at names
    obtain ⟨⟨s, rfl⟩, names⟩ := names
    have key : keyText (.text s) = .ok (.text s) := rfl
    simp only [nativeEntries, key, ok_bind, bind_eq_ok_iff, ih names, pure_eq_ok, Except.ok.injEq]
    constructor
    · intro given
      obtain ⟨native, one, rest, others, rfl⟩ := given
      exact .cons ⟨rfl, one⟩ others
    · intro given
      rcases given with _ | @⟨_, ⟨_, native⟩, _, _, ⟨rfl, one⟩, others⟩
      exact ⟨_, one, _, others, rfl⟩

mutual

/-- The offset that a moment has does not depend on whether it was read. -/
theorem native_reread (v : Value) : v.reread.native = v.native := by
  cases v with
  | datetime t => exact congrArg (fun s => Except.ok (Value.text s)) t.toText_asRead
  | list items | tuple items => rw [reread, native, native, nativeItems_rereadAll items]
  | map entries => rw [reread, native, native, nativeEntries_rereadEntries entries]
  | _ => rfl
termination_by structural v

theorem nativeItems_rereadAll (items : List Value) :
    nativeItems (rereadAll items) = nativeItems items := by
  cases items with
  | nil => rfl
  | cons v items => rw [rereadAll, nativeItems, nativeItems, native_reread v, nativeItems_rereadAll items]
termination_by structural items

theorem nativeEntries_rereadEntries (entries : List (Value × Value)) :
    nativeEntries (rereadEntries entries) = nativeEntries entries := by
  cases entries with
  | nil => rfl
  | cons entry entries =>
    obtain ⟨k, v⟩ := entry
    rw [rereadEntries, nativeEntries, nativeEntries, native_reread v,
      nativeEntries_rereadEntries entries]
termination_by structural entries

end

end Value

namespace AttributeValue

/-- The attribute value of a value, with the members of a set in the order of the set. -/
def unsorted (v : Value) : Except Fault AttributeValue := do ofNative (← v.native)

theorem ofValue_eq (v : Value) : ofValue v = (unsorted v).map sorted := by
  rw [ofValue, unsorted]
  cases v.native with
  | error cause => rfl
  | ok native => rw [ok_bind, ok_bind]; cases ofNative native <;> rfl

theorem unsorted_reread (v : Value) : unsorted v.reread = unsorted v := by
  rw [unsorted, native_reread, unsorted]

theorem ofNativeItems_eq_mapM (items : List Value) : ofNativeItems items = items.mapM ofNative := by
  induction items with
  | nil => rfl
  | cons v items ih => rw [ofNativeItems, List.mapM_cons, ih]

theorem ofNativeEntries_eq_mapM (entries : List (Value × Value)) :
    ofNativeEntries entries = entries.mapM fun entry => (ofNative entry.2).map (entry.1.display, ·) := by
  induction entries with
  | nil => rfl
  | cons entry entries ih =>
    rw [ofNativeEntries, List.mapM_cons, ih]
    cases ofNative entry.2 <;> rfl

theorem unsorted_list_iff :
    unsorted (.list items) = .ok a ↔
      ∃ parts, List.Forall₂ (fun x b => unsorted x = .ok b) items parts ∧ a = .list parts := by
  have whole : unsorted (.list items) = (items.mapM native >>= (·.mapM ofNative)).map .list := by
    rw [unsorted, native, nativeItems_eq_mapM]
    cases items.mapM native with
    | error cause => rfl
    | ok natives =>
      simp only [ok_bind, pure_eq_ok, ofNative, ofNativeItems_eq_mapM]
      cases natives.mapM ofNative <;> rfl
  rw [whole, map_eq_ok_iff]
  simp only [mapM_bind_mapM_eq_ok_iff, eq_comm (a := a)]
  rfl

section Entries

variable {entries : List (Value × Value)}

theorem ofEntries_natives {natives : List (Value × Value)}
    (names : ∀ entry ∈ entries, ∃ s, entry.1 = .text s) (different : Distinct (entries.map (·.1)))
    (found : nativeEntries entries = .ok natives) : ofEntries natives = natives := by
  have same : List.Forall₂ (· = ·) (entries.map (·.1)) (natives.map (·.1)) := by
    rw [List.forall₂_map_left_iff, List.forall₂_map_right_iff]
    exact ((nativeEntries_eq_ok_iff names).1 found).imp fun _ _ both => both.1
  rw [List.forall₂_eq_eq_eq] at same
  exact ofEntries_eq_self (same ▸ different)

theorem nativeEntries_bind_eq_ok_iff {parts : List (String × AttributeValue)}
    (names : ∀ entry ∈ entries, ∃ s, entry.1 = .text s) :
    (nativeEntries entries >>= ofNativeEntries) = .ok parts ↔
      List.Forall₂ (fun entry part => entry.1 = .text part.1 ∧ unsorted entry.2 = .ok part.2)
        entries parts := by
  simp only [ofNativeEntries_eq_mapM, bind_eq_ok_iff, nativeEntries_eq_ok_iff names, mapM_eq_ok_iff,
    forall₂_comp_iff]
  constructor
  · intro each
    refine forall₂_imp_of_mem ?_ each
    intro entry member part given
    obtain ⟨s, named⟩ := names entry member
    obtain ⟨_, v⟩ := entry
    cases named
    obtain ⟨⟨_, native⟩, ⟨rfl, found⟩, written⟩ := given
    obtain ⟨b, done, rfl⟩ := map_eq_ok_iff.1 written
    exact ⟨rfl, bind_eq_ok_iff.2 ⟨native, found, done⟩⟩
  · intro each
    refine each.imp ?_
    intro entry part given
    obtain ⟨_, v⟩ := entry
    obtain ⟨s, b⟩ := part
    obtain ⟨rfl, written⟩ := given
    obtain ⟨native, found, written⟩ := bind_eq_ok_iff.1 written
    exact ⟨(.text s, native), ⟨rfl, found⟩, map_eq_ok_iff.2 ⟨b, written, rfl⟩⟩

theorem unsorted_map_iff (names : ∀ entry ∈ entries, ∃ s, entry.1 = .text s)
    (different : Distinct (entries.map (·.1))) :
    unsorted (.map entries) = .ok a ↔
      ∃ parts, List.Forall₂ (fun entry part => entry.1 = .text part.1 ∧ unsorted entry.2 = .ok part.2)
        entries parts ∧ a = .map parts := by
  simp only [← nativeEntries_bind_eq_ok_iff names, bind_eq_ok_iff]
  rw [unsorted, native, bind_assoc, bind_eq_ok_iff]
  constructor
  · intro given
    obtain ⟨natives, found, written⟩ := given
    rw [ofEntries_natives names different found, pure_eq_ok, ok_bind, ofNative, bind_eq_ok_iff] at written
    obtain ⟨parts, written, same⟩ := written
    cases same
    exact ⟨parts, ⟨natives, found, written⟩, rfl⟩
  · intro given
    obtain ⟨parts, ⟨natives, found, written⟩, rfl⟩ := given
    refine ⟨natives, found, ?_⟩
    rw [ofEntries_natives names different found, pure_eq_ok, ok_bind, ofNative, written]
    rfl

end Entries

end AttributeValue

end TableScan
