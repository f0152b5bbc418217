import Mathlib.Data.List.Nodup
import TableScan.Record

/-! Entries by name: looking a name up, and replacing what stands at it; and the same for the fields of
a record. -/

namespace TableScan

variable {α : Type} {entries : List (String × α)} {name : String}

theorem named?_cons (entry : String × α) (entries : List (String × α)) (name : String) :
    named? name (entry :: entries) = if entry.1 = name then some entry.2 else named? name entries := by
  by_cases same : entry.1 = name
  · simp [named?, same]
  · simp [named?, same]

theorem isSome_named?_iff : (named? name entries).isSome ↔ name ∈ entries.map (·.1) := by
  simp [named?, List.find?_isSome]

theorem replaceNamed_of_not_mem (x : α) (absent : name ∉ entries.map (·.1)) :
    replaceNamed name x entries = entries ++ [(name, x)] := by
  induction entries with
  | nil => rfl
  | cons entry entries ih =>
    simp only [List.map_cons, List.mem_cons, not_or] at absent
    rw [replaceNamed, if_neg (Ne.symm absent.1), ih absent.2, List.cons_append]

theorem named?_replaceNamed (other : String) (x : α) (entries : List (String × α)) :
    named? name (replaceNamed other x entries) =
      if other = name then some x else named? name entries := by
  induction entries with
  | nil => simp [replaceNamed, named?_cons]
  | cons entry entries ih =>
    unfold replaceNamed
    split
    · next same =>
      rw [named?_cons, named?_cons, same]
      split <;> rfl
    · next differs =>
      rw [named?_cons, named?_cons, ih]
      split
      · next found => rw [if_neg (found ▸ Ne.symm differs)]
      · rfl

theorem replaceNamed_replaceNamed (x y : α) (entries : List (String × α)) :
    replaceNamed name y (replaceNamed name x entries) = replaceNamed name y entries := by
  induction entries with
  | nil => simp [replaceNamed]
  | cons entry entries ih =>
    obtain ⟨other, z⟩ := entry
    by_cases same : other = name
    · simp [replaceNamed, same]
    · simp [replaceNamed, same, ih]

theorem mem_names_replaceNamed {other : String} (x : α) (known : name ∈ entries.map (·.1)) :
    name ∈ (replaceNamed other x entries).map (·.1) := by
  rw [← isSome_named?_iff] at known ⊢
  rw [named?_replaceNamed]
  split
  · rfl
  · exact known

theorem replaceNamed_comm {other : String} (x y : α) (differs : other ≠ name)
    (known : name ∈ entries.map (·.1)) :
    replaceNamed name y (replaceNamed other x entries) =
      replaceNamed other x (replaceNamed name y entries) := by
  induction entries with
  | nil => cases known
  | cons entry entries ih =>
    obtain ⟨first, z⟩ := entry
    by_cases here : first = name
    · subst here
      simp [replaceNamed, Ne.symm differs]
    · have later : name ∈ entries.map (·.1) := by simpa [Ne.symm here] using known
      by_cases there : first = other
      · simp [replaceNamed, there, differs]
      · simp [replaceNamed, here, there, ih later]

theorem find?_of_nodup {β : Type} {items : List β} {key : β → String} {x : β}
    (distinct : (items.map key).Nodup) (member : x ∈ items) :
    items.find? (key · == key x) = some x := by
  induction items with
  | nil => cases member
  | cons first items ih =>
    rw [List.map_cons, List.nodup_cons] at distinct
    rcases List.mem_cons.1 member with rfl | later
    · simp
    · have differs : key first ≠ key x := fun same =>
        distinct.1 (same ▸ List.mem_map_of_mem later)
      rw [List.find?_cons_of_neg (by simpa using differs), ih distinct.2 later]

namespace Record

variable {r : Record} {v w : Value}

theorem value?_put (r : Record) (other : String) (v : Value) (name : String) :
    (r.put other v).value? name = if other = name then some v else r.value? name :=
  named?_replaceNamed other v r.values

theorem mem_assigned_put {other : String} :
    other ∈ (r.put name v).assigned ↔ other = name ∨ other ∈ r.assigned := by
  unfold put
  by_cases given : name ∈ r.assigned
  · simp only [List.contains_eq_mem, given, decide_true, if_true]
    exact ⟨.inr, fun either => either.elim (fun same => same ▸ given) id⟩
  · simp [given, or_comm]

structure Has (r : Record) (name : String) : Prop where
  value : name ∈ r.values.map (·.1)
  given : name ∈ r.assigned

theorem has_put (r : Record) (name : String) (v : Value) : (r.put name v).Has name where
  value := by
    rw [← isSome_named?_iff]
    exact Option.isSome_of_eq_some ((value?_put r name v name).trans (if_pos rfl))
  given := mem_assigned_put.2 (.inl rfl)

theorem Has.put (has : r.Has name) (other : String) (v : Value) : (r.put other v).Has name where
  value := mem_names_replaceNamed v has.value
  given := mem_assigned_put.2 (.inr has.given)

theorem put_of_given (given : name ∈ r.assigned) (v : Value) :
    r.put name v = { r with values := replaceNamed name v r.values } := by
  simp [put, given]

theorem put_put (r : Record) (name : String) (v w : Value) :
    (r.put name v).put name w = r.put name w := by
  rw [put_of_given (has_put r name v).given]
  unfold put
  rw [replaceNamed_replaceNamed]

theorem put_comm {other : String} (differs : other ≠ name) (has : r.Has name) (v w : Value) :
    (r.put other v).put name w = (r.put name w).put other v := by
  rw [put_of_given (has.put other v).given, put_of_given has.given]
  unfold put
  rw [replaceNamed_comm v w differs has.value]

end Record

end TableScan
