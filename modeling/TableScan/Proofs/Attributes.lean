import TableScan.Schema
import TableScan.Proofs.Named

/-! The attributes of a model's schema: each is that of a field, and the last of those with one stored
name. -/

namespace TableScan.Schema

variable {m : Model} {name : String} {f : Field}

theorem named?_foldl_replaceNamed (fields : List Field) (attributes : List (String × Attribute)) :
    named? name (fields.foldl
      (fun attributes f => replaceNamed (Field.storedName f) (Attribute.ofField f) attributes)
      attributes) =
      ((fields.reverse.find? (·.storedName == name)).map Attribute.ofField).or
        (named? name attributes) := by
  induction fields generalizing attributes with
  | nil => rfl
  | cons f fields ih =>
    rw [List.foldl_cons, ih, named?_replaceNamed, List.reverse_cons, List.find?_append]
    by_cases same : f.storedName = name
    · cases fields.reverse.find? (·.storedName == name) <;> simp [same]
    · simp [same]

theorem attribute?_eq (m : Model) (name : String) :
    (ofModel m).attribute? name =
      (m.fields.reverse.find? (·.storedName == name)).map Attribute.ofField := by
  rw [attribute?, ofModel, named?_foldl_replaceNamed]
  simp [named?]

theorem exists_field_of_attribute? {a : Attribute} (found : (ofModel m).attribute? name = some a) :
    ∃ f ∈ m.fields, f.storedName = name ∧ a = .ofField f := by
  rw [attribute?_eq, Option.map_eq_some_iff] at found
  obtain ⟨f, found, rfl⟩ := found
  have stored := List.find?_some found
  exact ⟨f, by simpa using List.mem_of_find?_eq_some found, by simpa using stored, rfl⟩

theorem isSome_field?_of_mem (member : f ∈ m.fields) : (m.field? f.name).isSome := by
  rw [Model.field?, List.find?_isSome]
  exact ⟨f, member, beq_self_eq_true _⟩

theorem field?_of_mem (distinct : (m.fields.map (·.name)).Nodup) (member : f ∈ m.fields) :
    m.field? f.name = some f :=
  find?_of_nodup distinct member

/-- Where stored names differ, every field has an attribute of its own. -/
theorem attribute?_storedName (distinct : (m.fields.map Field.storedName).Nodup)
    (member : f ∈ m.fields) : (ofModel m).attribute? f.storedName = some (.ofField f) := by
  have backwards : (m.fields.reverse.map Field.storedName).Nodup := by
    rw [List.map_reverse]
    exact List.nodup_reverse.2 distinct
  rw [attribute?_eq, find?_of_nodup backwards (List.mem_reverse.2 member)]
  rfl

end TableScan.Schema
