import TableScan.Proofs.Equality
import TableScan.Proofs.Escape

/-! What reading a row does to a record. Main statement: the order of the entries does not matter, since
each field that a key stands for gets what the key's content brings it, and all else stays. -/

namespace TableScan

open Attempt Value

structure Row where
  entries : List (Value × Value)
  different : Distinct (entries.map (·.1))

def Row.toValue (row : Row) : Value := .map row.entries

/-- The records have the same values for the same fields, of which the same were given, and both are
new or both are not. -/
structure Record.Alike (r r' : Record) : Prop where
  values : ∀ name, r.value? name = r'.value? name
  assigned : ∀ name, name ∈ r.assigned ↔ name ∈ r'.assigned
  isNew : r.isNew = r'.isNew

namespace Model

/-- The field that a key of a row stands for: of those stored under its text the last. -/
def fieldAt? (m : Model) (key : Value) : Option Field :=
  key.text?.bind fun name => m.fields.reverse.find? (·.storedName == name)

/-- The model lets the field be set to a value, and the field then has the other: that very value, or
what the field makes of it where the model checks what is set. -/
structure Takes (m : Model) (f : Field) (v w : Value) : Prop where
  settable : m.frozen = false
  fieldSettable : f.frozen = false
  taken : if m.validatesAssignment then f.validate v = .ok w else v = w

/-- What a row has for the field is decoded to a value that gives the field the value `w`. -/
def Brings (m : Model) (f : Field) (content w : Value) : Prop :=
  ∃ v, (Attribute.ofField f).decode content = .ok v ∧ m.Takes f v w

def Reads (m : Model) (entry : Value × Value) : Prop :=
  ∀ f, m.fieldAt? entry.1 = some f → ∃ w, m.Brings f entry.2 w

/-- The second record is the first with the entries read into it: the fields that their keys stand for
have the values that they bring and are among those given, and all else is as it was. -/
structure Fills (m : Model) (entries : List (Value × Value)) (r r' : Record) : Prop where
  filled : ∀ entry ∈ entries, ∀ f, m.fieldAt? entry.1 = some f →
    f.name ∈ r'.assigned ∧ ∃ w, m.Brings f entry.2 w ∧ r'.value? f.name = some w
  others : ∀ name, (∀ entry ∈ entries, ∀ f, m.fieldAt? entry.1 = some f → f.name ≠ name) →
    r'.value? name = r.value? name ∧ (name ∈ r'.assigned ↔ name ∈ r.assigned)
  isNew : r'.isNew = r.isNew

variable {m : Model} {f g : Field} {key key' content v w x : Value} {r r' : Record}
  {entries : List (Value × Value)}

theorem fieldAt?_eq_some (declared : m.fieldAt? key = some f) :
    f ∈ m.fields ∧ key.text? = some f.storedName := by
  obtain ⟨name, text, found⟩ := Option.bind_eq_some_iff.1 declared
  have stored : f.storedName = name := by simpa using List.find?_some found
  exact ⟨List.mem_reverse.1 (List.mem_of_find?_eq_some found), stored ▸ text⟩

theorem attribute?_fieldAt (m : Model) (key : Value) :
    key.text?.bind (Schema.ofModel m).attribute? = (m.fieldAt? key).map Attribute.ofField := by
  rw [fieldAt?, Option.map_bind]
  congr
  funext name
  exact Schema.attribute?_eq m name

theorem fieldAt?_eq_of_same (equal : same key key' = true) : m.fieldAt? key = m.fieldAt? key' := by
  rw [fieldAt?, fieldAt?, text?_eq_of_same equal]

theorem name_ne_of_different (names : (m.fields.map (·.name)).Nodup)
    (declared : m.fieldAt? key = some f) (declared' : m.fieldAt? key' = some g)
    (different : same key key' = false) : f.name ≠ g.name := by
  intro same
  obtain ⟨member, text⟩ := fieldAt?_eq_some declared
  obtain ⟨member', text'⟩ := fieldAt?_eq_some declared'
  have one : f = g := List.inj_on_of_nodup_map names member member' same
  subst one
  rw [same_of_text? text text'] at different
  cases different

def setting (m : Model) (f : Field) (v : Value) : Except Failure Value :=
  if m.frozen then .error (.invalid [⟨.frozenInstance, [.name f.name]⟩])
  else if f.frozen then .error (.invalid [⟨.frozenField, [.name f.name]⟩])
  else if m.validatesAssignment then
    (f.validate v).mapError fun rejection => .ofRejection (rejection.under [.name f.name])
  else .ok v

def bring (m : Model) (f : Field) (content : Value) : Except Failure Value := do
  let v ← (Attribute.ofField f).decode content
  (m.setting f v).mapError (Schema.assignmentFailure f.storedName)

theorem setting_eq_ok_iff : m.setting f v = .ok w ↔ m.Takes f v w := by
  have takes_iff : m.Takes f v w ↔ m.frozen = false ∧ f.frozen = false ∧
      if m.validatesAssignment then f.validate v = .ok w else v = w :=
    ⟨fun ⟨one, other, taken⟩ => ⟨one, other, taken⟩, fun ⟨one, other, taken⟩ => ⟨one, other, taken⟩⟩
  rw [takes_iff, setting]
  cases m.frozen with
  | true => simp
  | false =>
    cases f.frozen with
    | true => simp
    | false =>
      cases m.validatesAssignment with
      | false => simp
      | true => cases f.validate v <;> simp [Except.mapError]

theorem bring_eq_ok_iff : m.bring f content = .ok w ↔ m.Brings f content w := by
  simp only [bring, bind_eq_ok_iff, mapError_eq_ok_iff, setting_eq_ok_iff, Brings]

theorem Brings.unique (brings : m.Brings f content w) (brings' : m.Brings f content x) : w = x := by
  rw [← bring_eq_ok_iff] at brings brings'
  exact Except.ok.inj (brings.symm.trans brings')

/-- What setting a field comes to does not depend on the record. -/
theorem assign_eq (declared : m.field? f.name = some f) (v : Value) (r : Record) :
    r.assign m f.name v = (m.setting f v).map (r.put f.name) := by
  unfold Record.assign setting
  simp only [declared]
  split
  · rfl
  · split
    · rfl
    · split
      · cases f.validate v <;> rfl
      · rfl

end Model

namespace Schema

open Model

variable {m : Model} {f g : Field} {key content v w x : Value} {r r' : Record}
  {entries others : List (Value × Value)}

theorem decodeEntry_of_none (undeclared : m.fieldAt? key = none) (content : Value) (r : Record) :
    (ofModel m).decodeEntry m key content r = .ok r := by
  unfold decodeEntry
  rw [attribute?_fieldAt, undeclared]
  rfl

/-- What an entry comes to does not depend on the record. -/
theorem decodeEntry_of_some (names : (m.fields.map (·.name)).Nodup)
    (declared : m.fieldAt? key = some f) (content : Value) (r : Record) :
    (ofModel m).decodeEntry m key content r = (m.bring f content).map (r.put f.name) := by
  unfold decodeEntry bring
  rw [attribute?_fieldAt, declared]
  simp only [Option.map_some]
  cases (Attribute.ofField f).decode content with
  | error failure => rfl
  | ok v =>
    simp only [ok_bind]
    rw [show (Attribute.ofField f).field = f.name from rfl,
      assign_eq (field?_of_mem names (fieldAt?_eq_some declared).1)]
    cases m.setting f v <;> rfl

theorem exists_decodeEntry_iff (names : (m.fields.map (·.name)).Nodup) (r : Record) :
    (∃ next, (ofModel m).decodeEntry m key content r = .ok next) ↔ m.Reads (key, content) := by
  unfold Model.Reads
  cases declared : m.fieldAt? key with
  | none => simp [decodeEntry_of_none declared]
  | some f => simp [decodeEntry_of_some names declared, map_eq_ok_iff, bring_eq_ok_iff]

/-- Entries are read to their end by reading the first and then the others. -/
theorem decodeEntries_cons_done_iff (s : Schema) :
    s.decodeEntries m ((key, content) :: entries) r = (r', none) ↔
      ∃ next, s.decodeEntry m key content r = .ok next ∧
        s.decodeEntries m entries next = (r', none) := by
  rw [decodeEntries]
  cases s.decodeEntry m key content r <;> simp

theorem decodeEntries_done_iff (names : (m.fields.map (·.name)).Nodup)
    (entries : List (Value × Value)) (r : Record) :
    ((ofModel m).decodeEntries m entries r).2 = none ↔ ∀ entry ∈ entries, m.Reads entry := by
  induction entries generalizing r with
  | nil => simp [decodeEntries]
  | cons entry entries ih =>
    obtain ⟨key, content⟩ := entry
    rw [List.forall_mem_cons, ← exists_decodeEntry_iff names r, decodeEntries]
    cases step : (ofModel m).decodeEntry m key content r with
    | error failure => simp
    | ok next => simp [ih next]

theorem fills_cons {next : Record} (names : (m.fields.map (·.name)).Nodup)
    (step : (ofModel m).decodeEntry m key content r = .ok next)
    (different : ∀ entry ∈ entries, same key entry.1 = false) (rest : m.Fills entries next r') :
    m.Fills ((key, content) :: entries) r r' := by
  cases declared : m.fieldAt? key with
  | none =>
    cases (decodeEntry_of_none declared content r).symm.trans step
    refine ⟨?_, fun name other => rest.others name fun entry member => ?_, rest.isNew⟩
    · refine List.forall_mem_cons.2 ⟨fun f found => ?_, rest.filled⟩
      cases declared.symm.trans found
    · exact other entry (List.mem_cons_of_mem _ member)
  | some f =>
    rw [decodeEntry_of_some names declared, map_eq_ok_iff] at step
    obtain ⟨w, brings, rfl⟩ := step
    rw [bring_eq_ok_iff] at brings
    obtain ⟨value, given⟩ := rest.others f.name fun entry member g found =>
      (name_ne_of_different names declared found (different entry member)).symm
    refine ⟨?_, fun name other => ?_, rest.isNew⟩
    · refine List.forall_mem_cons.2 ⟨fun g found => ?_, rest.filled⟩
      cases declared.symm.trans found
      refine ⟨given.2 (Record.has_put r f.name w).given, w, brings, ?_⟩
      rw [value, Record.value?_put, if_pos rfl]
    · rw [List.forall_mem_cons] at other
      have differs : f.name ≠ name := other.1 f declared
      obtain ⟨value, given⟩ := rest.others name other.2
      rw [value, given, Record.value?_put, if_neg differs, Record.mem_assigned_put]
      exact ⟨rfl, or_iff_right (Ne.symm differs)⟩

/-- Entries with different keys that are read to their end fill the record. -/
theorem fills_of_done (names : (m.fields.map (·.name)).Nodup)
    (different : Distinct (entries.map (·.1)))
    (done : (ofModel m).decodeEntries m entries r = (r', none)) : m.Fills entries r r' := by
  induction entries generalizing r with
  | nil =>
    cases done
    exact ⟨nofun, fun name _ => ⟨rfl, Iff.rfl⟩, rfl⟩
  | cons entry entries ih =>
    rw [List.map_cons, Distinct, List.pairwise_cons, List.forall_mem_map] at different
    obtain ⟨next, step, done⟩ := (decodeEntries_cons_done_iff _).1 done
    exact fills_cons names step different.1 (ih different.2 done)

/-- What entries fill a record with does not depend on their order. -/
theorem Fills.alike {one other : Record} (same : ∀ entry, entry ∈ entries ↔ entry ∈ others)
    (fills : m.Fills entries r one) (fills' : m.Fills others r other) : one.Alike other := by
  have alike : ∀ name, one.value? name = other.value? name ∧
      (name ∈ one.assigned ↔ name ∈ other.assigned) := by
    intro name
    by_cases set : ∃ entry ∈ entries, ∃ f, m.fieldAt? entry.1 = some f ∧ f.name = name
    · obtain ⟨entry, member, f, declared, rfl⟩ := set
      obtain ⟨given, w, brings, value⟩ := fills.filled entry member f declared
      obtain ⟨given', w', brings', value'⟩ := fills'.filled entry ((same entry).1 member) f declared
      rw [value, value', brings.unique brings']
      exact ⟨rfl, iff_of_true given given'⟩
    · have apart : ∀ entry ∈ entries, ∀ f, m.fieldAt? entry.1 = some f → f.name ≠ name :=
        fun entry member f declared named => set ⟨entry, member, f, declared, named⟩
      obtain ⟨value, given⟩ := fills.others name apart
      obtain ⟨value', given'⟩ := fills'.others name fun entry member =>
        apart entry ((same entry).2 member)
      exact ⟨value.trans value'.symm, given.trans given'.symm⟩
  exact ⟨fun name => (alike name).1, fun name => (alike name).2,
    fills.isNew.trans fills'.isNew.symm⟩

/-- A row with its entries in another order is read to its end just if the row is, and then into a
record alike. -/
theorem decodeInto_of_perm (names : (m.fields.map (·.name)).Nodup) {row other : Row}
    (perm : other.entries.Perm row.entries) (r : Record) :
    (((ofModel m).decodeInto m other.toValue r).2 = none ↔
        ((ofModel m).decodeInto m row.toValue r).2 = none) ∧
      ∀ one another, (ofModel m).decodeInto m other.toValue r = (one, none) →
        (ofModel m).decodeInto m row.toValue r = (another, none) → one.Alike another := by
  constructor
  · exact (decodeEntries_done_iff names _ _).trans
      ((forall_congr' fun entry => imp_congr_left perm.mem_iff).trans
        (decodeEntries_done_iff names _ _).symm)
  · intro one another done done'
    have fills := fills_of_done names other.different done
    have fills' := fills_of_done names row.different done'
    exact Fills.alike (fun entry => perm.mem_iff) fills fills'

end Schema

namespace Sample

open Schema

def twins : Model where
  name := "Twins"
  table := none
  fields := [
    { Field.plain "first" .text (some (.text "")) with externalName := some "label" },
    { Field.plain "second" .text none with externalName := some "label" },
    .plain "count" .int (some (.int 0))]
  validatesAssignment := false
  frozen := false

theorem names_twins : (twins.fields.map (·.name)).Nodup := by decide

def twinRow : Row where
  entries := [
    (.text "label", .map [(.text "S", .text "a")]),
    (.text "legacy", .null),
    (.text "count", .map [(.text "N", .text "7")])]
  different := by unfold Distinct; decide

def turnedTwinRow : Row where
  entries := twinRow.entries.reverse
  different := by unfold Distinct; decide

def twin : Record where
  values := [("first", .text ""), ("count", .int 7), ("second", .text "a")]
  assigned := ["second", "count"]
  isNew := false

/-- Only the order in which the fields were given differs. -/
theorem decodeInto_of_perm_twins :
    turnedTwinRow.entries.Perm twinRow.entries ∧
      (ofModel twins).decodeInto twins twinRow.toValue twins.newPersisted = (twin, none) ∧
      ((ofModel twins).decodeInto twins turnedTwinRow.toValue twins.newPersisted).2 = none ∧
      Record.Alike { twin with assigned := ["count", "second"] } twin := by
  have perm : turnedTwinRow.entries.Perm twinRow.entries := List.reverse_perm _
  have read : (ofModel twins).decodeInto twins twinRow.toValue twins.newPersisted = (twin, none) := rfl
  obtain ⟨either, alike⟩ := decodeInto_of_perm names_twins perm twins.newPersisted
  exact ⟨perm, read, either.2 (congrArg Prod.snd read), alike _ twin rfl read⟩

end Sample

end TableScan
