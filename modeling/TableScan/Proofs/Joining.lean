import TableScan.Proofs.Filling

/-! Rows read into a record one after the other. Main statement: a row is read entry by entry, as far as
the first one that fails; what the model has no field for has no effect; and rows that can be read
are read as the one that they make together. -/

namespace TableScan

open Attempt Value

/-- The row with the entries of another put in: they take the places of those with equal keys, or come
last. -/
def Row.update (row later : Row) : Row where
  entries := ofEntries (row.entries ++ later.entries)
  different := distinct_keys_ofEntries _

/-- The record after rows were read into a new one, each as far as it can be read. -/
def Model.afterRows (m : Model) (rows : List Value) : Record :=
  rows.foldl (fun r row => ((Schema.ofModel m).decodeInto m row r).1) m.newPersisted

namespace Schema

open Model

variable {m : Model} {key content : Value} {r r' : Record} {entries : List (Value × Value)}
  {name : String}

theorem decodeEntries_append (s : Schema) (done : s.decodeEntries m entries r = (r', none))
    (others : List (Value × Value)) :
    s.decodeEntries m (entries ++ others) r = s.decodeEntries m others r' := by
  induction entries generalizing r with
  | nil =>
    cases done
    rfl
  | cons entry entries ih =>
    obtain ⟨next, step, done⟩ := (decodeEntries_cons_done_iff s).1 done
    rw [List.cons_append, decodeEntries, step]
    exact ih done

theorem decodeEntries_filter (entries : List (Value × Value)) (r : Record) :
    (ofModel m).decodeEntries m (entries.filter fun entry => (m.fieldAt? entry.1).isSome) r =
      (ofModel m).decodeEntries m entries r := by
  induction entries generalizing r with
  | nil => rfl
  | cons entry entries ih =>
    obtain ⟨key, content⟩ := entry
    cases declared : m.fieldAt? key with
    | none =>
      rw [List.filter_cons_of_neg (by simp [declared]), ih, decodeEntries,
        decodeEntry_of_none declared]
    | some f =>
      rw [List.filter_cons_of_pos (by simp [declared]), decodeEntries, decodeEntries]
      cases (ofModel m).decodeEntry m key content r with
      | error failure => rfl
      | ok next => exact ih next

/-- A field that was given can be set again before or after an entry for another field is read. -/
theorem decodeEntry_put (names : (m.fields.map (·.name)).Nodup) (has : r.Has name)
    (apart : ∀ f, m.fieldAt? key = some f → f.name ≠ name)
    (step : (ofModel m).decodeEntry m key content r = .ok r') (w : Value) :
    r'.Has name ∧ (ofModel m).decodeEntry m key content (r.put name w) = .ok (r'.put name w) := by
  cases declared : m.fieldAt? key with
  | none =>
    cases (decodeEntry_of_none declared content r).symm.trans step
    exact ⟨has, decodeEntry_of_none declared content _⟩
  | some f =>
    rw [decodeEntry_of_some names declared, map_eq_ok_iff] at step
    obtain ⟨x, brought, rfl⟩ := step
    refine ⟨has.put f.name x, ?_⟩
    rw [decodeEntry_of_some names declared, brought, map_ok,
      Record.put_comm (apart f declared) has]

theorem decodeEntries_put (names : (m.fields.map (·.name)).Nodup) (has : r.Has name)
    (apart : ∀ entry ∈ entries, ∀ f, m.fieldAt? entry.1 = some f → f.name ≠ name)
    (done : (ofModel m).decodeEntries m entries r = (r', none)) (w : Value) :
    (ofModel m).decodeEntries m entries (r.put name w) = (r'.put name w, none) := by
  induction entries generalizing r with
  | nil =>
    cases done
    rfl
  | cons entry entries ih =>
    rw [List.forall_mem_cons] at apart
    obtain ⟨next, step, done⟩ := (decodeEntries_cons_done_iff _).1 done
    obtain ⟨has, again⟩ := decodeEntry_put names has apart.1 step w
    exact (decodeEntries_cons_done_iff _).2 ⟨_, again, ih has apart.2 done⟩

/-- Of two entries with equal keys, with others between them, the later might as well stand in the place
of the earlier. -/
theorem decodeEntries_replaced {key' content' : Value} {next : Record}
    (names : (m.fields.map (·.name)).Nodup) (equal : same key' key = true)
    (different : ∀ entry ∈ entries, same key' entry.1 = false)
    (done : (ofModel m).decodeEntries m ((key', content') :: entries) r = (next, none))
    (step : (ofModel m).decodeEntry m key content next = .ok r') :
    (ofModel m).decodeEntries m ((key', content) :: entries) r = (r', none) := by
  have one : m.fieldAt? key' = m.fieldAt? key := fieldAt?_eq_of_same equal
  obtain ⟨reached, first, done⟩ := (decodeEntries_cons_done_iff _).1 done
  apply (decodeEntries_cons_done_iff _).2
  cases declared : m.fieldAt? key with
  | none =>
    rw [declared] at one
    cases (decodeEntry_of_none one content' r).symm.trans first
    cases (decodeEntry_of_none declared content next).symm.trans step
    exact ⟨r, decodeEntry_of_none one content r, done⟩
  | some f =>
    rw [declared] at one
    rw [decodeEntry_of_some names one, map_eq_ok_iff] at first
    obtain ⟨x, -, rfl⟩ := first
    rw [decodeEntry_of_some names declared, map_eq_ok_iff] at step
    obtain ⟨w, brought, rfl⟩ := step
    refine ⟨r.put f.name w, by rw [decodeEntry_of_some names one, brought, map_ok], ?_⟩
    rw [← Record.put_put r f.name x w]
    apply decodeEntries_put names (Record.has_put r f.name x) _ done w
    intro other member g found
    exact (name_ne_of_different names one found (different other member)).symm

/-- An entry read after others is read with them, in the place of one with an equal key. -/
theorem decodeEntries_insertEntry {next : Record} (names : (m.fields.map (·.name)).Nodup)
    (different : Distinct (entries.map (·.1)))
    (done : (ofModel m).decodeEntries m entries r = (next, none))
    (step : (ofModel m).decodeEntry m key content next = .ok r') :
    (ofModel m).decodeEntries m (insertEntry key content entries) r = (r', none) := by
  induction entries generalizing r with
  | nil =>
    cases done
    exact (decodeEntries_cons_done_iff _).2 ⟨r', step, rfl⟩
  | cons entry entries ih =>
    obtain ⟨key', content'⟩ := entry
    rw [List.map_cons, Distinct, List.pairwise_cons, List.forall_mem_map] at different
    unfold insertEntry
    by_cases equal : same key' key = true
    · rw [if_pos equal]
      exact decodeEntries_replaced names equal different.1 done step
    · rw [if_neg equal]
      obtain ⟨reached, first, done⟩ := (decodeEntries_cons_done_iff _).1 done
      exact (decodeEntries_cons_done_iff _).2 ⟨reached, first, ih different.2 done⟩

/-- Entries that are read to their end are read like the mapping that they make. -/
theorem decodeEntries_ofEntries (names : (m.fields.map (·.name)).Nodup)
    (done : (ofModel m).decodeEntries m entries r = (r', none)) :
    (ofModel m).decodeEntries m (ofEntries entries) r = (r', none) := by
  suffices run : ∀ (kept : List (Value × Value)) (next : Record), Distinct (kept.map (·.1)) →
      (ofModel m).decodeEntries m kept r = (next, none) →
      (ofModel m).decodeEntries m entries next = (r', none) →
      (ofModel m).decodeEntries m
        (entries.foldl (fun kept entry => insertEntry entry.1 entry.2 kept) kept) r = (r', none) from
    run [] r List.Pairwise.nil rfl done
  clear done
  induction entries with
  | nil =>
    intro kept next _ before done
    cases done
    exact before
  | cons entry entries ih =>
    intro kept next different before done
    obtain ⟨reached, step, done⟩ := (decodeEntries_cons_done_iff _).1 done
    exact ih _ reached (distinct_keys_insertEntry different)
      (decodeEntries_insertEntry names different before step) done

theorem decodeEntries_single_eq_some_iff (s : Schema) {failure : Failure} :
    s.decodeEntries m [(key, content)] r = (r, some failure) ↔
      s.decodeEntry m key content r = .error failure := by
  rw [decodeEntries]
  cases s.decodeEntry m key content r <;> simp [decodeEntries]

theorem isNew_decodeEntries (names : (m.fields.map (·.name)).Nodup)
    (entries : List (Value × Value)) (r : Record) :
    ((ofModel m).decodeEntries m entries r).1.isNew = r.isNew := by
  induction entries generalizing r with
  | nil => rfl
  | cons entry entries ih =>
    obtain ⟨key, content⟩ := entry
    rw [decodeEntries]
    cases step : (ofModel m).decodeEntry m key content r with
    | error failure => rfl
    | ok next =>
      refine (ih next).trans ?_
      cases declared : m.fieldAt? key with
      | none => cases (decodeEntry_of_none declared content r).symm.trans step; rfl
      | some f =>
        rw [decodeEntry_of_some names declared, map_eq_ok_iff] at step
        obtain ⟨w, -, rfl⟩ := step
        rfl

theorem isNew_decodeInto (names : (m.fields.map (·.name)).Nodup) (row : Value) (r : Record) :
    ((ofModel m).decodeInto m row r).1.isNew = r.isNew := by
  cases row with
  | map entries => exact isNew_decodeEntries names entries r
  | _ => rfl

theorem isNew_afterRows (names : (m.fields.map (·.name)).Nodup) (rows : List Value) :
    (m.afterRows rows).isNew = false := by
  induction rows using List.reverseRecOn with
  | nil => rfl
  | append_singleton rows row ih =>
    rw [afterRows, List.foldl_append]
    exact (isNew_decodeInto names row _).trans ih

structure ReadsByEntry (m : Model) (r : Record) : Prop where
  isNew : r.isNew = false
  /-- A row is read to its end just if each of its entries can be read. -/
  ends : ∀ row : Row,
    ((ofModel m).decodeInto m row.toValue r).2 = none ↔ ∀ entry ∈ row.entries, m.Reads entry
  /-- What the model has no field for has no effect. -/
  skips : ∀ row : Row, (ofModel m).decodeInto m row.toValue r =
    (ofModel m).decodeInto m (.map (row.entries.filter fun entry => (m.fieldAt? entry.1).isSome)) r
  fills : ∀ (row : Row) (r' : Record),
    (ofModel m).decodeInto m row.toValue r = (r', none) → m.Fills row.entries r r'
  /-- A failure leaves what the entries before the one that fails have set. -/
  stops : ∀ (row : Row) (r' : Record) (failure : Failure),
    (ofModel m).decodeInto m row.toValue r = (r', some failure) ↔
      ∃ before entry after, row.entries = before ++ entry :: after ∧
        (ofModel m).decodeInto m (.map before) r = (r', none) ∧
        (ofModel m).decodeInto m (.map [entry]) r' = (r', some failure)
  joins : ∀ (row later : Row) (r' r'' : Record),
    (ofModel m).decodeInto m row.toValue r = (r', none) →
    (ofModel m).decodeInto m later.toValue r' = (r'', none) →
    (ofModel m).decodeInto m (row.update later).toValue r = (r'', none)

/-- Whatever rows were read into a new record before, further rows are read into it entry by entry. -/
theorem reads_by_entry (names : (m.fields.map (·.name)).Nodup) (earlier : List Value) :
    ReadsByEntry m (m.afterRows earlier) where
  isNew := isNew_afterRows names earlier
  ends row := decodeEntries_done_iff names row.entries _
  skips row := (decodeEntries_filter row.entries _).symm
  fills row r' done := fills_of_done names row.different done
  stops row r' failure := by
    refine (decodeEntries_eq_some_iff _ _ _ _).trans ?_
    simp only [Prod.exists, decodeInto, decodeEntries_single_eq_some_iff]
  joins row later r' r'' done done' := by
    have both := (decodeEntries_append _ done later.entries).trans done'
    exact decodeEntries_ofEntries names both

/-- Every field whose stored name is a key of a row has just the value that the key's content is decoded
to, and was given. -/
def HoldsDecoded (m : Model) : Prop :=
  ∀ (row : Row) (r : Record), (ofModel m).decodeInto m row.toValue m.newPersisted = (r, none) →
    ∀ f ∈ m.fields, ∀ entry ∈ row.entries, entry.1.text? = some f.storedName →
      ∃ v, (Attribute.ofField f).decode entry.2 = .ok v ∧ r.value? f.name = some v ∧
        f.name ∈ r.assigned

end Schema

namespace Sample

open Schema

def spoiltRow : Value :=
  .map [(.text "count", .map [(.text "N", .text "9")]), (.text "label", .map [(.text "N", .text "1")])]

def laterTwinRow : Row where
  entries := [(.text "label", .map [(.text "S", .text "b")])]
  different := List.pairwise_singleton _ _

/-- A record into which a row was read in part is filled by a further row, and by two rows as by one. -/
theorem reads_by_entry_twins :
    (twins.fields.map (·.name)).Nodup ∧ (twins.afterRows [spoiltRow]).value? "count" = some (.int 9) ∧
      twins.Fills twinRow.entries (twins.afterRows [spoiltRow])
        { twin with assigned := ["count", "second"] } ∧
      (ofModel twins).decodeInto twins (twinRow.update laterTwinRow).toValue
          (twins.afterRows [spoiltRow]) =
        (⟨[("first", .text ""), ("count", .int 7), ("second", .text "b")], ["count", "second"], false⟩,
          none) := by
  have entrywise := reads_by_entry names_twins [spoiltRow]
  exact ⟨names_twins, rfl, entrywise.fills twinRow _ rfl, entrywise.joins twinRow laterTwinRow _ _ rfl rfl⟩

def graded : Model where
  name := "Graded"
  table := none
  fields := [.plain "count" .int none]
  validatesAssignment := true
  frozen := false

def gradeRow : Row where
  entries := [(.text "count", .map [(.text "S", .member "Grade" .plain "FIVE" (.text "5"))])]
  different := List.pairwise_singleton _ _

/-- Of two fields with one stored name the first does not get the value, and a value that is checked
once more when it is set need not stay as it was decoded. -/
theorem not_forall_holdsDecoded :
    (¬∀ m : Model, (m.fields.map (·.name)).Nodup → m.validatesAssignment = false → HoldsDecoded m) ∧
      ¬∀ m : Model, (m.fields.map (·.name)).Nodup → (m.fields.map Field.storedName).Nodup →
        HoldsDecoded m := by
  constructor
  · intro holds
    obtain ⟨v, -, -, given⟩ := holds twins names_twins rfl twinRow twin rfl
      { Field.plain "first" .text (some (.text "")) with externalName := some "label" }
      (by simp [twins]) _ List.mem_cons_self rfl
    simp [twin, Field.plain] at given
  · intro holds
    obtain ⟨v, decoded, held, -⟩ := holds graded (by decide) (by decide) gradeRow
      ⟨[("count", .int 5)], ["count"], false⟩ rfl
      (.plain "count" .int none) (by simp [graded]) _ List.mem_cons_self rfl
    have text : (Attribute.ofField (.plain "count" .int none)).decode
        (.map [(.text "S", .member "Grade" .plain "FIVE" (.text "5"))]) = .ok (.text "5") := rfl
    cases text.symm.trans decoded
    cases held

end Sample

end TableScan
