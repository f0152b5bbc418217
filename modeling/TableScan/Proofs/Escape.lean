import TableScan.Sample
import TableScan.Scan
import TableScan.Proofs.Attributes
import TableScan.Proofs.Overrun

/-! What reading rows fails with. Main statement: a failure names the attribute that cannot be decoded,
or the row that is none, unless the first entry to fail brings a fault past the reader: a number that
the store's format cannot hold, or a fault while the value is fitted to the field or assigned. -/

namespace TableScan

open Attempt

def Failure.isDecoding : Failure → Bool
  | .decoding _ _ => true
  | _ => false

namespace Schema

/-- The content of an attribute ends its reading in a fault that is not reported with the attribute. -/
inductive Escapes (m : Model) (a : Attribute) (content : Value) (cause : Fault) : Prop where
  | number (overruns : content.Overruns cause)
  | fitting {native : Value} (read : content.ofTagged = .ok native)
    (faulty : Coercion.coerce a.type native = .error (.fault cause))
  | setting {v : Value} {f : Field} (decoded : a.decode content = .ok v)
    (field : m.field? a.field = some f) (settable : m.frozen = false ∧ f.frozen = false)
    (validates : m.validatesAssignment = true) (faulty : f.validate v = .error (.fault cause))

def Decodes (m : Model) (row : Value) : Prop := ((ofModel m).decodeInto m row m.newPersisted).2 = none

/-- The first entry to fail ends the reading of the row in a fault. -/
def RowEscapes (m : Model) (row : Value) (cause : Fault) : Prop :=
  ∃ before key content after a, row = .map (before ++ (key, content) :: after) ∧
    Decodes m (.map before) ∧ key.text?.bind (ofModel m).attribute? = some a ∧
    Escapes m a content cause

def RowsEscape (m : Model) (rows : List Value) (cause : Fault) : Prop :=
  ∃ before row after, rows = before ++ row :: after ∧ (∀ other ∈ before, Decodes m other) ∧
    RowEscapes m row cause

variable {m : Model} {a : Attribute} {key content : Value} {failure : Failure}

theorem isDecoding_decodingFailure (name : String) (cause : Fault) :
    (Attribute.decodingFailure name cause).isDecoding = false ↔ cause.family = .arithmetic := by
  unfold Attribute.decodingFailure
  cases cause.family <;> simp [Failure.isDecoding]

theorem decode_escapes_iff :
    a.decode content = .error failure ∧ failure.isDecoding = false ↔
      ∃ cause, failure = .fault cause ∧ (content.Overruns cause ∨ ∃ native,
        content.ofTagged = .ok native ∧ Coercion.coerce a.type native = .error (.fault cause)) := by
  unfold Attribute.decode
  cases read : content.ofTagged with
  | error cause =>
    constructor
    · intro given
      obtain ⟨failed, escapes⟩ := given
      cases failed
      have family := (isDecoding_decodingFailure _ _).1 escapes
      refine ⟨cause, ?_, .inl (Value.ofTagged_eq_error_iff.1 ⟨read, family⟩)⟩
      simp [Attribute.decodingFailure, family]
    · intro given
      rcases given with ⟨cause', rfl, overruns | ⟨_, ⟨⟩, _⟩⟩
      obtain ⟨failed, family⟩ := Value.ofTagged_eq_error_iff.2 overruns
      cases read.symm.trans failed
      simp [Attribute.decodingFailure, family, Failure.isDecoding]
  | ok native =>
    have readable : ∀ cause, ¬content.Overruns cause := fun cause overruns => by
      cases read.symm.trans (Value.ofTagged_eq_error_iff.2 overruns).1
    simp only [readable, false_or, Except.ok.injEq, exists_eq_left', Coercion.validate]
    cases fitted : Coercion.coerce a.type native with
    | ok x => simp
    | error rejection =>
      cases rejection with
      | issues found =>
        simp only [Except.error.injEq, reduceCtorEq, and_false, exists_false, iff_false, not_and]
        intro same
        subst same
        simp [Failure.isDecoding]
      | fault cause =>
        simp only [Except.error.injEq, Rejection.fault.injEq]
        constructor
        · intro given
          obtain ⟨rfl, -⟩ := given
          exact ⟨cause, rfl, rfl⟩
        · intro given
          obtain ⟨_, rfl, rfl⟩ := given
          exact ⟨rfl, rfl⟩

/-- Setting a field of the model fails past the reader only if the model checks what is set. -/
theorem assign_escapes_iff {f : Field} {v : Value} (r : Record) (field : m.field? a.field = some f) :
    (∃ cause, r.assign m a.field v = .error cause ∧
      assignmentFailure a.name cause = failure) ∧ failure.isDecoding = false ↔
      ∃ cause, failure = .fault cause ∧ (m.frozen = false ∧ f.frozen = false) ∧
        m.validatesAssignment = true ∧ f.validate v = .error (.fault cause) := by
  constructor
  · intro given
    obtain ⟨⟨reason, failed, rfl⟩, escapes⟩ := given
    unfold Record.assign at failed
    split at failed
    · cases failed
      cases escapes
    · next thawed =>
      simp only [field] at failed
      split at failed
      · cases failed
        cases escapes
      · next settable =>
        split at failed
        · next validates =>
          split at failed
          · cases failed
          · next rejection outcome =>
            cases failed
            cases rejection with
            | issues found => cases escapes
            | fault cause =>
              exact ⟨cause, rfl, ⟨by simpa using thawed, by simpa using settable⟩, validates, outcome⟩
        · cases failed
  · intro given
    obtain ⟨cause, rfl, ⟨thawed, settable⟩, validates, faulty⟩ := given
    refine ⟨⟨.fault cause, ?_, rfl⟩, rfl⟩
    simp [Record.assign, field, thawed, settable, validates, faulty, Failure.ofRejection,
      Rejection.under]

theorem exists_field_of_declared (declared : key.text?.bind (ofModel m).attribute? = some a) :
    ∃ f, m.field? a.field = some f := by
  obtain ⟨name, -, found⟩ := Option.bind_eq_some_iff.1 declared
  obtain ⟨f, member, -, rfl⟩ := exists_field_of_attribute? found
  exact Option.isSome_iff_exists.1 (isSome_field?_of_mem member)

theorem decodeEntry_eq_error_iff (s : Schema) (r : Record) :
    s.decodeEntry m key content r = .error failure ↔
      ∃ a, key.text?.bind s.attribute? = some a ∧ (a.decode content = .error failure ∨
        ∃ v, a.decode content = .ok v ∧
          ∃ reason, r.assign m a.field v = .error reason ∧
            assignmentFailure a.name reason = failure) := by
  unfold decodeEntry
  cases declared : key.text?.bind s.attribute? with
  | none => simp
  | some a =>
    simp only [Option.some.injEq, exists_eq_left']
    cases decoded : a.decode content with
    | error reason => simp
    | ok v =>
      simp only [reduceCtorEq, Except.ok.injEq, exists_eq_left', false_or]
      cases r.assign m a.field v <;> simp

theorem decodeEntry_escapes_iff (r : Record) :
    (ofModel m).decodeEntry m key content r = .error failure ∧ failure.isDecoding = false ↔
      ∃ cause a, failure = .fault cause ∧ key.text?.bind (ofModel m).attribute? = some a ∧
        Escapes m a content cause := by
  rw [decodeEntry_eq_error_iff]
  constructor
  · intro given
    rcases given with ⟨⟨a, declared, failed | ⟨v, decoded, failed⟩⟩, escapes⟩
    · obtain ⟨cause, rfl, overruns | ⟨native, read, faulty⟩⟩ :=
        decode_escapes_iff.1 ⟨failed, escapes⟩
      · exact ⟨cause, a, rfl, declared, .number overruns⟩
      · exact ⟨cause, a, rfl, declared, .fitting read faulty⟩
    · obtain ⟨f, field⟩ := exists_field_of_declared declared
      obtain ⟨cause, rfl, settable, validates, faulty⟩ :=
        (assign_escapes_iff r field).1 ⟨failed, escapes⟩
      exact ⟨cause, a, rfl, declared, .setting decoded field settable validates faulty⟩
  · intro given
    rcases given with ⟨cause, a, rfl, declared, overruns | ⟨read, faulty⟩ |
      ⟨decoded, field, settable, validates, faulty⟩⟩
    · exact ⟨⟨a, declared, .inl (decode_escapes_iff.2 ⟨cause, rfl, .inl overruns⟩).1⟩, rfl⟩
    · exact ⟨⟨a, declared, .inl (decode_escapes_iff.2 ⟨cause, rfl, .inr ⟨_, read, faulty⟩⟩).1⟩, rfl⟩
    · have failed := ((assign_escapes_iff r field).2 ⟨cause, rfl, settable, validates, faulty⟩).1
      exact ⟨⟨a, declared, .inr ⟨_, decoded, failed⟩⟩, rfl⟩

/-- Reading entries fails where the first of them fails, with the record that those before it give. -/
theorem decodeEntries_eq_some_iff (s : Schema) (entries : List (Value × Value)) (r r' : Record) :
    s.decodeEntries m entries r = (r', some failure) ↔
      ∃ before key content after, entries = before ++ (key, content) :: after ∧
        s.decodeEntries m before r = (r', none) ∧
        s.decodeEntry m key content r' = .error failure := by
  induction entries generalizing r with
  | nil => simp [decodeEntries]
  | cons entry entries ih =>
    obtain ⟨key, content⟩ := entry
    rw [decodeEntries]
    cases step : s.decodeEntry m key content r with
    | error reason =>
      constructor
      · intro same
        cases same
        exact ⟨[], key, content, entries, rfl, rfl, step⟩
      · intro given
        rcases given with ⟨_ | ⟨first, before⟩, _, _, _, ⟨⟩, done, failed⟩
        · cases done
          cases step.symm.trans failed
          rfl
        · rw [decodeEntries, step] at done
          cases done
    | ok next =>
      simp only
      rw [ih]
      constructor
      · intro given
        obtain ⟨before, key', content', after, rfl, done, failed⟩ := given
        exact ⟨(key, content) :: before, key', content', after, rfl,
          by simp only [decodeEntries, step, done], failed⟩
      · intro given
        rcases given with ⟨_ | ⟨first, before⟩, key', content', after, ⟨⟩, done, failed⟩
        · cases done
          cases step.symm.trans failed
        · simp only [decodeEntries, step] at done
          exact ⟨before, key', content', after, rfl, done, failed⟩

theorem decodeInto_escapes_iff (row : Value) :
    ((ofModel m).decodeInto m row m.newPersisted).2 = some failure ∧ failure.isDecoding = false ↔
      ∃ cause, failure = .fault cause ∧ RowEscapes m row cause := by
  constructor
  · intro given
    obtain ⟨failed, escapes⟩ := given
    rw [decodeInto.eq_def] at failed
    split at failed
    · obtain ⟨before, key, content, after, rfl, done, failed⟩ :=
        (decodeEntries_eq_some_iff _ _ _ _).1 (Prod.ext rfl failed)
      obtain ⟨cause, a, rfl, declared, faulty⟩ := (decodeEntry_escapes_iff _).1 ⟨failed, escapes⟩
      exact ⟨cause, rfl, before, key, content, after, a, rfl, congrArg Prod.snd done, declared,
        faulty⟩
    · cases failed
      cases escapes
  · intro given
    obtain ⟨cause, rfl, before, key, content, after, a, rfl, done, declared, faulty⟩ := given
    refine ⟨congrArg Prod.snd ((decodeEntries_eq_some_iff _ _ _ _).2
      ⟨before, key, content, after, rfl, Prod.ext rfl done, ?_⟩), rfl⟩
    exact ((decodeEntry_escapes_iff _).2 ⟨cause, a, rfl, declared, faulty⟩).1

theorem materialize_eq_error_iff (row : Value) :
    (ofModel m).materialize m row = .error failure ↔
      ((ofModel m).decodeInto m row m.newPersisted).2 = some failure := by
  rw [materialize.eq_def]
  split
  · next done => simp [done]
  · next failed => simp [failed]

theorem exists_materialize_iff (row : Value) :
    (∃ record, (ofModel m).materialize m row = .ok record) ↔ Decodes m row := by
  rw [materialize.eq_def, Decodes]
  split
  · next done => simp [done]
  · next failed => simp [failed]

theorem materializeAll_eq_mapM (s : Schema) (rows : List Value) :
    Scan.materializeAll s m rows = rows.mapM (s.materialize m) := by
  induction rows with
  | nil => rfl
  | cons row rows ih => rw [Scan.materializeAll, List.mapM_cons, ih]

theorem materializeAll_escapes_iff (rows : List Value) :
    Scan.materializeAll (ofModel m) m rows = .error failure ∧ failure.isDecoding = false ↔
      ∃ cause, failure = .fault cause ∧ RowsEscape m rows cause := by
  simp only [materializeAll_eq_mapM, mapM_eq_error_iff, exists_materialize_iff,
    materialize_eq_error_iff]
  constructor
  · intro given
    obtain ⟨⟨before, row, after, rfl, done, failed⟩, escapes⟩ := given
    obtain ⟨cause, rfl, faulty⟩ := (decodeInto_escapes_iff row).1 ⟨failed, escapes⟩
    exact ⟨cause, rfl, before, row, after, rfl, done, faulty⟩
  · intro given
    obtain ⟨cause, rfl, before, row, after, rfl, done, faulty⟩ := given
    exact ⟨⟨before, row, after, rfl, done, ((decodeInto_escapes_iff row).2 ⟨cause, rfl, faulty⟩).1⟩,
      rfl⟩

theorem pageOf_escapes_iff {s : Scan} {response : Value} {rows : List Value}
    (own : s.schema = .ofModel s.model) (items : response.entryAt? "Items" = some (.list rows)) :
    s.pageOf response = .error failure ∧ failure.isDecoding = false ↔
      ∃ cause, failure = .fault cause ∧ RowsEscape s.model rows cause := by
  rw [← materializeAll_escapes_iff]
  have found : Scan.rowsOf response = .ok rows := by
    rw [Scan.rowsOf, items]
    cases rows <;> rfl
  obtain ⟨entries, rfl⟩ : ∃ entries, response = .map entries := by
    cases response with
    | map entries => exact ⟨entries, rfl⟩
    | _ => cases items
  have full : Value.isTrue (.map entries) = true := by
    cases entries with
    | nil => cases items
    | cons entry entries => rfl
  simp only [Scan.pageOf, full, if_true, found, ok_bind, own]
  cases Scan.materializeAll (ofModel s.model) s.model rows <;> simp

/-- Reading a row into a new record, and reading the page that answers a scan, fail other than in
decoding just where the first entry to fail lets a fault escape, and then with that fault. -/
theorem escapes_iff {σ : Type} (m : Model) (send : Request → σ → Except Failure Value × σ) :
    (∀ row failure, ((ofModel m).decodeInto m row m.newPersisted).2 = some failure ∧
        failure.isDecoding = false ↔ ∃ cause, failure = .fault cause ∧ RowEscapes m row cause) ∧
      ∀ (s sent : Scan) (request : Request) (store after : σ) (response : Value) (rows : List Value),
        s.model = m → s.schema = .ofModel m → s.prepare = .ok (request, sent) →
        send request store = (.ok response, after) →
        response.entryAt? "Items" = some (.list rows) →
        ∀ failure, (s.execute send store).1 = .error failure ∧ failure.isDecoding = false ↔
          ∃ cause, failure = .fault cause ∧ RowsEscape m rows cause := by
  refine ⟨fun row failure => decodeInto_escapes_iff row, ?_⟩
  intro s sent request store after response rows same own prepared answered items failure
  subst same
  obtain ⟨model, schema⟩ : sent.model = s.model ∧ sent.schema = s.schema := by
    unfold Scan.prepare at prepared
    split at prepared
    · cases prepared
    · obtain ⟨_, _, same⟩ := bind_eq_ok_iff.1 prepared
      cases same
      exact ⟨rfl, rfl⟩
  rw [Scan.execute, prepared]
  simp only [answered]
  rw [pageOf_escapes_iff (by rw [schema, own, model]) items, model]

def longAge : Value := .map [(.text "N", .text "123456789012345678901234567890123456789")]

theorem longAge_overruns : longAge.Overruns (.outOfFormat [.inexact, .rounded]) := by
  have read : Value.readNumberText "123456789012345678901234567890123456789" =
      .finite false 123456789012345678901234567890123456789 0 := by
    decide +kernel
  exact .number ⟨"N", rfl, by decide⟩ (.outside (congrArg Except.ok read) (by decide +kernel))

theorem rowEscapes_longAge :
    RowEscapes Sample.user (.map [(.text "age", longAge)]) (.outOfFormat [.inexact, .rounded]) :=
  ⟨[], .text "age", longAge, [], ⟨"age", "age", .int⟩, rfl, rfl, rfl, .number longAge_overruns⟩

/-- Reading need not fail in decoding. -/
theorem not_forall_isDecoding :
    ¬∀ (m : Model) (row : Value) (failure : Failure),
      ((ofModel m).decodeInto m row m.newPersisted).2 = some failure → failure.isDecoding = true := by
  intro closed
  have failed := (decodeInto_escapes_iff _).2 ⟨_, rfl, rowEscapes_longAge⟩
  cases (closed _ _ _ failed.1).symm.trans failed.2

theorem escapes_iff_longAge :
    ((Scan.start Sample.user (ofModel Sample.user) .none).execute
      (fun _ store => (.ok (.map [(.text "Items", .list [.map [(.text "age", longAge)]])]), store))
      ()).1 = .error (.fault (.outOfFormat [.inexact, .rounded])) :=
  (((escapes_iff Sample.user _).2 _ _ _ _ _ _ _ rfl rfl rfl rfl rfl _).2
    ⟨_, rfl, [], _, [], rfl, by simp, rowEscapes_longAge⟩).1

end Schema

end TableScan
