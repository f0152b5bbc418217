import TableScan.Draft
import TableScan.Proofs.Attempt

/-! Work on drafts, and what it makes of scans. Main statement: every step takes the draft of a scan
to the draft of the scan that the whole call makes of it, and comes to the same result. -/

namespace TableScan

open MonadExcept (ofExcept)

namespace Work

variable {σ α β : Type} {desk : Desk σ}

theorem attempt_bind (w : Work σ α) (f : α → Work σ β) :
    (w >>= f).attempt desk =
      match w.attempt desk with
      | (.ok x, after) => (f x).attempt after
      | (.error failure, after) => (.error failure, after) := by
  simp only [attempt, ExceptT.run_bind, StateT.run_bind, Id.run_bind]
  rcases Id.run ((ExceptT.run w).run desk) with ⟨_ | _, _⟩ <;> rfl

theorem attempt_assign (change : Draft → Draft) :
    (assign change).attempt desk = (.ok (), { desk with draft := change desk.draft }) := rfl

theorem attempt_ofExcept (x : Except Failure α) :
    (ofExcept x : Work σ α).attempt desk = (x, desk) := by
  cases x <;> rfl

theorem attempt_refuseIf (condition : Prop) [Decidable condition] (reason : StateFault) :
    (refuseIf condition reason).attempt desk =
      if condition then (.error (.invalidState reason), desk) else (.ok (), desk) := by
  unfold refuseIf
  split <;> rfl

theorem attempt_ask (send : Request → σ → Reply × σ) (request : Request) :
    (ask send request).attempt desk =
      ((send request desk.store).1, { desk with store := (send request desk.store).2 }) := by
  show (ofExcept (send request desk.store).1 : Work σ Value).attempt _ = _
  rw [attempt_ofExcept]

theorem attempt_chained (w : Work σ Unit) :
    (chained w).attempt desk = ((w.attempt desk).1.map fun _ => .draft, (w.attempt desk).2) := by
  rw [chained, attempt_bind]
  rcases w.attempt desk with ⟨_ | _, _⟩ <;> rfl

/-! How work goes on after each kind of step in it. -/

section Next

theorem attempt_bind_of_ok {w : Work σ α} {f : α → Work σ β} {x : α} {after : Desk σ}
    (done : w.attempt desk = (.ok x, after)) : (w >>= f).attempt desk = (f x).attempt after := by
  rw [attempt_bind, done]

theorem attempt_bind_of_error {w : Work σ α} {f : α → Work σ β} {failure : Failure}
    {after : Desk σ} (failed : w.attempt desk = (.error failure, after)) :
    (w >>= f).attempt desk = (.error failure, after) := by
  rw [attempt_bind, failed]

variable {condition : Prop} [Decidable condition] {reason : StateFault}

@[simp]
theorem attempt_draft_bind (f : Draft → Work σ β) :
    (draft >>= f).attempt desk = (f desk.draft).attempt desk := rfl

@[simp]
theorem attempt_assign_bind (change : Draft → Draft) (f : Unit → Work σ β) :
    (assign change >>= f).attempt desk =
      (f ()).attempt { desk with draft := change desk.draft } := rfl

theorem attempt_refuse_bind (holds : condition) (f : Unit → Work σ β) :
    (refuseIf condition reason >>= f).attempt desk = (.error (.invalidState reason), desk) := by
  rw [attempt_bind, attempt_refuseIf, if_pos holds]

theorem attempt_pass_bind (fails : ¬condition) (f : Unit → Work σ β) :
    (refuseIf condition reason >>= f).attempt desk = (f ()).attempt desk := by
  rw [attempt_bind, attempt_refuseIf, if_neg fails]

@[simp]
theorem attempt_ok_bind (x : α) (f : α → Work σ β) :
    (ofExcept (.ok x) >>= f).attempt desk = (f x).attempt desk := by
  rw [attempt_bind, attempt_ofExcept]

@[simp]
theorem attempt_error_bind (failure : Failure) (f : α → Work σ β) :
    (ofExcept (.error failure) >>= f).attempt desk = (.error failure, desk) := by
  rw [attempt_bind, attempt_ofExcept]

end Next

end Work

namespace Scan

variable {σ : Type} {send : Request → σ → Reply × σ} {s : Scan} {store : σ}

theorem execute_of_executed (sent : s.executed = true) :
    s.execute send store = (.error (.invalidState .alreadyExecuted), s, store) := by
  simp [execute, prepare, sent, state]

theorem execute_of_unbuilt {failure : Failure} (fresh : s.executed = false)
    (failed : s.buildRequest = .error failure) :
    s.execute send store = (.error failure, s, store) := by
  simp [execute, prepare, fresh, failed]

theorem execute_of_built {request : Request} (fresh : s.executed = false)
    (builds : s.buildRequest = .ok request) :
    s.execute send store =
      ((send request store).1 >>= s.pageOf, { s with executed := true },
        (send request store).2) := by
  have prepared : s.prepare = .ok (request, { s with executed := true }) := by
    simp [prepare, fresh, builds]
  rw [execute, prepared]
  rcases answered : send request store with ⟨_ | response, after⟩
  · simp [answered]
  · simp only [answered, Attempt.ok_bind]
    rfl

end Scan

namespace Stage

def status : Stage → Status
  | .idle => .idle
  | .selected _ => .selected
  | .negated _ => .negated

theorem decide_status_eq_negated (stage : Stage) :
    decide (stage.status = .negated) = stage.isNegated := by
  cases stage <;> rfl

end Stage

namespace Draft

def ofScan (s : Scan) : Draft :=
  ⟨s.model, s.schema, s.options, s.filters, s.stage.status, s.stage.pending?, s.executed⟩

theorem status_ofScan_eq_idle_iff {s : Scan} :
    (ofScan s).status = .idle ↔ s.stage.pending? = none := by
  cases staged : s.stage <;> simp [ofScan, staged, Stage.status, Stage.pending?]

theorem status_ofScan_ne_idle {s : Scan} {name : String} (pending : s.stage.pending? = some name) :
    (ofScan s).status ≠ .idle := by
  simp [status_ofScan_eq_idle_iff, pending]

end Draft

namespace Work

open Draft (ofScan status_ofScan_eq_idle_iff status_ofScan_ne_idle)

variable {σ : Type}

/-- What a call makes of a scan, as the outcome of work on its draft. -/
def drafted (s : Scan) (store : σ) : Except Failure Scan → Except Failure Unit × Desk σ
  | .ok next => (.ok (), ⟨ofScan next, store⟩)
  | .error failure => (.error failure, ⟨ofScan s, store⟩)

theorem attempt_select (name : String) (s : Scan) (store : σ) :
    (select name).attempt ⟨ofScan s, store⟩ = drafted s store (s.select name) := by
  rw [select, attempt_draft_bind, Scan.select]
  cases pending : s.stage.pending? with
  | some other =>
    rw [attempt_refuse_bind (status_ofScan_ne_idle pending)]
    simp [ofScan, pending, drafted, Scan.state]
  | none =>
    rw [attempt_pass_bind (not_not.2 (status_ofScan_eq_idle_iff.2 pending))]
    by_cases present : (named? name (ofScan s).filters).isSome
    · rw [attempt_refuse_bind present, if_pos (show (named? name s.filters).isSome from present)]
      rfl
    · rw [attempt_pass_bind present, if_neg (show ¬(named? name s.filters).isSome from present)]
      rfl

theorem attempt_negate (s : Scan) (store : σ) :
    negate.attempt ⟨ofScan s, store⟩ = drafted s store s.negate := by
  rw [negate, attempt_draft_bind, Scan.negate]
  cases pending : s.stage.pending? with
  | none =>
    rw [attempt_refuse_bind (status_ofScan_eq_idle_iff.2 pending)]
    rfl
  | some name =>
    rw [attempt_pass_bind (status_ofScan_ne_idle pending), attempt_assign]
    simp only [ofScan, pending, drafted]
    rfl

theorem attempt_compare (c : Comparison) (operands : List Value) (s : Scan) (store : σ) :
    (compare c operands).attempt ⟨ofScan s, store⟩ = drafted s store (s.compare c operands) := by
  rw [compare, attempt_draft_bind, Scan.compare]
  cases pending : s.stage.pending? with
  | none =>
    rw [attempt_refuse_bind (status_ofScan_eq_idle_iff.2 pending)]
    rfl
  | some name =>
    have negation : decide ((ofScan s).status = .negated) = s.stage.isNegated :=
      s.stage.decide_status_eq_negated
    rw [attempt_pass_bind (status_ofScan_ne_idle pending), negation]
    cases resolved : c.resolve s.stage.isNegated with
    | error reason =>
      rw [Except.mapError, attempt_error_bind]
      rfl
    | ok operator =>
      rw [Except.mapError, attempt_ok_bind]
      by_cases missing : c.arity? = none ∧ operands = []
      · rw [attempt_refuse_bind missing]
        simp only [if_pos missing]
        rfl
      · rw [attempt_pass_bind missing]
        simp only [if_neg missing, attempt_assign_bind, attempt_assign, ofScan, pending]
        rfl

theorem attempt_among (values : Value) (s : Scan) (store : σ) :
    (among values).attempt ⟨ofScan s, store⟩ = drafted s store (s.among values) := by
  rw [among, Scan.among]
  by_cases textual : Coercion.textsIn values
  · rw [attempt_refuse_bind textual, if_pos textual]
    rfl
  · rw [attempt_pass_bind textual, if_neg textual]
    cases values.elements with
    | error cause =>
      rw [Except.mapError, attempt_error_bind]
      rfl
    | ok operands =>
      rw [Except.mapError, attempt_ok_bind]
      exact attempt_compare .isIn operands s store

theorem attempt_limit (n : Option Int) (s : Scan) (store : σ) :
    (limit n).attempt ⟨ofScan s, store⟩ = drafted s store (s.limit n) := by
  rw [limit, attempt_draft_bind, Scan.limit, show (ofScan s).options = s.options from rfl]
  cases s.options.withLimit n with
  | error failure =>
    rw [attempt_error_bind]
    rfl
  | ok options =>
    rw [attempt_ok_bind, attempt_assign]
    rfl

theorem attempt_buildRequest (s : Scan) (store : σ) :
    buildRequest.attempt ⟨ofScan s, store⟩ = (s.buildRequest, ⟨ofScan s, store⟩) := by
  rw [buildRequest, attempt_draft_bind, Scan.buildRequest]
  cases pending : s.stage.pending? with
  | some name =>
    rw [attempt_refuse_bind (status_ofScan_ne_idle pending)]
    simp [ofScan, pending, Scan.state]
  | none =>
    rw [attempt_pass_bind (not_not.2 (status_ofScan_eq_idle_iff.2 pending)), attempt_ofExcept]
    rfl

theorem attempt_execute (send : Request → σ → Reply × σ) (s : Scan) (store : σ) :
    (execute send).attempt ⟨ofScan s, store⟩ =
      ((s.execute send store).1,
        ⟨ofScan (s.execute send store).2.1, (s.execute send store).2.2⟩) := by
  rw [execute, attempt_draft_bind]
  cases sent : s.executed with
  | true =>
    rw [attempt_refuse_bind (show (ofScan s).executed = true from sent),
      Scan.execute_of_executed sent]
  | false =>
    have fresh : ¬(ofScan s).executed = true := by simp [ofScan, sent]
    rw [attempt_pass_bind fresh]
    have build := attempt_buildRequest s store
    cases built : s.buildRequest with
    | error failure =>
      rw [built] at build
      rw [attempt_bind_of_error build, Scan.execute_of_unbuilt sent built]
    | ok request =>
      rw [built] at build
      rw [attempt_bind_of_ok build, attempt_assign_bind, attempt_bind, attempt_ask,
        Scan.execute_of_built sent built]
      cases (send request store).1 with
      | error failure => rfl
      | ok response => exact attempt_ofExcept _

end Work

namespace Draft.Step

def call? : Draft.Step → Option Call
  | .select name => some (.select name)
  | .and => some .and
  | .not => some .not
  | .null => some (.compare .null [] rfl)
  | .eq operand => some (.compare .eq [operand] rfl)
  | .lt operand => some (.compare .lt [operand] rfl)
  | .le operand => some (.compare .le [operand] rfl)
  | .ge operand => some (.compare .ge [operand] rfl)
  | .gt operand => some (.compare .gt [operand] rfl)
  | .contains operand => some (.compare .contains [operand] rfl)
  | .beginsWith operand => some (.compare .beginsWith [operand] rfl)
  | .among values => some (.among values)
  | .between low high => some (.compare .between [low, high] rfl)
  | .limit n => some (.limit n)
  | .startAt key => some (.startAt key)
  | .project fields => some (.project fields)
  | .build | .execute => none

end Draft.Step

namespace Desk

open Draft (ofScan)

variable {σ : Type} (send : Request → σ → Reply × σ) (s : Scan) (store : σ)

theorem step_build :
    (⟨ofScan s, store⟩ : Desk σ).step send .build =
      (s.buildRequest.map .request, ⟨ofScan s, store⟩) := by
  rw [step, Work.ofStep, Work.attempt_bind, Work.attempt_buildRequest]
  cases s.buildRequest <;> rfl

theorem step_execute :
    (⟨ofScan s, store⟩ : Desk σ).step send .execute =
      ((s.execute send store).1.map .page,
        ⟨ofScan (s.execute send store).2.1, (s.execute send store).2.2⟩) := by
  rw [step, Work.ofStep, Work.attempt_bind, Work.attempt_execute]
  cases (s.execute send store).1 <;> rfl

end Desk

namespace Scan

open Draft (Answer ofScan)

variable {σ : Type}

/-- What a step does with a scan and a store, and what comes of it. -/
inductive Takes (send : Request → σ → Reply × σ) (s : Scan) (store : σ) :
    Draft.Step → Except Failure Answer → Scan → σ → Prop where
  | called {step : Draft.Step} {call : Call} {next : Scan} (means : step.call? = some call)
    (applied : s.apply call = .ok next) : Takes send s store step (.ok .draft) next store
  | refused {step : Draft.Step} {call : Call} {failure : Failure} (means : step.call? = some call)
    (failed : s.apply call = .error failure) : Takes send s store step (.error failure) s store
  | built {request : Request} (builds : s.buildRequest = .ok request) :
    Takes send s store .build (.ok (.request request)) s store
  | unbuilt {failure : Failure} (failed : s.buildRequest = .error failure) :
    Takes send s store .build (.error failure) s store
  | sent {request : Request} (fresh : s.executed = false) (builds : s.buildRequest = .ok request) :
    Takes send s store .execute (((send request store).1 >>= s.pageOf).map .page)
      { s with executed := true } (send request store).2
  | unsent {failure : Failure} (fresh : s.executed = false)
    (failed : s.buildRequest = .error failure) :
    Takes send s store .execute (.error failure) s store
  | again (executed : s.executed = true) :
    Takes send s store .execute (.error (.invalidState .alreadyExecuted)) s store

variable {send : Request → σ → Reply × σ} {s : Scan} {store : σ}

theorem takes_call {step : Draft.Step} {call : Call} {w : Work σ Unit}
    (means : step.call? = some call) (chained : Work.ofStep send step = .chained w)
    (agrees : w.attempt ⟨ofScan s, store⟩ = Work.drafted s store (s.apply call)) :
    ∃ result next after,
      (⟨ofScan s, store⟩ : Desk σ).step send step = (result, ⟨ofScan next, after⟩) ∧
        s.Takes send store step result next after := by
  rw [Desk.step, chained, Work.attempt_chained, agrees]
  cases applied : s.apply call with
  | ok next => exact ⟨_, _, _, rfl, .called means applied⟩
  | error failure => exact ⟨_, _, _, rfl, .refused means applied⟩

/-- Every step takes the draft of a scan to that of the scan after it. -/
theorem exists_takes (send : Request → σ → Reply × σ) (s : Scan) (store : σ) (step : Draft.Step) :
    ∃ result next after,
      (⟨ofScan s, store⟩ : Desk σ).step send step = (result, ⟨ofScan next, after⟩) ∧
        s.Takes send store step result next after := by
  cases step with
  | select name => exact takes_call rfl rfl (Work.attempt_select name s store)
  | and | startAt _ | project _ => exact takes_call rfl rfl rfl
  | not => exact takes_call rfl rfl (Work.attempt_negate s store)
  | null | eq _ | lt _ | le _ | ge _ | gt _ | contains _ | beginsWith _ | between _ _ =>
    exact takes_call rfl rfl (Work.attempt_compare _ _ s store)
  | among values => exact takes_call rfl rfl (Work.attempt_among values s store)
  | limit n => exact takes_call rfl rfl (Work.attempt_limit n s store)
  | build =>
    rw [Desk.step_build]
    cases built : s.buildRequest with
    | error failure => exact ⟨_, _, _, rfl, .unbuilt built⟩
    | ok request => exact ⟨_, _, _, rfl, .built built⟩
  | execute =>
    rw [Desk.step_execute]
    cases sent : s.executed with
    | true =>
      rw [execute_of_executed sent]
      exact ⟨_, _, _, rfl, .again sent⟩
    | false =>
      cases built : s.buildRequest with
      | error failure =>
        rw [execute_of_unbuilt sent built]
        exact ⟨_, _, _, rfl, .unsent sent built⟩
      | ok request =>
        rw [execute_of_built sent built]
        exact ⟨_, _, _, rfl, .sent sent built⟩

end Scan

def Scan.opened (m : Model) (schema : Schema) (o : Options) (selected : Option String) : Scan :=
  ⟨m, schema, o, [], selected.elim .idle .selected, false⟩

namespace Desk

open Draft (ofScan)

variable {σ : Type}

theorem create_eq (m : Model) (schema : Schema) (o : Options) (selected : Option String)
    (store : σ) : create m schema o selected store = (.ok (), ⟨ofScan (.opened m schema o selected), store⟩) := by
  cases selected with
  | none => rfl
  | some name => exact Work.attempt_select name (Scan.start m schema o) store

/-- What every step keeps of a scan and a store is kept by a run. -/
theorem exists_of_run {send : Request → σ → Reply × σ} {P : Scan → σ → Prop}
    (kept : ∀ {s store step result next after}, P s store →
      s.Takes send store step result next after → P next after)
    (steps : List Draft.Step) {s : Scan} {store : σ} (holds : P s store) :
    ∃ final after, ((⟨ofScan s, store⟩ : Desk σ).run send steps).2 = ⟨ofScan final, after⟩ ∧
      P final after := by
  induction steps generalizing s store with
  | nil => exact ⟨s, store, rfl, holds⟩
  | cons step steps ih =>
    obtain ⟨result, next, after, taken, takes⟩ := s.exists_takes send store step
    rw [run, taken]
    exact ih (kept holds takes)

theorem exists_of_create (send : Request → σ → Reply × σ) {P : Scan → σ → Prop}
    (kept : ∀ {s store step result next after}, P s store →
      s.Takes send store step result next after → P next after)
    {m : Model} {schema : Schema} {o : Options} {selected : Option String} {store : σ}
    (begins : P (.opened m schema o selected) store) (steps : List Draft.Step) :
    ∃ final after, ((create m schema o selected store).2.run send steps).2 =
      ⟨ofScan final, after⟩ ∧ P final after := by
  rw [create_eq]
  exact exists_of_run kept steps begins

end Desk

end TableScan
