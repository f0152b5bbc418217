import TableScan.Sample
import TableScan.Proofs.Drafting

/-! Steps that fail. Work that looks before it assigns changes nothing when it fails, and every step
but executing is such work. Main statement: the steps of a run that succeed come to the same results
and the same draft without those that fail. -/

namespace TableScan

open MonadExcept (ofExcept)

namespace Work

variable {σ α β : Type} {w : Work σ α} {f : α → Work σ β}

def Looks (w : Work σ α) : Prop := ∀ desk, (w.attempt desk).2 = desk

def Succeeds (w : Work σ α) : Prop := ∀ desk, ∃ x after, w.attempt desk = (.ok x, after)

/-- Where the work fails it has changed nothing. -/
def Careful (w : Work σ α) : Prop :=
  ∀ desk failure after, w.attempt desk = (.error failure, after) → after = desk

theorem Looks.careful (looks : w.Looks) : w.Careful := by
  intro desk failure after failed
  rw [← looks desk, failed]

theorem Succeeds.careful (succeeds : w.Succeeds) : w.Careful := by
  intro desk failure after failed
  obtain ⟨x, _, done⟩ := succeeds desk
  cases done.symm.trans failed

theorem Succeeds.bind (first : w.Succeeds) (second : ∀ x, (f x).Succeeds) : (w >>= f).Succeeds := by
  intro desk
  obtain ⟨x, after, done⟩ := first desk
  rw [attempt_bind_of_ok done]
  exact second x after

theorem Looks.bind (looks : w.Looks) (careful : ∀ x, (f x).Careful) : (w >>= f).Careful := by
  intro desk failure after failed
  have here := looks desk
  rcases done : w.attempt desk with ⟨_ | x, between⟩
  · rw [attempt_bind_of_error done] at failed
    cases failed
    rwa [done] at here
  · rw [attempt_bind_of_ok done] at failed
    rw [done] at here
    rw [← here]
    exact careful x _ failure after failed

/-- What follows careful work without failing cannot spoil it. -/
theorem Careful.bind (careful : w.Careful) (succeeds : ∀ x, (f x).Succeeds) :
    (w >>= f).Careful := by
  intro desk failure after failed
  rcases done : w.attempt desk with ⟨_ | x, between⟩
  · rw [attempt_bind_of_error done] at failed
    cases failed
    exact careful desk failure after done
  · rw [attempt_bind_of_ok done] at failed
    obtain ⟨y, _, fine⟩ := succeeds x between
    cases fine.symm.trans failed

theorem succeeds_pure (x : α) : (pure x : Work σ α).Succeeds := fun _ => ⟨x, _, rfl⟩

theorem looks_draft : (draft : Work σ Draft).Looks := fun _ => rfl

theorem looks_refuseIf (condition : Prop) [Decidable condition] (reason : StateFault) :
    (refuseIf condition reason : Work σ Unit).Looks := by
  intro desk
  rw [attempt_refuseIf]
  split <;> rfl

theorem looks_ofExcept (x : Except Failure α) : (ofExcept x : Work σ α).Looks := by
  intro desk
  rw [attempt_ofExcept]

theorem succeeds_assign (change : Draft → Draft) : (assign change : Work σ Unit).Succeeds :=
  fun _ => ⟨_, _, attempt_assign change⟩

theorem careful_chained {w : Work σ Unit} (careful : w.Careful) : (chained w).Careful :=
  careful.bind fun _ => succeeds_pure _

theorem careful_select (name : String) : (select name : Work σ Unit).Careful := by
  refine looks_draft.bind fun d => ?_
  refine (looks_refuseIf _ _).bind fun _ => (looks_refuseIf _ _).bind fun _ => ?_
  exact ((succeeds_assign _).bind fun _ => succeeds_assign _).careful

theorem careful_negate : (negate : Work σ Unit).Careful := by
  refine looks_draft.bind fun d => (looks_refuseIf _ _).bind fun _ => ?_
  exact (succeeds_assign _).careful

theorem careful_compare (c : Comparison) (operands : List Value) :
    (compare c operands : Work σ Unit).Careful := by
  refine looks_draft.bind fun d => (looks_refuseIf _ _).bind fun _ => ?_
  refine (looks_ofExcept _).bind fun operator => (looks_refuseIf _ _).bind fun _ => ?_
  refine ((succeeds_assign _).bind fun _ => ?_).careful
  exact (succeeds_assign _).bind fun _ => succeeds_assign _

theorem careful_among (values : Value) : (among values : Work σ Unit).Careful := by
  refine (looks_refuseIf _ _).bind fun _ => (looks_ofExcept _).bind fun operands => ?_
  exact careful_compare .isIn operands

theorem careful_limit (n : Option Int) : (limit n : Work σ Unit).Careful := by
  refine looks_draft.bind fun d => (looks_ofExcept _).bind fun options => ?_
  exact (succeeds_assign _).careful

theorem careful_buildRequest : (buildRequest : Work σ Request).Careful := by
  refine looks_draft.bind fun d => (looks_refuseIf _ _).bind fun _ => ?_
  exact (looks_ofExcept _).careful

theorem careful_ofStep (send : Request → σ → Reply × σ) {step : Draft.Step}
    (other : step ≠ .execute) : (ofStep send step).Careful := by
  cases step with
  | execute => exact absurd rfl other
  | build => exact careful_buildRequest.bind fun _ => succeeds_pure _
  | select name => exact careful_chained (careful_select name)
  | not => exact careful_chained careful_negate
  | among values => exact careful_chained (careful_among values)
  | limit n => exact careful_chained (careful_limit n)
  | and => exact careful_chained (succeeds_pure _).careful
  | startAt _ | project _ => exact careful_chained (succeeds_assign _).careful
  | null | eq _ | lt _ | le _ | ge _ | gt _ | contains _ | beginsWith _ | between _ _ =>
    exact careful_chained (careful_compare _ _)

end Work

namespace Desk

variable {σ : Type} {send : Request → σ → Reply × σ} {desk : Desk σ}

def succeeded (results : List (Draft.Step × Except Failure Draft.Answer)) :
    List (Draft.Step × Except Failure Draft.Answer) :=
  results.filter fun result => result.2.isOk

theorem step_of_error {step : Draft.Step} {failure : Failure} (other : step ≠ .execute)
    (failed : (desk.step send step).1 = .error failure) : (desk.step send step).2 = desk :=
  Work.careful_ofStep send other desk failure _ (Prod.ext failed rfl)

theorem run_succeeded (steps : List Draft.Step) (others : ∀ step ∈ steps, step ≠ .execute)
    (desk : Desk σ) :
    desk.run send ((succeeded (desk.run send steps).1).map (·.1)) =
      (succeeded (desk.run send steps).1, (desk.run send steps).2) := by
  induction steps generalizing desk with
  | nil => rfl
  | cons step steps ih =>
    have rest := ih fun other member => others other (List.mem_cons_of_mem _ member)
    rw [run]
    rcases taken : desk.step send step with ⟨failure | answer, next⟩
    · -- the step is left out of the shorter run, which goes on from the same desk
      have same := step_of_error (others step (by simp)) (congrArg Prod.fst taken)
      rw [taken] at same
      rw [show next = desk from same]
      exact rest desk
    · have later := rest next
      simp only [succeeded, Except.isOk, Except.toBool, List.filter_cons_of_pos, List.map_cons, run,
        taken] at later ⊢
      rw [later]

/-- Where no step executes, a step that fails leaves the desk as it is, whatever it is; and the
steps of a run that succeed come to the same results and the same desk when they are taken alone. -/
theorem failures_invisible (send : Request → σ → Reply × σ) (steps : List Draft.Step)
    (others : ∀ step ∈ steps, step ≠ .execute) (desk : Desk σ) :
    (∀ step ∈ steps, ∀ (here : Desk σ) failure, (here.step send step).1 = .error failure →
        (here.step send step).2 = here) ∧
      desk.run send ((succeeded (desk.run send steps).1).map (·.1)) =
        (succeeded (desk.run send steps).1, (desk.run send steps).2) :=
  ⟨fun step member _ _ failed => step_of_error (others step member) failed,
    run_succeeded steps others desk⟩

def fallible : List Draft.Step :=
  [.select "age", .not, .beginsWith (.text "2"), .limit (some 0), .lt (.int 21), .build]

theorem failures_invisible_fallible :
    let desk : Desk Unit := .fresh Sample.user (.ofModel Sample.user) .none ()
    let send := fun _ store => (.ok .null, store)
    let final := (desk.run send fallible).2
    desk.run send [.select "age", .not, .lt (.int 21), .build] =
        (succeeded (desk.run send fallible).1, final) ∧
      final.draft.filters.map (·.2.operator) = [.ge] := by
  intro desk send final
  have others : ∀ step ∈ fallible, step ≠ .execute := by simp [fallible]
  exact ⟨(failures_invisible send fallible others desk).2, rfl⟩

end Desk

end TableScan
