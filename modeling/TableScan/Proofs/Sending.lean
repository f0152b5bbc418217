import TableScan.Proofs.Composition
import TableScan.Proofs.Drafting

/-! What reaches a store from one draft. Main statement: over any run of steps, whatever the store
does, at most one request reaches it. An execution reaches the store exactly when none did before
and the request can be built, and what reaches it is that request; before it is reached a failing
execution changes nothing, and afterwards every execution is refused. -/

namespace TableScan

structure Heard (σ : Type) where
  store : σ
  requests : List Request

namespace Heard

variable {σ : Type}

def send (reply : Request → σ → Reply × σ) (request : Request) (h : Heard σ) : Reply × Heard σ :=
  ((reply request h.store).1, ⟨(reply request h.store).2, h.requests ++ [request]⟩)

end Heard

namespace Scan

variable {σ : Type} {s next : Scan} {reply : Request → σ → Reply × σ} {h after : Heard σ}
  {step : Draft.Step} {result : Except Failure Draft.Answer}

theorem frame_of_apply {call : Call} (applied : s.apply call = .ok next) :
    next.model = s.model ∧ next.schema = s.schema ∧ next.executed = s.executed := by
  cases applies_of_ok applied <;> exact ⟨rfl, rfl, rfl⟩

def Counted (s : Scan) (h : Heard σ) : Prop := h.requests.length = s.executed.toNat

theorem counted_of_takes (counted : s.Counted h)
    (takes : s.Takes (Heard.send reply) h step result next after) : next.Counted after := by
  cases takes with
  | called _ applied =>
    rw [Counted, (frame_of_apply applied).2.2]
    exact counted
  | sent fresh _ =>
    rw [Counted, fresh] at counted
    simp [Counted, Heard.send, counted]
  | refused | built | unbuilt | unsent | again => exact counted

theorem requests_eq_nil_iff (counted : s.Counted h) : h.requests = [] ↔ s.executed = false := by
  rw [← List.length_eq_zero_iff, counted]
  cases s.executed <;> simp

theorem store_of_takes (other : step ≠ .execute)
    (takes : s.Takes (Heard.send reply) h step result next after) : after = h := by
  cases takes with
  | called | refused | built | unbuilt => rfl
  | sent | unsent | again => exact absurd rfl other

end Scan

namespace Desk

open Draft (ofScan)

variable {σ : Type}

/-- After any run of steps on a new draft, at most one request has reached the store, and one has if
the draft counts as executed. Other steps than executing do not reach the store. Executing sends a
request just if none was sent before and building a request gives it there. Once a request was sent,
executing is refused; before, where building a request fails, executing fails in the same way and
changes nothing. -/
theorem sends_once (m : Model) (schema : Schema) (o : Options) (selected : Option String)
    (reply : Request → σ → Reply × σ) (store : σ) (steps : List Draft.Step) :
    let send := Heard.send reply
    let desk := ((create m schema o selected ⟨store, []⟩).2.run send steps).2
    desk.store.requests.length ≤ 1 ∧
      (desk.draft.executed = false ↔ desk.store.requests = []) ∧
      (∀ step, step ≠ .execute → (desk.step send step).2.store = desk.store) ∧
      (∀ request, (desk.step send .execute).2.store.requests = desk.store.requests ++ [request] ↔
        desk.store.requests = [] ∧ (desk.step send .build).1 = .ok (.request request)) ∧
      (desk.store.requests ≠ [] →
        desk.step send .execute = (.error (.invalidState .alreadyExecuted), desk)) ∧
      ∀ failure, desk.store.requests = [] → (desk.step send .build).1 = .error failure →
        desk.step send .execute = (.error failure, desk) := by
  intro send desk
  -- what is claimed of the desk follows from the scan that it stands for and the count
  have begins : (Scan.opened m schema o selected).Counted (⟨store, []⟩ : Heard σ) := rfl
  obtain ⟨s, h, here, counted⟩ := exists_of_create send Scan.counted_of_takes begins steps
  rw [show desk = ⟨ofScan s, h⟩ from here]
  have unheard := Scan.requests_eq_nil_iff counted
  refine ⟨?_, unheard.symm, ?_, ?_, ?_, ?_⟩
  · rw [counted]
    exact s.executed.toNat_le
  · intro step other
    obtain ⟨_, _, _, taken, takes⟩ := s.exists_takes send h step
    rw [taken, Scan.store_of_takes other takes]
  · intro request
    rw [step_build, step_execute, Attempt.map_eq_ok_iff]
    cases sent : s.executed with
    | true =>
      have heard : h.requests ≠ [] := by simp [unheard, sent]
      simp [Scan.execute_of_executed sent, heard]
    | false =>
      have nothing := unheard.2 sent
      cases built : s.buildRequest with
      | error failure => simp [Scan.execute_of_unbuilt sent built]
      | ok built' => simp [Scan.execute_of_built sent built, nothing, send, Heard.send]
  · intro heard
    have executed : s.executed = true := by simpa [unheard] using heard
    rw [step_execute, Scan.execute_of_executed executed]
    rfl
  · intro failure nothing unbuilt
    rw [step_build] at unbuilt
    have failed := Attempt.map_eq_error_iff.1 unbuilt
    rw [step_execute, Scan.execute_of_unbuilt (unheard.1 nothing) failed]
    rfl

end Desk

end TableScan
