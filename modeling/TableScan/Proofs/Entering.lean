import TableScan.Proofs.Moves

/-! Contexts that are left. Main statement: whatever steps are taken, a connection leaves only
contexts that it has entered, exactly when entering fails in no other way than by a failure of the
store. After any other failure to enter, the connection keeps a context that was never entered, and
closing leaves it. -/

namespace TableScan

/-- Only contexts that have been entered are left. -/
def Event.LeavesEntered (events : List Event) : Prop :=
  ∀ before k left after, events = before ++ .exit k left :: after →
    ∃ n, .enter k (some n) ∈ before

namespace Event

variable {events : List Event} {e : Event} {k : Nat}

theorem leavesEntered_nil : LeavesEntered [] := by
  intro before k left after split
  simp at split

theorem LeavesEntered.concat (entered : LeavesEntered events)
    (last : ∀ k left, e = .exit k left → ∃ n, .enter k (some n) ∈ events) :
    LeavesEntered (events ++ [e]) := by
  intro before k left after split
  rcases concat_eq_append_cons_iff.1 split with ⟨rfl, same, -⟩ | ⟨between, earlier, -⟩
  · exact last k left same
  · exact entered before k left between earlier

end Event

namespace Connection

open Event (LeavesEntered)

variable {c next : Connection}

def EntersOrStoreFails (script : Script) : Prop :=
  ∀ failure, .error failure ∈ script.enter → isStoreFailure failure = true

/-- The connection has left only contexts that it had entered, and it has entered the one it holds.
-/
structure Entered (c : Connection) : Prop where
  script : EntersOrStoreFails c.session.script
  held : ∀ k, c.context = some k → ∃ n, .enter k (some n) ∈ c.session.events
  left : LeavesEntered c.session.events

theorem Entered.of_moves (entered : c.Entered) (moves : c.Moves next) : next.Entered := by
  obtain ⟨script, held, left⟩ := entered
  have kept {e : Event} (k : Nat) (here : c.context = some k) :
      ∃ n, .enter k (some n) ∈ c.session.events ++ [e] := by
    obtain ⟨n, member⟩ := held k here
    exact ⟨n, List.mem_append_left _ member⟩
  cases moves with
  | uncreated shut failed =>
    obtain ⟨rest, _, rfl⟩ := Session.create_eq_error failed
    refine ⟨?_, fun k here => ?_, ?_⟩
    · rw [openingFailed_session]
      exact script
    · rw [openingFailed_session]
      exact kept k (context_of_openingFailed here).2
    · rw [openingFailed_session]
      exact left.concat nofun
  | unentered shut created failed =>
    obtain ⟨_, _, _, rfl⟩ := Session.create_eq_ok created
    obtain ⟨rest, replies, rfl⟩ := Session.enter_eq_error failed
    -- a failure of the store leaves no context behind, and the script has no other
    have storeFails := script _ (show _ ∈ c.session.script.enter from replies ▸ List.mem_cons_self)
    refine ⟨?_, fun k here => ?_, ?_⟩
    · rw [openingFailed_session]
      exact fun other member => script other (replies ▸ List.mem_cons_of_mem _ member)
    · rw [(context_of_openingFailed here).1] at storeFails
      cases storeFails
    · rw [openingFailed_session]
      exact .concat (.concat left nofun) nofun
  | entered shut created entered =>
    obtain ⟨_, _, _, rfl⟩ := Session.create_eq_ok created
    obtain ⟨_, rest, passes, rfl⟩ := Session.enter_eq_ok entered
    refine ⟨fun other member => script other (passes.error_mem_iff.1 member), fun k here => ?_, ?_⟩
    · cases here
      exact ⟨_, List.mem_append_right _ List.mem_cons_self⟩
    · exact .concat (.concat left nofun) nofun
  | listed | scanned => exact ⟨script, kept, left.concat nofun⟩
  | left here done =>
    obtain ⟨rest, _, rfl⟩ := Session.exit_eq_ok done
    refine ⟨script, nofun, left.concat fun k _ same => ?_⟩
    cases same
    exact held _ here
  | stuck here failed =>
    obtain ⟨rest, _, rfl⟩ := Session.exit_eq_error failed
    refine ⟨script, kept, left.concat fun k _ same => ?_⟩
    cases same
    exact held _ here

/-- Some steps make the connection leave a context that it has not entered. -/
def Strays (c : Connection) : Prop := ∃ steps, ¬LeavesEntered (c.run steps).session.events

theorem Strays.of_step (s : Step) (strays : (c.step s).2.Strays) : c.Strays := by
  obtain ⟨steps, astray⟩ := strays
  exact ⟨s :: steps, astray⟩

/-- A context that could not be entered, but not by a failure of the store, is left on closing. -/
theorem strays_of_unentered {k : Nat} {failure : Failure} {between session : Session}
    (shut : c.client = none) (numbered : c.Numbered)
    (created : c.session.create = (.ok k, between))
    (failed : between.enter k = (.error failure, session))
    (other : isStoreFailure failure = false) : c.Strays := by
  have opening : c.getClient.2 = { c with session := session, context := some k } := by
    rw [getClient_of_unentered shut created failed]
    simp [openingFailed, other]
  have events : session.events = c.session.events ++ [.create (some k), .enter k none] := by
    obtain ⟨_, _, _, rfl⟩ := Session.create_eq_ok created
    obtain ⟨rest, _, rfl⟩ := Session.enter_eq_error failed
    simp
  refine ⟨[.getClient, .close], fun entered => ?_⟩
  change LeavesEntered c.getClient.2.close.2.session.events at entered
  rw [opening] at entered
  obtain ⟨left, closing⟩ := exists_exit_of_close
    (c := { c with session := session, context := some k }) rfl
  rw [closing] at entered
  -- the context is new, so nothing before this opening can have entered it
  obtain ⟨n, member⟩ := entered session.events k left [] rfl
  have old : .enter k (some n) ∈ c.session.events := by simpa [events] using member
  have handed := numbered k (some n) old
  rw [(Session.create_eq_ok created).1] at handed
  exact Nat.not_succ_le_self _ handed

/-- How far opening and closing can go on with prepared outcomes. A client that is open can be
closed without one. -/
def ahead (c : Connection) : Nat :=
  2 * (c.session.script.create.length + c.session.script.enter.length +
    c.session.script.exit.length) + c.client.toList.length

/-- The connection holds a context just while it has a client, and to enter one is yet to fail in a
certain way. -/
structure Bound (failure : Failure) (c : Connection) : Prop where
  settled : c.context.isSome = c.client.isSome
  prepared : .error failure ∈ c.session.script.enter

theorem Bound.of_open {failure : Failure} {n : Nat} (bound : c.Bound failure)
    (opened : c.client = some n) :
    (c.step .close).2.Bound failure ∧ (c.step .close).2.ahead < c.ahead := by
  obtain ⟨k, held⟩ : ∃ k, c.context = some k := by
    simpa [opened, Option.isSome_iff_exists] using bound.settled
  rcases done : c.session.exit k with ⟨reason | _, session⟩
  · rw [step_close (close_of_stuck held done)]
    obtain ⟨rest, replies, rfl⟩ := Session.exit_eq_error done
    exact ⟨⟨bound.settled, bound.prepared⟩, by simp [ahead, replies]⟩
  · rw [step_close (close_of_left held done)]
    obtain ⟨rest, passes, rfl⟩ := Session.exit_eq_ok done
    have shorter := passes.length_le
    refine ⟨⟨rfl, bound.prepared⟩, ?_⟩
    simp only [ahead, opened, Option.toList_none, Option.toList_some, List.length_nil,
      List.length_singleton]
    omega

theorem Bound.of_shut {failure : Failure} (bound : c.Bound failure) (shut : c.client = none)
    (numbered : c.Numbered) (other : isStoreFailure failure = false) :
    c.Strays ∨ (c.step .getClient).2.Bound failure ∧ (c.step .getClient).2.ahead < c.ahead := by
  have vacant : c.context = none := by simpa [shut] using bound.settled
  rcases created : c.session.create with ⟨reason | k, between⟩
  · rw [step_getClient (getClient_of_uncreated shut created)]
    have same := openingFailed_of_vacant (c := { c with session := between }) vacant reason
    obtain ⟨rest, replies, rfl⟩ := Session.create_eq_error created
    rw [same]
    exact .inr ⟨⟨bound.settled, bound.prepared⟩, by simp [ahead, replies]⟩
  · rcases entered : between.enter k with ⟨reason | n, session⟩
    · cases store : isStoreFailure reason with
      | false => exact .inl (strays_of_unentered shut numbered created entered store)
      | true =>
        right
        rw [step_getClient (getClient_of_unentered shut created entered)]
        obtain ⟨_, later, passes, rfl⟩ := Session.create_eq_ok created
        obtain ⟨rest, replies, rfl⟩ := Session.enter_eq_error entered
        replace replies : c.session.script.enter = .error reason :: rest := replies
        have shorter := passes.length_le
        have prepared := bound.prepared
        rw [replies] at prepared
        -- this failure to enter is one of the store, so the one in question is still to come
        have differs : (.error failure : Reply) ≠ .error reason := by
          rintro ⟨⟩
          rw [other] at store
          cases store
        simp only [openingFailed, store, if_true]
        refine ⟨⟨by simp [shut], (List.mem_cons.1 prepared).resolve_left differs⟩, ?_⟩
        simp only [ahead, replies, List.length_cons]
        omega
    · right
      rw [step_getClient (getClient_of_entered shut created entered)]
      obtain ⟨_, later, creates, rfl⟩ := Session.create_eq_ok created
      obtain ⟨_, rest, enters, rfl⟩ := Session.enter_eq_ok entered
      have shorter := creates.length_le
      have shortest : rest.length < c.session.script.enter.length :=
        enters.length_lt (List.ne_nil_of_mem bound.prepared)
      refine ⟨⟨rfl, enters.error_mem_iff.2 bound.prepared⟩, ?_⟩
      simp only [ahead, shut, Option.toList_none, Option.toList_some, List.length_nil,
        List.length_singleton]
      omega

/-- Where entering is to fail otherwise than by a failure of the store, opening and closing again
and again comes to that. -/
theorem Bound.strays {failure : Failure} (bound : c.Bound failure) (numbered : c.Numbered)
    (other : isStoreFailure failure = false) : c.Strays := by
  induction size : c.ahead using Nat.strongRecOn generalizing c with
  | _ size ih =>
    subst size
    have goOn (s : Step) (closer : (c.step s).2.Bound failure ∧ (c.step s).2.ahead < c.ahead) :
        c.Strays :=
      .of_step s (ih _ closer.2 closer.1 (kept_of_step Numbered.of_moves numbered s) rfl)
    cases opened : c.client with
    | some n => exact goOn .close (bound.of_open opened)
    | none =>
      rcases bound.of_shut opened numbered other with strays | closer
      · exact strays
      · exact goOn .getClient closer

/-- Over every run a connection leaves only contexts that it has entered, exactly when the session
fails to enter one only by a failure of the store. -/
theorem leavesEntered_iff (settings : Settings) (script : Script) :
    (∀ steps, LeavesEntered ((ofSession settings (.ofScript script)).run steps).session.events) ↔
      EntersOrStoreFails script := by
  constructor
  · intro entered failure prepared
    by_contra other
    have bound : (ofSession settings (.ofScript script)).Bound failure := ⟨rfl, prepared⟩
    obtain ⟨steps, astray⟩ := bound.strays nofun (by simpa using other)
    exact astray (entered steps)
  · intro storeFails steps
    have begins : (ofSession settings (.ofScript script)).Entered :=
      ⟨storeFails, nofun, Event.leavesEntered_nil⟩
    exact (kept_of_run Entered.of_moves begins steps).left

/-- A context that could not be entered, though the store is not at fault, is left all the same. -/
theorem not_forall_leavesEntered :
    ¬∀ (settings : Settings) (script : Script) (steps : List Step),
      LeavesEntered ((ofSession settings (.ofScript script)).run steps).session.events := by
  intro entered
  let settings : Settings := ⟨Settings.defaultRegion, none, []⟩
  let script : Script := ⟨[], [.error (.runtime "boom")], [], [], []⟩
  have astray := entered settings script [.getClient, .close]
    [.create (some 1), .enter 1 none] 1 true [] rfl
  simp at astray

end Connection

end TableScan
