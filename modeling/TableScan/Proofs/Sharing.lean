import TableScan.Connection.Callers
import TableScan.Proofs.Moves

/-! Callers who ask for the client together. Main statement: when all of them are served, they share
one client, for which one context was created and which closing leaves, exactly when the first of
them to begin also takes the second turn. Whoever else comes second opens a client of its own. -/

namespace TableScan

namespace Event

def isCreate : Event → Bool
  | .create _ => true
  | _ => false

end Event

namespace Connection

variable {c : Connection} {k n : Nat} {failure : Failure} {session between : Session}

def creations (c : Connection) : Nat := c.session.events.countP Event.isCreate

theorem turn_of_client (held : c.client = some n) : c.turn .waiting = (.served n, c) := by
  rw [turn, held]

theorem turn_of_created (shut : c.client = none) (created : c.session.create = (.ok k, session)) :
    c.turn .waiting = (.entering k, { c with session := session, context := some k }) := by
  simp only [turn, shut, beginClient, created]

theorem turn_of_uncreated (shut : c.client = none)
    (failed : c.session.create = (.error failure, session)) :
    c.turn .waiting = (.failed (openingFailed failure { c with session := session }).1,
      (openingFailed failure { c with session := session }).2) := by
  simp only [turn, shut, beginClient, failed]

theorem turn_of_entered (entered : c.session.enter k = (.ok n, session)) :
    c.turn (.entering k) = (.served n, { c with session := session, client := some n }) := by
  simp only [turn, finishClient, entered, Caller.ofAnswer]

theorem turn_of_unentered (failed : c.session.enter k = (.error failure, session)) :
    c.turn (.entering k) = (.failed (openingFailed failure { c with session := session }).1,
      (openingFailed failure { c with session := session }).2) := by
  simp only [turn, finishClient, failed, Caller.ofAnswer]

/-- A caller who takes two turns with none between them is answered as by asking for the client. -/
theorem turn_turn (c : Connection) :
    (c.turn .waiting).2.turn (c.turn .waiting).1 = (.ofAnswer c.getClient.1, c.getClient.2) := by
  cases shut : c.client with
  | some n =>
    rw [turn_of_client shut, getClient_of_client shut]
    rfl
  | none =>
    rcases created : c.session.create with ⟨failure | k, between⟩
    · rw [turn_of_uncreated shut created, getClient_of_uncreated shut created]
      rfl
    · rw [turn_of_created shut created]
      rcases entered : between.enter k with ⟨failure | n, session⟩
      · rw [getClient_of_unentered shut created entered]
        exact turn_of_unentered entered
      · rw [getClient_of_entered shut created entered]
        exact turn_of_entered entered

theorem events_turn (c : Connection) (caller : Caller) :
    c.session.events <+: (c.turn caller).2.session.events := by
  cases caller with
  | waiting =>
    cases shut : c.client with
    | some n => simp [turn_of_client shut]
    | none =>
      rcases created : c.session.create with ⟨failure | k, session⟩
      · rw [turn_of_uncreated shut created, openingFailed_session]
        exact Session.events_create created
      · rw [turn_of_created shut created]
        exact Session.events_create created
  | entering k =>
    rcases entered : c.session.enter k with ⟨failure | n, session⟩
    · rw [turn_of_unentered entered, openingFailed_session]
      exact Session.events_enter entered
    · rw [turn_of_entered entered]
      exact Session.events_enter entered
  | served | failed => exact List.prefix_refl _

/-- A caller who finds no client creates a context, and there is no client yet. -/
theorem turn_of_shut (shut : c.client = none) :
    (c.turn .waiting).2.client = none ∧ (c.turn .waiting).2.creations = c.creations + 1 ∧
      ∀ n, (c.turn .waiting).1 ≠ .served n := by
  rcases created : c.session.create with ⟨failure | k, session⟩
  · rw [turn_of_uncreated shut created, creations, openingFailed_client, openingFailed_session]
    obtain ⟨rest, _, rfl⟩ := Session.create_eq_error created
    exact ⟨shut, by simp [creations, Event.isCreate], nofun⟩
  · rw [turn_of_created shut created]
    obtain ⟨-, rest, _, rfl⟩ := Session.create_eq_ok created
    exact ⟨shut, by simp [creations, Event.isCreate], nofun⟩

end Connection

namespace Crowd

variable {g : Crowd} {i j : Nat} {caller : Caller}

/-- The callers share one client, for which one context was created and which is closed with the
connection. -/
structure Shares (g : Crowd) : Prop where
  client : ∃ n, ∀ caller ∈ g.callers, caller = .served n
  created : g.connection.creations = 1
  closed : ∀ k n, .enter k (some n) ∈ g.connection.session.events →
    ∃ left, .exit k left ∈ g.connection.close.2.session.events

def AllServed (g : Crowd) : Prop := ∀ caller ∈ g.callers, ∃ n, caller = .served n

theorem turn_of_getElem? (here : g.callers[i]? = some caller) :
    g.turn i = ⟨(g.connection.turn caller).2, g.callers.set i (g.connection.turn caller).1⟩ := by
  rw [turn, here]

theorem creations_run_le (g : Crowd) (order : List Nat) :
    g.connection.creations ≤ (g.run order).connection.creations := by
  induction order generalizing g with
  | nil => exact Nat.le_refl _
  | cons i order ih =>
    refine Nat.le_trans ?_ (ih (g.turn i))
    cases here : g.callers[i]? with
    | none => simp [turn, here]
    | some caller =>
      rw [turn_of_getElem? here]
      exact (Connection.events_turn _ _).sublist.countP_le

theorem failed_of_run {failure : Failure} (here : g.callers[i]? = some (.failed failure))
    (order : List Nat) : (g.run order).callers[i]? = some (.failed failure) := by
  induction order generalizing g with
  | nil => exact here
  | cons j order ih =>
    refine ih ?_
    cases other : g.callers[j]? with
    | none => simpa [turn, other] using here
    | some caller =>
      rw [turn_of_getElem? other]
      by_cases same : j = i
      · subst same
        cases here.symm.trans other
        simp [Connection.turn, (List.getElem?_eq_some_iff.1 here).1]
      · simpa [List.getElem?_set, same] using here

/-- Where no one is served before the others, one who begins without a client creates a context. -/
theorem turn_of_waiting (here : g.callers[i]? = some .waiting) (shut : g.connection.client = none) :
    (g.turn i).connection.client = none ∧
      (g.turn i).connection.creations = g.connection.creations + 1 ∧
      ∀ n, .served n ∉ (g.turn i).callers[i]? := by
  obtain ⟨closed, more, unserved⟩ := Connection.turn_of_shut shut
  rw [turn_of_getElem? here]
  refine ⟨closed, more, fun n served => ?_⟩
  rw [List.getElem?_set_self (List.getElem?_eq_some_iff.1 here).1] at served
  exact unserved n (Option.some.inj served)

/-- Once there is a client, those who still wait are given it, and nothing else is done. -/
theorem run_of_client {n : Nat} (held : g.connection.client = some n)
    (begun : ∀ caller ∈ g.callers, caller = .waiting ∨ caller = .served n) (order : List Nat) :
    (g.run order).connection = g.connection ∧
      ∀ caller ∈ (g.run order).callers, caller = .waiting ∨ caller = .served n := by
  induction order generalizing g with
  | nil => exact ⟨rfl, begun⟩
  | cons i order ih =>
    cases here : g.callers[i]? with
    | none =>
      have same : g.turn i = g := by rw [turn, here]
      simpa [run, same] using ih held begun
    | some caller =>
      have answered : g.connection.turn caller = (.served n, g.connection) := by
        rcases begun caller (List.mem_of_getElem? here) with rfl | rfl
        · exact Connection.turn_of_client held
        · rfl
      have next : g.turn i = ⟨g.connection, g.callers.set i (.served n)⟩ := by
        rw [turn_of_getElem? here, answered]
      have kept : ∀ other ∈ g.callers.set i (.served n),
          other = .waiting ∨ other = .served n := by
        intro other member
        rcases List.mem_or_eq_of_mem_set member with old | rfl
        · exact begun other old
        · exact .inr rfl
      rw [run, List.foldl_cons, next]
      exact ih held kept

section Gathered

variable {c : Connection} {count : Nat} {order : List Nat}

theorem gather_getElem? (c : Connection) (inside : i < count) :
    (gather c count).callers[i]? = some .waiting := by
  simp [gather, inside]

/-- The first two turns of one caller are one call for the client. -/
theorem gather_turn_turn (c : Connection) (inside : i < count) :
    ((gather c count).turn i).turn i =
      ⟨c.getClient.2, (gather c count).callers.set i (.ofAnswer c.getClient.1)⟩ := by
  have begun : (gather c count).turn i =
      ⟨(c.turn .waiting).2, (gather c count).callers.set i (c.turn .waiting).1⟩ :=
    turn_of_getElem? (gather_getElem? c inside)
  have here : ((gather c count).turn i).callers[i]? = some (c.turn .waiting).1 := by
    rw [begun]
    exact List.getElem?_set_self (by simpa [gather] using inside)
  rw [turn_of_getElem? here, begun, List.set_set, Connection.turn_turn]

/-- If the first to begin is answered in the second turn, and all are served in the end, then all
are given the client of the first. -/
theorem served_by_first (inside : i < count)
    (served : ((gather c count).run (i :: i :: order)).AllServed) :
    ∃ n, c.getClient.1 = .ok n ∧
      ((gather c count).run (i :: i :: order)).connection = c.getClient.2 ∧
      ∀ caller ∈ ((gather c count).run (i :: i :: order)).callers, caller = .served n := by
  have answered := gather_turn_turn c inside
  change (((gather c count).turn i |>.turn i).run order).AllServed at served
  change ∃ n, _ ∧ (((gather c count).turn i |>.turn i).run order).connection = _ ∧
    ∀ caller ∈ (((gather c count).turn i |>.turn i).run order).callers, _
  rw [answered] at served ⊢
  cases got : c.getClient.1 with
  | error failure =>
    -- the first would never be served
    have failed : ((gather c count).callers.set i (.ofAnswer (.error failure)))[i]? =
        some (.failed failure) :=
      List.getElem?_set_self (by simpa [gather] using inside)
    rw [got] at served
    obtain ⟨n, same⟩ := served _ (List.mem_of_getElem? (failed_of_run failed order))
    cases same
  | ok n =>
    refine ⟨n, rfl, ?_⟩
    rw [got] at served
    have begun : ∀ caller ∈ (gather c count).callers.set i (.served n),
        caller = .waiting ∨ caller = .served n := by
      intro caller member
      rcases List.mem_or_eq_of_mem_set member with old | rfl
      · exact .inl (List.mem_replicate.1 old).2
      · exact .inr rfl
    obtain ⟨same, settled⟩ := run_of_client (g := ⟨c.getClient.2, _⟩)
      (c.getClient_moves.2 n got) begun order
    refine ⟨same, fun caller member => (settled caller member).resolve_left fun waits => ?_⟩
    obtain ⟨m, impossible⟩ := served caller member
    cases waits.symm.trans impossible

/-- The first client of a connection takes one context, which is left on closing. -/
theorem first_client {settings : Settings} {script : Script} {n : Nat}
    (fresh : c = .ofSession settings (.ofScript script)) (got : c.getClient.1 = .ok n) :
    c.getClient.2.creations = 1 ∧
      ∀ k m, .enter k (some m) ∈ c.getClient.2.session.events →
        ∃ left, .exit k left ∈ c.getClient.2.close.2.session.events := by
  subst fresh
  rcases created : (Session.ofScript script).create with ⟨failure | k, between⟩
  · rw [Connection.getClient_of_uncreated rfl created] at got
    cases got
  · rcases entered : between.enter k with ⟨failure | m, session⟩
    · rw [Connection.getClient_of_unentered rfl created entered] at got
      cases got
    · rw [Connection.getClient_of_entered rfl created entered]
      obtain ⟨-, later, _, rfl⟩ := Session.create_eq_ok created
      obtain ⟨-, rest, _, rfl⟩ := Session.enter_eq_ok entered
      refine ⟨rfl, fun j m member => ?_⟩
      obtain ⟨left, closing⟩ := Connection.exists_exit_of_close (k := k)
        (c := ⟨settings, some k, some _, _⟩) rfl
      obtain ⟨rfl, -⟩ : j = k ∧ m = _ := by simpa [Session.ofScript] using member
      exact ⟨left, closing ▸ List.mem_append_right _ List.mem_cons_self⟩

/-- Callers who all are served share one client exactly when the first of them to begin takes the
second turn as well, and so is served before any other begins. -/
theorem shares_iff (settings : Settings) (script : Script) (count : Nat) (order : List Nat)
    (inside : ∀ i ∈ order, i < count)
    (served : ((gather (.ofSession settings (.ofScript script)) count).run order).AllServed) :
    ((gather (.ofSession settings (.ofScript script)) count).run order).Shares ↔
      ∃ i rest, order = i :: i :: rest := by
  constructor
  · intro shares
    let g := gather (.ofSession settings (.ofScript script)) count
    rcases order with _ | ⟨i, rest⟩
    · cases shares.created
    · have first : g.callers[i]? = some .waiting := gather_getElem? _ (inside i (by simp))
      obtain ⟨shut, once, unserved⟩ := turn_of_waiting first rfl
      rcases rest with _ | ⟨j, rest⟩
      · -- with one turn no one has been served
        have last : ∃ caller, (g.turn i).callers[i]? = some caller := by
          rw [turn_of_getElem? first]
          exact ⟨_, List.getElem?_set_self (by simpa [g, gather] using inside i)⟩
        obtain ⟨caller, last⟩ := last
        obtain ⟨n, rfl⟩ := served caller (List.mem_of_getElem? last)
        exact absurd last (unserved n)
      · by_cases same : j = i
        · subst same
          exact ⟨j, rest, rfl⟩
        · -- the second to begin creates a context of its own
          have second : (g.turn i).callers[j]? = some .waiting := by
            rw [turn_of_getElem? first, List.getElem?_set_ne (Ne.symm same)]
            exact gather_getElem? _ (inside j (by simp))
          obtain ⟨-, twice, -⟩ := turn_of_waiting second shut
          have more := creations_run_le ((g.turn i).turn j) rest
          have final : ((g.turn i |>.turn j).run rest).connection.creations = 1 := shares.created
          omega
  · intro given
    obtain ⟨i, rest, rfl⟩ := given
    obtain ⟨n, got, same, all⟩ := served_by_first (inside i (by simp)) served
    obtain ⟨once, closed⟩ := first_client rfl got
    exact ⟨⟨n, all⟩, same ▸ once, same ▸ closed⟩

theorem shares_iff_two :
    ((gather (.ofSession ⟨Settings.defaultRegion, none, []⟩ (.ofScript ⟨[], [], [], [], []⟩)) 2).run
      [0, 0, 1]).Shares :=
  (shares_iff ⟨Settings.defaultRegion, none, []⟩ ⟨[], [], [], [], []⟩ 2 [0, 0, 1] (by decide)
    fun caller member => by
      have served : caller ∈ [Caller.served 1, Caller.served 1] := member
      exact ⟨1, by simpa using served⟩).2 ⟨0, [1], rfl⟩

end Gathered

/-- Of two callers who both begin before either is served, each is given a client of its own. -/
theorem not_forall_shares :
    ¬∀ (settings : Settings) (script : Script) (count : Nat) (order : List Nat), 0 < count →
      (∀ i ∈ order, i < count) →
      ((gather (.ofSession settings (.ofScript script)) count).run order).AllServed →
      ((gather (.ofSession settings (.ofScript script)) count).run order).Shares := by
  intro shares
  have served : ((gather (.ofSession ⟨Settings.defaultRegion, none, []⟩
      (.ofScript ⟨[], [], [], [], []⟩)) 2).run [0, 1, 0, 1]).callers = [.served 1, .served 2] := rfl
  obtain ⟨n, all⟩ := (shares ⟨Settings.defaultRegion, none, []⟩ ⟨[], [], [], [], []⟩ 2 [0, 1, 0, 1]
    (by decide) (by decide) (by simp [AllServed, served])).client
  rw [served] at all
  cases all (.served 1) (by simp)
  cases all (.served 2) (by simp)

end Crowd

end TableScan
