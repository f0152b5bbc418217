import Mathlib.Logic.Relation
import TableScan.Connection
import TableScan.Proofs.Drafting

/-! The moves of a connection at its session. Every step of a caller is made of a few of them: a
client is opened, or fails to be at either of two points, it is used, and its context is left or
cannot be. Main statement: what every move keeps, every run of steps keeps. -/

namespace TableScan

namespace Replay

variable {replies rest : List Reply} {failure : Failure}

/-- The next of the replies is a response, be it that of a store without replies. -/
def Passes (replies rest : List Reply) : Prop :=
  replies = [] ∧ rest = [] ∨ ∃ response, replies = .ok response :: rest

theorem passes_of_take {response : Value} (taken : take replies = (.ok response, rest)) :
    Passes replies rest := by
  cases replies <;> cases taken
  · exact .inl ⟨rfl, rfl⟩
  · exact .inr ⟨response, rfl⟩

theorem eq_cons_of_take (taken : take replies = (.error failure, rest)) :
    replies = .error failure :: rest := by
  cases replies <;> cases taken
  rfl

namespace Passes

theorem error_mem_iff (passes : Passes replies rest) :
    .error failure ∈ rest ↔ .error failure ∈ replies := by
  rcases passes with ⟨rfl, rfl⟩ | ⟨response, rfl⟩ <;> simp

theorem length_le (passes : Passes replies rest) : rest.length ≤ replies.length := by
  rcases passes with ⟨rfl, rfl⟩ | ⟨response, rfl⟩ <;> simp

theorem length_lt (passes : Passes replies rest) (some : replies ≠ []) :
    rest.length < replies.length := by
  rcases passes with ⟨rfl, rfl⟩ | ⟨response, rfl⟩
  · exact absurd rfl some
  · simp

end Passes

end Replay

namespace Event

variable {events before after : List Event} {e other : Event}

/-- In a history that has grown by an event, another is the new one, or comes before it. -/
theorem concat_eq_append_cons_iff :
    events ++ [e] = before ++ other :: after ↔
      (events = before ∧ e = other ∧ after = []) ∨
        ∃ between, events = before ++ other :: between ∧ after = between ++ [e] := by
  constructor
  · intro split
    rcases List.eq_nil_or_concat after with rfl | ⟨between, last, rfl⟩
    · obtain ⟨same, tail⟩ := List.append_inj' split rfl
      exact .inl ⟨same, (List.cons.inj tail).1, rfl⟩
    · rw [List.concat_eq_append, ← List.cons_append, ← List.append_assoc] at split
      obtain ⟨same, tail⟩ := List.append_inj' split rfl
      cases tail
      exact .inr ⟨between, same, List.concat_eq_append⟩
  · intro given
    rcases given with ⟨rfl, rfl, rfl⟩ | ⟨between, rfl, rfl⟩
    · rfl
    · rw [List.append_assoc, List.cons_append]

end Event

namespace Session

variable {s after : Session} {k n : Nat} {failure : Failure}

theorem create_eq_ok (done : s.create = (.ok k, after)) :
    k = s.contexts + 1 ∧ ∃ rest, Replay.Passes s.script.create rest ∧
      after = ⟨{ s.script with create := rest }, k, s.clients, s.events ++ [.create (some k)]⟩ := by
  rw [create] at done
  rcases taken : Replay.take s.script.create with ⟨_ | _, rest⟩ <;> rw [taken] at done <;>
    cases done
  exact ⟨rfl, rest, Replay.passes_of_take taken, rfl⟩

theorem create_eq_error (failed : s.create = (.error failure, after)) :
    ∃ rest, s.script.create = .error failure :: rest ∧
      after = ⟨{ s.script with create := rest }, s.contexts, s.clients,
        s.events ++ [.create none]⟩ := by
  rw [create] at failed
  rcases taken : Replay.take s.script.create with ⟨_ | _, rest⟩ <;> rw [taken] at failed <;>
    cases failed
  exact ⟨rest, Replay.eq_cons_of_take taken, rfl⟩

theorem enter_eq_ok (done : s.enter k = (.ok n, after)) :
    n = s.clients + 1 ∧ ∃ rest, Replay.Passes s.script.enter rest ∧
      after = ⟨{ s.script with enter := rest }, s.contexts, n,
        s.events ++ [.enter k (some n)]⟩ := by
  rw [enter] at done
  rcases taken : Replay.take s.script.enter with ⟨_ | _, rest⟩ <;> rw [taken] at done <;>
    cases done
  exact ⟨rfl, rest, Replay.passes_of_take taken, rfl⟩

theorem enter_eq_error (failed : s.enter k = (.error failure, after)) :
    ∃ rest, s.script.enter = .error failure :: rest ∧
      after = ⟨{ s.script with enter := rest }, s.contexts, s.clients,
        s.events ++ [.enter k none]⟩ := by
  rw [enter] at failed
  rcases taken : Replay.take s.script.enter with ⟨_ | _, rest⟩ <;> rw [taken] at failed <;>
    cases failed
  exact ⟨rest, Replay.eq_cons_of_take taken, rfl⟩

theorem exit_eq_ok (done : s.exit k = (.ok (), after)) :
    ∃ rest, Replay.Passes s.script.exit rest ∧
      after = ⟨{ s.script with exit := rest }, s.contexts, s.clients,
        s.events ++ [.exit k true]⟩ := by
  rw [exit] at done
  rcases taken : Replay.take s.script.exit with ⟨_ | _, rest⟩ <;> rw [taken] at done <;>
    cases done
  exact ⟨rest, Replay.passes_of_take taken, rfl⟩

theorem exit_eq_error (failed : s.exit k = (.error failure, after)) :
    ∃ rest, s.script.exit = .error failure :: rest ∧
      after = ⟨{ s.script with exit := rest }, s.contexts, s.clients,
        s.events ++ [.exit k false]⟩ := by
  rw [exit] at failed
  rcases taken : Replay.take s.script.exit with ⟨_ | _, rest⟩ <;> rw [taken] at failed <;>
    cases failed
  exact ⟨rest, Replay.eq_cons_of_take taken, rfl⟩

/-! Whatever comes of it, what is asked of a session is added to what was done. -/

theorem events_create {answer : Except Failure Nat} (asked : s.create = (answer, after)) :
    s.events <+: after.events := by
  cases answer with
  | error failure =>
    obtain ⟨rest, _, rfl⟩ := create_eq_error asked
    exact List.prefix_append _ _
  | ok k =>
    obtain ⟨-, rest, _, rfl⟩ := create_eq_ok asked
    exact List.prefix_append _ _

theorem events_enter {answer : Except Failure Nat} (asked : s.enter k = (answer, after)) :
    s.events <+: after.events := by
  cases answer with
  | error failure =>
    obtain ⟨rest, _, rfl⟩ := enter_eq_error asked
    exact List.prefix_append _ _
  | ok n =>
    obtain ⟨-, rest, _, rfl⟩ := enter_eq_ok asked
    exact List.prefix_append _ _

theorem events_exit {answer : Except Failure Unit} (asked : s.exit k = (answer, after)) :
    s.events <+: after.events := by
  cases answer with
  | error failure =>
    obtain ⟨rest, _, rfl⟩ := exit_eq_error asked
    exact List.prefix_append _ _
  | ok done =>
    obtain ⟨rest, _, rfl⟩ := exit_eq_ok asked
    exact List.prefix_append _ _

end Session

namespace Connection

variable {c next : Connection} {k n : Nat} {failure : Failure} {between session : Session}

theorem openingFailed_session (failure : Failure) (c : Connection) :
    (openingFailed failure c).2.session = c.session := by
  unfold openingFailed
  split <;> rfl

theorem openingFailed_client (failure : Failure) (c : Connection) :
    (openingFailed failure c).2.client = c.client := by
  unfold openingFailed
  split <;> rfl

theorem openingFailed_of_vacant (vacant : c.context = none) (failure : Failure) :
    (openingFailed failure c).2 = c := by
  unfold openingFailed
  split
  · rw [← vacant]
  · rfl

theorem context_of_openingFailed
    (held : (openingFailed failure c).2.context = some k) :
    isStoreFailure failure = false ∧ c.context = some k := by
  unfold openingFailed at held
  split at held
  · cases held
  · next other => exact ⟨by simpa using other, held⟩

/-! What asking for the client and closing come to, by what the session does. -/

section Outcomes

theorem getClient_of_client (held : c.client = some n) : c.getClient = (.ok n, c) := by
  rw [getClient, held]

theorem getClient_of_uncreated (shut : c.client = none)
    (failed : c.session.create = (.error failure, session)) :
    c.getClient = (.error (openingFailed failure { c with session := session }).1,
      (openingFailed failure { c with session := session }).2) := by
  simp only [getClient, shut, beginClient, failed]

theorem getClient_of_unentered (shut : c.client = none)
    (created : c.session.create = (.ok k, between))
    (failed : between.enter k = (.error failure, session)) :
    c.getClient =
      (.error (openingFailed failure { c with session := session, context := some k }).1,
        (openingFailed failure { c with session := session, context := some k }).2) := by
  simp only [getClient, shut, beginClient, created, finishClient, failed]

theorem getClient_of_entered (shut : c.client = none)
    (created : c.session.create = (.ok k, between)) (entered : between.enter k = (.ok n, session)) :
    c.getClient = (.ok n, { c with session := session, context := some k, client := some n }) := by
  simp only [getClient, shut, beginClient, created, finishClient, entered]

theorem close_of_none (nothing : c.context = none) : c.close = (.ok (), c) := by
  rw [close, nothing]

theorem close_of_left (held : c.context = some k) (left : c.session.exit k = (.ok (), session)) :
    c.close = (.ok (), { c with session := session, context := none, client := none }) := by
  simp only [close, held, left]

theorem close_of_stuck (held : c.context = some k)
    (failed : c.session.exit k = (.error failure, session)) :
    c.close = (.error failure, { c with session := session }) := by
  simp only [close, held, failed]

theorem exists_exit_of_close (held : c.context = some k) :
    ∃ left, c.close.2.session.events = c.session.events ++ [.exit k left] := by
  rcases done : c.session.exit k with ⟨failure | _, session⟩
  · rw [close_of_stuck held done]
    obtain ⟨rest, _, rfl⟩ := Session.exit_eq_error done
    exact ⟨false, rfl⟩
  · rw [close_of_left held done]
    obtain ⟨rest, _, rfl⟩ := Session.exit_eq_ok done
    exact ⟨true, rfl⟩

theorem isHealthy_of_error (failed : c.getClient = (.error failure, next)) :
    c.isHealthy = (false, next) := by
  rw [isHealthy, failed]

theorem isHealthy_of_ok (got : c.getClient = (.ok n, next)) :
    c.isHealthy = ((next.session.listTables n).1.isOk,
      { next with session := (next.session.listTables n).2 }) := by
  rw [isHealthy, got]
  rcases listed : next.session.listTables n with ⟨_ | _, _⟩ <;> simp only [listed] <;> rfl

theorem scan_of_error {request : Value} (failed : c.getClient = (.error failure, next)) :
    c.scan request = (.error failure, next) := by
  rw [scan, failed]

theorem scan_of_ok {request : Value} (got : c.getClient = (.ok n, next)) :
    c.scan request = ((next.session.scan n request).1.mapError scanFailure,
      { next with session := (next.session.scan n request).2 }) := by
  rw [scan, got]
  rcases scanned : next.session.scan n request with ⟨_ | _, _⟩ <;> simp only [scanned] <;> rfl

theorem step_getClient {got : Except Failure Nat} (outcome : c.getClient = (got, next)) :
    c.step .getClient = (got.map .client, next) := by
  rw [step, outcome]

theorem step_close {closed : Except Failure Unit} (outcome : c.close = (closed, next)) :
    c.step .close = (closed.map fun _ => .closed, next) := by
  rw [step, outcome]

end Outcomes

/-- One move of a connection: what its session does, and what the connection makes of that. -/
inductive Moves (c : Connection) : Connection → Prop where
  | uncreated {failure : Failure} {session : Session} (shut : c.client = none)
    (failed : c.session.create = (.error failure, session)) :
    Moves c (openingFailed failure { c with session := session }).2
  | unentered {k : Nat} {failure : Failure} {between session : Session} (shut : c.client = none)
    (created : c.session.create = (.ok k, between))
    (failed : between.enter k = (.error failure, session)) :
    Moves c (openingFailed failure { c with session := session, context := some k }).2
  | entered {k n : Nat} {between session : Session} (shut : c.client = none)
    (created : c.session.create = (.ok k, between)) (entered : between.enter k = (.ok n, session)) :
    Moves c { c with session := session, context := some k, client := some n }
  | listed {n : Nat} (held : c.client = some n) :
    Moves c { c with session := (c.session.listTables n).2 }
  | scanned {n : Nat} (held : c.client = some n) (request : Value) :
    Moves c { c with session := (c.session.scan n request).2 }
  | left {k : Nat} {session : Session} (held : c.context = some k)
    (done : c.session.exit k = (.ok (), session)) :
    Moves c { c with session := session, context := none, client := none }
  | stuck {k : Nat} {failure : Failure} {session : Session} (held : c.context = some k)
    (failed : c.session.exit k = (.error failure, session)) :
    Moves c { c with session := session }

theorem Moves.events_isPrefix (moves : c.Moves next) :
    c.session.events <+: next.session.events := by
  cases moves with
  | uncreated shut failed =>
    rw [openingFailed_session]
    exact Session.events_create failed
  | unentered shut created failed =>
    rw [openingFailed_session]
    exact (Session.events_create created).trans (Session.events_enter failed)
  | entered shut created entered =>
    exact (Session.events_create created).trans (Session.events_enter entered)
  | listed | scanned => exact List.prefix_append _ _
  | left here done => exact Session.events_exit done
  | stuck here failed => exact Session.events_exit failed

def Numbered (c : Connection) : Prop :=
  ∀ k n, .enter k n ∈ c.session.events → k ≤ c.session.contexts

theorem Numbered.of_moves (numbered : c.Numbered) (moves : c.Moves next) : next.Numbered := by
  have handed {k : Nat} {n m : Option Nat} (member : .enter k n ∈ c.session.events ++
      [.create (some (c.session.contexts + 1)), .enter (c.session.contexts + 1) m]) :
      k ≤ c.session.contexts + 1 := by
    rcases List.mem_append.1 member with old | new
    · exact Nat.le_succ_of_le (numbered k n old)
    · obtain ⟨rfl, _⟩ : k = c.session.contexts + 1 ∧ n = m := by simpa using new
      exact Nat.le_refl _
  intro k n member
  cases moves with
  | uncreated shut failed =>
    obtain ⟨rest, _, rfl⟩ := Session.create_eq_error failed
    rw [openingFailed_session] at member ⊢
    exact numbered k n (by simpa using member)
  | unentered shut created failed =>
    obtain ⟨rfl, _, _, rfl⟩ := Session.create_eq_ok created
    obtain ⟨rest, _, rfl⟩ := Session.enter_eq_error failed
    rw [openingFailed_session] at member ⊢
    exact handed (by simpa using member)
  | entered shut created entered =>
    obtain ⟨rfl, _, _, rfl⟩ := Session.create_eq_ok created
    obtain ⟨rfl, _, _, rfl⟩ := Session.enter_eq_ok entered
    exact handed (by simpa using member)
  | listed | scanned =>
    exact numbered k n (by simpa [Session.listTables, Session.scan, Session.record] using member)
  | left here done =>
    obtain ⟨rest, _, rfl⟩ := Session.exit_eq_ok done
    exact numbered k n (by simpa using member)
  | stuck here failed =>
    obtain ⟨rest, _, rfl⟩ := Session.exit_eq_error failed
    exact numbered k n (by simpa using member)

/-- Asking for the client is at most one move, and the client that is given is the connection's. -/
theorem getClient_moves (c : Connection) :
    Relation.ReflTransGen Moves c c.getClient.2 ∧
      ∀ n, c.getClient.1 = .ok n → c.getClient.2.client = some n := by
  cases shut : c.client with
  | some n =>
    rw [getClient_of_client shut]
    refine ⟨.refl, fun m given => ?_⟩
    cases given
    exact shut
  | none =>
    rcases created : c.session.create with ⟨failure | k, between⟩
    · rw [getClient_of_uncreated shut created]
      exact ⟨.single (.uncreated shut created), nofun⟩
    · rcases entered : between.enter k with ⟨failure | n, session⟩
      · rw [getClient_of_unentered shut created entered]
        exact ⟨.single (.unentered shut created entered), nofun⟩
      · rw [getClient_of_entered shut created entered]
        refine ⟨.single (.entered shut created entered), fun m given => ?_⟩
        cases given
        rfl

theorem close_moves (c : Connection) : Relation.ReflTransGen Moves c c.close.2 := by
  cases held : c.context with
  | none =>
    rw [close_of_none held]
  | some k =>
    rcases done : c.session.exit k with ⟨failure | _, session⟩
    · rw [close_of_stuck held done]
      exact .single (.stuck held done)
    · rw [close_of_left held done]
      exact .single (.left held done)

theorem isHealthy_moves (c : Connection) : Relation.ReflTransGen Moves c c.isHealthy.2 := by
  obtain ⟨moves, given⟩ := c.getClient_moves
  rcases got : c.getClient with ⟨failure | n, after⟩
  · rw [isHealthy_of_error got]
    rwa [got] at moves
  · rw [isHealthy_of_ok got]
    rw [got] at moves given
    exact moves.tail (.listed (given n rfl))

theorem scan_moves (c : Connection) (request : Value) :
    Relation.ReflTransGen Moves c (c.scan request).2 := by
  obtain ⟨moves, given⟩ := c.getClient_moves
  rcases got : c.getClient with ⟨failure | n, after⟩
  · rw [scan_of_error got]
    rwa [got] at moves
  · rw [scan_of_ok got]
    rw [got] at moves given
    exact moves.tail (.scanned (given n rfl) request)

theorem execute_moves (c : Connection) (s : Scan) :
    Relation.ReflTransGen Moves c (s.execute send c).2.2 := by
  cases executed : s.executed with
  | true => rw [Scan.execute_of_executed executed]
  | false =>
    cases built : s.buildRequest with
    | error failure => rw [Scan.execute_of_unbuilt executed built]
    | ok request =>
      rw [Scan.execute_of_built executed built]
      exact c.scan_moves request.toValue

theorem step_moves (c : Connection) (s : Step) : Relation.ReflTransGen Moves c (c.step s).2 := by
  cases s with
  | getClient => exact c.getClient_moves.1
  | close => exact c.close_moves
  | healthCheck => exact c.isHealthy_moves
  | scan request => exact c.scan_moves request
  | execute s => exact c.execute_moves s

/-- What every move keeps is kept by a step. -/
theorem kept_of_step {P : Connection → Prop} (kept : ∀ {c next}, P c → c.Moves next → P next)
    (holds : P c) (s : Step) : P (c.step s).2 := by
  have moves := c.step_moves s
  generalize (c.step s).2 = next at moves
  induction moves with
  | refl => exact holds
  | tail _ moves ih => exact kept ih moves

/-- What every move keeps is kept by a run. -/
theorem kept_of_run {P : Connection → Prop} (kept : ∀ {c next}, P c → c.Moves next → P next)
    (holds : P c) (steps : List Step) : P (c.run steps) := by
  induction steps generalizing c with
  | nil => exact holds
  | cons s steps ih => exact ih (kept_of_step kept holds s)

end Connection

end TableScan
