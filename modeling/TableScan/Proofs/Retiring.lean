import TableScan.Proofs.Opening

/-! Clients whose context was left. Main statement: over every run they are used no more and given
to no caller, exactly when the session never fails to leave a context. After such a failure the
connection goes on with its client. -/

namespace TableScan

namespace Event

/-- The client was opened in the context, and the context was to be left, whatever came of that. -/
def Retired (events : List Event) (k n : Nat) : Prop :=
  .enter k (some n) ∈ events ∧ ∃ left, .exit k left ∈ events

def Uses (k n : Nat) : Event → Prop
  | .exit j _ => j = k
  | .scan m _ | .listTables m => m = n
  | .create _ | .enter _ _ => False

def SparesRetired (before : List Event) (e : Event) : Prop :=
  ∀ k n, Retired before k n → ¬e.Uses k n

/-- The event names only contexts and clients up to the last ones handed out. -/
def Within (contexts clients : Nat) : Event → Prop
  | .create k => ∀ j, k = some j → j ≤ contexts
  | .enter k n => k ≤ contexts ∧ ∀ m, n = some m → m ≤ clients
  | .exit k _ => k ≤ contexts
  | .scan _ _ | .listTables _ => True

theorem Within.mono {e : Event} {contexts clients contexts' clients' : Nat}
    (within : e.Within contexts clients) (more : contexts ≤ contexts')
    (further : clients ≤ clients') : e.Within contexts' clients' := by
  cases e with
  | create k => exact fun j same => Nat.le_trans (within j same) more
  | enter k n =>
    exact ⟨Nat.le_trans within.1 more, fun m same => Nat.le_trans (within.2 m same) further⟩
  | exit k left => exact Nat.le_trans within more
  | scan | listTables => trivial

end Event

namespace Session

variable {s after : Session} {k n : Nat} {failure : Failure}

/-- What was done names only what was handed out, and each client was handed out for one context. -/
structure Counts (s : Session) : Prop where
  within : ∀ e ∈ s.events, e.Within s.contexts s.clients
  own : ∀ j k n, .enter j (some n) ∈ s.events → .enter k (some n) ∈ s.events → j = k

namespace Counts

theorem concat (counts : s.Counts) {e : Event} (events : after.events = s.events ++ [e])
    (more : s.contexts ≤ after.contexts) (further : s.clients ≤ after.clients)
    (within : e.Within after.contexts after.clients) (other : ∀ k n, e ≠ .enter k (some n)) :
    after.Counts := by
  have old {k n : Nat} (member : .enter k (some n) ∈ after.events) :
      .enter k (some n) ∈ s.events := by
    rw [events, List.mem_append, List.mem_singleton] at member
    exact member.resolve_right fun same => other k n same.symm
  refine ⟨fun other member => ?_,
    fun j k n first second => counts.own j k n (old first) (old second)⟩
  rw [events, List.mem_append, List.mem_singleton] at member
  rcases member with member | rfl
  · exact (counts.within other member).mono more further
  · exact within

theorem of_create (counts : s.Counts) (created : s.create = (.ok k, after)) : after.Counts := by
  obtain ⟨rfl, rest, _, rfl⟩ := create_eq_ok created
  refine counts.concat rfl (Nat.le_succ _) (Nat.le_refl _) (fun j same => ?_) nofun
  cases same
  exact Nat.le_refl _

theorem of_enter (counts : s.Counts) (handed : k ≤ s.contexts)
    (entered : s.enter k = (.ok n, after)) : after.Counts := by
  obtain ⟨rfl, rest, _, rfl⟩ := enter_eq_ok entered
  -- the client is new, so no context had it
  have fresh (j : Nat) : .enter j (some (s.clients + 1)) ∉ s.events := fun member =>
    Nat.not_succ_le_self _ ((counts.within _ member).2 _ rfl)
  refine ⟨fun e member => ?_, fun i j m first second => ?_⟩
  · rcases List.mem_append.1 member with old | new
    · exact (counts.within e old).mono (Nat.le_refl _) (Nat.le_succ _)
    · cases List.mem_singleton.1 new
      refine ⟨handed, fun m same => ?_⟩
      cases same
      exact Nat.le_refl _
  · rcases List.mem_append.1 first with first | first <;>
      rcases List.mem_append.1 second with second | second
    · exact counts.own i j m first second
    · cases List.mem_singleton.1 second
      exact absurd first (fresh i)
    · cases List.mem_singleton.1 first
      exact absurd second (fresh j)
    · cases List.mem_singleton.1 first
      cases List.mem_singleton.1 second
      rfl

end Counts

def Keeps (s : Session) (k : Nat) : Prop := k ≤ s.contexts ∧ ∀ left, .exit k left ∉ s.events

theorem Keeps.concat (keeps : s.Keeps k) {e : Event} (events : after.events = s.events ++ [e])
    (more : s.contexts ≤ after.contexts) (other : ∀ left, e ≠ .exit k left) : after.Keeps k := by
  refine ⟨Nat.le_trans keeps.1 more, fun left exited => ?_⟩
  rw [events, List.mem_append, List.mem_singleton] at exited
  exact exited.elim (keeps.2 left) fun same => other left same.symm

theorem keeps_of_create (counts : s.Counts) (created : s.create = (.ok k, after)) :
    after.Keeps k := by
  obtain ⟨rfl, rest, _, rfl⟩ := create_eq_ok created
  refine ⟨Nat.le_refl _, fun left exited => ?_⟩
  rw [List.mem_append, List.mem_singleton] at exited
  rcases exited with exited | same
  · exact Nat.not_succ_le_self _ (counts.within _ exited)
  · cases same

end Session

namespace Connection

open Event (Open Respects Retired respects_concat_iff)

variable {c next : Connection}

/-- Retired clients are used no more and given to no caller. -/
def SparesRetired (c : Connection) : Prop :=
  Respects Event.SparesRetired c.session.events ∧
    ∀ k n, Retired c.session.events k n → ∀ s, (c.step s).1 ≠ .ok (.client n)

def AlwaysLeaves (script : Script) : Prop := ∀ failure, .error failure ∉ script.exit

structure Parted (c : Connection) : Prop where
  script : AlwaysLeaves c.session.script
  tended : c.Tended
  counts : c.session.Counts
  held : ∀ k, c.context = some k → c.session.Keeps k
  spares : Respects Event.SparesRetired c.session.events

namespace Parted

theorem not_retired (parted : c.Parted) {n : Nat} (held : c.client = some n) (k : Nat) :
    ¬Retired c.session.events k n := by
  intro retired
  obtain ⟨entered, left, exited⟩ := retired
  obtain ⟨j, opened⟩ := parted.tended.exists_open held
  obtain rfl := parted.counts.own j k n opened.entered entered
  exact (parted.held j ((parted.tended.opened j n).1 opened).1).2 left exited

theorem of_moves (parted : c.Parted) (moves : c.Moves next) : next.Parted := by
  have tended := parted.tended.of_moves moves
  cases moves with
  | uncreated shut failed =>
    obtain ⟨rest, _, rfl⟩ := Session.create_eq_error failed
    refine ⟨?_, tended, ?_, fun k here => ?_, ?_⟩ <;> rw [openingFailed_session]
    · exact parted.script
    · exact parted.counts.concat rfl (Nat.le_refl _) (Nat.le_refl _) nofun nofun
    · exact (parted.held k (context_of_openingFailed here).2).concat rfl (Nat.le_refl _) nofun
    · exact respects_concat_iff.2 ⟨parted.spares, fun _ _ _ => id⟩
  | unentered shut created failed =>
    have counts := parted.counts.of_create created
    have keeps := Session.keeps_of_create parted.counts created
    obtain ⟨-, _, _, rfl⟩ := Session.create_eq_ok created
    obtain ⟨rest, _, rfl⟩ := Session.enter_eq_error failed
    refine ⟨?_, tended, ?_, fun k here => ?_, ?_⟩ <;> rw [openingFailed_session]
    · exact parted.script
    · exact counts.concat rfl (Nat.le_refl _) (Nat.le_refl _) ⟨keeps.1, nofun⟩ nofun
    · cases (context_of_openingFailed here).2
      exact keeps.concat rfl (Nat.le_refl _) nofun
    · exact respects_concat_iff.2
        ⟨respects_concat_iff.2 ⟨parted.spares, fun _ _ _ => id⟩, fun _ _ _ => id⟩
  | entered shut created entered =>
    have keeps := Session.keeps_of_create parted.counts created
    have counts := (parted.counts.of_create created).of_enter keeps.1 entered
    obtain ⟨-, _, _, rfl⟩ := Session.create_eq_ok created
    obtain ⟨-, rest, _, rfl⟩ := Session.enter_eq_ok entered
    refine ⟨parted.script, tended, counts, fun k here => ?_, ?_⟩
    · cases here
      exact keeps.concat rfl (Nat.le_refl _) nofun
    · exact respects_concat_iff.2
        ⟨respects_concat_iff.2 ⟨parted.spares, fun _ _ _ => id⟩, fun _ _ _ => id⟩
  | @listed n held | @scanned n held _ =>
    refine ⟨parted.script, tended, ?_, fun k here => ?_, ?_⟩
    · exact parted.counts.concat rfl (Nat.le_refl _) (Nat.le_refl _) trivial nofun
    · exact (parted.held k here).concat rfl (Nat.le_refl _) nofun
    · refine respects_concat_iff.2 ⟨parted.spares, fun k m retired used => ?_⟩
      cases used
      exact parted.not_retired held k retired
  | @left j _ here done =>
    obtain ⟨rest, passes, rfl⟩ := Session.exit_eq_ok done
    refine ⟨fun failure member => parted.script failure (passes.error_mem_iff.1 member), tended, ?_,
      nofun, ?_⟩
    · exact parted.counts.concat rfl (Nat.le_refl _) (Nat.le_refl _) (parted.held j here).1 nofun
    · refine respects_concat_iff.2 ⟨parted.spares, fun k m retired used => ?_⟩
      cases used
      obtain ⟨-, left, exited⟩ := retired
      exact (parted.held j here).2 left exited
  | stuck here failed =>
    obtain ⟨rest, replies, _⟩ := Session.exit_eq_error failed
    exact absurd (replies ▸ List.mem_cons_self) (parted.script _)

end Parted

theorem client_of_step {s : Step} {n : Nat} (given : (c.step s).1 = .ok (.client n)) :
    (c.step s).2.client = some n := by
  cases s with
  | getClient =>
    obtain ⟨m, got, same⟩ := Attempt.map_eq_ok_iff.1 given
    cases same
    exact c.getClient_moves.2 _ got
  | healthCheck => cases given
  | close | scan | execute =>
    obtain ⟨_, _, impossible⟩ := Attempt.map_eq_ok_iff.1 given
    cases impossible

theorem retired_of_moves {k n : Nat} (retired : Retired c.session.events k n)
    (moves : c.Moves next) : Retired next.session.events k n := by
  obtain ⟨entered, left, exited⟩ := retired
  have grown := moves.events_isPrefix.subset
  exact ⟨grown entered, left, grown exited⟩

theorem Parted.sparesRetired (parted : c.Parted) : c.SparesRetired := by
  refine ⟨parted.spares, fun k n retired s given => ?_⟩
  have after : (c.step s).2.Parted := kept_of_step Parted.of_moves parted s
  exact after.not_retired (client_of_step given) k (kept_of_step retired_of_moves retired s)

def Lingers (c : Connection) : Prop := ∃ steps, ¬(c.run steps).SparesRetired

theorem Lingers.of_step (s : Step) (lingers : (c.step s).2.Lingers) : c.Lingers := by
  obtain ⟨steps, spoilt⟩ := lingers
  exact ⟨s :: steps, spoilt⟩

/-- A client whose context could not be left is given to the next caller. -/
theorem lingers_of_stuck {k n : Nat} {failure : Failure} {session : Session}
    (opened : Open c.session.events k n) (here : c.context = some k) (held : c.client = some n)
    (failed : c.session.exit k = (.error failure, session)) : c.Lingers := by
  refine ⟨[.close], fun spares => ?_⟩
  change SparesRetired c.close.2 at spares
  rw [close_of_stuck here failed] at spares
  have given := step_getClient (getClient_of_client (c := { c with session := session }) held)
  obtain ⟨rest, _, rfl⟩ := Session.exit_eq_error failed
  have retired : Retired (c.session.events ++ [.exit k false]) k n :=
    ⟨List.mem_append_left _ opened.entered, false, List.mem_append_right _ List.mem_cons_self⟩
  exact spares.2 k n retired .getClient (congrArg Prod.fst given)

/-- How many outcomes are left to come before every opening and closing succeeds. A client that is
yet to be opened counts, for it can be opened without an outcome that was prepared. -/
def toGo (c : Connection) : Nat :=
  c.session.script.create.length + c.session.script.enter.length +
    2 * c.session.script.exit.length + if c.client = none then 1 else 0

/-- Closing comes closer to the failure to leave, if it does not come to it. -/
theorem toGo_of_open {n : Nat} {failure : Failure} (tended : c.Tended) (held : c.client = some n)
    (prepared : .error failure ∈ c.session.script.exit) :
    c.Lingers ∨ .error failure ∈ (c.step .close).2.session.script.exit ∧
      (c.step .close).2.toGo < c.toGo := by
  obtain ⟨k, opened⟩ := tended.exists_open held
  obtain ⟨here, -⟩ := (tended.opened k n).1 opened
  rcases done : c.session.exit k with ⟨reason | _, session⟩
  · exact .inl (lingers_of_stuck opened here held done)
  · right
    rw [step_close (close_of_left here done)]
    obtain ⟨rest, passes, rfl⟩ := Session.exit_eq_ok done
    have shorter : rest.length < c.session.script.exit.length :=
      passes.length_lt (List.ne_nil_of_mem prepared)
    refine ⟨passes.error_mem_iff.2 prepared, ?_⟩
    simp only [toGo, held, if_true, reduceCtorEq, if_false]
    omega

theorem toGo_of_shut {failure : Failure} (shut : c.client = none)
    (prepared : .error failure ∈ c.session.script.exit) :
    .error failure ∈ (c.step .getClient).2.session.script.exit ∧
      (c.step .getClient).2.toGo < c.toGo := by
  rcases created : c.session.create with ⟨reason | k, between⟩
  · rw [step_getClient (getClient_of_uncreated shut created)]
    obtain ⟨rest, replies, rfl⟩ := Session.create_eq_error created
    simp only [toGo, openingFailed_session, openingFailed_client, replies, List.length_cons]
    exact ⟨prepared, by omega⟩
  · rcases entered : between.enter k with ⟨reason | n, session⟩
    · rw [step_getClient (getClient_of_unentered shut created entered)]
      obtain ⟨-, later, passes, rfl⟩ := Session.create_eq_ok created
      obtain ⟨rest, replies, rfl⟩ := Session.enter_eq_error entered
      replace replies : c.session.script.enter = .error reason :: rest := replies
      have shorter := passes.length_le
      simp only [toGo, openingFailed_session, openingFailed_client, replies, List.length_cons]
      exact ⟨prepared, by omega⟩
    · rw [step_getClient (getClient_of_entered shut created entered)]
      obtain ⟨-, later, creates, rfl⟩ := Session.create_eq_ok created
      obtain ⟨-, rest, enters, rfl⟩ := Session.enter_eq_ok entered
      have shorter := creates.length_le
      have shortest : rest.length ≤ c.session.script.enter.length := enters.length_le
      simp only [toGo, shut, if_true, reduceCtorEq, if_false]
      exact ⟨prepared, by omega⟩

/-- Where leaving a context is to fail, opening and closing again and again comes to that. -/
theorem lingers_of_prepared {failure : Failure} (tended : c.Tended)
    (prepared : .error failure ∈ c.session.script.exit) : c.Lingers := by
  induction size : c.toGo using Nat.strongRecOn generalizing c with
  | _ size ih =>
    subst size
    have goOn (s : Step) (closer : .error failure ∈ (c.step s).2.session.script.exit ∧
        (c.step s).2.toGo < c.toGo) : c.Lingers :=
      .of_step s (ih _ closer.2 (kept_of_step Tended.of_moves tended s) closer.1 rfl)
    cases held : c.client with
    | none => exact goOn .getClient (toGo_of_shut held prepared)
    | some n =>
      rcases toGo_of_open tended held prepared with lingers | closer
      · exact lingers
      · exact goOn .close closer

/-- Over every run the clients whose context was left, or was to be, are used no more and given to
no caller, exactly when the session never fails to leave a context. -/
theorem sparesRetired_iff (settings : Settings) (script : Script) :
    (∀ steps, ((ofSession settings (.ofScript script)).run steps).SparesRetired) ↔
      AlwaysLeaves script := by
  have tended := tended_ofSession settings script
  constructor
  · intro spares failure prepared
    obtain ⟨steps, spoilt⟩ := lingers_of_prepared tended prepared
    exact spoilt (spares steps)
  · intro leaves steps
    have begins : (ofSession settings (.ofScript script)).Parted :=
      ⟨leaves, tended, ⟨nofun, nofun⟩, nofun, Event.respects_nil⟩
    exact (kept_of_run Parted.of_moves begins steps).sparesRetired

/-- A client whose context could not be left is given out again. -/
theorem not_forall_sparesRetired :
    ¬∀ (settings : Settings) (script : Script) (steps : List Step),
      ((ofSession settings (.ofScript script)).run steps).SparesRetired := by
  intro spares
  let settings : Settings := ⟨Settings.defaultRegion, none, []⟩
  let script : Script := ⟨[], [], [.error (.runtime "down")], [], []⟩
  have retired : Retired [.create (some 1), .enter 1 (some 1), .exit 1 false] 1 1 :=
    ⟨by simp, false, by simp⟩
  exact (spares settings script [.getClient, .close]).2 1 1 retired .getClient rfl

end Connection

end TableScan
