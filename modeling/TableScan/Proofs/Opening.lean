import Mathlib.Data.List.Induction
import TableScan.Proofs.Moves

/-! The open client of a connection: the one whose context was entered and has not been left since.
Main statement: over every run, whatever the session does, there is at most one, only it is used, a
context is created or entered only when there is none, and asking for the client gives it without
turning to the session. -/

namespace TableScan

namespace Event

def Respects (rule : List Event → Event → Prop) (events : List Event) : Prop :=
  ∀ before e after, events = before ++ e :: after → rule before e

/-- The context was entered, which gave this client, and it has not been left since. -/
def Open (events : List Event) (k n : Nat) : Prop :=
  ∃ before after, events = before ++ .enter k (some n) :: after ∧ .exit k true ∉ after

/-- Contexts are created and entered when no client is open, and requests go to the open client. -/
def OneByOne (before : List Event) : Event → Prop
  | .create _ | .enter _ _ => ∀ k n, ¬Open before k n
  | .scan n _ | .listTables n => ∃ k, Open before k n
  | .exit _ _ => True

section Histories

variable {rule : List Event → Event → Prop} {events before : List Event} {e : Event} {j k m n : Nat}

theorem respects_nil : Respects rule [] := by
  intro before e after split
  simp at split

theorem respects_concat_iff :
    Respects rule (events ++ [e]) ↔ Respects rule events ∧ rule events e := by
  constructor
  · intro respects
    refine ⟨fun before other after split => ?_, respects events e [] rfl⟩
    exact respects before other (after ++ [e]) (by simp [split])
  · intro both before other after split
    obtain ⟨respects, last⟩ := both
    rcases concat_eq_append_cons_iff.1 split with ⟨rfl, rfl, -⟩ | ⟨between, earlier, -⟩
    · exact last
    · exact respects before other between earlier

theorem Respects.of_isPrefix (respects : Respects rule events) (earlier : before <+: events) :
    Respects rule before := by
  obtain ⟨rest, rfl⟩ := earlier
  intro first other after split
  exact respects first other (after ++ rest) (by simp [split])

theorem not_open_nil : ¬Open [] k n := by
  intro opened
  obtain ⟨before, after, split, _⟩ := opened
  simp at split

theorem Open.entered (opened : Open events k n) : .enter k (some n) ∈ events := by
  obtain ⟨before, after, rfl, _⟩ := opened
  simp

/-- A client opens as its context is entered, and stays open until the context is left. -/
theorem open_concat_iff :
    Open (events ++ [e]) k n ↔ Open events k n ∧ e ≠ .exit k true ∨ e = .enter k (some n) := by
  constructor
  · intro opened
    obtain ⟨before, after, split, kept⟩ := opened
    rcases concat_eq_append_cons_iff.1 split with ⟨-, same, -⟩ | ⟨between, earlier, rfl⟩
    · exact .inr same
    · rw [List.mem_append, List.mem_singleton, not_or] at kept
      exact .inl ⟨⟨before, between, earlier, kept.1⟩, Ne.symm kept.2⟩
  · intro given
    rcases given with ⟨⟨before, after, rfl, kept⟩, stays⟩ | rfl
    · refine ⟨before, after ++ [e], by simp, ?_⟩
      simpa using ⟨kept, Ne.symm stays⟩
    · exact ⟨events, [], rfl, by simp⟩

theorem Respects.open_unique (respects : Respects OneByOne events) (first : Open events j m)
    (second : Open events k n) : j = k ∧ m = n := by
  induction events using List.reverseRecOn with
  | nil => exact absurd first not_open_nil
  | append_singleton events e ih =>
    obtain ⟨respects, allowed⟩ := respects_concat_iff.1 respects
    rcases open_concat_iff.1 first with ⟨before, -⟩ | rfl
    · rcases open_concat_iff.1 second with ⟨other, -⟩ | rfl
      · exact ih respects before other
      · exact absurd before (allowed j m)
    · rcases open_concat_iff.1 second with ⟨other, -⟩ | same
      · exact absurd other (allowed k n)
      · cases same
        exact ⟨rfl, rfl⟩

end Histories

end Event

namespace Connection

open Event (Open OneByOne Respects open_concat_iff respects_concat_iff)

variable {c next : Connection}

/-- The connection has a client just while one is open, and then has that client's context too. -/
structure Tended (c : Connection) : Prop where
  opened : ∀ k n, Open c.session.events k n ↔ c.context = some k ∧ c.client = some n
  held : ∀ n, c.client = some n → ∃ k, c.context = some k
  orderly : Respects OneByOne c.session.events

namespace Tended

theorem exists_open (tended : c.Tended) {n : Nat} (held : c.client = some n) :
    ∃ k, Open c.session.events k n := by
  obtain ⟨k, context⟩ := tended.held n held
  exact ⟨k, (tended.opened k n).2 ⟨context, held⟩⟩

theorem not_open (tended : c.Tended) (shut : c.client = none) (k n : Nat) :
    ¬Open c.session.events k n := by
  intro opened
  cases shut.symm.trans ((tended.opened k n).1 opened).2

theorem not_open_created (tended : c.Tended) (shut : c.client = none) (created : Option Nat)
    (k n : Nat) : ¬Open (c.session.events ++ [.create created]) k n := by
  simp [open_concat_iff, tended.not_open shut]

theorem of_shut (shut : c.client = none) (none_open : ∀ k n, ¬Open c.session.events k n)
    (orderly : Respects OneByOne c.session.events) : c.Tended :=
  ⟨fun k n => by simp [none_open, shut], by simp [shut], orderly⟩

theorem of_use (tended : c.Tended) {session : Session} {e : Event}
    (done : session.events = c.session.events ++ [e]) (use : OneByOne c.session.events e)
    (other : ∀ k m, e ≠ .exit k true ∧ e ≠ .enter k (some m)) :
    Tended { c with session := session } := by
  refine ⟨fun j m => ?_, tended.held, ?_⟩
  · rw [← tended.opened j m, done, open_concat_iff]
    simp [other j m]
  · rw [done, respects_concat_iff]
    exact ⟨tended.orderly, use⟩

theorem of_moves (tended : c.Tended) (moves : c.Moves next) : next.Tended := by
  cases moves with
  | uncreated shut failed =>
    obtain ⟨rest, _, rfl⟩ := Session.create_eq_error failed
    refine .of_shut (by rw [openingFailed_client]; exact shut) ?_ ?_
    · rw [openingFailed_session]
      exact tended.not_open_created shut none
    · rw [openingFailed_session]
      exact respects_concat_iff.2 ⟨tended.orderly, tended.not_open shut⟩
  | @unentered k _ _ _ shut created failed =>
    obtain ⟨-, _, _, rfl⟩ := Session.create_eq_ok created
    obtain ⟨rest, _, rfl⟩ := Session.enter_eq_error failed
    have fresh := tended.not_open_created shut (some k)
    refine .of_shut (by rw [openingFailed_client]; exact shut) ?_ ?_
    · rw [openingFailed_session]
      intro j n opened
      rcases open_concat_iff.1 opened with ⟨opened, -⟩ | same
      · exact fresh j n opened
      · cases same
    · rw [openingFailed_session]
      exact respects_concat_iff.2
        ⟨respects_concat_iff.2 ⟨tended.orderly, tended.not_open shut⟩, fresh⟩
  | @entered k _ _ _ shut created entered =>
    obtain ⟨-, _, _, rfl⟩ := Session.create_eq_ok created
    obtain ⟨-, rest, _, rfl⟩ := Session.enter_eq_ok entered
    -- Nothing else is open where a context is entered, so that it is the only one.
    have fresh := tended.not_open_created shut (some k)
    refine ⟨fun j m => ?_, fun _ _ => ⟨_, rfl⟩, ?_⟩
    · rw [open_concat_iff]
      simp [fresh]
    · exact respects_concat_iff.2
        ⟨respects_concat_iff.2 ⟨tended.orderly, tended.not_open shut⟩, fresh⟩
  | listed held =>
    exact tended.of_use rfl (tended.exists_open held) fun _ _ => ⟨nofun, nofun⟩
  | scanned held request =>
    exact tended.of_use rfl (tended.exists_open held) fun _ _ => ⟨nofun, nofun⟩
  | left here done =>
    obtain ⟨rest, _, rfl⟩ := Session.exit_eq_ok done
    refine .of_shut rfl (fun j m opened => ?_) (respects_concat_iff.2 ⟨tended.orderly, trivial⟩)
    rcases open_concat_iff.1 opened with ⟨opened, stays⟩ | same
    · obtain ⟨held, -⟩ := (tended.opened j m).1 opened
      cases here.symm.trans held
      exact stays rfl
    · cases same
  | stuck here failed =>
    obtain ⟨rest, _, rfl⟩ := Session.exit_eq_error failed
    refine ⟨fun j m => ?_, tended.held, respects_concat_iff.2 ⟨tended.orderly, trivial⟩⟩
    simp [open_concat_iff, tended.opened]

end Tended

theorem tended_ofSession (settings : Settings) (script : Script) :
    (ofSession settings (.ofScript script)).Tended :=
  .of_shut rfl (fun _ _ => Event.not_open_nil) Event.respects_nil

/-- After any run, contexts have been created and entered only when no client was open, requests
have gone to the open client only, and at no time were two open. While a client is open, asking for
the client gives it and changes nothing. -/
theorem one_by_one (settings : Settings) (script : Script) (steps : List Step) :
    let c := (ofSession settings (.ofScript script)).run steps
    Respects OneByOne c.session.events ∧
      (∀ before j m k n, before <+: c.session.events → Open before j m → Open before k n → m = n) ∧
      ∀ k n, Open c.session.events k n → c.getClient = (.ok n, c) := by
  intro c
  have tended : c.Tended := kept_of_run Tended.of_moves (tended_ofSession settings script) steps
  refine ⟨tended.orderly, fun before j m k n earlier first second => ?_, fun k n opened => ?_⟩
  · exact ((tended.orderly.of_isPrefix earlier).open_unique first second).2
  · exact getClient_of_client ((tended.opened k n).1 opened).2

end Connection

end TableScan
