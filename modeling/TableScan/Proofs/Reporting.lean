import TableScan.Proofs.Entering
import TableScan.Proofs.Escape
import TableScan.Proofs.Requests
import TableScan.Proofs.Retiring

/-! What callers are told when the store fails. Main statement: over every run of a connection whose
session fails only by failures of the store, a client that cannot be opened is told as a failure of
the connection, which is then as it was at first, and a request that is refused is told as a failure
of the store with the service's message and code; no failure is kept from the caller. -/

namespace TableScan

open Attempt

def Offline {α : Type} (x : Except Failure α) : Prop := ∀ message, x ≠ .error (.connection message)

namespace Offline

variable {α β : Type}

theorem ok (x : α) : Offline (.ok x) := nofun

theorem bind {x : Except Failure α} {f : α → Except Failure β} (first : Offline x)
    (later : ∀ y, Offline (f y)) : Offline (x >>= f) := by
  intro message failed
  rcases bind_eq_error_iff.1 failed with failed | ⟨y, _, failed⟩
  · exact first message failed
  · exact later y message failed

theorem map {x : Except Failure α} {f : α → β} (offline : Offline x) : Offline (x.map f) :=
  fun message failed => offline message (map_eq_error_iff.1 failed)

theorem mapM {f : α → Except Failure β} {xs : List α} (each : ∀ x, Offline (f x)) :
    Offline (xs.mapM f) := by
  intro message failed
  obtain ⟨_, x, _, _, _, failed⟩ := mapM_eq_error_iff.1 failed
  exact each x message failed

end Offline

/-! Neither building a request nor reading a response has to do with the connection. -/

section Local

variable {m : Model} {s : Schema}

theorem Attribute.offline_encode (a : Attribute) (element : Bool) (v : Value) :
    Offline (a.encode element v) := by
  intro message failed
  unfold encode at failed
  split at failed
  · cases failed
  · cases failed
  · split at failed
    · cases failed
    · unfold encodingFailure at failed
      split at failed <;> cases failed

theorem Attribute.offline_decode (a : Attribute) (v : Value) : Offline (a.decode v) := by
  intro message failed
  unfold decode at failed
  split at failed
  · unfold decodingFailure at failed
    split at failed <;> cases failed
  · split at failed <;> cases failed

theorem Scan.offline_buildRequest (s : Scan) : Offline s.buildRequest := by
  unfold buildRequest
  split
  · exact nofun
  · refine .bind ?_ fun _ => .ok _
    rw [Request.conditionsOf_eq_mapM]
    refine .mapM fun filter => .map (.bind ?_ fun a => .bind ?_ fun _ => .ok _)
    · unfold Schema.find
      split <;> exact nofun
    · rw [Request.encodeAll_eq_mapM]
      exact .mapM fun operand => a.offline_encode _ operand

theorem Record.offline_assign (r : Record) (name : String) (v : Value) :
    Offline (r.assign m name v) := by
  unfold assign
  split
  · exact nofun
  · split
    · split
      · exact nofun
      · split
        · split
          · exact .ok _
          · next rejection _ => cases rejection <;> exact nofun
        · exact .ok _
    · split <;> exact nofun

theorem Schema.offline_decodeEntry (key content : Value) (r : Record) :
    Offline (s.decodeEntry m key content r) := by
  intro message failed
  obtain ⟨a, -, failed | ⟨v, -, reason, failed, same⟩⟩ := (decodeEntry_eq_error_iff s r).1 failed
  · exact a.offline_decode content message failed
  · cases reason with
    | connection other => exact r.offline_assign a.field v other failed
    | _ => cases same

theorem Schema.offline_materialize (row : Value) : Offline (s.materialize m row) := by
  intro message failed
  unfold materialize decodeInto at failed
  split at failed
  · cases failed
  · next r reason outcome =>
    cases failed
    split at outcome
    · obtain ⟨_, key, content, _, _, _, failed⟩ := (decodeEntries_eq_some_iff s _ _ _).1 outcome
      exact s.offline_decodeEntry key content r message failed
    · cases outcome

theorem Scan.offline_pageOf (s : Scan) (response : Value) : Offline (s.pageOf response) := by
  unfold pageOf
  split
  · split
    · refine .bind ?_ fun rows => .bind ?_ fun _ => .ok _
      · unfold rowsOf
        split
        · exact .ok _
        · split
          · split
            · exact .ok _
            · exact nofun
          · exact .ok _
      · rw [Schema.materializeAll_eq_mapM]
        exact .mapM fun row => s.schema.offline_materialize row
    · exact nofun
  · exact .ok _

end Local

/-- What a failure of the store is reported as where a request fails: by the service's message, if
that is not empty, and its code; without a message by the text of the failure. -/
inductive Failure.ReportedAs : Failure → Failure → Prop where
  | message {response shown : Value} {operation : String}
    (given : (serviceError response).entryAt? "Message" = some shown) (some : shown.isTrue = true) :
    ReportedAs (.service response operation)
      (.store shown.display (((serviceError response).entryAt? "Code").getD .null))
  | text {response : Value} {operation : String}
    (none : ∀ shown, (serviceError response).entryAt? "Message" = some shown →
      shown.isTrue = false) :
    ReportedAs (.service response operation) (.store (Failure.service response operation).text
      (((serviceError response).entryAt? "Code").getD .null))
  | transport (reason : TransportFault) :
    ReportedAs (.transport reason) (.store (Failure.transport reason).text .null)

namespace Session

def opening (s : Session) : Except Failure Nat :=
  match s.create with
  | (.ok k, between) => (between.enter k).1
  | (.error failure, _) => .error failure

end Session

namespace Connection

variable {c next : Connection} {failure reported : Failure}

/-- Contexts are created and entered, and requests are answered, but for failures of the store, and
contexts are always left. -/
structure OnlyStoreFails (script : Script) : Prop where
  create : ∀ failure, .error failure ∈ script.create → isStoreFailure failure = true
  enter : EntersOrStoreFails script
  scan : ∀ failure, .error failure ∈ script.scan → isStoreFailure failure = true
  exit : AlwaysLeaves script

inductive Relays : Reply → Reply → Prop where
  | answered (response : Value) : Relays (.ok response) (.ok response)
  | refused {failure told : Failure} (reported : failure.ReportedAs told) :
    Relays (.error failure) (.error told)

theorem Relays.exists_reportedAs {reply : Reply} (relays : Relays reply (.error reported)) :
    ∃ failure : Failure, failure.ReportedAs reported := by
  cases relays with
  | refused reported => exact ⟨_, reported⟩

structure Reports (settings : Settings) (c : Connection) : Prop where
  /-- The client that is there is given. -/
  shared : ∀ n, c.client = some n → c.getClient.1 = .ok n
  /-- Without one a client is opened; if that fails, the connection fails with the same text. -/
  opened : c.client = none →
    c.getClient.1 = c.session.opening.mapError fun failure => .connection failure.text
  /-- Without a client every request fails as asking for the client does. -/
  unopened : ∀ request failure, c.getClient.1 = .error failure →
    (c.scan request).1 = .error failure
  /-- With a client, what the store does with a request is told, be it a refusal. -/
  request : ∀ request n, c.getClient.1 = .ok n →
    Relays (c.getClient.2.session.scan n request).1 (c.scan request).1
  /-- What sending a scan fails with is passed on. -/
  sending : ∀ (s sent : Scan) request reported, s.prepare = .ok (request, sent) →
    (c.send request).1 = .error reported → (c.step (.execute s)).1 = .error reported
  /-- The store is healthy just when there is a client and it lists the tables. -/
  health : ∃ answers, (c.step .healthCheck).1 = .ok (.healthy answers) ∧
    (answers = true ↔ ∃ n, c.getClient.1 = .ok n ∧
      (c.getClient.2.session.listTables n).1 = .ok ())
  /-- After a failure of the connection, also one that a health check hides, it is as new: the next
  caller has a context created, and closing does nothing. -/
  renewed : ∀ s message, (c.step s).1 = .error (.connection message) ∨
    s = .healthCheck ∧ c.getClient.1 = .error (.connection message) →
      ∃ session, (c.step s).2 = ofSession settings session ∧
        (∃ k later, (c.step s).2.getClient.2.session.events =
          session.events ++ .create k :: later) ∧
        (c.step s).2.close = (.ok (), (c.step s).2)

theorem reportedAs_scanFailure (store : isStoreFailure failure = true) :
    failure.ReportedAs (scanFailure failure) := by
  cases failure with
  | service response operation =>
    have unsaid : (∀ shown, (Failure.serviceError response).entryAt? "Message" = some shown →
        shown.isTrue = false) → (Failure.service response operation).ReportedAs _ := .text
    cases given : (Failure.serviceError response).entryAt? "Message" with
    | none =>
      simp only [scanFailure, given]
      exact unsaid (by simp [given])
    | some shown =>
      cases told : shown.isTrue with
      | false =>
        simp only [scanFailure, given, told, Bool.false_eq_true, if_false]
        exact unsaid (by simp [given, told])
      | true =>
        simp only [scanFailure, given, told, if_true]
        exact .message given told
  | transport reason => exact .transport reason
  | _ => cases store

theorem mem_of_mem_take {replies : List Reply} {reply : Reply}
    (member : reply ∈ (Replay.take replies).2) : reply ∈ replies := by
  cases replies with
  | nil => exact member
  | cons first rest => exact List.mem_cons_of_mem first member

theorem OnlyStoreFails.of_moves (only : OnlyStoreFails c.session.script) (moves : c.Moves next) :
    OnlyStoreFails next.session.script := by
  obtain ⟨create, enter, scan, exit⟩ := only
  cases moves with
  | uncreated shut failed =>
    obtain ⟨rest, replies, rfl⟩ := Session.create_eq_error failed
    rw [openingFailed_session]
    exact ⟨fun other member => create other (replies ▸ List.mem_cons_of_mem _ member), enter, scan,
      exit⟩
  | unentered shut created failed =>
    obtain ⟨-, _, creates, rfl⟩ := Session.create_eq_ok created
    obtain ⟨rest, replies, rfl⟩ := Session.enter_eq_error failed
    replace replies : c.session.script.enter = _ := replies
    rw [openingFailed_session]
    exact ⟨fun other member => create other (creates.error_mem_iff.1 member),
      fun other member => enter other (replies ▸ List.mem_cons_of_mem _ member), scan, exit⟩
  | entered shut created entered =>
    obtain ⟨-, _, creates, rfl⟩ := Session.create_eq_ok created
    obtain ⟨-, rest, enters, rfl⟩ := Session.enter_eq_ok entered
    exact ⟨fun other member => create other (creates.error_mem_iff.1 member),
      fun other member => enter other (enters.error_mem_iff.1 member), scan, exit⟩
  | listed => exact ⟨create, enter, scan, exit⟩
  | scanned => exact ⟨create, enter, fun other member => scan other (mem_of_mem_take member), exit⟩
  | left here done =>
    obtain ⟨rest, exits, rfl⟩ := Session.exit_eq_ok done
    exact ⟨create, enter, scan, fun other member => exit other (exits.error_mem_iff.1 member)⟩
  | stuck here failed =>
    obtain ⟨rest, replies, rfl⟩ := Session.exit_eq_error failed
    exact absurd (replies ▸ List.mem_cons_self) (exit _)

theorem settings_of_moves (moves : c.Moves next) : next.settings = c.settings := by
  cases moves with
  | uncreated | unentered =>
    unfold openingFailed
    split <;> rfl
  | _ => rfl

/-- A connection without a client is given the one that it opens; if none can be opened it is as new. -/
theorem getClient_cases (only : OnlyStoreFails c.session.script) (shut : c.client = none) :
    (∃ n, c.session.opening = .ok n ∧ c.getClient.1 = .ok n) ∨
      ∃ failure session, c.session.opening = .error failure ∧
        c.getClient = (.error (.connection failure.text), ofSession c.settings session) := by
  obtain ⟨settings, context, client, start⟩ := c
  cases shut
  rcases created : start.create with ⟨failure | k, between⟩
  · obtain ⟨rest, replies, -⟩ := Session.create_eq_error created
    have store := only.create failure (replies ▸ List.mem_cons_self)
    refine .inr ⟨failure, between, by rw [Session.opening, created], ?_⟩
    rw [getClient_of_uncreated rfl created]
    simp only [openingFailed, store, if_true]
    rfl
  · rcases entered : between.enter k with ⟨failure | n, session⟩
    · obtain ⟨-, _, -, rfl⟩ := Session.create_eq_ok created
      obtain ⟨rest, replies, -⟩ := Session.enter_eq_error entered
      have store := only.enter failure
        (show _ ∈ start.script.enter from replies ▸ List.mem_cons_self)
      refine .inr ⟨failure, session, by simp only [Session.opening, created, entered], ?_⟩
      rw [getClient_of_unentered rfl created entered]
      simp only [openingFailed, store, if_true]
      rfl
    · refine .inl ⟨n, by simp only [Session.opening, created, entered], ?_⟩
      rw [getClient_of_entered rfl created entered]

theorem getClient_of_shut (only : OnlyStoreFails c.session.script) (shut : c.client = none) :
    c.getClient.1 = c.session.opening.mapError fun failure => .connection failure.text := by
  rcases getClient_cases only shut with ⟨n, opens, given⟩ | ⟨failure, session, failed, told⟩
  · rw [opens, given]
    rfl
  · rw [failed, told]
    rfl

theorem exists_session_of_getClient (only : OnlyStoreFails c.session.script)
    (failed : c.getClient = (.error reported, next)) :
    ∃ session, next = ofSession c.settings session := by
  cases shut : c.client with
  | some n =>
    rw [getClient_of_client shut] at failed
    cases failed
  | none =>
    rcases getClient_cases only shut with ⟨n, -, given⟩ | ⟨failure, session, -, told⟩
    · rw [failed] at given
      cases given
    · exact ⟨session, congrArg Prod.snd (failed.symm.trans told)⟩

theorem exists_create_of_shut (shut : c.client = none) :
    ∃ k later, c.getClient.2.session.events = c.session.events ++ .create k :: later := by
  rcases created : c.session.create with ⟨failure | k, between⟩
  · rw [getClient_of_uncreated shut created, openingFailed_session]
    obtain ⟨rest, -, rfl⟩ := Session.create_eq_error created
    exact ⟨none, [], rfl⟩
  · rcases entered : between.enter k with ⟨failure | n, session⟩
    · rw [getClient_of_unentered shut created entered, openingFailed_session]
      obtain ⟨-, _, -, rfl⟩ := Session.create_eq_ok created
      obtain ⟨rest, -, rfl⟩ := Session.enter_eq_error entered
      exact ⟨some k, [.enter k none], by simp⟩
    · rw [getClient_of_entered shut created entered]
      obtain ⟨-, _, -, rfl⟩ := Session.create_eq_ok created
      obtain ⟨-, rest, -, rfl⟩ := Session.enter_eq_ok entered
      exact ⟨some k, [.enter k (some n)], by simp⟩

/-- With a client, the caller is told what the store does with a request. -/
theorem relays_scan (only : OnlyStoreFails c.session.script) (request : Value) {n : Nat}
    (given : c.getClient.1 = .ok n) :
    Relays (c.getClient.2.session.scan n request).1 (c.scan request).1 := by
  rcases got : c.getClient with ⟨reply, after⟩
  rw [got] at given
  cases given
  have later : OnlyStoreFails after.session.script := by
    have kept := kept_of_step (P := fun c => OnlyStoreFails c.session.script)
      OnlyStoreFails.of_moves only .getClient
    rwa [step_getClient got] at kept
  rw [scan_of_ok got]
  cases answered : (after.session.scan n request).1 with
  | ok response => exact .answered response
  | error failure =>
    have replies : after.session.script.scan = _ := Replay.eq_cons_of_take (Prod.ext answered rfl)
    exact .refused (reportedAs_scanFailure (later.scan failure (replies ▸ List.mem_cons_self)))

theorem getClient_of_scan (only : OnlyStoreFails c.session.script) {request : Value}
    {message : String} (failed : (c.scan request).1 = .error (.connection message)) :
    c.getClient = (.error (.connection message), (c.scan request).2) := by
  rcases got : c.getClient with ⟨failure | n, after⟩
  · rw [scan_of_error got] at failed ⊢
    cases failed
    rfl
  · have relayed := relays_scan only request (congrArg Prod.fst got)
    obtain ⟨_, reported⟩ := (failed ▸ relayed).exists_reportedAs
    cases reported

theorem getClient_of_step (only : OnlyStoreFails c.session.script) {s : Step} {message : String}
    (failed : (c.step s).1 = .error (.connection message)) :
    c.getClient = (.error (.connection message), (c.step s).2) := by
  cases s with
  | getClient => exact Prod.ext (map_eq_error_iff.1 failed) rfl
  | close =>
    replace failed : c.close.1 = _ := map_eq_error_iff.1 failed
    cases here : c.context with
    | none =>
      rw [close_of_none here] at failed
      cases failed
    | some k =>
      rcases done : c.session.exit k with ⟨failure | _, session⟩
      · obtain ⟨rest, replies, -⟩ := Session.exit_eq_error done
        exact absurd (replies ▸ List.mem_cons_self) (only.exit failure)
      · rw [close_of_left here done] at failed
        cases failed
  | healthCheck => cases failed
  | scan request => exact getClient_of_scan only (map_eq_error_iff.1 failed)
  | execute s =>
    replace failed : (s.execute send c).1 = _ := map_eq_error_iff.1 failed
    change c.getClient = (_, (s.execute send c).2.2)
    cases executed : s.executed with
    | true =>
      rw [Scan.execute_of_executed executed] at failed
      cases failed
    | false =>
      cases built : s.buildRequest with
      | error failure =>
        rw [Scan.execute_of_unbuilt executed built] at failed
        cases failed
        exact absurd built (s.offline_buildRequest message)
      | ok request =>
        rw [Scan.execute_of_built executed built] at failed ⊢
        -- Reading the response is offline too, so that it was the request that failed.
        rcases bind_eq_error_iff.1 failed with refused | ⟨response, -, unread⟩
        · exact getClient_of_scan only refused
        · exact absurd unread (s.offline_pageOf response message)

theorem reports_of_onlyStoreFails {settings : Settings} (same : c.settings = settings)
    (only : OnlyStoreFails c.session.script) : c.Reports settings where
  shared n here := congrArg Prod.fst (getClient_of_client here)
  opened shut := getClient_of_shut only shut
  unopened request failure failed := by rw [scan_of_error (Prod.ext failed rfl)]
  request request n given := relays_scan only request given
  sending s sent request reported prepared failed := by
    simp only [step, Scan.execute, prepared]
    rw [← Prod.eta (c.send request), failed]
    rfl
  health := by
    refine ⟨c.isHealthy.1, rfl, ?_⟩
    rcases got : c.getClient with ⟨failure | n, after⟩
    · rw [isHealthy_of_error got]
      simp
    · rw [isHealthy_of_ok got]
      cases listed : (after.session.listTables n).1 <;> simp [listed, Except.isOk, Except.toBool]
  renewed s message failed := by
    have lost : c.getClient = (.error (.connection message), (c.step s).2) := by
      rcases failed with failed | ⟨rfl, failed⟩
      · exact getClient_of_step only failed
      · have hidden := isHealthy_of_error (Prod.ext failed rfl)
        exact Prod.ext failed (congrArg Prod.snd hidden).symm
    obtain ⟨session, renewed⟩ := exists_session_of_getClient only lost
    rw [renewed, same]
    exact ⟨session, rfl, exists_create_of_shut rfl, close_of_none rfl⟩

/-- Over every run of a session that fails only by failures of the store, the connection reports each
of them: as a failure of the connection, after which it is as new, where no client can be opened, and
as a failure of the store with the service's message and code where a request is refused. -/
theorem storeFailures_reported (settings : Settings) (script : Script)
    (only : OnlyStoreFails script) (steps : List Step) :
    ((ofSession settings (.ofScript script)).run steps).Reports settings := by
  have same : ((ofSession settings (.ofScript script)).run steps).settings = settings :=
    kept_of_run (P := fun c => c.settings = settings)
      (fun same moves => (settings_of_moves moves).trans same) rfl steps
  exact reports_of_onlyStoreFails same
    (kept_of_run (P := fun c => OnlyStoreFails c.session.script) OnlyStoreFails.of_moves only steps)

def throttled : Failure :=
  .service (.map [(.text "Error", .map [(.text "Code", .text "ThrottlingException"),
    (.text "Message", .text "Rate exceeded")])]) "Scan"

def troubled : Script := ⟨[.error (.transport .noRegion)], [], [], [.error throttled], []⟩

/-- The first to ask is told that there is no region, and the request after it is told the refusal. -/
theorem storeFailures_reported_troubled :
    let start := ofSession ⟨Settings.defaultRegion, none, []⟩ (.ofScript troubled)
    let later := start.run [.getClient]
    OnlyStoreFails troubled ∧ later.Reports ⟨Settings.defaultRegion, none, []⟩ ∧
      start.getClient.1 = .error (.connection "You must specify a region.") ∧
      (later.scan (.map [])).1 = .error (.store "Rate exceeded" (.text "ThrottlingException")) := by
  have only : OnlyStoreFails troubled :=
    ⟨by simp [troubled, isStoreFailure], nofun, by simp [troubled, throttled, isStoreFailure],
      nofun⟩
  have reports := storeFailures_reported ⟨Settings.defaultRegion, none, []⟩ troubled only
  refine ⟨only, reports [.getClient], (reports []).opened rfl, ?_⟩
  have relayed : Relays (.error throttled) _ := (reports [.getClient]).request (.map []) 1 rfl
  generalize told : (Connection.scan _ _).1 = reply at relayed
  cases relayed with
  | refused reported =>
    cases reported with
    | message given some => cases given; exact told
    | text none => cases none _ rfl

end Connection

end TableScan
