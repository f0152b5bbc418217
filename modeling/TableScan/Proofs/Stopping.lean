import TableScan.Proofs.Escape
import TableScan.Proofs.Paging
import TableScan.Proofs.Sending

/-! Where the reading of a table stops. Main statement: what a reader of some pages sees and asks
for depends on as many replies and on no later one, with no request ahead of the pages; the first
reply that is a failure, or holds a row that cannot be read, ends the reading with that failure, and
so does the first page that cannot be asked for, without a request of its own. -/

namespace TableScan

open Attempt

namespace Replay

def replyAt (replies : List Reply) (place : Nat) : Reply :=
  (replies[place]?).getD (.ok emptyResponse)

def Agree (count : Nat) (replies others : List Reply) : Prop :=
  ∀ place < count, replyAt replies place = replyAt others place

variable {replies others : List Reply} {count : Nat}

theorem take_fst (replies : List Reply) : (take replies).1 = replyAt replies 0 := by
  cases replies <;> rfl

theorem replyAt_take (replies : List Reply) (place : Nat) :
    replyAt (take replies).2 place = replyAt replies (place + 1) := by
  cases replies <;> simp [take, replyAt]

theorem Agree.take (agree : Agree (count + 1) replies others) :
    (take replies).1 = (take others).1 ∧
      Agree count (Replay.take replies).2 (Replay.take others).2 := by
  refine ⟨?_, fun place within => ?_⟩
  · rw [take_fst, take_fst]
    exact agree 0 (Nat.zero_lt_succ count)
  · rw [replyAt_take, replyAt_take]
    exact agree (place + 1) (Nat.succ_lt_succ within)

end Replay

namespace Reading

open Replay (Agree)
open Scan (rowsOf lastKeyOf)

/-- The reply ends the reading with a failure: its own, or that of the first row that cannot be
read. -/
inductive Ends (schema : Schema) (m : Model) : Reply → Failure → Prop where
  | raised (failure : Failure) : Ends schema m (.error failure) failure
  | row {response row : Value} {before after : List Value} {failure : Failure}
    (rows : rowsOf response = .ok (before ++ row :: after))
    (readable : ∀ other ∈ before, ∃ record, schema.materialize m other = .ok record)
    (failed : schema.materialize m row = .error failure) :
    Ends schema m (.ok response) failure

/-- The first page cannot be asked for: configuring its scan fails, or the page size is refused, or
the scan was sent before, or no request can be built. -/
inductive Unasked (r : Reading) : Failure → Prop where
  | configuring {failure : Failure}
    (failed : r.configure 0 (emptyScan r.model) = .error failure) : Unasked r failure
  | sizing {s : Scan} {n : Int} {failure : Failure}
    (configured : r.configure 0 (emptyScan r.model) = .ok s) (size : r.pageSize = some n)
    (failed : s.limit (some n) = .error failure) : Unasked r failure
  | spent {s : Scan} (configured : r.configure 0 (emptyScan r.model) = .ok s)
    (positive : ∀ n, r.pageSize = some n → 1 ≤ n) (sent : s.executed = true) :
    Unasked r (.invalidState .alreadyExecuted)
  | building {s : Scan} {failure : Failure}
    (configured : r.configure 0 (emptyScan r.model) = .ok s)
    (positive : ∀ n, r.pageSize = some n → 1 ≤ n) (fresh : s.executed = false)
    (failed : s.buildRequest = .error failure) : Unasked r failure

structure Turn where
  scan : Scan
  built : Request
  response : Value

namespace Turn

def reply (t : Turn) : Reply := .ok t.response

def key (t : Turn) : Option Value := lastKeyOf t.response

def Shows (t : Turn) : Page → Prop := Reading.Shows t.scan.schema t.scan.model t.response

end Turn

/-- The first pages of a reading are asked for, and their responses can be read and go on; `last` is
what is left to read after them. -/
inductive Passes : Reading → List Turn → Reading → Prop where
  | here (r : Reading) : Passes r [] r
  | on {r last : Reading} {turn : Turn} {turns : List Turn} (asks : r.Asks turn.scan turn.built)
    (readable : Readable turn.scan.schema turn.scan.model turn.response)
    (more : turn.key.isSome = true) (rest : Passes r.later turns last) :
    Passes r (turn :: turns) last

def asked (r : Reading) : List Turn → Option Value → List Request
  | [], _ => []
  | turn :: turns, cursor => r.requestAt turn.built cursor :: r.later.asked turns turn.key

def startAfter (turns : List Turn) (cursor : Option Value) : Option Value :=
  (turns.map Turn.key).getLastD cursor

/-- Every reader of more pages than these sees just these and the failure. -/
def Stops {α : Type} (form : Request → α) (r : Reading) (replies : List Reply) (pages : List Page)
    (failure : Failure) (after : Replay α) : Prop :=
  (∀ count, pages.length < count →
    r.firstPages form count (.ofReplies replies) = (⟨pages, .error failure⟩, after)) ∧
  r.allRecords form (.ofReplies replies) = (.error failure, after)

variable {α : Type} (form : Request → α) {r : Reading}

theorem send_eq (request : Request) (replies : List Reply) (requests : List α) :
    Replay.send form request ⟨replies, none, requests⟩ =
      ((Replay.take replies).1, ⟨(Replay.take replies).2, none, requests ++ [form request]⟩) := rfl

theorem pagesFrom_of_error {σ : Type} {send : Request → σ → Reply × σ} {cursor : Option Value}
    {store after : σ} {failure : Failure} (count : Nat)
    (failed : r.pageAt send cursor store = (.error failure, after)) :
    r.pagesFrom send (count + 1) cursor store = (⟨[], .error failure⟩, after) := by
  simp [pagesFrom, failed]

theorem pagesFrom_succ_of_more {σ : Type} {send : Request → σ → Reply × σ} {cursor : Option Value}
    {store after : σ} {page : Page} {key : Value} (count : Nat)
    (paged : r.pageAt send cursor store = (.ok page, after)) (more : page.lastKey = some key) :
    r.pagesFrom send (count + 1) cursor store =
      (⟨page :: (r.later.pagesFrom send count (some key) after).1.pages,
        (r.later.pagesFrom send count (some key) after).1.ending⟩,
        (r.later.pagesFrom send count (some key) after).2) := by
  rw [← more]
  exact pagesFrom_of_more count paged (by rw [more]; rfl) rfl

/-- A page that cannot be prepared fails without a request; any other takes one request and one
reply. -/
theorem pageAt_cases (r : Reading) (cursor : Option Value) :
    (∃ failure, ∀ store, r.pageAt (Replay.send form) cursor store = (.error failure, store)) ∨
      ∃ request sent, ∀ replies requests,
        r.pageAt (Replay.send form) cursor ⟨replies, none, requests⟩ =
          ((Replay.take replies).1 >>= Scan.pageOf sent,
            ⟨(Replay.take replies).2, none, requests ++ [form request]⟩) := by
  cases prepared : r.preparedAt cursor with
  | error failure => exact .inl ⟨failure, fun _ => pageAt_of_unprepared prepared _ _⟩
  | ok pair => exact .inr ⟨pair.1, pair.2, fun _ _ => pageAt_of_prepared prepared _ _⟩

/-- The pages that are read, and the requests for them, depend on the replies to these alone. -/
theorem pagesFrom_agree (count : Nat) {replies others : List Reply}
    (agree : Agree count replies others)
    (cursor : Option Value) (requests : List α) :
    (r.pagesFrom (Replay.send form) count cursor ⟨replies, none, requests⟩).1 =
        (r.pagesFrom (Replay.send form) count cursor ⟨others, none, requests⟩).1 ∧
      (r.pagesFrom (Replay.send form) count cursor ⟨replies, none, requests⟩).2.requests =
        (r.pagesFrom (Replay.send form) count cursor ⟨others, none, requests⟩).2.requests := by
  induction count generalizing r replies others cursor requests with
  | zero => exact ⟨rfl, rfl⟩
  | succ count ih =>
    rcases pageAt_cases form r cursor with ⟨failure, failed⟩ | ⟨request, sent, asks⟩
    · rw [pagesFrom_of_error count (failed _), pagesFrom_of_error count (failed _)]
      exact ⟨rfl, rfl⟩
    · obtain ⟨same, later⟩ := agree.take
      have one := asks replies requests
      have other := asks others requests
      rw [← same] at other
      cases paged : (Replay.take replies).1 >>= sent.pageOf with
      | error failure =>
        rw [paged] at one other
        rw [pagesFrom_of_error count one, pagesFrom_of_error count other]
        exact ⟨rfl, rfl⟩
      | ok page =>
        rw [paged] at one other
        cases more : page.lastKey with
        | none =>
          rw [pagesFrom_of_last count one more, pagesFrom_of_last count other more]
          exact ⟨rfl, rfl⟩
        | some key =>
          obtain ⟨pages, asked⟩ := ih later (some key) (requests ++ [form request])
          rw [pagesFrom_succ_of_more count one more, pagesFrom_succ_of_more count other more]
          exact ⟨by rw [pages], asked⟩

theorem length_requests_of_ending (count : Nat) (cursor : Option Value) (replies : List Reply)
    (requests : List α)
    (ends : (r.pagesFrom (Replay.send form) count cursor
      ⟨replies, none, requests⟩).1.ending = .ok ()) :
    (r.pagesFrom (Replay.send form) count cursor ⟨replies, none, requests⟩).2.requests.length =
      requests.length +
        (r.pagesFrom (Replay.send form) count cursor ⟨replies, none, requests⟩).1.pages.length := by
  induction count generalizing r cursor replies requests with
  | zero => rfl
  | succ count ih =>
    rcases pageAt_cases form r cursor with ⟨failure, failed⟩ | ⟨request, sent, asks⟩
    · rw [pagesFrom_of_error count (failed _)] at ends
      cases ends
    · have one := asks replies requests
      cases paged : (Replay.take replies).1 >>= sent.pageOf with
      | error failure =>
        rw [paged] at one
        rw [pagesFrom_of_error count one] at ends
        cases ends
      | ok page =>
        rw [paged] at one
        cases more : page.lastKey with
        | none =>
          rw [pagesFrom_of_last count one more, List.length_append]
          rfl
        | some key =>
          rw [pagesFrom_succ_of_more count one more] at ends ⊢
          simp only [ih _ _ _ ends, List.length_append, List.length_cons, List.length_nil]
          omega

/-- A reader who would take more pages than there are replies sees as much as all of them give. -/
theorem pagesFrom_past (extra : Nat) (cursor : Option Value) (replies : List Reply)
    (requests : List α) :
    r.pagesFrom (Replay.send form) (replies.length + 1 + extra) cursor ⟨replies, none, requests⟩ =
      r.pagesFrom (Replay.send form) (replies.length + 1) cursor ⟨replies, none, requests⟩ := by
  induction replies generalizing r cursor requests with
  | nil =>
    rw [Nat.add_right_comm]
    rcases pageAt_cases form r cursor with ⟨failure, failed⟩ | ⟨request, sent, asks⟩
    · rw [pagesFrom_of_error _ (failed _), pagesFrom_of_error _ (failed _)]
    · -- after the last reply comes an empty response, whose page has no cursor
      have one : _ = ((Except.ok Page.empty : Except Failure Page), _) := asks [] requests
      rw [pagesFrom_of_last _ one rfl, pagesFrom_of_last _ one rfl]
  | cons reply replies ih =>
    rw [List.length_cons, Nat.add_right_comm]
    rcases pageAt_cases form r cursor with ⟨failure, failed⟩ | ⟨request, sent, asks⟩
    · rw [pagesFrom_of_error _ (failed _), pagesFrom_of_error _ (failed _)]
    · have one : _ = (reply >>= sent.pageOf, (⟨replies, none, _⟩ : Replay α)) :=
        asks (reply :: replies) requests
      cases paged : reply >>= sent.pageOf with
      | error failure =>
        rw [paged] at one
        rw [pagesFrom_of_error _ one, pagesFrom_of_error _ one]
      | ok page =>
        rw [paged] at one
        cases more : page.lastKey with
        | none => rw [pagesFrom_of_last _ one more, pagesFrom_of_last _ one more]
        | some key =>
          rw [pagesFrom_succ_of_more _ one more, pagesFrom_succ_of_more _ one more, ih]

theorem firstPages_eq (count : Nat) (replies : List Reply) :
    r.firstPages form count (.ofReplies replies) =
      r.pagesFrom (Replay.send form) count none (.ofReplies replies) := by
  change r.pagesFrom _ (min count (replies.length + 1)) none _ = _
  rcases Nat.le_total count (replies.length + 1) with within | past
  · rw [Nat.min_eq_left within]
  · obtain ⟨extra, rfl⟩ := Nat.exists_eq_add_of_le past
    rw [Nat.min_eq_right past]
    exact (pagesFrom_past form extra none replies []).symm

/-- The page size and the start do not decide whether a request can be built. -/
theorem buildRequest_aimed_eq_error {s : Scan} {failure : Failure}
    (failed : s.buildRequest = .error failure) (cursor : Option Value) :
    (r.aimed s cursor).buildRequest = .error failure := by
  unfold Scan.buildRequest aimed at *
  cases pending : s.stage.pending? with
  | some name => simpa only [pending] using failed
  | none =>
    simp only [pending, Request.build, bind_eq_error_iff, pure_eq_ok, reduceCtorEq, and_false,
      exists_false, or_false] at failed ⊢
    exact failed

theorem preparedAt_of_unasked {failure : Failure} (unasked : r.Unasked failure)
    (cursor : Option Value) :
    r.preparedAt cursor = .error failure := by
  cases unasked with
  | configuring failed => rw [preparedAt, scanAt, failed]; rfl
  | sizing configured size failed =>
    simp only [preparedAt, scanAt, configured, ok_bind, size, failed, error_bind]
  | spent configured positive sent =>
    have spent : (r.aimed _ cursor).executed = true := sent
    rw [preparedAt, scanAt_eq configured positive, ok_bind, Scan.prepare, spent]
    rfl
  | building configured positive fresh failed =>
    have fresh : (r.aimed _ cursor).executed = false := fresh
    rw [preparedAt, scanAt_eq configured positive, ok_bind, Scan.prepare, fresh,
      buildRequest_aimed_eq_error failed]
    rfl

theorem unasked_or_asks (r : Reading) : (∃ failure, r.Unasked failure) ∨ ∃ s built, r.Asks s built := by
  cases configured : r.configure 0 (emptyScan r.model) with
  | error failure => exact .inl ⟨failure, .configuring configured⟩
  | ok s =>
    by_cases positive : ∀ n, r.pageSize = some n → 1 ≤ n
    · cases sent : s.executed with
      | true => exact .inl ⟨_, .spent configured positive sent⟩
      | false =>
        cases encodes : s.buildRequest with
        | error failure => exact .inl ⟨failure, .building configured positive sent encodes⟩
        | ok built => exact .inr ⟨s, built, configured, positive, sent, encodes⟩
    · obtain ⟨n, size, small⟩ : ∃ n, r.pageSize = some n ∧ ¬1 ≤ n := by
        simpa only [not_forall, exists_prop] using positive
      have refused : ∃ failure, s.limit (some n) = .error failure := by
        simp only [Scan.limit, Options.withLimit, if_pos (Int.not_le.1 small), map_error]
        exact ⟨_, rfl⟩
      obtain ⟨failure, refused⟩ := refused
      exact .inl ⟨failure, .sizing configured size refused⟩

theorem pageOf_of_ends {scan : Scan} {reply : Reply} {failure : Failure}
    (ends : Ends scan.schema scan.model reply failure) : reply >>= scan.pageOf = .error failure := by
  cases ends with
  | raised => rfl
  | row rows readable failed =>
    rename_i response row before after
    have first :
        Scan.materializeAll scan.schema scan.model (before ++ row :: after) = .error failure := by
      rw [Schema.materializeAll_eq_mapM, mapM_eq_error_iff]
      exact ⟨before, row, after, rfl, readable, failed⟩
    -- only a mapping that is not empty has rows
    cases response with
    | map entries =>
      cases entries with
      | nil => cases before <;> cases rows
      | cons entry entries =>
        simp [Scan.pageOf, Value.isTrue, rows, first]
    | _ => cases before <;> cases rows

theorem pagesFrom_of_unasked {σ : Type} {failure : Failure} (unasked : r.Unasked failure)
    (send : Request → σ → Reply × σ) (count : Nat) (cursor : Option Value) (store : σ) :
    r.pagesFrom send (count + 1) cursor store = (⟨[], .error failure⟩, store) :=
  pagesFrom_of_error count (pageAt_of_unprepared (preparedAt_of_unasked unasked cursor) send store)

theorem pagesFrom_of_ends {s : Scan} {built : Request} (asks : r.Asks s built) {reply : Reply}
    {failure : Failure} (ends : Ends s.schema s.model reply failure) (count : Nat)
    (cursor : Option Value) (unread : List Reply) (requests : List α) :
    r.pagesFrom (Replay.send form) (count + 1) cursor ⟨reply :: unread, none, requests⟩ =
      (⟨[], .error failure⟩, ⟨unread, none, requests ++ [form (r.requestAt built cursor)]⟩) := by
  have paged := pageAt_of_prepared (preparedAt_eq asks cursor) (Replay.send form)
    ⟨reply :: unread, none, requests⟩
  have fails : reply >>= { r.aimed s cursor with executed := true }.pageOf = .error failure :=
    pageOf_of_ends ends
  rw [send_eq, show (Replay.take (reply :: unread)).1 = reply from rfl, fails] at paged
  exact pagesFrom_of_error count paged

theorem length_asked (turns : List Turn) (cursor : Option Value) :
    (r.asked turns cursor).length = turns.length := by
  induction turns generalizing r cursor with
  | nil => rfl
  | cons turn turns ih => rw [asked, List.length_cons, ih, List.length_cons]

/-- A reading passes its first pages and goes on as what is left of it. -/
theorem pagesFrom_of_passes {last : Reading} {turns : List Turn} (passes : r.Passes turns last)
    (cursor : Option Value) (requests : List α) :
    ∃ pages, List.Forall₂ Turn.Shows turns pages ∧ ∀ unread count rest after,
      last.pagesFrom (Replay.send form) count (startAfter turns cursor)
          ⟨unread, none, requests ++ (r.asked turns cursor).map form⟩ = (rest, after) →
        r.pagesFrom (Replay.send form) (turns.length + count) cursor
          ⟨turns.map Turn.reply ++ unread, none, requests⟩ =
            (⟨pages ++ rest.pages, rest.ending⟩, after) := by
  induction passes generalizing cursor requests with
  | here r =>
    refine ⟨[], .nil, fun unread count rest after goes => ?_⟩
    rw [asked, List.map_nil, List.append_nil] at goes
    rw [List.length_nil, Nat.zero_add]
    exact goes
  | @on r last turn turns asks readable more _ ih =>
    obtain ⟨page, shows, paged⟩ := pageAt_eq form asks readable
    have start : page.lastKey = turn.key := shows.1
    obtain ⟨pages, shown, run⟩ := ih turn.key (requests ++ [form (r.requestAt turn.built cursor)])
    refine ⟨page :: pages, .cons shows shown, fun unread count rest after goes => ?_⟩
    have first := paged cursor ⟨(turn :: turns).map Turn.reply ++ unread, none, requests⟩ rfl rfl
    rw [asked, List.map_cons, List.append_cons, startAfter, List.map_cons, List.getLastD_cons] at goes
    have later := run unread count rest after goes
    rw [← start] at later
    rw [List.length_cons, Nat.add_right_comm]
    exact pagesFrom_of_more _ first (start ▸ more) later

/-- A reading that fails after some pages, however many more are asked for, stops there. -/
theorem stops_of_pagesFrom {replies : List Reply} {pages : List Page} {failure : Failure}
    {after : Replay α} (enough : pages.length ≤ replies.length)
    (fails : ∀ count, r.pagesFrom (Replay.send form) (pages.length + (count + 1)) none
      ⟨replies, none, []⟩ = (⟨pages, .error failure⟩, after)) :
    Stops form r replies pages failure after := by
  refine ⟨fun count more => ?_, ?_⟩
  · obtain ⟨extra, rfl⟩ := Nat.exists_eq_add_of_le more
    rw [firstPages_eq, Nat.succ_add_eq_add_succ]
    exact fails extra
  · obtain ⟨extra, length⟩ := Nat.exists_eq_add_of_le enough
    have all : r.allPages form (.ofReplies replies) = (⟨pages, .error failure⟩, after) := by
      change r.pagesFrom _ (replies.length + 1) none _ = _
      rw [length, Nat.add_assoc]
      exact fails extra
    rw [allRecords, all]
    rfl

/-- What a reader of some pages sees, and the requests for them, depend on as many replies; without
a failure there is a request for each page. The first page of a reading can be asked for or not; if
not, the reading fails without a request. Past pages that were read, each asked for by its own scan
and starting at the cursor of the response before, the reading stops where a page cannot be asked
for, without a request for it, and where a reply ends it with a failure, which takes one request
more; what comes after is not taken, and reading all records ends with the same failure. -/
theorem stops_at_first_failure {α : Type} (form : Request → α) (r : Reading) :
    (∀ count replies others, Agree count replies others →
      (r.firstPages form count (.ofReplies replies)).1 =
          (r.firstPages form count (.ofReplies others)).1 ∧
      (r.firstPages form count (.ofReplies replies)).2.requests =
        (r.firstPages form count (.ofReplies others)).2.requests) ∧
    (∀ count replies, (r.firstPages form count (.ofReplies replies)).1.ending = .ok () →
      (r.firstPages form count (.ofReplies replies)).2.requests.length =
        (r.firstPages form count (.ofReplies replies)).1.pages.length) ∧
    ((∃ failure, r.Unasked failure) ∨ ∃ s built, r.Asks s built) ∧
    (∀ failure, r.Unasked failure → ∀ store : Replay α,
      (∀ count, r.firstPages form (count + 1) store = (⟨[], .error failure⟩, store)) ∧
      r.allRecords form store = (.error failure, store)) ∧
    ∀ turns last, r.Passes turns last →
      (r.asked turns none).length = turns.length ∧
      ∃ pages, List.Forall₂ Turn.Shows turns pages ∧
        (∀ failure, last.Unasked failure → ∀ unread,
          Stops form r (turns.map Turn.reply ++ unread) pages failure
            ⟨unread, none, (r.asked turns none).map form⟩) ∧
        (∀ s built, last.Asks s built → ∀ reply failure, Ends s.schema s.model reply failure →
          ∀ unread, Stops form r (turns.map Turn.reply ++ reply :: unread) pages failure
            ⟨unread, none, (r.asked turns none ++
              [last.requestAt built (startAfter turns none)]).map form⟩) := by
  refine ⟨fun count replies others agree => ?_, fun count replies ends => ?_, unasked_or_asks r,
    fun failure unasked store => ?_, fun turns last passes => ⟨length_asked turns none, ?_⟩⟩
  · rw [firstPages_eq, firstPages_eq]
    exact pagesFrom_agree form count agree none []
  · rw [firstPages_eq] at ends ⊢
    exact (length_requests_of_ending form count none replies [] ends).trans (Nat.zero_add _)
  · have failed (count : Nat) := pagesFrom_of_unasked unasked (Replay.send form) count none store
    have all : r.allPages form store = _ := failed _
    refine ⟨fun count => ?_, ?_⟩
    · rw [firstPages, Nat.add_min_add_right]
      exact failed _
    · rw [allRecords, all]
      rfl
  · obtain ⟨pages, shown, goes⟩ := pagesFrom_of_passes form passes none []
    have stops {unread : List Reply} {failure : Failure} {after : Replay α}
        (fails : ∀ count, last.pagesFrom (Replay.send form) (count + 1) (startAfter turns none)
          ⟨unread, none, (r.asked turns none).map form⟩ = (⟨[], .error failure⟩, after)) :
        Stops form r (turns.map Turn.reply ++ unread) pages failure after := by
      apply stops_of_pagesFrom
      · rw [← shown.length_eq, List.length_append, List.length_map]
        exact Nat.le_add_right _ _
      · intro count
        rw [← shown.length_eq, goes unread (count + 1) _ _ (fails count), List.append_nil]
    refine ⟨pages, shown, fun failure unasked unread => ?_,
      fun s built asks reply failure ends unread => ?_⟩
    · exact stops fun count => pagesFrom_of_unasked unasked _ count _ _
    · rw [List.map_append]
      exact stops fun count => pagesFrom_of_ends form asks ends count _ _ _

def brokenRow : Value :=
  .map [(.text "id", .map [(.text "S", .text "c")]), (.text "age", .text "x")]

def firstResponse : Value :=
  .map [(.text "Items", .list [nameRow "b"]), (.text "LastEvaluatedKey", nameRow "b")]

def brokenReplies : List Reply :=
  [.ok firstResponse, .ok (.map [(.text "Items", .list [nameRow "c", brokenRow])]), .ok .null]

/-- Configured for one page; from the second on there is nothing to negate. -/
def faltering : Reading :=
  { adults with configure := fun page s => if page = 0 then s.applyAll adultCalls else s.negate }

theorem stops_at_first_failure_adults :
    ∃ failure page other first second, failure.isDecoding = true ∧
      Stops id adults brokenReplies [page] failure ⟨[.ok .null], none, [first, second]⟩ ∧
      Stops id faltering brokenReplies [other] (.invalidState .negationFirst)
        ⟨brokenReplies.tail, none, [first]⟩ ∧
      (adults.firstPages id 1 (.ofReplies brokenReplies)).1 =
        (adults.firstPages id 1 (.ofReplies (brokenReplies.take 1))).1 := by
  have named (id : String) : ∀ row ∈ [nameRow id],
      ∃ record, (Schema.ofModel Sample.user).materialize Sample.user row = .ok record := by
    intro row only
    rw [List.mem_singleton.1 only]
    exact ⟨_, rfl⟩
  have passes {r : Reading} {s : Scan} {built : Request} (asks : r.Asks s built)
      (schema : s.schema = .ofModel Sample.user) (model : s.model = Sample.user) :
      r.Passes [⟨s, built, firstResponse⟩] r.later := by
    refine .on asks ⟨.inr ⟨_, rfl⟩, _, rfl, ?_⟩ rfl (.here _)
    rw [schema, model]
    exact named "b"
  obtain ⟨asks, schema, model⟩ : adults.Asks _ _ ∧ _ = Schema.ofModel Sample.user ∧ _ = Sample.user :=
    asks_ofCalls rfl rfl (by decide) rfl
  have falters : faltering.Asks _ _ := ⟨asks.configured, asks.positive, asks.fresh, asks.encodes⟩
  have ends : Ends (.ofModel Sample.user) Sample.user
      (.ok (.map [(.text "Items", .list [nameRow "c", brokenRow])])) _ :=
    .row rfl (named "c") rfl
  obtain ⟨same, _, _, _, stops⟩ := stops_at_first_failure id adults
  obtain ⟨_, pages, shown, _, stops⟩ := stops _ _ (passes asks schema model)
  obtain ⟨_, _, _, _, halts⟩ := stops_at_first_failure id faltering
  obtain ⟨_, pages', shown', halts, _⟩ := halts _ _ (passes falters schema model)
  replace stops := stops _ _ asks _ _ ends [.ok .null]
  replace halts := halts (.invalidState .negationFirst) (.configuring rfl) brokenReplies.tail
  obtain _ | ⟨_, _ | _⟩ := shown
  obtain _ | ⟨_, _ | _⟩ := shown'
  refine ⟨_, _, _, _, _, rfl, stops, halts, ?_⟩
  exact (same 1 _ _ fun place within => by rw [Nat.lt_one_iff.1 within]; rfl).1

end Reading

end TableScan
