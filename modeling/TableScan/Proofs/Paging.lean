import Mathlib.Data.List.Forall2
import TableScan.Paging
import TableScan.Sample
import TableScan.Proofs.Attempt
import TableScan.Proofs.Composition

/-! Reading a table to its end. Main statement: against a store with prepared responses there is one
request for each page, up to the first response without a cursor; the requests differ in their start
alone, each starting at the cursor of the response before; and the records are those of the rows
told, in order and each once. How many pages a reader is prepared to take does not matter as long as
there are enough. -/

namespace TableScan

namespace Reading

open Attempt (bind_eq_ok_iff bind_eq_error_iff)
open Scan (rowsOf lastKeyOf)

section Responses

variable (schema : Schema) (m : Model)

def Readable (response : Value) : Prop :=
  (response = .null ∨ ∃ entries, response = .map entries) ∧
    ∃ rows, rowsOf response = .ok rows ∧
      ∀ row ∈ rows, ∃ record, schema.materialize m row = .ok record

def rows (response : Value) : List Value := (rowsOf response).toOption.getD []

def Reads (rows : List Value) (records : List Record) : Prop :=
  List.Forall₂ (fun row record => schema.materialize m row = .ok record) rows records

def Shows (response : Value) (page : Page) : Prop :=
  page.lastKey = lastKeyOf response ∧ Reads schema m (rows response) page.items

end Responses

/-- The place of the first response without a cursor; after the last one comes an empty one. -/
def lastPlace (responses : List Value) : Nat :=
  responses.findIdx fun response => (lastKeyOf response).isNone

/-- The responses that are read: those up to the first without a cursor. -/
def told (responses : List Value) : List Value :=
  (responses ++ [Replay.emptyResponse]).take (lastPlace responses + 1)

/-- Where the requests start: at the beginning, and then at the cursor of the response before. -/
def startKeys (responses : List Value) : List (Option Value) :=
  none :: (told responses).dropLast.map lastKeyOf

def requestAt (r : Reading) (built : Request) (cursor : Option Value) : Request :=
  { built with limit := r.pageSize.or built.limit, startKey := cursor }

/-- The first page can be asked for: the configured scan has a request, and it and the page size are
still to be used. -/
structure Asks (r : Reading) (s : Scan) (built : Request) : Prop where
  configured : r.configure 0 (emptyScan r.model) = .ok s
  positive : ∀ n, r.pageSize = some n → 1 ≤ n
  fresh : s.executed = false
  encodes : s.buildRequest = .ok built

theorem told_cons (response : Value) (responses : List Value) :
    told (response :: responses) =
      if (lastKeyOf response).isNone then [response] else response :: told responses := by
  cases ends : (lastKeyOf response).isNone <;> simp [told, lastPlace, List.findIdx_cons, ends]

theorem length_told (responses : List Value) : (told responses).length = lastPlace responses + 1 := by
  have within : lastPlace responses ≤ responses.length := List.findIdx_le_length
  simp only [told, List.length_take, List.length_append, List.length_singleton]
  omega

theorem materializeAll_of_forall {schema : Schema} {m : Model} (rows : List Value)
    (readable : ∀ row ∈ rows, ∃ record, schema.materialize m row = .ok record) :
    ∃ records, Scan.materializeAll schema m rows = .ok records ∧ Reads schema m rows records := by
  induction rows with
  | nil => exact ⟨[], rfl, .nil⟩
  | cons row rows ih =>
    obtain ⟨record, first⟩ := readable row (by simp)
    obtain ⟨records, rest, reads⟩ := ih fun other member => readable other (by simp [member])
    exact ⟨record :: records, by simp [Scan.materializeAll, first, rest], .cons first reads⟩

theorem pageOf_of_readable {scan : Scan} {response : Value}
    (readable : Readable scan.schema scan.model response) :
    ∃ page, scan.pageOf response = .ok page ∧ Shows scan.schema scan.model response page := by
  obtain ⟨shape, items, found, each⟩ := readable
  obtain ⟨records, read, reads⟩ := materializeAll_of_forall items each
  have given : rows response = items := by simp [rows, found, Except.toOption]
  rcases shape with rfl | ⟨entries, rfl⟩
  · cases found
    exact ⟨.empty, rfl, rfl, .nil⟩
  · cases entries with
    | nil =>
      cases found
      exact ⟨.empty, rfl, rfl, .nil⟩
    | cons entry entries =>
      refine ⟨⟨records, lastKeyOf (.map (entry :: entries))⟩, ?_, rfl, given ▸ reads⟩
      simp [Scan.pageOf, Value.isTrue, found, read]

def aimed (r : Reading) (s : Scan) (cursor : Option Value) : Scan :=
  { s with options := { s.options with limit := r.pageSize.or s.options.limit, startKey := cursor } }

theorem scanAt_eq {r : Reading} {s : Scan} (configured : r.configure 0 (emptyScan r.model) = .ok s)
    (positive : ∀ n, r.pageSize = some n → 1 ≤ n) (cursor : Option Value) :
    r.scanAt cursor = .ok (r.aimed s cursor) := by
  simp only [scanAt, configured, Attempt.ok_bind, Scan.apply, aimed]
  cases size : r.pageSize with
  | none => rfl
  | some n =>
    have allowed : ¬n < 1 := Int.not_lt.2 (positive n size)
    simp [Scan.limit, Options.withLimit, allowed, Options.withStartKey]

theorem buildRequest_aimed (r : Reading) {s : Scan} {built : Request}
    (encodes : s.buildRequest = .ok built) (cursor : Option Value) :
    (r.aimed s cursor).buildRequest = .ok (r.requestAt built cursor) := by
  unfold Scan.buildRequest at encodes ⊢
  cases pending : s.stage.pending? with
  | some name =>
    rw [pending] at encodes
    cases encodes
  | none =>
    simp only [aimed, pending, Request.build, bind_eq_ok_iff, Attempt.pure_eq_ok,
      Except.ok.injEq] at encodes ⊢
    obtain ⟨conditions, encoded, rfl⟩ := encodes
    exact ⟨conditions, encoded, rfl⟩

def preparedAt (r : Reading) (cursor : Option Value) : Except Failure (Request × Scan) := do
  (← r.scanAt cursor).prepare

theorem pageAt_of_unprepared {σ : Type} {r : Reading} {failure : Failure} {cursor : Option Value}
    (failed : r.preparedAt cursor = .error failure) (send : Request → σ → Reply × σ) (store : σ) :
    r.pageAt send cursor store = (.error failure, store) := by
  unfold pageAt
  rcases bind_eq_error_iff.1 failed with failed | ⟨scan, found, failed⟩
  · rw [failed]
  · simp only [found, Scan.execute, failed]

theorem pageAt_of_prepared {σ : Type} {r : Reading} {request : Request} {sent : Scan}
    {cursor : Option Value} (prepared : r.preparedAt cursor = .ok (request, sent))
    (send : Request → σ → Reply × σ) (store : σ) :
    r.pageAt send cursor store =
      ((send request store).1 >>= sent.pageOf, (send request store).2) := by
  obtain ⟨scan, found, prepared⟩ := bind_eq_ok_iff.1 prepared
  simp only [pageAt, found, Scan.execute, prepared]
  rcases send request store with ⟨_ | response, after⟩ <;> rfl

theorem pagesFrom_of_last {σ : Type} {r : Reading} {send : Request → σ → Reply × σ}
    {cursor : Option Value} {store after : σ} {page : Page} (count : Nat)
    (paged : r.pageAt send cursor store = (.ok page, after)) (ends : page.lastKey = none) :
    r.pagesFrom send (count + 1) cursor store = (⟨[page], .ok ()⟩, after) := by
  simp [pagesFrom, paged, Page.hasMore, ends]

theorem pagesFrom_of_more {σ : Type} {r : Reading} {send : Request → σ → Reply × σ}
    {cursor : Option Value} {store after final : σ} {page : Page} {rest : Pages} (count : Nat)
    (paged : r.pageAt send cursor store = (.ok page, after)) (more : page.lastKey.isSome = true)
    (later : r.later.pagesFrom send count page.lastKey after = (rest, final)) :
    r.pagesFrom send (count + 1) cursor store = (⟨page :: rest.pages, rest.ending⟩, final) := by
  simp [pagesFrom, paged, Page.hasMore, more, later]

section Run

variable {α : Type} (form : Request → α) {r : Reading} {s : Scan} {built : Request}
  (asks : r.Asks s built)

include asks

theorem preparedAt_eq (cursor : Option Value) : r.preparedAt cursor =
    .ok (r.requestAt built cursor, { r.aimed s cursor with executed := true }) := by
  have fresh : (r.aimed s cursor).executed = false := asks.fresh
  rw [preparedAt, scanAt_eq asks.configured asks.positive, Attempt.ok_bind, Scan.prepare, fresh,
    buildRequest_aimed r asks.encodes]
  rfl

/-- One page costs one request and one response. -/
theorem pageAt_eq {response : Value} (readable : Readable s.schema s.model response) :
    ∃ page, Shows s.schema s.model response page ∧ ∀ (cursor : Option Value) (store : Replay α),
      store.down = none → (Replay.take store.replies).1 = .ok response →
        r.pageAt (Replay.send form) cursor store = (.ok page, { store with
          replies := (Replay.take store.replies).2
          requests := store.requests ++ [form (r.requestAt built cursor)] }) := by
  obtain ⟨page, paged, shows⟩ := pageOf_of_readable readable
  refine ⟨page, shows, fun cursor store up next => ?_⟩
  have sent : { r.aimed s cursor with executed := true }.pageOf response = .ok page := paged
  rw [pageAt_of_prepared (preparedAt_eq asks cursor)]
  simp only [Replay.send, Replay.answer, up, next, Attempt.ok_bind, sent]

/-- From a cursor on there is a page for each response told, whatever number from there on is asked
for, if every page is configured like the first. -/
theorem pagesFrom_eq (steady : r.later = r) (responses : List Value)
    (readable : ∀ response ∈ responses, Readable s.schema s.model response) (cursor : Option Value)
    (requests : List α) :
    ∃ pages unread, List.Forall₂ (Shows s.schema s.model) (told responses) pages ∧
      ∀ extra, r.pagesFrom (Replay.send form) (lastPlace responses + 1 + extra) cursor
        ⟨responses.map .ok, none, requests⟩ =
          (⟨pages, .ok ()⟩, ⟨unread, none, requests ++
            (cursor :: (told responses).dropLast.map lastKeyOf).map (form <| r.requestAt built ·)⟩) := by
  have again (count : Nat) (cursor : Option Value) (store : Replay α) :
      r.later.pagesFrom (Replay.send form) count cursor store =
        r.pagesFrom (Replay.send form) count cursor store := by
    rw [steady]
  induction responses generalizing cursor requests with
  | nil =>
    -- Past the last response every request is given an empty one, and that ends the reading.
    have empty : Readable s.schema s.model Replay.emptyResponse := ⟨.inr ⟨[], rfl⟩, [], rfl, by simp⟩
    obtain ⟨page, shows, paged⟩ := pageAt_eq form asks empty
    replace paged := paged cursor ⟨[], none, requests⟩ rfl rfl
    refine ⟨[page], [], .cons shows .nil, fun extra => ?_⟩
    rw [Nat.add_right_comm]
    exact pagesFrom_of_last _ paged shows.1
  | cons response responses ih =>
    obtain ⟨page, shows, paged⟩ := pageAt_eq form asks (readable response (by simp))
    replace paged := paged cursor ⟨(response :: responses).map .ok, none, requests⟩ rfl rfl
    cases ends : (lastKeyOf response).isNone with
    | true =>
      refine ⟨[page], responses.map .ok, ?_, fun extra => ?_⟩
      · rw [told_cons, if_pos ends]
        exact .cons shows .nil
      · rw [told_cons, if_pos ends, Nat.add_right_comm]
        exact pagesFrom_of_last _ paged (shows.1.trans (Option.isNone_iff_eq_none.1 ends))
    | false =>
      obtain ⟨pages, unread, rest, run⟩ := ih (fun other member => readable other (by simp [member]))
        page.lastKey (requests ++ [form (r.requestAt built cursor)])
      refine ⟨page :: pages, unread, ?_, fun extra => ?_⟩
      · rw [told_cons, if_neg (by simp [ends])]
        exact .cons shows rest
      · have more : page.lastKey.isSome = true := by rw [shows.1]; simpa using ends
        have place : lastPlace (response :: responses) = lastPlace responses + 1 := by
          simp [lastPlace, List.findIdx_cons, ends]
        have nonempty : told responses ≠ [] := by
          rw [← List.length_pos_iff, length_told]
          omega
        rw [place, Nat.add_right_comm,
          pagesFrom_of_more _ paged more ((again _ _ _).trans (run extra)), told_cons,
          if_neg (by simp [ends]), List.dropLast_cons_of_ne_nil nonempty, shows.1]
        simp

end Run

theorem reads_flatMap {schema : Schema} {m : Model} {responses : List Value} {pages : List Page}
    (shown : List.Forall₂ (Shows schema m) responses pages) :
    Reads schema m (responses.flatMap rows) (pages.flatMap Page.items) := by
  induction shown with
  | nil => exact .nil
  | cons first _ ih =>
    rw [List.flatMap_cons, List.flatMap_cons]
    exact List.rel_append first.2 ih

theorem asks_ofCalls {m : Model} {calls : List Call} {size : Option Int} {s : Scan} {built : Request}
    (configured : (emptyScan m).applyAll calls = .ok s) (idle : s.stage = .idle)
    (positive : ∀ n, size = some n → 1 ≤ n) (encodes : s.buildRequest = .ok built) :
    (ofCalls m calls size).Asks s built ∧ s.schema = .ofModel m ∧ s.model = m := by
  obtain ⟨_, _, _, _, _, rfl⟩ :=
    (Scan.applyAll_iff_builds (Scan.distinct_start m _ _)).1 ⟨configured, idle⟩
  exact ⟨⟨configured, positive, rfl, encodes⟩, rfl, rfl⟩

/-- Reading a table whose responses can be read ends after the first response without a cursor, with
a page for each response up to there and a request for each page. The requests are that of the
configured scan with the page size, started at the beginning and then at the cursor of the response
before. The records are those of all rows in these responses, in order. -/
theorem allPages_complete {α : Type} (form : Request → α) (m : Model) (calls : List Call)
    (size : Option Int) (s : Scan) (built : Request) (responses : List Value)
    (configured : (emptyScan m).applyAll calls = .ok s)
    (idle : s.stage = .idle) (positive : ∀ n, size = some n → 1 ≤ n)
    (encodes : s.buildRequest = .ok built)
    (readable : ∀ response ∈ responses, Readable (.ofModel m) m response) :
    let r := ofCalls m calls size
    ∃ pages records after,
      r.allPages form (.ofReplies (responses.map .ok)) = (⟨pages, .ok ()⟩, after) ∧
      r.allRecords form (.ofReplies (responses.map .ok)) = (.ok records, after) ∧
      pages.length = lastPlace responses + 1 ∧
      List.Forall₂ (Shows (.ofModel m) m) (told responses) pages ∧
      Reads (.ofModel m) m ((told responses).flatMap rows) records ∧
      after.requests.length = lastPlace responses + 1 ∧
      after.requests = (startKeys responses).map (form <| r.requestAt built ·) ∧
      ∀ extra, r.pagesFrom (Replay.send form) (lastPlace responses + 1 + extra) none
        (.ofReplies (responses.map .ok)) = (⟨pages, .ok ()⟩, after) := by
  intro r
  obtain ⟨asks, schema, model⟩ := asks_ofCalls configured idle positive encodes
  rw [← schema] at readable ⊢
  simp only [← model] at readable ⊢
  obtain ⟨pages, unread, shown, told⟩ := pagesFrom_eq form asks rfl responses readable none []
  have run : ∀ extra, r.pagesFrom (Replay.send form) (lastPlace responses + 1 + extra) none
      (.ofReplies (responses.map .ok)) =
        (⟨pages, .ok ()⟩, ⟨unread, none, (startKeys responses).map (form <| r.requestAt built ·)⟩) :=
    told
  have within : lastPlace responses ≤ responses.length := List.findIdx_le_length
  have enough : (responses.map Except.ok : List Reply).length + 1 =
      lastPlace responses + 1 + (responses.length - lastPlace responses) := by
    rw [List.length_map]
    omega
  have all := run (responses.length - lastPlace responses)
  rw [← enough] at all
  have whole : r.allPages form (.ofReplies (responses.map .ok)) = _ := all
  have length := shown.length_eq
  rw [length_told] at length
  refine ⟨pages, pages.flatMap Page.items, _, all, ?_, length.symm, shown, reads_flatMap shown, ?_,
    rfl, run⟩
  · rw [allRecords, whole]
    rfl
  · simp [startKeys, length_told]

def nameRow (id : String) : Value := .map [(.text "id", .map [(.text "S", .text id)])]

theorem one_age : Comparison.ge.arity? = some [Value.int 21].length := rfl

/-- The calls set another start, which does not count. -/
def adultCalls : List Call :=
  [.startAt (some (nameRow "z")), .select "age", .compare .ge [.int 21] one_age]

def adults : Reading := ofCalls Sample.user adultCalls (some 2)

def adultResponses : List Value :=
  [.map [(.text "Items", .list []), (.text "LastEvaluatedKey", nameRow "a")],
    .map [(.text "Items", .list [nameRow "b"])], .null]

theorem allPages_complete_adults :
    ∃ pages records after,
      adults.allPages id (.ofReplies (adultResponses.map .ok)) = (⟨pages, .ok ()⟩, after) ∧
      adults.allRecords id (.ofReplies (adultResponses.map .ok)) = (.ok records, after) ∧
      pages.length = 2 ∧ Reads (.ofModel Sample.user) Sample.user [nameRow "b"] records ∧
      after.requests.map (·.startKey) = [none, some (nameRow "a")] := by
  have readable : ∀ response ∈ adultResponses,
      Readable (.ofModel Sample.user) Sample.user response := by
    intro response member
    simp only [adultResponses, List.mem_cons, List.not_mem_nil, or_false] at member
    rcases member with rfl | rfl | rfl
    · exact ⟨.inr ⟨_, rfl⟩, [], rfl, by simp⟩
    · refine ⟨.inr ⟨_, rfl⟩, [nameRow "b"], rfl, fun row only => ?_⟩
      rw [List.mem_singleton.1 only]
      exact ⟨_, rfl⟩
    · exact ⟨.inl rfl, [], rfl, by simp⟩
  obtain ⟨pages, records, after, all, read, count, _, reads, _, asked, _⟩ :=
    allPages_complete id Sample.user adultCalls (some 2) _ _ adultResponses rfl rfl (by decide) rfl
      readable
  refine ⟨pages, records, after, all, read, count, reads, ?_⟩
  rw [asked]
  rfl

end Reading

end TableScan
