import TableScan.Scan
import TableScan.Replay

/-! Reading a table page by page. Every page has a scan of its own, configured for that page and
started at the cursor of the page before; the last page is the first without a cursor. -/

namespace TableScan

/-- What is made of each page's new scan; the pages are counted from zero. -/
def Configuring := Nat → Scan → Except Failure Scan

instance : Coe (List Call) Configuring := ⟨fun calls _ s => s.applyAll calls⟩

structure Reading where
  model : Model
  configure : Configuring
  pageSize : Option Int

structure Pages where
  pages : List Page
  ending : Except Failure Unit

namespace Reading

def ofCalls (m : Model) (calls : List Call) (size : Option Int) : Reading := ⟨m, calls, size⟩

def ofModel (m : Model) : Reading := .ofCalls m [] none

def later (r : Reading) : Reading := { r with configure := fun page => r.configure (page + 1) }

def emptyScan (m : Model) : Scan := .start m (.ofModel m) .none

/-- The scan of the first page. A page size, when there is one, has the last word on the limit, and the
cursor on the start. -/
def scanAt (r : Reading) (cursor : Option Value) : Except Failure Scan := do
  let configured ← r.configure 0 (emptyScan r.model)
  let sized ← match r.pageSize with
    | some n => configured.limit (some n)
    | none => pure configured
  sized.apply (.startAt cursor)

def pageAt {σ : Type} (r : Reading) (send : Request → σ → Reply × σ) (cursor : Option Value)
    (store : σ) : Except Failure Page × σ :=
  match r.scanAt cursor with
  | .error failure => (.error failure, store)
  | .ok scan =>
    let (page, _, after) := scan.execute send store
    (page, after)

/-- At most `count` pages from a cursor on. -/
def pagesFrom {σ : Type} (r : Reading) (send : Request → σ → Reply × σ) :
    (count : Nat) → (cursor : Option Value) → (store : σ) → Pages × σ
  | 0, _, store => (⟨[], .ok ()⟩, store)
  | count + 1, cursor, store =>
    match r.pageAt send cursor store with
    | (.error failure, after) => (⟨[], .error failure⟩, after)
    | (.ok page, after) =>
      if page.hasMore then
        let (rest, final) := r.later.pagesFrom send count page.lastKey after
        (⟨page :: rest.pages, rest.ending⟩, final)
      else (⟨[page], .ok ()⟩, after)

def allPages {α : Type} (form : Request → α) (r : Reading) (store : Replay α) : Pages × Replay α :=
  r.pagesFrom (Replay.send form) (store.replies.length + 1) none store

def firstPages {α : Type} (form : Request → α) (r : Reading) (count : Nat) (store : Replay α) :
    Pages × Replay α :=
  r.pagesFrom (Replay.send form) (min count (store.replies.length + 1)) none store

def allRecords {α : Type} (form : Request → α) (r : Reading) (store : Replay α) :
    Except Failure (List Record) × Replay α :=
  let (read, after) := r.allPages form store
  (read.ending.map fun _ => read.pages.flatMap Page.items, after)

end Reading

end TableScan
