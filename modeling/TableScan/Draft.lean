import TableScan.Scan
import TableScan.Replay

/-! Scans as their callers work on them. A draft has a field for each thing that a call may change,
and the calls assign these fields one after the other; a call that fails keeps what it has assigned
by then. What a whole call makes of a scan is said apart from this. -/

namespace TableScan

inductive Status where
  | idle
  | selected
  | negated
deriving DecidableEq, Repr

structure Draft where
  model : Model
  schema : Schema
  options : Options
  filters : List (String × Filter)
  status : Status
  pending : Option String
  executed : Bool
deriving Repr

structure Desk (σ : Type) where
  draft : Draft
  store : σ

namespace Draft

inductive Step where
  | select (name : String)
  | and
  | not
  | null
  | eq (operand : Value)
  | lt (operand : Value)
  | le (operand : Value)
  | ge (operand : Value)
  | gt (operand : Value)
  | contains (operand : Value)
  | beginsWith (operand : Value)
  | among (values : Value)
  | between (low high : Value)
  | limit (n : Option Int)
  | startAt (key : Option Value)
  | project (fields : List String)
  | build
  | execute

inductive Answer where
  | draft
  | request (r : Request)
  | page (p : Page)

end Draft

/-- Work on a draft. Where it fails, the desk is left as it is by then. -/
abbrev Work (σ : Type) := ExceptT Failure (StateM (Desk σ))

namespace Work

open Draft (Answer)
open MonadExcept (ofExcept)

variable {σ α : Type}

def attempt (w : Work σ α) (desk : Desk σ) : Except Failure α × Desk σ := Id.run (w.run.run desk)

def draft : Work σ Draft := return (← get).draft

def assign (change : Draft → Draft) : Work σ Unit :=
  modify fun desk => { desk with draft := change desk.draft }

def refuseIf (condition : Prop) [Decidable condition] (reason : StateFault) : Work σ Unit :=
  if condition then throw (.invalidState reason) else pure ()

def select (name : String) : Work σ Unit := do
  let d ← draft
  refuseIf (d.status ≠ .idle) (.pendingSelection name (d.pending.getD ""))
  refuseIf ((named? name d.filters).isSome) (.filteredTwice name)
  assign ({ · with pending := some name })
  assign ({ · with status := .selected })

def negate : Work σ Unit := do
  let d ← draft
  refuseIf (d.status = .idle) .negationFirst
  assign ({ · with status := .negated })

/-- The comparison that is due. None is due without the name of its attribute. -/
def compare (c : Comparison) (operands : List Value) : Work σ Unit := do
  let d ← draft
  refuseIf (d.status = .idle) (.comparisonFirst c.method)
  let operator ← ofExcept ((c.resolve (d.status = .negated)).mapError .invalidState)
  refuseIf (c.arity? = none ∧ operands = []) (.noOperands c.method)
  let name := d.pending.getD ""
  assign fun d => { d with filters := replaceNamed name ⟨name, operator, operands⟩ d.filters }
  assign ({ · with pending := none })
  assign ({ · with status := .idle })

def among (values : Value) : Work σ Unit := do
  refuseIf (Coercion.textsIn values) (.textOperands values.kind)
  let operands ← ofExcept (values.elements.mapError .fault)
  compare .isIn operands

def limit (n : Option Int) : Work σ Unit := do
  let d ← draft
  let options ← ofExcept (d.options.withLimit n)
  assign ({ · with options := options })

def startAt (key : Option Value) : Work σ Unit :=
  assign fun d => { d with options := d.options.withStartKey key }

def project (fields : List String) : Work σ Unit :=
  assign fun d => { d with options := d.options.withFields fields }

def buildRequest : Work σ Request := do
  let d ← draft
  refuseIf (d.status ≠ .idle) (.pendingComparison (d.pending.getD ""))
  ofExcept (Request.build d.schema d.model.tableName d.filters d.options)

def ask (send : Request → σ → Reply × σ) (request : Request) : Work σ Value := do
  let (reply, after) := send request (← get).store
  modify ({ · with store := after })
  ofExcept reply

/-- The draft counts as executed from before the store is asked. -/
def execute (send : Request → σ → Reply × σ) : Work σ Page := do
  let d ← draft
  refuseIf d.executed .alreadyExecuted
  let request ← buildRequest
  assign ({ · with executed := true })
  let response ← ask send request
  ofExcept ((Scan.start d.model d.schema d.options).pageOf response)

def chained (w : Work σ Unit) : Work σ Answer := do
  w
  return .draft

def ofStep (send : Request → σ → Reply × σ) : Draft.Step → Work σ Answer
  | .select name => chained (select name)
  | .and => chained (pure ())
  | .not => chained negate
  | .null => chained (compare .null [])
  | .eq operand => chained (compare .eq [operand])
  | .lt operand => chained (compare .lt [operand])
  | .le operand => chained (compare .le [operand])
  | .ge operand => chained (compare .ge [operand])
  | .gt operand => chained (compare .gt [operand])
  | .contains operand => chained (compare .contains [operand])
  | .beginsWith operand => chained (compare .beginsWith [operand])
  | .among values => chained (among values)
  | .between low high => chained (compare .between [low, high])
  | .limit n => chained (limit n)
  | .startAt key => chained (startAt key)
  | .project fields => chained (project fields)
  | .build => return .request (← buildRequest)
  | .execute => return .page (← execute send)

end Work

namespace Desk

open Draft (Answer)

variable {σ : Type}

def fresh (m : Model) (schema : Schema) (options : Options) (store : σ) : Desk σ :=
  ⟨⟨m, schema, options, [], .idle, none, false⟩, store⟩

def create (m : Model) (schema : Schema) (options : Options) (selected : Option String)
    (store : σ) : Except Failure Unit × Desk σ :=
  (selected.forM Work.select).attempt (fresh m schema options store)

def step (send : Request → σ → Reply × σ) (s : Draft.Step) (desk : Desk σ) :
    Except Failure Answer × Desk σ :=
  (Work.ofStep send s).attempt desk

def run (send : Request → σ → Reply × σ) : List Draft.Step → Desk σ →
    List (Draft.Step × Except Failure Answer) × Desk σ
  | [], desk => ([], desk)
  | s :: steps, desk =>
    let (result, next) := desk.step send s
    let (results, final) := next.run send steps
    ((s, result) :: results, final)

end Desk

end TableScan
