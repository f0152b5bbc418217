import TableScan.Request

/-! A scan over one model's table. Calls select an attribute, may negate the next comparison, and
compare; each attribute takes one comparison, and all of them must hold. A scan is sent at most
once. -/

namespace TableScan

inductive Stage where
  | idle
  | selected (name : String)
  | negated (name : String)
deriving DecidableEq, Repr

namespace Stage

def pending? : Stage → Option String
  | .idle => none
  | .selected name | .negated name => some name

def isNegated : Stage → Bool
  | .negated _ => true
  | _ => false

end Stage

structure Scan where
  model : Model
  schema : Schema
  options : Options
  filters : List (String × Filter)
  stage : Stage
  executed : Bool
deriving Repr

inductive Call where
  | select (name : String)
  | and
  | not
  | compare (c : Comparison) (operands : List Value) (fits : c.arity? = some operands.length)
  /-- A comparison with any of the values that a collection holds. -/
  | among (values : Value)
  | limit (n : Option Int)
  | startAt (key : Option Value)
  | project (fields : List String)

structure Page where
  items : List Record
  lastKey : Option Value
deriving Repr

namespace Page

def empty : Page := ⟨[], none⟩

def hasMore (p : Page) : Bool := p.lastKey.isSome

end Page

namespace Scan

def state (reason : StateFault) {α : Type} : Except Failure α := .error (.invalidState reason)

def select (name : String) (s : Scan) : Except Failure Scan :=
  match s.stage.pending? with
  | some pending => state (.pendingSelection name pending)
  | none =>
    if (named? name s.filters).isSome then state (.filteredTwice name)
    else .ok { s with stage := .selected name }

def start (m : Model) (schema : Schema) (options : Options) : Scan :=
  ⟨m, schema, options, [], .idle, false⟩

def create (m : Model) (schema : Schema) (options : Options) (selected : Option String) :
    Except Failure Scan :=
  match selected with
  | none => .ok (start m schema options)
  | some name => (start m schema options).select name

/-- Negating twice does not cancel. -/
def negate (s : Scan) : Except Failure Scan :=
  match s.stage.pending? with
  | some pending => .ok { s with stage := .negated pending }
  | none => state .negationFirst

def compare (c : Comparison) (operands : List Value) (s : Scan) : Except Failure Scan :=
  match s.stage.pending? with
  | none => state (.comparisonFirst c.method)
  | some name =>
    match c.resolve s.stage.isNegated with
    | .error reason => state reason
    | .ok op =>
      if c.arity? = none ∧ operands = [] then state (.noOperands c.method)
      else
        .ok { s with filters := replaceNamed name ⟨name, op, operands⟩ s.filters, stage := .idle }

/-- A text or bytes is not taken as a collection. -/
def among (values : Value) (s : Scan) : Except Failure Scan :=
  if Coercion.textsIn values then state (.textOperands values.kind)
  else
    match values.elements with
    | .ok operands => s.compare .isIn operands
    | .error cause => .error (.fault cause)

def limit (n : Option Int) (s : Scan) : Except Failure Scan :=
  (s.options.withLimit n).map fun options => { s with options := options }

def apply (s : Scan) : Call → Except Failure Scan
  | .select name => s.select name
  | .and => .ok s
  | .not => s.negate
  | .compare c operands _ => s.compare c operands
  | .among values => s.among values
  | .limit n => s.limit n
  | .startAt key => .ok { s with options := s.options.withStartKey key }
  | .project fields => .ok { s with options := s.options.withFields fields }

def applyAll (s : Scan) : List Call → Except Failure Scan
  | [] => .ok s
  | call :: calls => (s.apply call).bind (applyAll · calls)

def buildRequest (s : Scan) : Except Failure Request :=
  match s.stage.pending? with
  | some pending => state (.pendingComparison pending)
  | none => Request.build s.schema s.model.tableName s.filters s.options

def materializeAll (schema : Schema) (m : Model) : List Value → Except Failure (List Record)
  | [] => .ok []
  | row :: rows => do return (← schema.materialize m row) :: (← materializeAll schema m rows)

def rowsOf (response : Value) : Except Failure (List Value) :=
  match response.entryAt? "Items" with
  | none => .ok []
  | some rows =>
    if rows.isTrue then
      match rows.elements with
      | .ok items => .ok items
      | .error cause => .error (.fault cause)
    else .ok []

/-- The cursor of a response; the absent value is none. -/
def lastKeyOf (response : Value) : Option Value :=
  match response.entryAt? "LastEvaluatedKey" with
  | some .null => none
  | found => found

def pageOf (s : Scan) (response : Value) : Except Failure Page :=
  if response.isTrue then
    match response with
    | .map _ =>
      do return ⟨← materializeAll s.schema s.model (← rowsOf response), lastKeyOf response⟩
    | _ => .error (.fault (.noMember response.qualifiedKind "get"))
  else .ok .empty

def prepare (s : Scan) : Except Failure (Request × Scan) :=
  if s.executed then state .alreadyExecuted
  else do return (← s.buildRequest, { s with executed := true })

/-- What comes of sending the scan through a store that changes state by it: the page or failure,
the scan and the store afterwards. -/
def execute {σ : Type} (send : Request → σ → Except Failure Value × σ) (s : Scan) (store : σ) :
    Except Failure Page × Scan × σ :=
  match s.prepare with
  | .error failure => (.error failure, s, store)
  | .ok (request, sent) =>
    match send request store with
    | (.error failure, after) => (.error failure, sent, after)
    | (.ok response, after) => (sent.pageOf response, sent, after)

end Scan

end TableScan
