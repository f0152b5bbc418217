import TableScan.Coercion.Bounded
import TableScan.Failure

/-! Models of rows, and the records that are read into them. -/

namespace TableScan

structure Field where
  name : String
  type : FieldType
  /-- The name in the store and for callers, when it is another. -/
  externalName : Option String
  /-- The name for callers, when it is neither of these. -/
  argumentName : Option String
  /-- The value of a field that is not given; without one the field is required. -/
  default : Option Value
  minimum : Option Int
  maxLength : Option Nat
  frozen : Bool
deriving Repr

structure Model where
  name : String
  table : Option String
  fields : List Field
  validatesAssignment : Bool
  frozen : Bool
deriving Repr

/-- The values of a record's fields, in no order that matters; which of them were given; and whether
the record has not been stored yet. -/
structure Record where
  values : List (String × Value)
  assigned : List String
  isNew : Bool
deriving Repr

def replaceNamed {α : Type} (name : String) (x : α) : List (String × α) → List (String × α)
  | [] => [(name, x)]
  | (other, y) :: rest =>
    if other = name then (other, x) :: rest else (other, y) :: replaceNamed name x rest

def named? {α : Type} (name : String) (entries : List (String × α)) : Option α :=
  (entries.find? (·.1 == name)).map (·.2)

namespace Field

def plain (name : String) (type : FieldType) (default : Option Value) : Field :=
  ⟨name, type, none, none, default, none, none, false⟩

/-- The name of the field in the store; an empty external name is none. -/
def storedName (f : Field) : String :=
  match f.externalName with
  | some external => if external = "" then f.name else external
  | none => f.name

/-- The name by which a caller gives the value first of all. -/
def inputName (f : Field) : String := (f.argumentName.or f.externalName).getD f.name

def validate (f : Field) (v : Value) : Except Rejection Value :=
  Coercion.validateWithin ⟨f.minimum, f.maxLength⟩ f.type v

end Field

namespace Model

def field? (m : Model) (name : String) : Option Field := m.fields.find? (·.name == name)

def tableName (m : Model) : String :=
  match m.table with
  | some table => if table = "" then m.name else table
  | none => m.name

/-- The fields of a model that builds on another: one of the same name takes the other's place. -/
def extendFields (inherited : List Field) (added : List Field) : List Field :=
  let named := inherited.map fun f => (f.name, f)
  (added.foldl (fun fields f => replaceNamed f.name f fields) named).map (·.2)

def extend (m : Model) (name : String) (added : List Field) : Model :=
  { m with name := name, fields := extendFields m.fields added }

def defaults (m : Model) : List (String × Value) :=
  m.fields.filterMap fun f => f.default.map (f.name, ·)

def newPersisted (m : Model) : Record := ⟨m.defaults, [], false⟩

def given? (f : Field) (arguments : List (String × Value)) : Option (String × Value) :=
  match named? f.inputName arguments with
  | some v => some (f.inputName, v)
  | none => (named? f.name arguments).map (f.name, ·)

def fieldOutcome (arguments : List (String × Value)) (f : Field) :
    Except Rejection (Option (String × Value × Bool)) :=
  match given? f arguments with
  | some (key, v) =>
    match f.validate v with
    | .ok fitted => .ok (some (f.name, fitted, true))
    | .error rejection => .error (rejection.under [.name key])
  | none =>
    match f.default with
    | some v => .ok (some (f.name, v, false))
    | none => .error ((Rejection.of .missing).under [.name f.inputName])

def collect {α : Type} : List (Except Rejection α) → Except Rejection (List α)
  | [] => .ok []
  | first :: rest =>
    match first, collect rest with
    | .error (.fault cause), _ => .error (.fault cause)
    | _, .error (.fault cause) => .error (.fault cause)
    | .error (.issues found), .error (.issues more) => .error (.issues (found ++ more))
    | .error (.issues found), .ok _ => .error (.issues found)
    | .ok _, .error (.issues found) => .error (.issues found)
    | .ok x, .ok xs => .ok (x :: xs)

/-- A new record from named values; names that are no field's are ignored. -/
def construct (m : Model) (arguments : List (String × Value)) : Except Failure Record :=
  match collect (m.fields.map (fieldOutcome arguments)) with
  | .error rejection => .error (.ofRejection rejection)
  | .ok found =>
    let fields := found.filterMap id
    .ok ⟨fields.map fun (name, v, _) => (name, v), fields.filterMap fun (name, _, given) =>
      if given then some name else none, true⟩

end Model

namespace Record

def markPersisted (r : Record) : Record := { r with isNew := false }

def value? (r : Record) (name : String) : Option Value := named? name r.values

def put (r : Record) (name : String) (v : Value) : Record :=
  { r with
    values := replaceNamed name v r.values
    assigned := if r.assigned.contains name then r.assigned else r.assigned ++ [name] }

def assign (m : Model) (name : String) (v : Value) (r : Record) : Except Failure Record :=
  if m.frozen then .error (.invalid [⟨.frozenInstance, [.name name]⟩])
  else
    match m.field? name with
    | some f =>
      if f.frozen then .error (.invalid [⟨.frozenField, [.name name]⟩])
      else if m.validatesAssignment then
        match f.validate v with
        | .ok fitted => .ok (r.put name fitted)
        | .error rejection => .error (.ofRejection (rejection.under [.name name]))
      else .ok (r.put name v)
    | none =>
      if m.validatesAssignment then .error (.invalid [⟨.noSuchAttribute, [.name name]⟩])
      else .error (.badValue s!"\"{m.name}\" object has no field \"{name}\"")

end Record

end TableScan
