import TableScan.Record
import TableScan.AttributeValue.Encoding
import TableScan.AttributeValue.Decoding

/-! The schema of a model: what is stored under which name, how operands become attribute values,
and how rows become records. -/

namespace TableScan

structure Attribute where
  name : String
  field : String
  type : FieldType
deriving Repr

/-- The attributes of a model, in order and with distinct names. -/
structure Schema where
  model : String
  attributes : List (String × Attribute)
deriving Repr

namespace Attribute

def ofField (f : Field) : Attribute := ⟨f.storedName, f.name, f.type⟩

/-- Arithmetic, type and value faults are reported with the attribute. -/
def encodingFailure (name : String) (cause : Fault) : Failure :=
  match cause.family with
  | .member => .fault cause
  | _ => .encoding name (.fault cause)

def encode (a : Attribute) (element : Bool) (v : Value) : Except Failure AttributeValue :=
  match Coercion.validate (if element then a.type.element else a.type) v with
  | .error (.issues found) => .error (.encoding a.name (.issues found))
  | .error (.fault cause) => .error (.fault cause)
  | .ok fitted =>
    match AttributeValue.ofValue fitted with
    | .ok encoded => .ok encoded
    | .error cause => .error (encodingFailure a.name cause)

/-- Type, value and member faults are reported with the attribute. -/
def decodingFailure (name : String) (cause : Fault) : Failure :=
  match cause.family with
  | .arithmetic => .fault cause
  | _ => .decoding (some name) (.fault cause)

def decode (a : Attribute) (v : Value) : Except Failure Value :=
  match v.ofTagged with
  | .error cause => .error (decodingFailure a.name cause)
  | .ok native =>
    match Coercion.validate a.type native with
    | .ok fitted => .ok fitted
    | .error (.issues found) => .error (.decoding (some a.name) (.issues found))
    | .error (.fault cause) => .error (.fault cause)

end Attribute

namespace Schema

/-- Of two fields with one stored name the later takes the place of the earlier. -/
def ofModel (m : Model) : Schema :=
  let add attributes f := replaceNamed (Field.storedName f) (Attribute.ofField f) attributes
  ⟨m.name, m.fields.foldl add []⟩

def names (s : Schema) : List String := s.attributes.map (·.1)

def attribute? (s : Schema) (name : String) : Option Attribute := named? name s.attributes

def find (s : Schema) (name : String) : Except Failure Attribute :=
  match s.attribute? name with
  | some a => .ok a
  | none => .error (.unknownAttribute name s.model s.names)

def encode (s : Schema) (name : String) (element : Bool) (v : Value) :
    Except Failure AttributeValue :=
  (s.find name).bind fun a => a.encode element v

def assignmentFailure (name : String) : Failure → Failure
  | .invalid found => .decoding (some name) (.issues found)
  | failure => failure

/-- One entry of a row: names that the schema does not declare are skipped. -/
def decodeEntry (s : Schema) (m : Model) (key content : Value) (r : Record) :
    Except Failure Record :=
  match key.text?.bind s.attribute? with
  | none => .ok r
  | some a =>
    match a.decode content with
    | .error failure => .error failure
    | .ok v =>
      match r.assign m a.field v with
      | .ok assigned => .ok assigned
      | .error failure => .error (assignmentFailure a.name failure)

/-- The entries of a row in order. The record keeps what came before an entry that fails. -/
def decodeEntries (s : Schema) (m : Model) : List (Value × Value) → Record → Record × Option Failure
  | [], r => (r, none)
  | (key, content) :: entries, r =>
    match s.decodeEntry m key content r with
    | .ok next => s.decodeEntries m entries next
    | .error failure => (r, some failure)

def decodeInto (s : Schema) (m : Model) (row : Value) (r : Record) : Record × Option Failure :=
  match row with
  | .map entries => s.decodeEntries m entries r
  | _ => (r, some (.decoding none (.message s!"row must be a mapping, got {row.kind}")))

def materialize (s : Schema) (m : Model) (row : Value) : Except Failure Record :=
  match s.decodeInto m row m.newPersisted with
  | (r, none) => .ok r
  | (_, some failure) => .error failure

end Schema

end TableScan
