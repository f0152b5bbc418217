import TableScan.Number.Binary64.Text
import TableScan.Calendar.DateTime
import TableScan.Uuid

/-! Values: what callers compare attributes with, and what records hold. Sets and mappings keep the
order of insertion. -/

namespace TableScan

/-- What the members of an enumeration are besides members: nothing, texts, or whole numbers. -/
inductive EnumBase where
  | plain
  | text
  | int
deriving DecidableEq, Repr

inductive Value where
  | null
  | bool (b : Bool)
  | int (n : Int)
  | float (x : Binary64)
  | decimal (d : Decimal)
  | text (s : String)
  | bytes (bs : List UInt8)
  | datetime (t : DateTime)
  | date (d : Date)
  | time (t : DayTime)
  | uuid (u : Uuid)
  | list (items : List Value)
  | tuple (items : List Value)
  | set (items : List Value)
  | frozenset (items : List Value)
  | map (entries : List (Value × Value))
  | member (enumeration : String) (base : EnumBase) (name : String) (value : Value)
deriving Repr

namespace Value

instance : Inhabited Value := ⟨.null⟩

/-- The number that a value is; members of integer enumerations and truth values are numbers. -/
def number? : Value → Option Decimal
  | .bool b => some (.ofInt (if b then 1 else 0))
  | .int n => some (.ofInt n)
  | .float x => some x.exactDecimal
  | .decimal d => some d
  | .member _ .int _ (.int n) => some (.ofInt n)
  | _ => none

def text? : Value → Option String
  | .text s => some s
  | .member _ .text _ (.text s) => some s
  | _ => none

def int? : Value → Option Int
  | .bool b => some (if b then 1 else 0)
  | .int n => some n
  | .member _ .int _ (.int n) => some n
  | _ => none

/-- Empty, zero and absent values count as false. -/
def isTrue : Value → Bool
  | .null => false
  | .bool b => b
  | .int n => n != 0
  | .float x => !x.isZero
  | .decimal d => !d.isZero
  | .text s => s != ""
  | .bytes bs => !bs.isEmpty
  | .list items | .tuple items | .set items | .frozenset items => !items.isEmpty
  | .map entries => !entries.isEmpty
  | .member _ .text _ (.text s) => s != ""
  | .member _ .int _ (.int n) => n != 0
  | _ => true

def kind : Value → String
  | .null => "NoneType"
  | .bool _ => "bool"
  | .int _ => "int"
  | .float _ => "float"
  | .decimal _ => "Decimal"
  | .text _ => "str"
  | .bytes _ => "bytes"
  | .datetime _ => "datetime"
  | .date _ => "date"
  | .time _ => "time"
  | .uuid _ => "UUID"
  | .list _ => "list"
  | .tuple _ => "tuple"
  | .set _ => "set"
  | .frozenset _ => "frozenset"
  | .map _ => "dict"
  | .member enumeration _ _ _ => enumeration

def qualifiedKind (v : Value) : String :=
  match v with
  | .decimal _ => "decimal.Decimal"
  | .datetime _ | .date _ | .time _ => "datetime." ++ v.kind
  | _ => v.kind

def textEntryAt? (key : String) (entries : List (Value × Value)) : Option Value :=
  (entries.find? fun entry => entry.1.text? == some key).map (·.2)

def entryAt? (key : String) : Value → Option Value
  | .map entries => textEntryAt? key entries
  | _ => none

end Value

end TableScan
