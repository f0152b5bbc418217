import TableScan.Value.Equality
import TableScan.Value.Text
import TableScan.Number.Whole
import TableScan.Number.Word

/-! Enumerations: closed sets of named values. -/

namespace TableScan

/-- A closed set of named values; of members with equal values the first stands for all. -/
structure Enumeration where
  name : String
  base : EnumBase
  members : List (String × Value)
deriving Repr

namespace EnumBase

/-- The whole number that a value comes down to: a fraction is cut off, a text is read. -/
def whole? (v : Value) : Option Int :=
  match v.text?, v.number? with
  | some s, _ => (Whole.read s.toList).toOption
  | none, some (.finite negative c e) =>
    some (if negative then -(Decimal.wholeDigits c e : Int) else Decimal.wholeDigits c e)
  | none, _ => none

def hold : EnumBase → Value → Value
  | .plain, v => v
  | .text, v => .text v.display
  | .int, v => (whole? v).elim v .int

end EnumBase

namespace Enumeration

def ofMembers (name : String) (base : EnumBase) (members : List (String × Value)) : Enumeration :=
  ⟨name, base, members.map fun (member, v) => (member, base.hold v)⟩

def memberOf (e : Enumeration) (entry : String × Value) : Value :=
  .member e.name e.base entry.1 entry.2

def find? (e : Enumeration) (wanted : Value → Bool) : Option Value :=
  (e.members.find? fun entry => wanted entry.2).map e.memberOf

def named? (e : Enumeration) (name : String) : Option Value :=
  (e.members.find? fun entry => entry.1 == name).map fun entry =>
    (e.find? (Value.same · entry.2)).getD (e.memberOf entry)

def hasWord (e : Enumeration) : Bool :=
  e.members.any fun entry => match entry.2 with | .int n => isWord n | _ => false

def label (e : Enumeration) : String :=
  match e.base with
  | .plain => s!"enum[{e.name}]"
  | .text => s!"str-enum[{e.name}]"
  | .int => s!"int-enum[{e.name}]"

end Enumeration

end TableScan
