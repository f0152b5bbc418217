import TableScan.AttributeValue
import TableScan.Value.Native

/-! Attribute values of native values. -/

namespace TableScan.AttributeValue

def numberText (d : Decimal) : Except Fault String :=
  match d.inFormat with
  | .error conditions => .error (.outOfFormat conditions)
  | .ok kept =>
    match kept with
    | .infinity false | .nan false false 0 => .error .nonFinite
    | _ => .ok kept.toText

/-- Whole and decimal numbers; truth values count as numbers among the members of a set. -/
def storedNumber? : Value → Option Decimal
  | .bool b => some (.ofInt (if b then 1 else 0))
  | .int n => some (.ofInt n)
  | .decimal d => some d
  | _ => none

def plainText? : Value → Option String
  | .text s => some s
  | _ => none

def plainBytes? : Value → Option (List UInt8)
  | .bytes bs => some bs
  | _ => none

def unsupported (v : Value) : Fault := .unsupported v.qualifiedKind v.display

def ofSet (items : List Value) : Except Fault AttributeValue :=
  match items.mapM storedNumber?, items.mapM plainText?, items.mapM plainBytes? with
  | some numbers, _, _ => (numbers.mapM numberText).map .numberSet
  | none, some texts, _ => .ok (.textSet texts)
  | none, none, some members => .ok (.bytesSet members)
  | none, none, none => .error (unsupported (.set items))

mutual

def ofNative : Value → Except Fault AttributeValue
  | .null => .ok .null
  | .bool b => .ok (.bool b)
  | .int n => (numberText (.ofInt n)).map .number
  | .decimal d => (numberText d).map .number
  | .text s => .ok (.text s)
  | .bytes bs => .ok (.bytes bs)
  | .set items => ofSet items
  | .map entries => do return .map (← ofNativeEntries entries)
  | .list items | .tuple items => do return .list (← ofNativeItems items)
  | v => .error (unsupported v)
termination_by structural v => v

def ofNativeItems : List Value → Except Fault (List AttributeValue)
  | [] => .ok []
  | v :: items => do return (← ofNative v) :: (← ofNativeItems items)
termination_by structural items => items

def ofNativeEntries : List (Value × Value) → Except Fault (List (String × AttributeValue))
  | [] => .ok []
  | (k, v) :: entries => do return (k.display, ← ofNative v) :: (← ofNativeEntries entries)
termination_by structural entries => entries

end

/-- The members of a set of texts or numbers in text order, so that equal sets give equal attribute
values. -/
def sorted : AttributeValue → AttributeValue
  | .numberSet members => .numberSet (members.mergeSort fun s t => decide (s ≤ t))
  | .textSet members => .textSet (members.mergeSort fun s t => decide (s ≤ t))
  | w => w

def ofValue (v : Value) : Except Fault AttributeValue := do return (← ofNative (← v.native)).sorted

end TableScan.AttributeValue
