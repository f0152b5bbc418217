import TableScan.AttributeValue.Decoding

/-! How a client of the store delivers attribute values. Bytes come in a wrapping of the client's
own, at any depth, and a reader takes it off before the value is fitted to a type. -/

namespace TableScan

/-- A value some parts of which may be wrapped bytes. -/
inductive Delivered where
  | value (v : Value)
  | wrapped (bs : List UInt8)
  | set (members : List Delivered)
  | list (items : List Delivered)
  | map (entries : List (Value × Delivered))
deriving Repr

namespace Delivered

instance : Inhabited Delivered := ⟨.value .null⟩

def wrap : Value → Delivered
  | .bytes bs => .wrapped bs
  | v => .value v

mutual

/-- The wrappings taken off. Two of them are equal just if their bytes are, so that a set keeps the
number of its members. -/
def unwrap : Delivered → Delivered
  | .value v => .value v
  | .wrapped bs => .value (.bytes bs)
  | .set members => .set (unwrapAll members)
  | .list items => .list (unwrapAll items)
  | .map entries => .map (unwrapEntries entries)
termination_by structural d => d

def unwrapAll : List Delivered → List Delivered
  | [] => []
  | d :: items => unwrap d :: unwrapAll items
termination_by structural items => items

def unwrapEntries : List (Value × Delivered) → List (Value × Delivered)
  | [] => []
  | (k, d) :: entries => (k, unwrap d) :: unwrapEntries entries
termination_by structural entries => entries

end

mutual

def plain? : Delivered → Option Value
  | .value v => some v
  | .wrapped _ => none
  | .set members => do return .set (← plainAll? members)
  | .list items => do return .list (← plainAll? items)
  | .map entries => do return .map (← plainEntries? entries)
termination_by structural d => d

def plainAll? : List Delivered → Option (List Value)
  | [] => some []
  | d :: items => do return (← plain? d) :: (← plainAll? items)
termination_by structural items => items

def plainEntries? : List (Value × Delivered) → Option (List (Value × Value))
  | [] => some []
  | (k, d) :: entries => do return (k, ← plain? d) :: (← plainEntries? entries)
termination_by structural entries => entries

end

end Delivered

namespace Value

def deliveredSet (read : Value → Except Fault Value) (wrap : Value → Delivered) (v : Value) :
    Except Fault Delivered := do
  let members ← (← v.elements).mapM fun item => do hashed (← read item)
  return .set ((distinct members).map wrap)

mutual

def delivered : Value → Except Fault Delivered
  | .map ((k, v) :: _) => do
    let tag ← tagText k
    match String.ofList (tag.toList.map Char.toLower) with
    | "null" => return .value .null
    | "bool" | "s" => return .value v
    | "n" => (storedNumber v).map .value
    | "b" => (storedBytes v).map .wrap
    | "ns" => deliveredSet storedNumber .value v
    | "ss" => deliveredSet .ok .value v
    | "bs" => deliveredSet storedBytes .wrap v
    | "l" => return .list (← deliveredItems v)
    | "m" => return .map (← deliveredEntries v)
    | _ => throw (.unknownTag tag)
  | v => if v.isTrue then .error (.noMember v.qualifiedKind "keys") else .error .untagged
termination_by structural v => v

def deliveredItems : Value → Except Fault (List Delivered)
  | .list items | .tuple items | .set items | .frozenset items => deliveredAll items
  | .map entries => deliveredKeys entries
  | v => do
    match ← v.elements with
    | [] => return []
    | item :: _ =>
      if item.isTrue then throw (.noMember item.qualifiedKind "keys") else throw .untagged
termination_by structural v => v

def deliveredEntries : Value → Except Fault (List (Value × Delivered))
  | .map entries => deliveredPairs entries
  | v => .error (.noMember v.qualifiedKind "items")
termination_by structural v => v

def deliveredAll : List Value → Except Fault (List Delivered)
  | [] => .ok []
  | v :: items => do return (← delivered v) :: (← deliveredAll items)
termination_by structural items => items

def deliveredKeys : List (Value × Value) → Except Fault (List Delivered)
  | [] => .ok []
  | (k, _) :: entries => do return (← delivered k) :: (← deliveredKeys entries)
termination_by structural entries => entries

def deliveredPairs : List (Value × Value) → Except Fault (List (Value × Delivered))
  | [] => .ok []
  | (k, v) :: entries => do return (k, ← delivered v) :: (← deliveredPairs entries)
termination_by structural entries => entries

end

end Value

end TableScan
