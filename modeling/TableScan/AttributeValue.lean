import TableScan.Value

/-! The tagged values that the store keeps. -/

namespace TableScan

inductive AttributeValue where
  | null
  | bool (b : Bool)
  | number (digits : String)
  | text (s : String)
  | bytes (bs : List UInt8)
  | numberSet (members : List String)
  | textSet (members : List String)
  | bytesSet (members : List (List UInt8))
  | list (items : List AttributeValue)
  | map (entries : List (String × AttributeValue))
deriving Repr

namespace AttributeValue

instance : Inhabited AttributeValue := ⟨.null⟩

def tagged (tag : String) (content : Value) : Value := .map [(.text tag, content)]

mutual

def toValue : AttributeValue → Value
  | .null => tagged "NULL" (.bool true)
  | .bool b => tagged "BOOL" (.bool b)
  | .number digits => tagged "N" (.text digits)
  | .text s => tagged "S" (.text s)
  | .bytes bs => tagged "B" (.bytes bs)
  | .numberSet members => tagged "NS" (.list (members.map .text))
  | .textSet members => tagged "SS" (.list (members.map .text))
  | .bytesSet members => tagged "BS" (.list (members.map .bytes))
  | .list items => tagged "L" (.list (toValues items))
  | .map entries => tagged "M" (.map (toEntries entries))
termination_by structural w => w

def toValues : List AttributeValue → List Value
  | [] => []
  | w :: items => toValue w :: toValues items
termination_by structural items => items

def toEntries : List (String × AttributeValue) → List (Value × Value)
  | [] => []
  | (name, w) :: entries => (.text name, toValue w) :: toEntries entries
termination_by structural entries => entries

end

end AttributeValue

end TableScan
