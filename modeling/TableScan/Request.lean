import TableScan.Schema
import TableScan.Comparison
import TableScan.Options

/-! Scan requests, compiled from filters and options. -/

namespace TableScan

structure Condition where
  operator : Operator
  operands : List AttributeValue
deriving Repr

structure Request where
  table : String
  conditions : List (String × Condition)
  fields : List String
  limit : Option Int
  startKey : Option Value
deriving Repr

namespace Condition

def encodeAll (a : Attribute) (element : Bool) : List Value → Except Failure (List AttributeValue)
  | [] => .ok []
  | v :: operands => do return (← a.encode element v) :: (← encodeAll a element operands)

/-- The attribute must be declared even when there are no operands. -/
def ofFilter (s : Schema) (key : String) (f : Filter) : Except Failure Condition := do
  let a ← s.find key
  return ⟨f.operator, ← encodeAll a f.operator.onElement f.operands⟩

def toValue (c : Condition) : Value :=
  .map [(.text "ComparisonOperator", .text c.operator.wireName),
    (.text "AttributeValueList", .list (c.operands.map AttributeValue.toValue))]

end Condition

namespace Request

def conditionsOf (s : Schema) : List (String × Filter) → Except Failure (List (String × Condition))
  | [] => .ok []
  | (key, f) :: filters =>
    do return (key, ← Condition.ofFilter s key f) :: (← conditionsOf s filters)

def build (s : Schema) (table : String) (filters : List (String × Filter)) (o : Options) :
    Except Failure Request :=
  do
  return ⟨table, ← conditionsOf s filters, o.fields, o.limit, o.startKey⟩

/-- The request as a mapping; what is empty or absent has no entry. -/
def toValue (r : Request) : Value :=
  .map ([(.text "TableName", .text r.table)] ++
    (if r.conditions.isEmpty then []
      else
        [(.text "ScanFilter", .map (r.conditions.map fun (key, c) => (.text key, c.toValue)))]) ++
    (if r.fields.isEmpty then [] else [(.text "AttributesToGet", .list (r.fields.map .text))]) ++
    (r.limit.elim [] fun n => [(.text "Limit", .int n)]) ++
    (r.startKey.elim [] fun key => [(.text "ExclusiveStartKey", key)]))

end Request

end TableScan
