import TableScan.Enumeration

/-! The types of record fields. -/

namespace TableScan

inductive Collection where
  | list
  | mutableSequence
  | sequence
  | set
  | mutableSet
  | frozenset
  | abstractSet
  | tuple
deriving DecidableEq, Repr

/-- Collections and mappings of anything by a bare name. The capital names are types apart. -/
inductive Bare where
  | list
  | capitalList
  | set
  | capitalSet
  | frozenset
  | tuple
  | map
deriving DecidableEq, Repr

inductive FieldType where
  | text
  | int
  | float
  | bool
  | bytes
  | decimal
  | datetime
  | date
  | uuid
  | any
  | null
  | enumeration (e : Enumeration)
  | bare (b : Bare)
  | collection (kind : Collection) (element : FieldType)
  | tuple (parts : List FieldType)
  | map (key value : FieldType)
  /-- A value of one of the types; the absent value is one of them when `null` is. -/
  | union (alternatives : List FieldType)
deriving Repr

namespace FieldType

instance : Inhabited FieldType := ⟨.any⟩

def alternatives : FieldType → List FieldType
  | .union ts => ts
  | t => [t]

mutual

/-- Types that count as one: the order of a union's alternatives does not matter. -/
def same : FieldType → FieldType → Bool
  | .collection kind t, u =>
    match u with | .collection kind' t' => kind == kind' && same t t' | _ => false
  | .tuple ts, u => match u with | .tuple ts' => samePairwise ts ts' | _ => false
  | .map k t, u => match u with | .map k' t' => same k k' && same t t' | _ => false
  | .union ts, u =>
    match u with | .union ts' => ts.length == ts'.length && allAmong ts ts' | _ => false
  | .enumeration e, u => match u with | .enumeration e' => e.name == e'.name | _ => false
  | .bare b, u => match u with | .bare b' => b == b' | _ => false
  | t, u => t.ctorIdx == u.ctorIdx
termination_by structural t => t

def samePairwise : List FieldType → List FieldType → Bool
  | [], us => us.isEmpty
  | t :: ts, us => match us with | u :: rest => same t u && samePairwise ts rest | [] => false
termination_by structural ts => ts

def allAmong : List FieldType → List FieldType → Bool
  | [], _ => true
  | t :: ts, us => us.any (same t) && allAmong ts us
termination_by structural ts => ts

end

/-- Nested unions are flattened, repeated alternatives dropped, and a single alternative is no
union. -/
def ofAlternatives (ts : List FieldType) : FieldType :=
  let add kept t := if kept.any (same · t) then kept else kept ++ [t]
  match (ts.flatMap alternatives).foldl add [] with
  | [t] => t
  | kept => .union kept

def isNull : FieldType → Bool
  | .null => true
  | _ => false

def isAny : FieldType → Bool
  | .any => true
  | _ => false

def present : FieldType → FieldType × Bool
  | .union ts =>
    if ts.any isNull then
      match ts.filter (!·.isNull) with
      | [t] => (t, true)
      | kept => (.union kept, true)
    else (.union ts, false)
  | t => (t, false)

def presentAlternatives (ts : List FieldType) : List FieldType := ts.filter (!·.isNull)

def optional (t : FieldType) : FieldType := ofAlternatives [t, .null]

mutual

/-- The type of a collection's elements; any other type is its own element type, without the absent
value. -/
def element : FieldType → FieldType
  | .collection _ t => t
  | .bare b => match b with | .map => .bare .map | _ => .any
  | .tuple [] => .any
  | .tuple (t :: _) => t
  | .union ts => ofAlternatives (elementsOfPresent ts)
  | t => t
termination_by structural t => t

def elementsOfPresent : List FieldType → List FieldType
  | [] => []
  | t :: ts => if t.isNull then elementsOfPresent ts else element t :: elementsOfPresent ts
termination_by structural ts => ts

end

end FieldType

namespace Collection

def label (element : String) : Collection → String
  | .list | .mutableSequence => s!"list[{element}]"
  | .set | .mutableSet => s!"set[{element}]"
  | .frozenset | .abstractSet => s!"frozenset[{element}]"
  | .tuple => s!"tuple[{element}, ...]"
  | .sequence =>
    let check :=
      if element = "any" then "is-instance[Sequence]"
      else "chain[is-instance[Sequence],function-wrap[sequence_validator()]]"
    s!"json-or-python[json=list[{element}],python={check}]"

end Collection

namespace Bare

def collection? : Bare → Option Collection
  | .list | .capitalList => some .list
  | .set | .capitalSet => some .set
  | .frozenset => some .frozenset
  | .tuple => some .tuple
  | .map => none

def label (b : Bare) : String := b.collection?.elim "dict[any,any]" (Collection.label "any")

end Bare

namespace FieldType

mutual

def label : FieldType → String
  | .text => "str"
  | .int => "int"
  | .float => "float"
  | .bool => "bool"
  | .bytes => "bytes"
  | .decimal => "decimal"
  | .datetime => "datetime"
  | .date => "date"
  | .uuid => "uuid"
  | .any => "any"
  | .null => "none"
  | .enumeration e => e.label
  | .bare b => b.label
  | .collection kind t => kind.label (label t)
  | .tuple ts => "tuple[" ++ ", ".intercalate (labels ts) ++ "]"
  | .map k v => s!"dict[{label k},{label v}]"
  | .union ts =>
    let present := presentLabels ts
    let inner :=
      if present.length = 1 then String.join present else "union[" ++ ",".intercalate present ++ "]"
    if ts.any isNull then s!"nullable[{inner}]" else inner
termination_by structural t => t

def labels : List FieldType → List String
  | [] => []
  | t :: ts => label t :: labels ts
termination_by structural ts => ts

def presentLabels : List FieldType → List String
  | [] => []
  | t :: ts => if t.isNull then presentLabels ts else label t :: presentLabels ts
termination_by structural ts => ts

end

end FieldType

end TableScan
