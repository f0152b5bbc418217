import TableScan.Value

/-! Equality of values. Numbers are equal as numbers whatever their kind, a not-a-number to nothing;
a member of a plain enumeration equals itself alone; sets and mappings are equal regardless of
order. -/

namespace TableScan.Value

def sameScalar : Value → Value → Bool
  | .null, .null => true
  | .bytes bs, .bytes bs' => bs == bs'
  | .datetime t, .datetime t' => t.sameInstant t'
  | .date d, .date d' => d == d'
  | .time t, .time t' => t.sameTime t'
  | .uuid u, .uuid u' => u == u'
  | .member enumeration .plain name _, .member enumeration' .plain name' _ =>
    enumeration == enumeration' && name == name'
  | v, v' =>
    match v.number?, v'.number? with
    | some d, some d' => d.sameNumber d'
    | none, none => v.text?.isSome && v.text? == v'.text?
    | _, _ => false

mutual

def same : Value → Value → Bool
  | .list items, v => match v with | .list items' => sameItems items items' | _ => false
  | .tuple items, v => match v with | .tuple items' => sameItems items items' | _ => false
  | .set items, v =>
    match v with
    | .set items' | .frozenset items' => items.length == items'.length && allFound items items'
    | _ => false
  | .frozenset items, v =>
    match v with
    | .set items' | .frozenset items' => items.length == items'.length && allFound items items'
    | _ => false
  | .map entries, v =>
    match v with
    | .map entries' => entries.length == entries'.length && allEntriesFound entries entries'
    | _ => false
  | v, v' => sameScalar v v'
termination_by structural v => v

def sameItems : List Value → List Value → Bool
  | [], items' => items'.isEmpty
  | v :: items, items' =>
    match items' with | v' :: rest => same v v' && sameItems items rest | [] => false
termination_by structural items => items

def allFound : List Value → List Value → Bool
  | [], _ => true
  | v :: items, items' => items'.any (same v) && allFound items items'
termination_by structural items => items

def allEntriesFound : List (Value × Value) → List (Value × Value) → Bool
  | [], _ => true
  | (k, v) :: entries, entries' =>
    entries'.any (fun entry => same k entry.1 && same v entry.2) && allEntriesFound entries entries'
termination_by structural entries => entries

end

def isIn (v : Value) (items : List Value) : Bool := items.any (same · v)

def distinct (items : List Value) : List Value :=
  items.foldl (fun kept v => if v.isIn kept then kept else kept ++ [v]) []

/-- An entry replaces the value of an equal key, or comes last. -/
def insertEntry (k v : Value) : List (Value × Value) → List (Value × Value)
  | [] => [(k, v)]
  | (k', v') :: entries =>
    if same k' k then (k', v) :: entries else (k', v') :: insertEntry k v entries

/-- Later values of a repeated key replace the earlier ones in place. -/
def ofEntries (entries : List (Value × Value)) : List (Value × Value) :=
  entries.foldl (fun kept entry => insertEntry entry.1 entry.2 kept) []

end TableScan.Value
