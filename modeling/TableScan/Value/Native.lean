import TableScan.Value.Equality
import TableScan.Value.Text
import TableScan.Fault

/-! The native form of a value: enumerations, binary numbers, dates and identifiers are replaced by
what stands for them in the store, and collections are lists, sets and mappings with text keys. -/

namespace TableScan.Value

mutual

def hashFault? : Value → Option Fault
  | .list _ => some (.unhashable "list")
  | .set _ => some (.unhashable "set")
  | .map _ => some (.unhashable "dict")
  | .decimal (.nan _ true _) => some .unhashableSignal
  | .tuple items => firstHashFault? items
  | _ => none
termination_by structural v => v

def firstHashFault? : List Value → Option Fault
  | [] => none
  | v :: items => (hashFault? v).or (firstHashFault? items)
termination_by structural items => items

end

def hashed (v : Value) : Except Fault Value :=
  match hashFault? v with
  | some fault => .error fault
  | none => .ok v

def keyText (k : Value) : Except Fault Value :=
  match k.display? with
  | some shown => .ok (.text shown)
  | none => .error .digitLimit

mutual

def native : Value → Except Fault Value
  | .float x => .ok (.decimal x.toDecimal)
  | .datetime t => .ok (.text t.toText)
  | .date d => .ok (.text d.toText)
  | .uuid u => .ok (.text u.toText)
  | .member _ _ _ v => native v
  | .set items | .frozenset items => do return .set (distinct (← nativeMembers items))
  | .list items | .tuple items => do return .list (← nativeItems items)
  | .map entries => do return .map (ofEntries (← nativeEntries entries))
  | v => .ok v
termination_by structural v => v

def nativeItems : List Value → Except Fault (List Value)
  | [] => .ok []
  | v :: items => do return (← native v) :: (← nativeItems items)
termination_by structural items => items

def nativeMembers : List Value → Except Fault (List Value)
  | [] => .ok []
  | v :: items => do return (← hashed (← native v)) :: (← nativeMembers items)
termination_by structural items => items

def nativeEntries : List (Value × Value) → Except Fault (List (Value × Value))
  | [] => .ok []
  | (k, v) :: entries => do return (← keyText k, ← native v) :: (← nativeEntries entries)
termination_by structural entries => entries

end

end TableScan.Value
