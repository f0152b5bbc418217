import TableScan.Failure

/-! How much of a table one request reads, where it starts, and what it returns of each row. -/

namespace TableScan

structure Options where
  limit : Option Int
  startKey : Option Value
  fields : List String
deriving Repr

namespace Options

def none : Options := ⟨.none, .none, []⟩

def withLimit (limit : Option Int) (o : Options) : Except Failure Options :=
  match limit with
  | some n =>
    if n < 1 then .error (.badValue s!"limit must be a positive integer, got {n}")
    else .ok { o with limit := limit }
  | .none => .ok { o with limit := .none }

def withStartKey (key : Option Value) (o : Options) : Options := { o with startKey := key }

def withFields (fields : List String) (o : Options) : Options := { o with fields := fields }

end Options

end TableScan
