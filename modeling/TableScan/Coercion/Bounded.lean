import TableScan.Coercion

/-! Fitting values to types with bounds. Texts, bytes and collections are held to their length while
they are fitted, and numbers to their minimum; any other type is fitted first, and its value then
measured or compared if that can be done. -/

namespace TableScan

structure Bounds where
  minimum : Option Int
  maxLength : Option Nat
deriving DecidableEq, Repr

namespace Value

def size? : Value → Option Nat
  | .text s | .member _ .text _ (.text s) => some s.length
  | .bytes bs => some bs.length
  | .list items | .tuple items | .set items | .frozenset items => some items.length
  | .map entries => some entries.length
  | _ => none

end Value

namespace Coercion

open Outcome

def overflows (limit : Nat) (count : List Value → Nat) :
    (accepted : List Value) → List (Outcome Value) → Bool
  | _, [] => false
  | accepted, outcome :: rest =>
    match outcome with
    | .ok fitted =>
      let more := accepted ++ [fitted.value]
      limit < count more || overflows limit count more rest
    | .error (.issues _) => overflows limit count accepted rest
    | .error (.fault _) => false

def isFault {α : Type} : Outcome α → Bool
  | .error (.fault _) => true
  | _ => false

/-- A list counts its items whether they are accepted or not, a set its distinct members and a tuple
its accepted parts. -/
def overflowsAs (limit : Nat) (outcomes : List (Outcome Value)) : Collection → Bool
  | .list | .mutableSequence | .sequence =>
    limit < outcomes.length && !(outcomes.take (limit + 1)).any isFault
  | .set | .mutableSet | .frozenset | .abstractSet =>
    overflows limit (fun items => (Value.distinct items).length) [] outcomes
  | .tuple => overflows limit List.length [] outcomes

def limited (limit : Nat) (kind : Collection) (v : Value)
    (outcomes : List Value → List (Outcome Value)) (unlimited : Outcome Value) : Outcome Value :=
  match sequenceItems? v with
  | some items => if overflowsAs limit (outcomes items) kind then reject .tooLong else unlimited
  | none => unlimited

def fitItem (kind : Collection) (fit : Value → Outcome Value) (v : Value) : Outcome Value :=
  match kind with
  | .set | .mutableSet | .frozenset | .abstractSet => (fit v).andThen hashedItem
  | _ => fit v

def heldTo (limit : Nat) (kind : IssueKind) (v : Value) : Outcome Value :=
  match v.size? with
  | some n => if limit < n then reject kind else accept .exact v
  | none => .error (.fault (.inapplicable "max_length" v.display))

def outcomesOfParts (ts : List FieldType) (items : List Value) : List (Outcome Value) :=
  List.zipWith coerce ts items

def coerceLimited (limit : Nat) (t : FieldType) (v : Value) : Outcome Value :=
  match t with
  | .text => (toText v).andThen (heldTo limit .textTooLong)
  | .bytes => (toBytes v).andThen (heldTo limit .bytesTooLong)
  | .collection .sequence _ => (coerce t v).andThen (heldTo limit .tooLong)
  | .collection kind u =>
    limited limit kind v (indexedFrom (fitItem kind (coerce u)) 0) (coerce t v)
  | .tuple ts => limited limit .tuple v (outcomesOfParts ts) (coerce t v)
  | .bare b =>
    match b.collection? with
    | some kind => limited limit kind v (indexedFrom (fitItem kind (accept .strict)) 0) (coerce t v)
    | none => (coerce t v).andThen (heldTo limit .tooLong)
  | _ => (coerce t v).andThen (heldTo limit .tooLong)

/-- The accepted value unless it is less than the minimum. A not-a-number is not less, but as a
value of no numeric type it is not at least the minimum either. -/
def heldAbove (least : Int) (t : FieldType) (v : Value) : Outcome Value :=
  match t, v, v.number? with
  | .int, _, _ =>
    match v.int? with
    | some n => if n < least then reject .belowMinimum else accept .exact v
    | none => .error (.fault (.notInt v.qualifiedKind))
  | .float, _, some d | .decimal, _, some d =>
    if d.isBelow least then reject .belowMinimum else accept .exact v
  | _, .decimal (.nan ..), _ => .error (.fault .invalidOperation)
  | _, _, some d => if d.isBelow least || d.isNan then reject .belowMinimum else accept .exact v
  | _, _, none => .error (.fault (.inapplicable "ge" v.display))

def coercePresent (b : Bounds) (t : FieldType) (v : Value) : Outcome Value :=
  match b.minimum, b.maxLength with
  | none, none => coerce t v
  | none, some most => coerceLimited most t v
  | some least, none => (coerce t v).andThen (heldAbove least t)
  | some least, some most =>
    ((coerce t v).andThen (heldAbove least t)).andThen (heldTo most .tooLong)

def isNullValue : Value → Bool
  | .null => true
  | _ => false

def validateWithin (b : Bounds) (t : FieldType) (v : Value) : Except Rejection Value :=
  if t.present.2 && isNullValue v then .ok v
  else
    match coercePresent b t.present.1 v with
    | .ok fitted => .ok fitted.value
    | .error rejection => .error rejection

end Coercion

end TableScan
