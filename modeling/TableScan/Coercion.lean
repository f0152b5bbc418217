import TableScan.FieldType
import TableScan.Coercion.Moment
import TableScan.Coercion.Member

/-! Fitting values to field types. A value fits a type as it is, or after a change that keeps its
meaning; what does not fit is rejected with every issue in it, in the order of its parts. -/

namespace TableScan.Coercion

open Outcome

def textsIn : Value → Bool
  | .text _ | .bytes _ | .member _ .text _ _ => true
  | _ => false

def sequenceItems? : Value → Option (List Value)
  | .list items | .tuple items | .set items | .frozenset items => some items
  | _ => none

def gather {α : Type} : List (Outcome α) → Outcome (List α)
  | [] => accept .exact []
  | first :: rest => both List.cons first (gather rest)

def indexedFrom (fit : Value → Outcome Value) : (index : Nat) → List Value → List (Outcome Value)
  | _, [] => []
  | index, v :: items => (fit v).under [.index index] :: indexedFrom fit (index + 1) items

def fitItems (fit : Value → Outcome Value) (items : List Value) : Outcome (List Value) :=
  gather (indexedFrom fit 0 items)

def hashedItem (v : Value) : Outcome Value :=
  match v.hashFault? with
  | some _ => reject .itemNotHashable
  | none => accept .exact v

def fitMembers (fit : Value → Outcome Value) (items : List Value) : Outcome (List Value) :=
  (fitItems (fun item => (fit item).andThen hashedItem) items).map Value.distinct

def fromSequence (wanted : Value → Bool) (kind : IssueKind) (v : Value)
    (fit : List Value → Outcome Value) : Outcome Value :=
  match sequenceItems? v with
  | some items => if wanted v then fit items else (fit items).following .lax
  | none => reject kind

def isList : Value → Bool
  | .list _ => true
  | _ => false

def isTuple : Value → Bool
  | .tuple _ => true
  | _ => false

def isSet : Value → Bool
  | .set _ => true
  | _ => false

def isFrozenset : Value → Bool
  | .frozenset _ => true
  | _ => false

/-- Items of any type are left as they are. -/
def fitListItems (anyItem : Bool) (fit : Value → Outcome Value) (items : List Value) :
    Outcome (List Value) :=
  if anyItem then accept .exact items else fitItems fit items

/-- A sequence stays a list or a tuple; texts and bytes are sequences only of items of any type. -/
def fitSequence (anyItem : Bool) (fit : Value → Outcome Value) (v : Value) : Outcome Value :=
  match v with
  | .list items => (fitListItems anyItem fit items).map .list
  | .tuple items => (fitListItems anyItem fit items).map .tuple
  | _ =>
    if !textsIn v then reject .notInstance
    else if anyItem then accept .exact v
    else reject .sequenceText

def fitCollection (anyItem : Bool) (fit : Value → Outcome Value) (v : Value) :
    Collection → Outcome Value
  | .list | .mutableSequence =>
    fromSequence isList .listType v fun items => (fitListItems anyItem fit items).map .list
  | .sequence => fitSequence anyItem fit v
  | .set | .mutableSet =>
    fromSequence isSet .setType v fun items => (fitMembers fit items).map .set
  | .frozenset | .abstractSet =>
    fromSequence isFrozenset .frozensetType v fun items => (fitMembers fit items).map .frozenset
  | .tuple => fromSequence isTuple .tupleType v fun items => (fitItems fit items).map .tuple

def keyStep (k : Value) : Step :=
  match k.text?, k.int?.filter isWord with
  | some s, _ => .name s
  | none, some n => .index n
  | none, none => .name (k.inner?.getD s!"<unprintable {k.kind} object>")

def hashedEntry (entry : Value × Value) : Outcome (Value × Value) :=
  match entry.1.hashFault? with
  | some cause => .error (.fault cause)
  | none => accept .exact entry

def fitEntry (fitKey fitValue : Value → Outcome Value) (entry : Value × Value) :
    Outcome (Value × Value) :=
  let step := keyStep entry.1
  let key := (fitKey entry.1).under [step, .name "[key]"]
  (both Prod.mk key ((fitValue entry.2).under [step])).andThen hashedEntry

def fitMap (fitKey fitValue : Value → Outcome Value) : Value → Outcome Value
  | .map entries =>
    (gather (entries.map (fitEntry fitKey fitValue))).map (.map <| Value.ofEntries ·)
  | _ => reject .mapType

/-- Too many items are an issue in place of all others, but a fault comes first. -/
def orTooLong (tooLong : Bool) : Outcome (List Value) → Outcome (List Value)
  | .error (.fault cause) => .error (.fault cause)
  | outcome => if tooLong then reject .tooLong else outcome

/-- Of two ways to fit, the closer; of two equally close ones the earlier. -/
def closer (best : Option (Fitted Value)) (next : Fitted Value) : Option (Fitted Value) :=
  match best with
  | some fitted =>
    if fitted.fit.closeness.rank < next.fit.closeness.rank then some next else some fitted
  | none => some next

def fitBare (b : Bare) (v : Value) : Outcome Value :=
  match b.collection? with
  | some kind => fitCollection true (accept .strict) v kind
  | none => fitMap (accept .strict) (accept .strict) v

mutual

def coerce : FieldType → Value → Outcome Value
  | .text, v => toText v
  | .int, v => toInt v
  | .float, v => toFloat v
  | .bool, v => toBool v
  | .bytes, v => toBytes v
  | .decimal, v => toDecimal v
  | .datetime, v => toDatetime v
  | .date, v => toDate v
  | .uuid, v => toUuid v
  | .any, v => accept .strict v
  | .null, v => toNull v
  | .enumeration e, v => toMember e v
  | .bare b, v => fitBare b v
  | .collection kind t, v => fitCollection t.isAny (coerce t) v kind
  | .tuple ts, v =>
    fromSequence isTuple .tupleType v fun items =>
      (orTooLong (ts.length < items.length) (coerceParts ts 0 items)).map .tuple
  | .map k t, v => fitMap (coerce k) (coerce t) v
  | .union ts, v =>
    match v with
    | .null =>
      if ts.any FieldType.isNull then accept .exact .null
      else coerceAmong ts (1 < (FieldType.presentAlternatives ts).length) v none []
    | _ => coerceAmong ts (1 < (FieldType.presentAlternatives ts).length) v none []
termination_by structural t => t

/-- The parts of a tuple, each with its own type; items beyond the types are left out. -/
def coerceParts : List FieldType → (index : Nat) → List Value → Outcome (List Value)
  | [], _, _ => accept .exact []
  | t :: ts, index, items =>
    match items with
    | v :: rest =>
      both List.cons ((coerce t v).under [.index index]) (coerceParts ts (index + 1) rest)
    | [] => both List.cons ((reject .missing).under [.index index]) (coerceParts ts (index + 1) [])
termination_by structural ts => ts

/-- The first alternative that the value already is of, else the closest one, else the issues with
all of them. A single alternative beside the absent value has the say alone. -/
def coerceAmong : List FieldType → (several : Bool) → Value →
    (best : Option (Fitted Value)) → (found : List Issue) → Outcome Value
  | [], _, _, best, found =>
    match best with
    | some fitted => .ok ⟨fitted.value, ⟨fitted.fit.closeness, false⟩⟩
    | none => .error (.issues found)
  | t :: ts, several, v, best, found =>
    if t.isNull then coerceAmong ts several v best found
    else if several then
      match (coerce t v).under [.name t.label] with
      | .ok fitted =>
        if fitted.fit.closeness = .exact then .ok ⟨fitted.value, .settledExactly⟩
        else coerceAmong ts several v (closer best fitted) found
      | .error (.fault cause) => .error (.fault cause)
      | .error (.issues more) =>
        coerceAmong ts several v best (if best.isSome then found else found ++ more)
    else coerce t v
termination_by structural ts => ts

end

def validate (t : FieldType) (v : Value) : Except Rejection Value :=
  match coerce t v with
  | .ok fitted => .ok fitted.value
  | .error rejection => .error rejection

end TableScan.Coercion
