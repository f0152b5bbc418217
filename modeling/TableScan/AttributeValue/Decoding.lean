import TableScan.Value.Native
import TableScan.Number.Decimal.Reader
import TableScan.Number.Word

/-! Native values of what a store returns. Any value may stand where an attribute value should; only
the first tag of a mapping counts, in either case. -/

namespace TableScan.Value

open Decimal (ExponentPart)

def elements? : Value → Option (List Value)
  | .text s | .member _ .text _ (.text s) => some (s.toList.map fun c => .text (String.singleton c))
  | .bytes bs => some (bs.map fun b => .int b.toNat)
  | .list items | .tuple items | .set items | .frozenset items => some items
  | .map entries => some (entries.map (·.1))
  | _ => none

def elements (v : Value) : Except Fault (List Value) :=
  match v.elements? with
  | some items => .ok items
  | none => .error (.notIterable v.qualifiedKind)

def wordNumber (word : String) (n : Int) : Except Fault Int :=
  if isWord n then .ok n else .error (.wordSize word)

def signPart (v : Value) : Except Fault Bool :=
  match v.int? with
  | none => .error (.parts .sign)
  | some n => do
    let sign ← wordNumber "long" n
    if sign = 0 then return false else if sign = 1 then return true else throw (.parts .sign)

def digitParts : List Value → Except Fault (List Nat)
  | [] => .ok []
  | v :: items =>
    match v.int? with
    | none => .error (.parts .digits)
    | some n => do
      let digit ← wordNumber "long" n
      if 0 ≤ digit ∧ digit ≤ 9 then return digit.toNat :: (← digitParts items)
      else throw (.parts .digits)

def exponentPart (v : Value) : Except Fault ExponentPart :=
  match v.text?, v.int? with
  | some "F", _ => .ok .infinity
  | some "n", _ => .ok .quiet
  | some "N", _ => .ok .signaling
  | some _, _ => .error (.parts .special)
  | none, some n => (wordNumber "ssize_t" n).map .power
  | none, none => .error (.parts .exponent)

def decimalOfParts : List Value → Except Fault Decimal
  | [sign, digits, exponent] => do
    let negative ← signPart sign
    let power ← exponentPart exponent
    match digits with
    | .list items | .tuple items => return .ofParts negative (← digitParts items) power
    | _ => throw (.parts .digits)
  | _ => .error (.parts .count)

def readNumberText (s : String) : Decimal :=
  (Decimal.read? (Decimal.asciiDigits s.toList)).getD (.nan false false 0)

/-- The number that a value denotes, before it is brought into the store's format; text that denotes
none is no error. -/
def denotedNumber (v : Value) : Except Fault Decimal :=
  match v.number?, v.text?, v with
  | some d, _, _ => .ok d
  | none, some s, _ => .ok (readNumberText s)
  | none, none, .list items | none, none, .tuple items => decimalOfParts items
  | none, none, _ => .error (.notNumeric v.qualifiedKind)

def storedNumber (v : Value) : Except Fault Value := do
  match (← denotedNumber v).inFormat with
  | .ok d => return .decimal d
  | .error conditions => throw (.outOfFormat conditions)

def storedBytes : Value → Except Fault Value
  | .bytes bs => .ok (.bytes bs)
  | _ => .error .notBinary

def storedSet (read : Value → Except Fault Value) (v : Value) : Except Fault Value := do
  let members ← (← v.elements).mapM fun item => do hashed (← read item)
  return .set (distinct members)

def tagText (k : Value) : Except Fault String :=
  match k.display? with
  | some shown => .ok shown
  | none => .error .digitLimit

mutual

def ofTagged : Value → Except Fault Value
  | .map ((k, v) :: _) => do
    let tag ← tagText k
    match String.ofList (tag.toList.map Char.toLower) with
    | "null" => return .null
    | "bool" | "s" => return v
    | "n" => storedNumber v
    | "b" => storedBytes v
    | "ns" => storedSet storedNumber v
    | "ss" => storedSet .ok v
    | "bs" => storedSet storedBytes v
    | "l" => return .list (← itemsOf v)
    | "m" => return .map (← entriesOf v)
    | _ => throw (.unknownTag tag)
  | v => if v.isTrue then .error (.noMember v.qualifiedKind "keys") else .error .untagged
termination_by structural v => v

/-- The items of a list; texts and bytes have elements that are no attribute values. -/
def itemsOf : Value → Except Fault (List Value)
  | .list items | .tuple items | .set items | .frozenset items => ofTaggedAll items
  | .map entries => ofTaggedKeys entries
  | v => do
    match ← v.elements with
    | [] => return []
    | item :: _ =>
      if item.isTrue then throw (.noMember item.qualifiedKind "keys") else throw .untagged
termination_by structural v => v

def entriesOf : Value → Except Fault (List (Value × Value))
  | .map entries => ofTaggedEntries entries
  | v => .error (.noMember v.qualifiedKind "items")
termination_by structural v => v

def ofTaggedAll : List Value → Except Fault (List Value)
  | [] => .ok []
  | v :: items => do return (← ofTagged v) :: (← ofTaggedAll items)
termination_by structural items => items

def ofTaggedKeys : List (Value × Value) → Except Fault (List Value)
  | [] => .ok []
  | (k, _) :: entries => do return (← ofTagged k) :: (← ofTaggedKeys entries)
termination_by structural entries => entries

def ofTaggedEntries : List (Value × Value) → Except Fault (List (Value × Value))
  | [] => .ok []
  | (k, v) :: entries => do return (k, ← ofTagged v) :: (← ofTaggedEntries entries)
termination_by structural entries => entries

end

end TableScan.Value
