import TableScan.Enumeration
import TableScan.Coercion.Scalar

/-! Fitting values to enumerations: a member fits as it is, and any other value by what it equals,
or what it equals once it is fitted to the enumeration's base. -/

namespace TableScan.Coercion

open Outcome

abbrev Search := Except Rejection (Option Value)

def equalMember (e : Enumeration) (v : Value) : Option Value := e.find? (Value.same · v)

/-- A signalling not-a-number cannot be compared with the numbers among the members. -/
def searchEqual (e : Enumeration) (v : Value) : Search :=
  match equalMember e v, v with
  | some found, _ => .ok (some found)
  | none, .decimal d =>
    if d.isSignaling && e.members.any (·.2.number?.isSome) then .error (.fault .invalidOperation)
    else .ok none
  | none, _ => .ok none

/-- Where the members hold words, whole numbers beyond them are refused rather than looked for. -/
def searchInt (e : Enumeration) (n : Int) : Search :=
  if isWord n then .ok (e.find? (Value.same · (.int n)))
  else if e.hasWord then .error (.of .intParsingSize)
  else .ok none

/-- What the value fits as a whole number; a value that passes for one without being one is as good
as too large. -/
def searchFittedInt (e : Enumeration) (v : Value) : Search :=
  match toInt v with
  | .ok ⟨w, _⟩ =>
    match w.int? with
    | some n => searchInt e n
    | none => if e.hasWord then .error (.of .intParsingSize) else .ok none
  | .error (.issues _) => .ok none
  | .error (.fault cause) => .error (.fault cause)

def searchFittedText (e : Enumeration) (v : Value) : Search :=
  match toText v with
  | .ok ⟨w, _⟩ => .ok (equalMember e w)
  | .error (.issues _) => .ok none
  | .error (.fault cause) => .error (.fault cause)

/-- Members of other enumerations are looked for by their whole number, if they have one and no
member equals them. -/
def searchPlain (e : Enumeration) (v : Value) : Search :=
  match v, equalMember e v with
  | .int n, found => if isWord n then .ok found else (searchInt e n).map fun _ => found
  | _, some found => .ok (some found)
  | .member _ .int _ (.int n), none => searchInt e n
  | _, none => .ok none

def searchMember (e : Enumeration) (v : Value) : Search :=
  match e.base with
  | .text => searchFittedText e v
  | .int => searchFittedInt e v
  | .plain => searchPlain e v

def isMemberOf (e : Enumeration) : Value → Bool
  | .member enumeration _ _ _ => enumeration == e.name
  | _ => false

def toMember (e : Enumeration) (v : Value) : Outcome Value :=
  if isMemberOf e v then accept .exact v
  else
    match searchMember e v with
    | .error rejection => .error rejection
    | .ok (some found) => accept .lax found
    | .ok none =>
      match searchEqual e v with
      | .error rejection => .error rejection
      | .ok (some found) => accept .lax found
      | .ok none => reject .enumeration

end TableScan.Coercion
