import TableScan.Coercion.Scalar
import TableScan.Calendar.Timestamp

/-! Fitting values to dates and moments. Each stands in for the other: a date for the start of its
day, and a moment at midnight for its date. -/

namespace TableScan.Coercion

open Outcome

inductive MomentFault where
  | wrongType
  | unreadable
deriving DecidableEq, Repr

def readable {α : Type} (fit : Fit) : Option α → Except MomentFault (Fitted α)
  | some x => .ok ⟨x, fit⟩
  | none => .error .unreadable

def stampOf (v : Value) : Except MomentFault (Fitted Stamp) :=
  match v, readableText? v with
  | .datetime t, _ => .ok ⟨⟨t.date.civil, t.time⟩, .exact⟩
  | _, some text => readable .lax (text.bind (Stamp.ofAnyText? ·.toList))
  | .bool _, none => .error .wrongType
  | .date d, none => .ok ⟨⟨d.civil, ⟨.midnight, none⟩⟩, .lax⟩
  | _, none =>
    match v.int?.filter isWord, nearestBinary? v with
    | some n, _ => readable .lax (Stamp.ofCount? n)
    | none, some x => readable .lax (Stamp.ofBinary? x)
    | none, none => .error .wrongType

def civilOf (v : Value) : Except MomentFault (Fitted Civil) :=
  match v, readableText? v with
  | .date d, _ => .ok ⟨d.civil, .exact⟩
  | _, some text => readable .lax (text.bind (Civil.ofAnyText? ·.toList))
  | _, none => .error .wrongType

def acceptDatetime (fit : Fit) (s : Stamp) : Outcome Value :=
  match s.toDateTime? with
  | some t => accept fit (.datetime t)
  | none => reject .datetimeParsing

def acceptDate (fit : Fit) (c : Civil) : Outcome Value :=
  match Date.ofCivil? c with
  | some d => accept fit (.date d)
  | none => reject .dateParsing

def toDatetime (v : Value) : Outcome Value :=
  match stampOf v, civilOf v with
  | .ok s, _ => acceptDatetime s.fit s.value
  | .error _, .ok c => acceptDatetime .lax ⟨c.value, ⟨.midnight, none⟩⟩
  | .error _, .error .unreadable => reject .datetimeFromDateParsing
  | .error .wrongType, .error .wrongType => reject .datetimeType
  | .error .unreadable, .error .wrongType => reject .datetimeParsing

def toDate (v : Value) : Outcome Value :=
  match civilOf v, stampOf v with
  | .ok c, _ => acceptDate c.fit c.value
  | .error _, .ok s =>
    if s.value.time.clock = .midnight then acceptDate .lax s.value.civil
    else reject .dateFromDatetimeInexact
  | .error _, .error .unreadable => reject .dateFromDatetimeParsing
  | .error .wrongType, .error .wrongType => reject .dateType
  | .error .unreadable, .error .wrongType => reject .dateParsing

end TableScan.Coercion
