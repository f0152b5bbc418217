import TableScan.Calendar.Date
import TableScan.Calendar.Clock

/-! A date with a time of day. Two of them are the same when both carry an offset and denote one
instant, or neither does and they are written alike. -/

namespace TableScan

structure DateTime where
  date : Date
  time : DayTime
deriving DecidableEq, Repr

namespace DateTime

def universal (t : DateTime) : Int := t.date.civil.dayCount * 86400000000 + t.time.universal

def sameInstant (s t : DateTime) : Bool :=
  s.time.offset.isSome == t.time.offset.isSome && s.universal == t.universal

def toCharsWith (separator : Char) (t : DateTime) : List Char :=
  t.date.toChars ++ separator :: t.time.toChars

def toText (t : DateTime) : String := String.ofList (t.toCharsWith 'T')

def toDisplay (t : DateTime) : String := String.ofList (t.toCharsWith ' ')

def ofText? (cs : List Char) : Option DateTime :=
  match Civil.split? cs with
  | some (civil, 'T' :: rest) =>
    (Date.ofCivil? civil).bind fun date =>
      (DayTime.ofText? Offset.ofExactText? rest).map (⟨date, ·⟩)
  | _ => none

end DateTime

end TableScan
