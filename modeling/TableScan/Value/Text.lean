import TableScan.Value
import TableScan.Text.Quoted

/-! The text of a value. As a member of a collection a value is shown with its kind and its text
quoted; on its own it is shown plainly. Whole numbers of more than 4300 digits have no text. -/

namespace TableScan.Value

open Text

def digitLimit : Nat := 4300

def intText? (n : Int) : Option String :=
  if Decimal.digitCount n.natAbs ≤ digitLimit then some (String.ofList (numeralInt n)) else none

def commaSeparated (texts : List String) : String := ", ".intercalate texts

def call (name : String) (arguments : List String) : String :=
  s!"{name}({commaSeparated arguments})"

/-- A time span as its whole days, the seconds of a day and the microseconds of a second. -/
def spanText (microseconds : Int) : String :=
  let fields := [("days", microseconds / 86400000000), ("seconds", microseconds / 1000000 % 86400),
    ("microseconds", microseconds % 1000000)]
  call "datetime.timedelta" ((fields.filter (·.2 ≠ 0)).map fun (name, n) => s!"{name}={n}")

/-- An offset that was read is shown by its seconds. -/
def offsetText (o : Offset) : String :=
  if o.wasRead then call "TzInfo" [toString o.seconds]
  else if o.microseconds = 0 then "datetime.timezone.utc"
  else call "datetime.timezone" [spanText o.microseconds]

def clockFields (t : DayTime) : List String :=
  let c := t.clock
  [s!"{c.hour.val}", s!"{c.minute.val}"] ++
    (if c.second.val = 0 ∧ c.microsecond.val = 0 then [] else [s!"{c.second.val}"]) ++
    (if c.microsecond.val = 0 then [] else [s!"{c.microsecond.val}"]) ++
    t.offset.elim [] fun o => [s!"tzinfo={offsetText o}"]

def civilFields (c : Civil) : List String := [s!"{c.year}", s!"{c.month}", s!"{c.day}"]

def scalarText? : Value → Option String
  | .null => some "None"
  | .bool b => some (if b then "True" else "False")
  | .int n => intText? n
  | .float x => some x.toText
  | .decimal d => some (call "Decimal" [quotedString d.toText])
  | .text s => some (quotedString s)
  | .bytes bs => some (String.ofList (quotedBytes bs))
  | .datetime t => some (call "datetime.datetime" (civilFields t.date.civil ++ clockFields t.time))
  | .date d => some (call "datetime.date" (civilFields d.civil))
  | .time t => some (call "datetime.time" (clockFields t))
  | .uuid u => some (call "UUID" [quotedString u.toText])
  | _ => none

mutual

def inner? : Value → Option String
  | .list items => (innerAll? items).map fun texts => s!"[{commaSeparated texts}]"
  | .tuple items =>
    (innerAll? items).map fun texts =>
      if texts.length = 1 then s!"({commaSeparated texts},)" else s!"({commaSeparated texts})"
  | .set items =>
    (innerAll? items).map fun texts =>
      if texts.isEmpty then "set()" else "\x7b" ++ commaSeparated texts ++ "\x7d"
  | .frozenset items =>
    (innerAll? items).map fun texts =>
      if texts.isEmpty then "frozenset()" else "frozenset(\x7b" ++ commaSeparated texts ++ "\x7d)"
  | .map entries =>
    (innerEntries? entries).map fun texts => "\x7b" ++ commaSeparated texts ++ "\x7d"
  | .member enumeration _ name value =>
    (inner? value).map fun shown => s!"<{enumeration}.{name}: {shown}>"
  | v => scalarText? v
termination_by structural v => v

def innerAll? : List Value → Option (List String)
  | [] => some []
  | v :: items => (inner? v).bind fun shown => (innerAll? items).map (shown :: ·)
termination_by structural items => items

def innerEntries? : List (Value × Value) → Option (List String)
  | [] => some []
  | (k, v) :: entries =>
    (inner? k).bind fun key => (inner? v).bind fun value =>
      (innerEntries? entries).map (s!"{key}: {value}" :: ·)
termination_by structural entries => entries

end

def display? : Value → Option String
  | .text s => some s
  | .decimal d => some d.toText
  | .datetime t => some t.toDisplay
  | .date d => some d.toText
  | .time t => some t.toText
  | .uuid u => some u.toText
  | .member _ .int _ v => inner? v
  | .member enumeration _ name _ => some s!"{enumeration}.{name}"
  | v => inner? v

def display (v : Value) : String := v.display?.getD ""

end TableScan.Value
