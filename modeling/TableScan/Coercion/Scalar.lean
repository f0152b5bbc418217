import TableScan.Coercion.Outcome
import TableScan.Value.Text
import TableScan.Text.Utf8
import TableScan.Number.Whole
import TableScan.AttributeValue.Decoding

/-! Fitting values to the scalar types other than dates and enumerations. -/

namespace TableScan.Coercion

open Text Outcome

def readableText? : Value → Option (Option String)
  | .bytes bs => some (ofUtf8? bs)
  | v => v.text?.map some

def toText : Value → Outcome Value
  | .text s => accept .exact (.text s)
  | .member _ .text _ (.text s) => accept .strict (.text s)
  | .bytes bs =>
    match ofUtf8? bs with
    | some s => accept .lax (.text s)
    | none => reject .textEncoding
  | .member _ _ _ v => accept .lax (.text v.display)
  | _ => reject .textType

def toBytes : Value → Outcome Value
  | .bytes bs => accept .exact (.bytes bs)
  | v =>
    match v.text? with
    | some s => accept .lax (.bytes (utf8 s))
    | none => reject .bytesType

def falseWords : List String := ["0", "f", "n", "no", "off", "false"]
def trueWords : List String := ["1", "t", "y", "on", "yes", "true"]

def lowerAscii (s : String) : String := String.ofList (s.toList.map Char.toLower)

def boolOfText (s : String) : Outcome Value :=
  if falseWords.contains (lowerAscii s) then accept .lax (.bool false)
  else if trueWords.contains (lowerAscii s) then accept .lax (.bool true)
  else reject .boolParsing

def boolOfInt (n : Int) : Outcome Value :=
  if n = 0 then accept .lax (.bool false)
  else if n = 1 then accept .lax (.bool true)
  else reject .boolParsing

def wholeBinary? (x : Binary64) : Option Int :=
  match x.exactDecimal with
  | .finite negative c e => (Decimal.wholePart? c e).map fun n => if negative then -(n : Int) else n
  | _ => none

def nearestBinary? : Value → Option Binary64
  | .float x => some x
  | .decimal (.nan _ true _) => none
  | .decimal d => some (.ofDecimal d)
  | v =>
    match v.int? with
    | none => none
    | some n =>
      match Binary64.ofRatio (n < 0) ⟨n.natAbs, 1⟩ with
      | .infinity _ => none
      | x => some x

def toBool (v : Value) : Outcome Value :=
  match v, readableText? v, v.int? with
  | .bool b, _, _ => accept .exact (.bool b)
  | _, some (some s), _ => boolOfText s
  | _, some none, _ => reject .boolParsing
  | _, none, some n =>
    if isWord n then boolOfInt n else reject .boolType
  | _, none, none =>
    match (nearestBinary? v).bind wholeBinary? with
    | some n => if n.natAbs < wordBound then boolOfInt n else reject .boolType
    | none => reject .boolType

def intOfText (s : String) : Outcome Value :=
  match Whole.read s.toList with
  | .ok n => accept .lax (.int n)
  | .error .tooLong => reject .intParsingSize
  | .error .notNumeral => reject .intParsing

def intOfBinary (x : Binary64) : Outcome Value :=
  if !x.isFinite then reject .finiteNumber
  else
    match wholeBinary? x with
    | some n => if n.natAbs < wordBound then accept .lax (.int n) else reject .intParsingSize
    | none => reject .intFromFloat

def intOfDecimal : Decimal → Outcome Value
  | .finite negative c e =>
    match Decimal.wholePart? c e with
    | some n => accept .lax (.int (if negative then -(n : Int) else n))
    | none => reject .intFromFloat
  | _ => reject .finiteNumber

/-- A member of a plain enumeration gives its value, whatever that is. -/
def toInt : Value → Outcome Value
  | .int n => accept .exact (.int n)
  | .bool b => accept .lax (.int (if b then 1 else 0))
  | .member _ .int _ (.int n) => accept .strict (.int n)
  | .float x => intOfBinary x
  | .decimal d => intOfDecimal d
  | .member _ .plain _ v => accept .lax v
  | v =>
    match readableText? v with
    | some (some s) => intOfText s
    | some none => reject .intParsing
    | none => reject .intType

/-- A binary number in text; underscores are dropped from a text that is none as it stands. -/
def readFloat? (s : String) : Option Binary64 :=
  match Binary64.read? (trimBy isWhiteSpace s.toList) with
  | some x => some x
  | none =>
    if Whole.singleUnderscores s.toList then Binary64.read? (s.toList.filter (· != '_')) else none

def floatOfText (s : String) : Outcome Value :=
  match readFloat? s with
  | some x => accept .lax (.float x)
  | none => reject .floatParsing

def toFloat (v : Value) : Outcome Value :=
  match v, readableText? v with
  | .float x, _ => accept .exact (.float x)
  | .bool b, _ => accept .lax (.float (.ofNat (if b then 1 else 0)))
  | _, some (some s) => floatOfText s
  | _, some none => reject .floatParsing
  | _, none =>
    match nearestBinary? v with
    | some x => accept .strict (.float x)
    | none => reject .floatType

def finiteDecimal (fit : Fit) (d : Decimal) : Outcome Value :=
  if d.isFinite then accept fit (.decimal d) else reject .finiteNumber

def decimalOfText (s : String) : Outcome Value :=
  match Decimal.ofText? s.toList with
  | some d => finiteDecimal .lax d
  | none => reject .decimalParsing

def decimalOfTriple (items : List Value) : Outcome Value :=
  match Value.decimalOfParts items with
  | .ok d => if d.isRepresentable then finiteDecimal .lax d else reject .decimalType
  | .error _ => reject .decimalType

def toDecimal : Value → Outcome Value
  | .decimal d => finiteDecimal .exact d
  | .float x => finiteDecimal .lax x.toDecimal
  | .bool _ => reject .decimalType
  | .tuple [sign, digits, exponent] => decimalOfTriple [sign, digits, exponent]
  | v =>
    match v.text?, v.int? with
    | some s, _ => decimalOfText s
    | none, some n => finiteDecimal .lax (.ofInt n)
    | none, none => reject .decimalType

def uuidOfBytes (bs : List UInt8) : Option Uuid :=
  match (ofUtf8? bs).bind (Uuid.ofText? ·.toList) with
  | some u => some u
  | none => Uuid.ofBytes? bs

def parsedUuid : Option Uuid → Outcome Value
  | some u => accept .lax (.uuid u)
  | none => reject .uuidParsing

def toUuid : Value → Outcome Value
  | .uuid u => accept .exact (.uuid u)
  | .text s => parsedUuid (Uuid.ofText? s.toList)
  | .bytes bs => parsedUuid (uuidOfBytes bs)
  | _ => reject .uuidType

def toNull : Value → Outcome Value
  | .null => accept .exact .null
  | _ => reject .noneRequired

end TableScan.Coercion
