import TableScan.Text.Printable

/-! Quoted text. A single quote encloses it unless it holds a single quote and no double quote; the
quote, the backslash and what cannot be shown are escaped. -/

namespace TableScan.Text

def singleQuote : Char := Char.ofNat 39
def doubleQuote : Char := Char.ofNat 34

def hexDigit (n : Nat) : Char := Nat.digitChar (n % 16)

def hexDigits : (width : Nat) → (n : Nat) → List Char
  | 0, _ => []
  | width + 1, n => hexDigits width (n / 16) ++ [hexDigit n]

/-- Characters above the first plane take eight digits, those above U+00FF four, others two. -/
def escapeHex (c : Char) : List Char :=
  if c.toNat ≤ 0xFF then '\\' :: 'x' :: hexDigits 2 c.toNat
  else if c.toNat ≤ 0xFFFF then '\\' :: 'u' :: hexDigits 4 c.toNat
  else '\\' :: 'U' :: hexDigits 8 c.toNat

def escapeChar (quote c : Char) : List Char :=
  if c = quote ∨ c = '\\' then ['\\', c]
  else if c = '\n' then ['\\', 'n']
  else if c = '\r' then ['\\', 'r']
  else if c = '\t' then ['\\', 't']
  else if isPrintable c then [c]
  else escapeHex c

def quoteFor (cs : List Char) : Char :=
  if cs.contains singleQuote && !cs.contains doubleQuote then doubleQuote else singleQuote

def quoted (cs : List Char) : List Char :=
  let quote := quoteFor cs
  quote :: cs.flatMap (escapeChar quote) ++ [quote]

/-- Raw bytes are quoted by the same rule, with every byte outside printable ASCII escaped. -/
def quotedBytes (bytes : List UInt8) : List Char :=
  let cs := bytes.map fun b => Char.ofNat b.toNat
  let quote := quoteFor cs
  let escape c := if c.toNat < 0x7F then escapeChar quote c else escapeHex c
  'b' :: quote :: cs.flatMap escape ++ [quote]

def quotedString (text : String) : String := String.ofList (quoted text.toList)

end TableScan.Text
