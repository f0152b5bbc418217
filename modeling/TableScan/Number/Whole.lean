import TableScan.Number.Decimal.Reader

/-! Whole numbers in the forms people write them: with blanks around them, a plus sign, leading
zeros, a fraction of zeros, or underscores between the digits. Zeros and underscores in front are
dropped before a minus sign as well. -/

namespace TableScan.Whole

open Text

inductive Fault where
  | notNumeral
  | tooLong
deriving DecidableEq, Repr

/-- The most characters of a numeral, the sign included. -/
def lengthLimit : Nat := 4300

/-- A numeral: digits without a leading zero, perhaps after a minus sign. Its length is looked at
before what follows the digits. -/
def readNumeral (cs : List Char) : Except Fault Int :=
  let (negative, rest) := match cs with
    | '-' :: rest => (true, rest)
    | rest => (false, rest)
  let digits := rest.takeWhile isAsciiDigit
  match digits with
  | [] => .error .notNumeral
  | '0' :: _ => if rest = ['0'] then .ok 0 else .error .notNumeral
  | _ =>
    if lengthLimit < digits.length + (if negative then 1 else 0) then .error .tooLong
    else if digits.length < rest.length then .error .notNumeral
    else .ok (if negative then -(Text.readNumeral digits : Int) else Text.readNumeral digits)

def dropPlus? : List Char → Option (List Char)
  | '+' :: '-' :: _ => none
  | '+' :: cs => some cs
  | cs => some cs

def startsNumeral (c : Char) : Bool := c == '-' || (isAsciiDigit c && c != '0')

/-- What comes after zeros and underscores, the last of which is kept when there is nothing else or
a point. -/
def afterZeros? (last : Char) : List Char → Option (List Char)
  | [] => some [last]
  | c :: cs =>
    if c = '0' ∨ c = '_' then afterZeros? c cs
    else if startsNumeral c then some (c :: cs)
    else if c = '.' then some (last :: c :: cs)
    else none

def dropZeros? : List Char → Option (List Char)
  | [] => none
  | c :: cs =>
    if c = '0' then afterZeros? c cs else if startsNumeral c then some (c :: cs) else none

/-- Without a point that only zeros follow, at least one of them. -/
def dropFraction (cs : List Char) : List Char :=
  match cs.dropWhile (· != '.') with
  | '.' :: fraction =>
    if fraction ≠ [] ∧ fraction.all (· == '0') then cs.takeWhile (· != '.') else cs
  | _ => cs

def singleUnderscores : List Char → Bool
  | [] => true
  | ['_'] => false
  | '_' :: _ => false
  | _ :: '_' :: cs => cs != [] && singleUnderscores cs
  | _ :: cs => singleUnderscores cs

def dropUnderscores (cs : List Char) : List Char :=
  if singleUnderscores cs then cs.filter (· != '_') else cs

def clean? (cs : List Char) : Option (List Char) :=
  (dropPlus? (trimBy isWhiteSpace cs)).bind fun unsigned =>
    (dropZeros? unsigned).map fun digits => dropUnderscores (dropFraction digits)

def read (cs : List Char) : Except Fault Int :=
  match readNumeral cs with
  | .error .notNumeral =>
    match clean? cs with
    | some cleaned => readNumeral cleaned
    | none => .error .notNumeral
  | outcome => outcome

end TableScan.Whole
