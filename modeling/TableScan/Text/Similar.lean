/-! Names that resemble a word. The resemblance of two texts counts the characters of their longest
common run and, recursively, of the runs to its left and right; it is twice that count over the sum
of their lengths. -/

namespace TableScan.Text

structure CommonRun where
  left : Nat
  right : Nat
  length : Nat

/-- The lengths of the common runs that end at `x` and at each place of the second text. -/
def runLengths (ignored : Char → Bool) (x : Char) (previous : List Nat) (second : List Char) :
    List Nat :=
  let length y before := if y = x && !ignored y then before + 1 else 0
  List.zipWith length second (0 :: previous)

def longerRun (row : Nat) : (column : Nat) → List Nat → CommonRun → CommonRun
  | _, [], best => best
  | column, n :: lengths, best =>
    longerRun row (column + 1) lengths
      (if n > best.length then ⟨row + 1 - n, column + 1 - n, n⟩ else best)

def longestRunFrom (ignored : Char → Bool) (second : List Char) :
    (row : Nat) → List Char → List Nat → CommonRun → CommonRun
  | _, [], _, best => best
  | row, x :: first, previous, best =>
    let lengths := runLengths ignored x previous second
    longestRunFrom ignored second (row + 1) first lengths (longerRun row 0 lengths best)

def commonLength : List Char → List Char → Nat
  | x :: xs, y :: ys => if x = y then commonLength xs ys + 1 else 0
  | _, _ => 0

/-- The longest run without ignored characters, extended on both sides by equal characters of any
kind. -/
def longestRun (ignored : Char → Bool) (first second : List Char) : CommonRun :=
  let core := longestRunFrom ignored second 0 first (second.map fun _ => 0) ⟨0, 0, 0⟩
  let before := commonLength (first.take core.left).reverse (second.take core.right).reverse
  let after :=
    commonLength (first.drop (core.left + core.length)) (second.drop (core.right + core.length))
  ⟨core.left - before, core.right - before, before + core.length + after⟩

def matchingCount (ignored : Char → Bool) : (fuel : Nat) → List Char → List Char → Nat
  | 0, _, _ => 0
  | fuel + 1, first, second =>
    let run := longestRun ignored first second
    if run.length = 0 then 0
    else
      matchingCount ignored fuel (first.take run.left) (second.take run.right) + run.length +
        matchingCount ignored fuel (first.drop (run.left + run.length))
          (second.drop (run.right + run.length))

/-- In a word of two hundred characters or more, those that make up over a hundredth of it do not
start a run. -/
def isPopular (word : List Char) (c : Char) : Bool :=
  200 ≤ word.length && word.count c > word.length / 100 + 1

def popularIn (word : List Char) : List Char := word.eraseDups.filter (isPopular word)

structure Resemblance where
  matched : Nat
  total : Nat

def resemblance (name word : List Char) : Resemblance :=
  if name.length + word.length = 0 then ⟨1, 1⟩
  else
    let popular := popularIn word
    ⟨2 * matchingCount (popular.contains ·) (name.length + 1) name word, name.length + word.length⟩

def Resemblance.isClose (r : Resemblance) : Bool := 5 * r.matched ≥ 3 * r.total

/-- The closer name ranks first, of two equally close ones the later in text order. -/
def ranksBefore (x y : Resemblance × String) : Bool :=
  let p := x.1.matched * y.1.total
  let q := y.1.matched * x.1.total
  p > q || (p == q && decide (y.2 ≤ x.2))

def closeNames (word : String) (names : List String) : List String :=
  let scored := names.map fun name => (resemblance name.toList word.toList, name)
  (((scored.filter (·.1.isClose)).mergeSort ranksBefore).take 3).map (·.2)

end TableScan.Text
