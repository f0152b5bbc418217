import TableScan.Issue
import TableScan.Value

/-! The outcome of fitting a value to a type, and how those of parts make that of the whole. -/

namespace TableScan

inductive Closeness where
  | lax
  | strict
  | exact
deriving DecidableEq, Repr

/-- The closeness of what was found so far. An alternative that fits exactly settles it: what came
before counts no more. -/
structure Fit where
  closeness : Closeness
  settled : Bool
deriving DecidableEq, Repr

namespace Closeness

def rank : Closeness → Nat
  | .lax => 0
  | .strict => 1
  | .exact => 2

def meet (x y : Closeness) : Closeness := if x.rank ≤ y.rank then x else y

end Closeness

namespace Fit

def lax : Fit := ⟨.lax, false⟩
def strict : Fit := ⟨.strict, false⟩
def exact : Fit := ⟨.exact, false⟩
def settledExactly : Fit := ⟨.exact, true⟩

def andThen (earlier later : Fit) : Fit :=
  if later.settled then later else ⟨earlier.closeness.meet later.closeness, earlier.settled⟩

end Fit

structure Fitted (α : Type) where
  value : α
  fit : Fit
deriving Repr

abbrev Outcome (α : Type) := Except Rejection (Fitted α)

namespace Outcome

variable {α β : Type}

def accept (fit : Fit) (value : α) : Outcome α := .ok ⟨value, fit⟩

def reject (kind : IssueKind) : Outcome α := .error (.of kind)

def map (f : α → β) : Outcome α → Outcome β
  | .ok fitted => .ok ⟨f fitted.value, fitted.fit⟩
  | .error rejection => .error rejection

def under (steps : List Step) : Outcome α → Outcome α
  | .ok fitted => .ok fitted
  | .error rejection => .error (rejection.under steps)

def following (earlier : Fit) : Outcome α → Outcome α
  | .ok fitted => .ok ⟨fitted.value, earlier.andThen fitted.fit⟩
  | .error rejection => .error rejection

def andThen (f : α → Outcome β) : Outcome α → Outcome β
  | .ok fitted => (f fitted.value).following fitted.fit
  | .error rejection => .error rejection

def both {γ : Type} (f : α → β → γ) : Outcome α → Outcome β → Outcome γ
  | .error (.fault cause), _ => .error (.fault cause)
  | _, .error (.fault cause) => .error (.fault cause)
  | .error (.issues found), .error (.issues more) => .error (.issues (found ++ more))
  | .error (.issues found), .ok _ => .error (.issues found)
  | .ok _, .error (.issues found) => .error (.issues found)
  | .ok x, .ok y => .ok ⟨f x.value y.value, x.fit.andThen y.fit⟩

end Outcome

end TableScan
