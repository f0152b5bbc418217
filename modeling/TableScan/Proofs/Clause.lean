import TableScan.Scan

/-! Clauses: the sequences of calls that compare one attribute, and the filters they stand for. An
attribute is selected, perhaps negated, and compared. What a clause begins with tells where it ends,
so a sequence of calls falls into clauses in at most one way. -/

namespace TableScan

inductive Closing where
  | compare (c : Comparison) (operands : List Value) (fits : c.arity? = some operands.length)
  | among (values : Value)

namespace Closing

def call : Closing → Call
  | .compare c operands fits => .compare c operands fits
  | .among values => .among values

def comparison : Closing → Comparison
  | .compare c _ _ => c
  | .among _ => .isIn

def operands : Closing → List Value
  | .compare _ operands _ => operands
  | .among values => values.elements?.getD []

/-- Any operands of a comparison, but a collection to look in is neither text nor empty. -/
def Allowed : Closing → Prop
  | .compare _ _ _ => True
  | .among values =>
    Coercion.textsIn values = false ∧ ∃ items, values.elements? = some items ∧ items ≠ []

theorem call_injective {closing other : Closing} (same : closing.call = other.call) :
    closing = other := by
  cases closing <;> cases other <;> simp_all [call]

theorem call_ne_not (closing : Closing) : closing.call ≠ .not := by
  cases closing <;> simp [call]

theorem call_ne_select (closing : Closing) (name : String) : closing.call ≠ .select name := by
  cases closing <;> simp [call]

end Closing

/-- An attribute is selected, negated any number of times, and compared. -/
structure Clause where
  name : String
  negations : Nat
  closing : Closing

namespace Clause

def calls (c : Clause) : List Call :=
  .select c.name :: (List.replicate c.negations .not ++ [c.closing.call])

def operator (c : Clause) : Operator :=
  if c.negations = 0 then c.closing.comparison.operator
  else c.closing.comparison.negated?.getD c.closing.comparison.operator

def filter (c : Clause) : String × Filter := (c.name, ⟨c.name, c.operator, c.closing.operands⟩)

def Allowed (c : Clause) : Prop :=
  (0 < c.negations → c.closing.comparison.negated?.isSome = true) ∧ c.closing.Allowed

theorem flatMap_calls_cons (c : Clause) (clauses : List Clause) :
    (c :: clauses).flatMap calls = .select c.name ::
      (List.replicate c.negations .not ++ c.closing.call :: clauses.flatMap calls) := by
  simp [calls]

theorem exists_of_cons_eq_flatMap {first : Call} {rest : List Call} {clauses : List Clause}
    (split : first :: rest = clauses.flatMap calls) :
    ∃ c later, clauses = c :: later ∧ first = .select c.name ∧
      rest = List.replicate c.negations .not ++ c.closing.call :: later.flatMap calls := by
  cases clauses with
  | nil => simp at split
  | cons c later =>
    rw [flatMap_calls_cons, List.cons.injEq] at split
    exact ⟨c, later, rfl, split.1, split.2⟩

theorem negation_or_closing {call : Call} {rest tail : List Call} {negations : Nat}
    {closing : Closing}
    (split : call :: rest = List.replicate negations .not ++ closing.call :: tail) :
    (call = .not ∧ ∃ fewer, negations = fewer + 1 ∧
      rest = List.replicate fewer .not ++ closing.call :: tail) ∨
    (call = closing.call ∧ negations = 0 ∧ rest = tail) := by
  cases negations with
  | zero =>
    obtain ⟨same, later⟩ := List.cons.inj split
    exact .inr ⟨same, rfl, later⟩
  | succ fewer =>
    obtain ⟨same, later⟩ := List.cons.inj split
    exact .inl ⟨same, fewer, rfl, later⟩

theorem eq_of_opening_eq {negations other : Nat} {closing closing' : Closing}
    {rest tail : List Call}
    (same : List.replicate negations .not ++ closing.call :: rest =
      List.replicate other .not ++ closing'.call :: tail) :
    negations = other ∧ closing = closing' ∧ rest = tail := by
  induction negations generalizing other with
  | zero =>
    rcases negation_or_closing same with ⟨negated, _⟩ | ⟨shared, rfl, later⟩
    · exact absurd negated closing.call_ne_not
    · exact ⟨rfl, Closing.call_injective shared, later⟩
  | succ negations ih =>
    rcases negation_or_closing same with ⟨_, fewer, rfl, later⟩ | ⟨closed, _⟩
    · obtain ⟨rfl, shared⟩ := ih later
      exact ⟨rfl, shared⟩
    · exact absurd closed.symm closing'.call_ne_not

end Clause

namespace Call

def isPart : Call → Bool
  | .select _ | .not | .compare _ _ _ | .among _ => true
  | _ => false

def limit? : Call → Option (Option Int)
  | .limit n => some n
  | _ => none

def startKey? : Call → Option (Option Value)
  | .startAt key => some key
  | _ => none

def fields? : Call → Option (List String)
  | .project fields => some fields
  | _ => none

def LimitAllowed : Call → Prop
  | .limit (some n) => 1 ≤ n
  | _ => True

theorem eq_of_isPart {call : Call} (part : call.isPart = true) :
    (∃ name, call = .select name) ∨ call = .not ∨ ∃ closing : Closing, call = closing.call := by
  cases call with
  | select name => exact .inl ⟨name, rfl⟩
  | not => exact .inr (.inl rfl)
  | compare c operands fits => exact .inr (.inr ⟨.compare c operands fits, rfl⟩)
  | among values => exact .inr (.inr ⟨.among values, rfl⟩)
  | _ => cases part

end Call

namespace Options

def after (calls : List Call) (o : Options) : Options :=
  ⟨(calls.filterMap Call.limit?).getLast?.getD o.limit,
    (calls.filterMap Call.startKey?).getLast?.getD o.startKey,
    (calls.filterMap Call.fields?).getLast?.getD o.fields⟩

theorem after_cons_of_isPart {call : Call} (part : call.isPart = true) (calls : List Call)
    (o : Options) : o.after (call :: calls) = o.after calls := by
  cases call <;> simp_all [after, Call.isPart, Call.limit?, Call.startKey?, Call.fields?]

/-- The last call counts, whatever was set before. -/
theorem after_cons (call : Call) (calls : List Call) (o : Options) :
    o.after (call :: calls) = (o.after [call]).after calls := by
  cases call <;> simp [after, Call.limit?, Call.startKey?, Call.fields?, List.getLast?_cons]

end Options

namespace Stage

def negations : Stage → Nat
  | .negated _ => 1
  | _ => 0

def calls (stage : Stage) : List Call :=
  match stage.pending? with
  | some name => .select name :: List.replicate stage.negations .not
  | none => []

end Stage

end TableScan
