import TableScan.Proofs.Clause
import TableScan.Proofs.Named

/-! Which sequences of calls build a scan, and which scan. Main statement: all calls succeed and
leave nothing pending exactly when those that set no option fall into clauses, no attribute is
compared twice and every argument is allowed; the scan then has the filters of the clauses in order,
and of each option the one that was set last. -/

namespace TableScan

namespace Scan

def Distinct (s : Scan) : Prop := (s.filters.map (·.1) ++ s.stage.pending?.toList).Nodup

/-- The calls complete what is begun and add clauses to it, and this is the scan they build. -/
def Builds (s : Scan) (begun calls : List Call) (built : Scan) : Prop :=
  ∃ clauses : List Clause,
    begun ++ calls.filter Call.isPart = clauses.flatMap Clause.calls ∧
    (s.filters.map (·.1) ++ clauses.map Clause.name).Nodup ∧
    (∀ c ∈ clauses, c.Allowed) ∧ (∀ call ∈ calls, call.LimitAllowed) ∧
    built = { s with
      filters := s.filters ++ clauses.map Clause.filter
      options := s.options.after calls
      stage := .idle }

variable {s built : Scan} {begun calls : List Call} {name : String} {closing : Closing}

theorem builds_cons_of_isPart {call : Call} (part : call.isPart = true) :
    s.Builds begun (call :: calls) built ↔ s.Builds (begun ++ [call]) calls built := by
  have allowed : call.LimitAllowed := by cases call <;> trivial
  simp [Builds, part, allowed, Options.after_cons_of_isPart part]

theorem builds_cons_of_not_isPart {call : Call} (other : call.isPart = false) :
    s.Builds begun (call :: calls) built ↔
      call.LimitAllowed ∧ Builds { s with options := s.options.after [call] } begun calls built := by
  by_cases allowed : call.LimitAllowed
  · simp [Builds, other, allowed, s.options.after_cons call calls]
  · simp [Builds, allowed]

theorem exists_select_of_builds {first : Call} (builds : s.Builds (first :: begun) calls built) :
    ∃ name, first = .select name ∧ name ∉ s.filters.map (·.1) := by
  obtain ⟨clauses, split, distinct, _⟩ := builds
  obtain ⟨c, later, rfl, opening, _⟩ := Clause.exists_of_cons_eq_flatMap split
  refine ⟨c.name, opening, fun present => ?_⟩
  exact (List.nodup_append.1 distinct).2.2 _ present _ (by simp) rfl

theorem exists_clause_of_builds (builds : s.Builds (.select name :: begun) calls built) :
    ∃ negations closing later,
      begun ++ calls.filter Call.isPart =
        List.replicate negations .not ++ closing.call :: later.flatMap Clause.calls ∧
      (s.filters.map (·.1) ++ name :: later.map Clause.name).Nodup ∧
      (∀ c ∈ ⟨name, negations, closing⟩ :: later, c.Allowed) ∧
      (∀ call ∈ calls, call.LimitAllowed) ∧
      built = { s with
        filters := s.filters ++ Clause.filter ⟨name, negations, closing⟩ :: later.map Clause.filter
        options := s.options.after calls
        stage := .idle } := by
  obtain ⟨clauses, split, distinct, allowed, limits, rfl⟩ := builds
  obtain ⟨⟨_, negations, closing⟩, later, rfl, opening, rest⟩ :=
    Clause.exists_of_cons_eq_flatMap split
  cases opening
  exact ⟨negations, closing, later, rest, by simpa using distinct, allowed, limits, by simp⟩

theorem builds_of_clause {negations : Nat} {later : List Clause}
    (split : begun ++ calls.filter Call.isPart =
      List.replicate negations .not ++ closing.call :: later.flatMap Clause.calls)
    (distinct : (s.filters.map (·.1) ++ name :: later.map Clause.name).Nodup)
    (allowed : ∀ c ∈ ⟨name, negations, closing⟩ :: later, c.Allowed)
    (limits : ∀ call ∈ calls, call.LimitAllowed) :
    s.Builds (.select name :: begun) calls { s with
      filters := s.filters ++ Clause.filter ⟨name, negations, closing⟩ :: later.map Clause.filter
      options := s.options.after calls
      stage := .idle } := by
  refine ⟨⟨name, negations, closing⟩ :: later, ?_, by simpa using distinct, allowed, limits, by simp⟩
  rw [Clause.flatMap_calls_cons, List.cons_append, split]

theorem not_builds_select_of_select {other : String} :
    ¬s.Builds (.select other :: .select name :: begun) calls built := by
  intro builds
  obtain ⟨negations, closing, later, split, _⟩ := exists_clause_of_builds builds
  rcases Clause.negation_or_closing split with ⟨same, _⟩ | ⟨same, _⟩
  · cases same
  · exact closing.call_ne_select name same.symm

theorem not_builds_select_of_not {other : String} :
    ¬s.Builds (.select other :: .not :: .select name :: begun) calls built := by
  intro builds
  obtain ⟨negations, closing, later, split, _⟩ := exists_clause_of_builds builds
  rcases Clause.negation_or_closing split with ⟨_, fewer, rfl, rest⟩ | ⟨same, _⟩
  · rcases Clause.negation_or_closing rest with ⟨same, _⟩ | ⟨same, _⟩
    · cases same
    · exact closing.call_ne_select name same.symm
  · exact closing.call_ne_not same.symm

theorem builds_not_not_iff :
    s.Builds [.select name, .not, .not] calls built ↔ s.Builds [.select name, .not] calls built := by
  constructor
  · intro builds
    obtain ⟨negations, closing, later, split, distinct, allowed, limits, rfl⟩ :=
      exists_clause_of_builds builds
    rcases Clause.negation_or_closing split with ⟨_, fewer, rfl, rest⟩ | ⟨same, _⟩
    · rcases Clause.negation_or_closing rest with ⟨_, fewest, rfl, rest⟩ | ⟨same, _⟩
      · have once : Clause.filter ⟨name, fewest + 1 + 1, closing⟩ =
          Clause.filter ⟨name, fewest + 1, closing⟩ := rfl
        rw [once]
        exact builds_of_clause (by simpa using rest) distinct (by simpa [Clause.Allowed] using allowed)
          limits
      · exact absurd same.symm closing.call_ne_not
    · exact absurd same.symm closing.call_ne_not
  · intro builds
    obtain ⟨negations, closing, later, split, distinct, allowed, limits, rfl⟩ :=
      exists_clause_of_builds builds
    rcases Clause.negation_or_closing split with ⟨_, fewer, rfl, rest⟩ | ⟨same, _⟩
    · have twice : Clause.filter ⟨name, fewer + 1, closing⟩ =
        Clause.filter ⟨name, fewer + 1 + 1, closing⟩ := rfl
      rw [twice]
      refine builds_of_clause ?_ distinct (by simpa [Clause.Allowed] using allowed) limits
      exact congrArg (List.cons .not) split
    · exact absurd same.symm closing.call_ne_not

theorem builds_closing_iff {negations : Nat} :
    s.Builds (.select name :: (List.replicate negations .not ++ [closing.call])) calls built ↔
      name ∉ s.filters.map (·.1) ∧ Clause.Allowed ⟨name, negations, closing⟩ ∧
        Builds { s with filters := s.filters ++ [Clause.filter ⟨name, negations, closing⟩] } []
          calls built := by
  constructor
  · intro builds
    obtain ⟨_, opening, absent⟩ := exists_select_of_builds builds
    cases opening
    obtain ⟨other, closing', later, split, distinct, allowed, limits, rfl⟩ :=
      exists_clause_of_builds builds
    rw [List.append_assoc, List.singleton_append] at split
    obtain ⟨rfl, rfl, rest⟩ := Clause.eq_of_opening_eq split
    refine ⟨absent, allowed _ (by simp), later, rest, ?_, ?_, limits, ?_⟩
    · simpa [Clause.filter] using distinct
    · exact fun c member => allowed c (List.mem_cons_of_mem _ member)
    · simp
  · intro given
    obtain ⟨_, allowed, later, rest, distinct, others, limits, rfl⟩ := given
    have distinct' : (s.filters.map (·.1) ++ name :: later.map Clause.name).Nodup := by
      simpa [Clause.filter] using distinct
    have split : List.replicate negations .not ++ [closing.call] ++ calls.filter Call.isPart =
        List.replicate negations .not ++ closing.call :: later.flatMap Clause.calls := by
      rw [List.append_assoc, List.singleton_append, ← rest, List.nil_append]
    have builds := builds_of_clause split distinct'
      (by simpa using ⟨allowed, others⟩) limits
    simpa using builds

theorem resolve_eq_ok_iff {c : Comparison} {op : Operator} {stage : Stage} :
    c.resolve stage.isNegated = .ok op ↔
      (0 < stage.negations → c.negated?.isSome = true) ∧
        op = if stage.negations = 0 then c.operator else c.negated?.getD c.operator := by
  rw [eq_comm (a := op)]
  cases stage with
  | idle | selected _ => simp [Comparison.resolve, Stage.isNegated, Stage.negations]
  | negated _ =>
    cases negation : c.negated? <;>
      simp [Comparison.resolve, Stage.isNegated, Stage.negations, negation]

/-- A comparison needs a pending attribute, a negation if it is negated, and operands. -/
theorem compare_eq_ok_iff {c : Comparison} {operands : List Value} {next : Scan} :
    s.compare c operands = .ok next ↔
      ∃ name op, s.stage.pending? = some name ∧ c.resolve s.stage.isNegated = .ok op ∧
        ¬(c.arity? = none ∧ operands = []) ∧
        { s with filters := replaceNamed name ⟨name, op, operands⟩ s.filters, stage := .idle } =
          next := by
  cases pending : s.stage.pending? with
  | none => simp [compare, pending, state]
  | some name =>
    cases resolved : c.resolve s.stage.isNegated with
    | error reason => simp [compare, pending, resolved, state]
    | ok op =>
      by_cases missing : c.arity? = none ∧ operands = []
      · simp [compare, pending, resolved, missing, state]
      · rw [compare, pending]
        simp only [resolved, if_neg missing, Except.ok.injEq]
        simp [missing]

theorem apply_closing_eq_ok_iff {next : Scan} :
    s.apply closing.call = .ok next ↔
      ∃ name, s.stage.pending? = some name ∧ Clause.Allowed ⟨name, s.stage.negations, closing⟩ ∧
        { s with
          filters := replaceNamed name (Clause.filter ⟨name, s.stage.negations, closing⟩).2 s.filters
          stage := .idle } = next := by
  cases closing with
  | compare c operands fits =>
    have given : ¬(c.arity? = none ∧ operands = []) := fun missing => by simp [missing.1] at fits
    simp [Closing.call, apply, compare_eq_ok_iff, resolve_eq_ok_iff, given, Clause.Allowed,
      Closing.Allowed, Clause.filter, Clause.operator, Closing.comparison, Closing.operands, and_assoc]
  | among values =>
    cases textual : Coercion.textsIn values with
    | true => simp [Closing.call, apply, among, textual, state, Clause.Allowed, Closing.Allowed]
    | false =>
      cases found : values.elements? with
      | none =>
        simp [Closing.call, apply, among, textual, Value.elements, found, Clause.Allowed,
          Closing.Allowed]
      | some items =>
        simp [Closing.call, apply, among, textual, Value.elements, found, compare_eq_ok_iff,
          resolve_eq_ok_iff, Clause.Allowed, Closing.Allowed, Clause.filter, Clause.operator,
          Closing.comparison, Closing.operands, Comparison.arity?, and_assoc]

theorem apply_of_not_isPart {call : Call} {next : Scan} (other : call.isPart = false) :
    s.apply call = .ok next ↔
      call.LimitAllowed ∧ { s with options := s.options.after [call] } = next := by
  cases call with
  | limit n =>
    cases n with
    | none => simp [apply, limit, Options.withLimit, Except.map, Call.LimitAllowed, Options.after,
        Call.limit?, Call.startKey?, Call.fields?]
    | some n =>
      by_cases small : n < 1
      · simp [apply, limit, Options.withLimit, small, Except.map, Call.LimitAllowed,
          Int.not_le.2 small]
      · have allowed : 1 ≤ n := Int.not_lt.1 small
        simp [apply, limit, Options.withLimit, small, Except.map, Call.LimitAllowed, allowed,
          Options.after, Call.limit?, Call.startKey?, Call.fields?]
  | and | startAt _ | project _ =>
    simp [apply, Call.LimitAllowed, Options.after, Options.withStartKey, Options.withFields,
      Call.limit?, Call.startKey?, Call.fields?]
  | _ => cases other

theorem select_eq_ok_iff {next : Scan} :
    s.apply (.select name) = .ok next ↔
      s.stage = .idle ∧ name ∉ s.filters.map (·.1) ∧ { s with stage := .selected name } = next := by
  by_cases present : name ∈ s.filters.map (·.1)
  · have found : (named? name s.filters).isSome = true := isSome_named?_iff.2 present
    cases staged : s.stage <;> simp [apply, select, Stage.pending?, staged, found, present, state]
  · have absent : (named? name s.filters).isSome = false := by
      rwa [Bool.eq_false_iff, ne_eq, isSome_named?_iff]
    cases staged : s.stage <;> simp [apply, select, Stage.pending?, staged, absent, present, state]

theorem negate_eq_ok_iff {next : Scan} :
    s.apply .not = .ok next ↔
      ∃ name, s.stage.pending? = some name ∧ { s with stage := .negated name } = next := by
  cases staged : s.stage <;> simp [apply, negate, Stage.pending?, staged, state]

/-- What a call makes of a scan where it succeeds. -/
inductive Applies (s : Scan) : Call → Scan → Prop where
  | option {call : Call} (other : call.isPart = false) (allowed : call.LimitAllowed) :
    Applies s call { s with options := s.options.after [call] }
  | select {name : String} (idle : s.stage = .idle) (absent : name ∉ s.filters.map (·.1)) :
    Applies s (.select name) { s with stage := .selected name }
  | negate {name : String} (pending : s.stage.pending? = some name) :
    Applies s .not { s with stage := .negated name }
  | close {name : String} {closing : Closing} (pending : s.stage.pending? = some name)
    (allowed : Clause.Allowed ⟨name, s.stage.negations, closing⟩) :
    Applies s closing.call { s with
      filters := replaceNamed name (Clause.filter ⟨name, s.stage.negations, closing⟩).2 s.filters
      stage := .idle }

theorem applies_of_ok {call : Call} {next : Scan} (applied : s.apply call = .ok next) :
    s.Applies call next := by
  cases part : call.isPart with
  | false =>
    obtain ⟨allowed, rfl⟩ := (apply_of_not_isPart part).1 applied
    exact .option part allowed
  | true =>
    rcases Call.eq_of_isPart part with ⟨name, rfl⟩ | rfl | ⟨closing, rfl⟩
    · obtain ⟨idle, absent, rfl⟩ := select_eq_ok_iff.1 applied
      exact .select idle absent
    · obtain ⟨name, pending, rfl⟩ := negate_eq_ok_iff.1 applied
      exact .negate pending
    · obtain ⟨name, pending, allowed, rfl⟩ := apply_closing_eq_ok_iff.1 applied
      exact .close pending allowed

theorem absent_of_pending (distinct : s.Distinct) (pending : s.stage.pending? = some name) :
    name ∉ s.filters.map (·.1) := by
  intro present
  rw [Distinct, pending] at distinct
  exact (List.nodup_append.1 distinct).2.2 _ present _ (by simp) rfl

theorem distinct_of_apply {call : Call} {next : Scan} (distinct : s.Distinct)
    (applied : s.apply call = .ok next) : next.Distinct := by
  cases applies_of_ok applied with
  | option => exact distinct
  | select idle absent =>
    simp only [Distinct, idle, Stage.pending?, Option.toList_none, List.append_nil] at distinct
    simp only [Distinct, Stage.pending?, Option.toList_some]
    rw [List.nodup_append]
    refine ⟨distinct, by simp, fun other member chosen only same => ?_⟩
    rw [List.mem_singleton.1 only] at same
    exact absent (same ▸ member)
  | negate pending => rwa [Distinct, pending] at distinct
  | close pending _ =>
    have absent := absent_of_pending distinct pending
    rw [Distinct, pending] at distinct
    simpa [Distinct, Stage.pending?, replaceNamed_of_not_mem _ absent] using distinct

theorem builds_select_iff :
    s.Builds (s.stage.calls ++ [.select name]) calls built ↔
      ∃ next, s.apply (.select name) = .ok next ∧ next.Builds next.stage.calls calls built := by
  cases staged : s.stage with
  | idle =>
    constructor
    · intro builds
      obtain ⟨_, opening, absent⟩ := exists_select_of_builds builds
      cases opening
      exact ⟨_, select_eq_ok_iff.2 ⟨staged, absent, rfl⟩, builds⟩
    · intro given
      obtain ⟨next, applied, builds⟩ := given
      obtain ⟨_, _, rfl⟩ := select_eq_ok_iff.1 applied
      exact builds
  | selected pending =>
    simp only [select_eq_ok_iff, staged, reduceCtorEq, false_and, exists_false, iff_false]
    exact not_builds_select_of_select
  | negated pending =>
    simp only [select_eq_ok_iff, staged, reduceCtorEq, false_and, exists_false, iff_false]
    exact not_builds_select_of_not

theorem builds_not_iff :
    s.Builds (s.stage.calls ++ [.not]) calls built ↔
      ∃ next, s.apply .not = .ok next ∧ next.Builds next.stage.calls calls built := by
  simp only [negate_eq_ok_iff]
  cases staged : s.stage with
  | idle =>
    simp only [Stage.pending?, reduceCtorEq, false_and, exists_false, iff_false]
    intro builds
    obtain ⟨_, opening, _⟩ := exists_select_of_builds builds
    cases opening
  | selected pending =>
    simp only [Stage.pending?, Option.some.injEq, exists_eq_left']
    exact Iff.rfl
  | negated pending =>
    simp only [Stage.pending?, Option.some.injEq, exists_eq_left']
    exact builds_not_not_iff

theorem builds_call_iff (distinct : s.Distinct) :
    s.Builds (s.stage.calls ++ [closing.call]) calls built ↔
      ∃ next, s.apply closing.call = .ok next ∧ next.Builds next.stage.calls calls built := by
  cases pending : s.stage.pending? with
  | none =>
    simp only [apply_closing_eq_ok_iff, pending, reduceCtorEq, false_and, exists_false, iff_false,
      Stage.calls]
    intro builds
    obtain ⟨_, opening, _⟩ := exists_select_of_builds builds
    exact closing.call_ne_select _ opening
  | some name =>
    have absent := absent_of_pending distinct pending
    simp only [Stage.calls, pending, List.cons_append, builds_closing_iff]
    constructor
    · intro given
      obtain ⟨_, allowed, builds⟩ := given
      refine ⟨_, apply_closing_eq_ok_iff.2 ⟨name, pending, allowed, rfl⟩, ?_⟩
      rwa [replaceNamed_of_not_mem _ absent]
    · intro given
      obtain ⟨next, applied, builds⟩ := given
      obtain ⟨other, chosen, allowed, rfl⟩ := apply_closing_eq_ok_iff.1 applied
      obtain rfl : name = other := Option.some.inj (pending.symm.trans chosen)
      rw [replaceNamed_of_not_mem _ absent] at builds
      exact ⟨absent, allowed, builds⟩

theorem builds_cons_iff {call : Call} (distinct : s.Distinct) :
    s.Builds s.stage.calls (call :: calls) built ↔
      ∃ next, s.apply call = .ok next ∧ next.Builds next.stage.calls calls built := by
  cases part : call.isPart with
  | false => simp [builds_cons_of_not_isPart part, apply_of_not_isPart part, and_assoc]
  | true =>
    rw [builds_cons_of_isPart part]
    rcases Call.eq_of_isPart part with ⟨name, rfl⟩ | rfl | ⟨closing, rfl⟩
    · exact builds_select_iff
    · exact builds_not_iff
    · exact builds_call_iff distinct

/-- Without calls nothing is built but the scan itself, unless a clause is begun. -/
theorem builds_nil_iff (distinct : s.Distinct) :
    s.Builds s.stage.calls [] built ↔ s = built ∧ built.stage = .idle := by
  constructor
  · intro builds
    cases pending : s.stage.pending? with
    | none =>
      obtain ⟨clauses, split, _, _, _, rfl⟩ := builds
      have idle : s.stage = .idle := by cases staged : s.stage <;> simp_all [Stage.pending?]
      cases clauses with
      | nil => simp [← idle, Options.after]
      | cons c later => simp [Stage.calls, pending, Clause.calls] at split
    | some name =>
      rw [Stage.calls, pending] at builds
      obtain ⟨negations, closing, later, split, _⟩ := exists_clause_of_builds builds
      have member : closing.call ∈ List.replicate s.stage.negations .not := by
        rw [← List.append_nil (List.replicate _ _), ← List.filter_nil, split]
        simp
      exact absurd (List.eq_of_mem_replicate member) closing.call_ne_not
  · intro given
    obtain ⟨rfl, idle⟩ := given
    rw [Distinct, idle, Stage.pending?, Option.toList_none] at distinct
    refine ⟨[], ?_, distinct, by simp, by simp, by simp [← idle, Options.after]⟩
    rw [idle]
    rfl

/-- All calls succeed and leave nothing pending exactly when they build the scan. -/
theorem applyAll_iff_builds (distinct : s.Distinct) :
    s.applyAll calls = .ok built ∧ built.stage = .idle ↔ s.Builds s.stage.calls calls built := by
  induction calls generalizing s with
  | nil => simp [applyAll, builds_nil_iff distinct]
  | cons call calls ih =>
    rw [builds_cons_iff distinct]
    cases applied : s.apply call with
    | error failure => simp [applyAll, applied, Except.bind]
    | ok next =>
      simp [applyAll, applied, Except.bind, ih (distinct_of_apply distinct applied)]

theorem distinct_start (m : Model) (schema : Schema) (o : Options) : (start m schema o).Distinct := by
  simp [start, Distinct, Stage.pending?]

/-- A new scan with an attribute is one on which that attribute is selected first. -/
theorem create_bind_applyAll (m : Model) (schema : Schema) (o : Options)
    (selected : Option String) (calls : List Call) :
    (create m schema o selected).bind (applyAll · calls) =
      (start m schema o).applyAll ((selected.map Call.select).toList ++ calls) := by
  cases selected <;> rfl

/-- From a new scan, all calls succeed and leave nothing pending exactly when those that set no
option are the calls of clauses about distinct attributes with allowed arguments, and every limit is
positive. The scan then has one filter for each clause, in order, and of each option the last that
was set. -/
theorem applyAll_create_iff (m : Model) (schema : Schema) (o : Options) (selected : Option String)
    (calls : List Call) (built : Scan) :
    (create m schema o selected).bind (applyAll · calls) = .ok built ∧ built.stage = .idle ↔
      ∃ clauses : List Clause,
        (selected.map Call.select).toList ++ calls.filter Call.isPart =
          clauses.flatMap Clause.calls ∧
        (clauses.map Clause.name).Nodup ∧ (∀ c ∈ clauses, c.Allowed) ∧
        (∀ call ∈ calls, call.LimitAllowed) ∧
        built = ⟨m, schema, o.after calls, clauses.map Clause.filter, .idle, false⟩ := by
  rw [create_bind_applyAll, applyAll_iff_builds (distinct_start m schema o)]
  cases selected with
  | none => exact Iff.rfl
  | some name =>
    exact (builds_cons_of_isPart rfl : (start m schema o).Builds [] (.select name :: calls) built ↔ _)

end Scan

end TableScan
