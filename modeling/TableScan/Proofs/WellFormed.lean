import TableScan.Sample
import TableScan.Proofs.Requests
import TableScan.Proofs.Sending

/-! Drafts and requests that are well formed. Main statement: over any run of steps, failing ones
included, a draft has a name pending just while a comparison is due, keeps its filters under
distinct names with as many operands as their operators take, and sends only requests that pose the
comparisons finished before, in order, on declared attributes. -/

namespace TableScan

def Operator.Takes : Operator → Nat → Prop
  | .null, n | .notNull, n => n = 0
  | .between, n => n = 2
  | .isIn, n => 1 ≤ n
  | _, n => n = 1

def Comparison.Admits (c : Comparison) (n : Nat) : Prop :=
  match c.arity? with
  | some arity => n = arity
  | none => 1 ≤ n

/-- The operator is that of a comparison, or its negation, with as many operands as the comparison
can have. -/
def Filter.MatchesRow (f : Filter) : Prop :=
  ∃ c : Comparison, (f.operator = c.operator ∨ c.negated? = some f.operator) ∧
    c.Admits f.operands.length

theorem Comparison.takes_of_admits {c : Comparison} {op : Operator} {n : Nat}
    (row : op = c.operator ∨ c.negated? = some op) (admits : c.Admits n) : op.Takes n := by
  rcases row with rfl | negation
  · cases c <;> exact admits
  · cases c <;> cases negation <;> exact admits

theorem Clause.matchesRow_filter {c : Clause} (allowed : c.Allowed) : c.filter.2.MatchesRow := by
  refine ⟨c.closing.comparison, ?_, ?_⟩
  · by_cases plain : c.negations = 0
    · exact .inl (if_pos plain)
    · obtain ⟨op, negation⟩ := Option.isSome_iff_exists.1 (allowed.1 (Nat.pos_of_ne_zero plain))
      right
      simp [filter, operator, plain, negation]
  · obtain ⟨name, negations, closing⟩ := c
    cases closing with
    | compare c operands fits =>
      simp [Comparison.Admits, Closing.comparison, filter, Closing.operands, fits]
    | among values =>
      obtain ⟨_, items, found, nonempty⟩ := allowed.2
      have given : 1 ≤ items.length := List.length_pos_of_ne_nil nonempty
      simpa [Comparison.Admits, Closing.comparison, Comparison.arity?, filter, Closing.operands,
        found] using given

namespace Draft.Step

def operands? : Draft.Step → Option (List Value)
  | .null => some []
  | .eq operand | .lt operand | .le operand | .ge operand | .gt operand => some [operand]
  | .contains operand | .beginsWith operand => some [operand]
  | .among values => values.elements?
  | .between low high => some [low, high]
  | _ => none

theorem operands?_of_closing {step : Draft.Step} {closing : Closing}
    (means : step.call? = some closing.call) (allowed : closing.Allowed) :
    step.operands? = some closing.operands := by
  cases closing with
  | compare c operands fits =>
    cases step <;> cases means <;> rfl
  | among values =>
    obtain ⟨_, items, found, _⟩ := allowed
    cases step <;> cases means
    simp [operands?, Closing.operands, found]

theorem operands?_of_other {step : Draft.Step} {call : Call} (means : step.call? = some call)
    (other : ∀ closing : Closing, call ≠ closing.call) : step.operands? = none := by
  cases step with
  | among values =>
    cases means
    exact absurd rfl (other (.among values))
  | null | eq _ | lt _ | le _ | ge _ | gt _ | contains _ | beginsWith _ | between _ _ =>
    cases means
    exact absurd rfl (other (.compare _ _ rfl))
  | _ => rfl

end Draft.Step

/-- The comparison that a step on a draft finishes, if it succeeds. -/
def Draft.finishing (d : Draft) (step : Draft.Step) (result : Except Failure Draft.Answer) :
    List (String × List Value) :=
  match result, d.pending, step.operands? with
  | .ok _, some name, some operands => [(name, operands)]
  | _, _, _ => []

theorem Draft.finishing_of_operands_eq_none {d : Draft} {step : Draft.Step}
    {result : Except Failure Draft.Answer} (other : step.operands? = none) :
    d.finishing step result = [] := by
  cases result <;> cases pending : d.pending <;> simp [finishing, pending, other]

/-- The comparisons that a run finishes, in order: the attribute of each and its operands. -/
def Desk.finished {σ : Type} (send : Request → σ → Reply × σ) :
    List Draft.Step → Desk σ → List (String × List Value)
  | [], _ => []
  | step :: steps, desk =>
    let (result, next) := desk.step send step
    desk.draft.finishing step result ++ next.finished send steps

structure Draft.WellFormed (d : Draft) : Prop where
  idle_iff : d.status = .idle ↔ d.pending = none
  unfiltered : ∀ name, d.pending = some name → name ∉ d.filters.map (·.1)
  distinct : (d.filters.map (·.1)).Nodup
  named : ∀ entry ∈ d.filters, entry.2.name = entry.1
  rows : ∀ entry ∈ d.filters, entry.2.MatchesRow
  counted : ∀ entry ∈ d.filters, entry.2.operator.Takes entry.2.operands.length

namespace Request

def Poses (asked : String × List Value) (entry : Value × Value) : Prop :=
  ∃ (op : Operator) (values : List Value),
    entry = (.text asked.1, .map [(.text "ComparisonOperator", .text op.wireName),
      (.text "AttributeValueList", .list values)]) ∧
    values.length = asked.2.length ∧ op.Takes values.length ∧
    ∀ v ∈ values, AttributeValue.IsTagged v

/-- A mapping that asks for the rows of a table for which all of the comparisons hold. -/
structure Asks (table : String) (schema : Schema) (compared : List (String × List Value))
    (v : Value) : Prop where
  table : v.entryAt? "TableName" = some (.text table)
  distinct : (compared.map (·.1)).Nodup
  declared : ∀ asked ∈ compared, asked.1 ∈ schema.names
  unfiltered : compared = [] → v.entryAt? "ScanFilter" = none
  filtered : compared ≠ [] → ∃ conditions, v.entryAt? "ScanFilter" = some (.map conditions) ∧
    List.Forall₂ Poses compared conditions
  fields : ∀ w, v.entryAt? "AttributesToGet" = some w →
    ∃ names : List String, names ≠ [] ∧ w = .list (names.map .text)
  limit : ∀ w, v.entryAt? "Limit" = some w → ∃ n : Int, 1 ≤ n ∧ w = .int n

end Request

namespace Scan

variable {s next : Scan} {call : Call}

/-- A call that finishes a clause adds the clause's filter, and any other keeps the filters. -/
theorem filters_of_apply (distinct : s.Distinct) (applied : s.apply call = .ok next) :
    (next.filters = s.filters ∧ ∀ closing : Closing, call ≠ closing.call) ∨
      ∃ closing name, call = closing.call ∧ s.stage.pending? = some name ∧
        Clause.Allowed ⟨name, s.stage.negations, closing⟩ ∧
        next.filters = s.filters ++ [Clause.filter ⟨name, s.stage.negations, closing⟩] := by
  cases applies_of_ok applied with
  | option other _ =>
    refine .inl ⟨rfl, fun closing same => ?_⟩
    subst same
    cases closing <;> cases other
  | select => exact .inl ⟨rfl, fun closing same => closing.call_ne_select _ same.symm⟩
  | negate => exact .inl ⟨rfl, fun closing same => closing.call_ne_not same.symm⟩
  | close pending allowed =>
    have absent := absent_of_pending distinct pending
    exact .inr ⟨_, _, rfl, pending, allowed, replaceNamed_of_not_mem _ absent⟩

def LimitPositive (s : Scan) : Prop := ∀ n, s.options.limit = some n → 1 ≤ n

theorem limitPositive_of_apply (positive : s.LimitPositive) (applied : s.apply call = .ok next) :
    next.LimitPositive := by
  cases applies_of_ok applied with
  | option _ allowed =>
    intro n limited
    cases call with
    | limit given =>
      obtain rfl : given = some n := limited
      exact allowed
    | _ => exact positive n limited
  | select | negate | close => exact positive

/-- A scan of a model's table whose filters stand for the comparisons, in order. -/
structure Compares (m : Model) (schema : Schema) (compared : List (String × List Value))
    (s : Scan) : Prop where
  model : s.model = m
  schema : s.schema = schema
  filters : s.filters.map (fun entry => (entry.1, entry.2.operands)) = compared
  distinct : s.Distinct
  named : ∀ entry ∈ s.filters, entry.2.name = entry.1
  rows : ∀ entry ∈ s.filters, entry.2.MatchesRow
  limit : s.LimitPositive

namespace Compares

variable {m : Model} {schema : Schema} {compared : List (String × List Value)} {σ : Type}
  {send : Request → σ → Reply × σ} {store after : σ} {step : Draft.Step}
  {result : Except Failure Draft.Answer}

theorem keys (compares : s.Compares m schema compared) :
    s.filters.map (·.1) = compared.map (·.1) := by
  rw [← compares.filters, List.map_map]
  rfl

theorem nodup (compares : s.Compares m schema compared) : (compared.map (·.1)).Nodup := by
  rw [← compares.keys]
  exact (List.nodup_append.1 compares.distinct).1

theorem counted (compares : s.Compares m schema compared) :
    ∀ entry ∈ s.filters, entry.2.operator.Takes entry.2.operands.length := by
  intro entry member
  obtain ⟨c, row, admits⟩ := compares.rows entry member
  exact Comparison.takes_of_admits row admits

theorem wellFormed (compares : s.Compares m schema compared) : (Draft.ofScan s).WellFormed where
  idle_iff := Draft.status_ofScan_eq_idle_iff
  unfiltered _ pending := absent_of_pending compares.distinct pending
  distinct := (List.nodup_append.1 compares.distinct).1
  named := compares.named
  rows := compares.rows
  counted := compares.counted

theorem of_apply (compares : s.Compares m schema compared) (means : step.call? = some call)
    (applied : s.apply call = .ok next) :
    next.Compares m schema (compared ++ (Draft.ofScan s).finishing step (.ok .draft)) := by
  obtain ⟨model, schemas, _⟩ := frame_of_apply applied
  have distinct := distinct_of_apply compares.distinct applied
  have limit := limitPositive_of_apply compares.limit applied
  rcases filters_of_apply compares.distinct applied with
    ⟨same, other⟩ | ⟨closing, name, rfl, pending, allowed, added⟩
  · have silent := Draft.Step.operands?_of_other means other
    rw [Draft.finishing_of_operands_eq_none silent, List.append_nil]
    exact ⟨model.trans compares.model, schemas.trans compares.schema, same ▸ compares.filters,
      distinct, same ▸ compares.named, same ▸ compares.rows, limit⟩
  · have finishes : (Draft.ofScan s).finishing step (.ok .draft) = [(name, closing.operands)] := by
      simp only [Draft.finishing, Draft.ofScan, pending,
        Draft.Step.operands?_of_closing means allowed.2]
    refine ⟨model.trans compares.model, schemas.trans compares.schema, ?_, distinct, ?_, ?_, limit⟩
    · rw [finishes, added, List.map_append, compares.filters]
      rfl
    · rw [added]
      exact List.forall_mem_append.2 ⟨compares.named, List.forall_mem_singleton.2 rfl⟩
    · rw [added]
      have row := Clause.matchesRow_filter allowed
      exact List.forall_mem_append.2 ⟨compares.rows, List.forall_mem_singleton.2 row⟩

theorem of_takes (compares : s.Compares m schema compared)
    (takes : s.Takes send store step result next after) :
    next.Compares m schema (compared ++ (Draft.ofScan s).finishing step result) := by
  cases takes with
  | called means applied => exact compares.of_apply means applied
  | refused | unbuilt | unsent | again => simpa [Draft.finishing] using compares
  | built | sent =>
    rw [Draft.finishing_of_operands_eq_none rfl, List.append_nil]
    exact { compares with }

/-- The conditions of a request that is built from a filter for each comparison. -/
theorem poses_of_forall₂ {conditions : List (String × Condition)}
    (compares : s.Compares m schema compared)
    (each : List.Forall₂ (fun entry condition => condition.1 = entry.1 ∧
      entry.1 ∈ s.schema.names ∧ condition.2.operator = entry.2.operator ∧
        condition.2.operands.length = entry.2.operands.length) s.filters conditions) :
    List.Forall₂ Request.Poses compared
      (conditions.map fun (key, c) => (.text key, c.toValue)) := by
  rw [← compares.filters, List.forall₂_map_left_iff, List.forall₂_map_right_iff]
  refine ((List.forall₂_and_left _ _).2 ⟨compares.counted, each⟩).imp fun entry condition one => ?_
  obtain ⟨_, c⟩ := condition
  obtain ⟨takes, rfl, _, operator, length⟩ := one
  refine ⟨c.operator, c.operands.map AttributeValue.toValue, rfl, ?_, ?_, ?_⟩
  · rw [List.length_map, length]
  · rwa [List.length_map, length, operator]
  · intro v member
    obtain ⟨w, _, rfl⟩ := List.mem_map.1 member
    exact w.isTagged_toValue

theorem asks_of_built {request : Request} (compares : s.Compares m schema compared)
    (built : s.buildRequest = .ok request) :
    Request.Asks m.tableName schema compared request.toValue := by
  have made : Request.build s.schema s.model.tableName s.filters s.options = .ok request := by
    rw [buildRequest] at built
    cases pending : s.stage.pending? <;> simp_all [state]
  obtain ⟨table, fields, limit, each⟩ := Request.forall₂_of_build made
  have declared : ∀ entry ∈ s.filters, entry.1 ∈ s.schema.names :=
    ((List.forall₂_and_left _ _).1 (each.imp fun _ _ one => ⟨one.2.1, one⟩)).1
  -- there are as many conditions as filters, so neither or both are empty
  have empty_iff : request.conditions.isEmpty = true ↔ compared = [] := by
    rw [List.isEmpty_iff, ← List.length_eq_zero_iff, ← each.length_eq, ← compares.filters,
      List.map_eq_nil_iff, List.length_eq_zero_iff]
  refine ⟨?_, compares.nodup, ?_, ?_, ?_, ?_, ?_⟩
  · rw [Request.entryAt?_tableName, table, compares.model]
  · intro asked member
    rw [← compares.filters] at member
    obtain ⟨entry, kept, rfl⟩ := List.mem_map.1 member
    exact compares.schema ▸ declared entry kept
  · intro empty
    rw [Request.entryAt?_scanFilter, empty_iff.2 empty]
    rfl
  · intro some
    rw [Request.entryAt?_scanFilter, if_pos (Bool.eq_false_iff.2 (mt empty_iff.1 some))]
    exact ⟨_, rfl, compares.poses_of_forall₂ each⟩
  · intro w found
    rw [Request.entryAt?_attributesToGet] at found
    split at found
    · next some =>
      cases found
      exact ⟨request.fields, by simpa using some, rfl⟩
    · cases found
  · intro w found
    rw [Request.entryAt?_limit, Option.map_eq_some_iff] at found
    obtain ⟨n, limited, rfl⟩ := found
    exact ⟨n, compares.limit n (limit ▸ limited), rfl⟩

end Compares

theorem heard_of_takes {σ : Type} {reply : Request → σ → Reply × σ} {h after : Heard σ}
    {step : Draft.Step} {result : Except Failure Draft.Answer} {request : Request}
    (takes : s.Takes (Heard.send reply) h step result next after)
    (heard : request ∈ after.requests) :
    request ∈ h.requests ∨ step = .execute ∧ s.buildRequest = .ok request := by
  cases takes with
  | called | refused | built | unbuilt | unsent | again => exact .inl heard
  | sent _ builds =>
    rcases List.mem_append.1 heard with old | new
    · exact .inl old
    · exact .inr ⟨rfl, List.mem_singleton.1 new ▸ builds⟩

end Scan

namespace Desk

open Draft (ofScan)

variable {σ : Type}

/-- After a run the filters stand for the comparisons finished in it, and every request that it sent
was built at an execution and asks for the comparisons finished before. -/
theorem compares_of_run {reply : Request → σ → Reply × σ} {m : Model} {schema : Schema}
    (steps : List Draft.Step) {s : Scan} {h : Heard σ} {compared : List (String × List Value)}
    (compares : s.Compares m schema compared) :
    let send := Heard.send reply
    let desk : Desk (Heard σ) := ⟨ofScan s, h⟩
    ∃ final after, (desk.run send steps).2 = ⟨ofScan final, after⟩ ∧
      final.Compares m schema (compared ++ desk.finished send steps) ∧
      ∀ request ∈ after.requests, request ∈ h.requests ∨
        ∃ before rest, steps = before ++ .execute :: rest ∧
          ((desk.run send before).2.step send .build).1 = .ok (.request request) ∧
          Request.Asks m.tableName schema (compared ++ desk.finished send before)
            request.toValue := by
  induction steps generalizing s h compared with
  | nil =>
    intro send desk
    refine ⟨s, h, rfl, ?_, fun request member => .inl member⟩
    rw [finished, List.append_nil]
    exact compares
  | cons step steps ih =>
    intro send desk
    obtain ⟨result, next, between, taken, takes⟩ := s.exists_takes send h step
    obtain ⟨final, after, done, comparing, asked⟩ := ih (compares.of_takes takes) (h := between)
    have later (before : List Draft.Step) : desk.finished send (step :: before) =
        (ofScan s).finishing step result ++ Desk.finished send before ⟨ofScan next, between⟩ := by
      rw [finished, taken]
    refine ⟨final, after, ?_, ?_, ?_⟩
    · rw [run, taken]
      exact done
    · rw [later, ← List.append_assoc]
      exact comparing
    · intro request member
      -- a request was heard before this step, is sent by it, or is sent later
      rcases asked request member with heard | ⟨before, rest, rfl, built, asks⟩
      · rcases Scan.heard_of_takes takes heard with old | ⟨rfl, built⟩
        · exact .inl old
        · refine .inr ⟨[], steps, rfl, ?_, ?_⟩
          · rw [run, step_build, built]
            rfl
          · rw [finished, List.append_nil]
            exact compares.asks_of_built built
      · refine .inr ⟨step :: before, rest, rfl, ?_, ?_⟩
        · rw [run, taken]
          exact built
        · rw [later, ← List.append_assoc]
          exact asks

/-- Over any run of steps on a new draft whose limit, if it has one, is positive: the draft is well
formed, and every request that reaches the store is the one that could be built at some execution,
and asks for the comparisons that were finished before it. -/
theorem requests_wellFormed (m : Model) (schema : Schema) (o : Options)
    (positive : ∀ n, o.limit = some n → 1 ≤ n) (selected : Option String)
    (reply : Request → σ → Reply × σ) (store : σ) (steps : List Draft.Step) :
    let send := Heard.send reply
    let opened := (create m schema o selected ⟨store, []⟩).2
    let desk := (opened.run send steps).2
    desk.draft.WellFormed ∧ ∀ request ∈ desk.store.requests,
      ∃ before after, steps = before ++ .execute :: after ∧
        ((opened.run send before).2.step send .build).1 = .ok (.request request) ∧
        Request.Asks m.tableName schema (opened.finished send before) request.toValue := by
  intro send opened desk
  have begins : (Scan.opened m schema o selected).Compares m schema [] := by
    refine ⟨rfl, rfl, rfl, ?_, by simp [Scan.opened], by simp [Scan.opened], positive⟩
    cases selected <;> simp [Scan.opened, Scan.Distinct, Stage.pending?]
  have here : opened = ⟨ofScan (.opened m schema o selected), ⟨store, []⟩⟩ :=
    congrArg Prod.snd (create_eq m schema o selected _)
  obtain ⟨final, after, done, comparing, asked⟩ := compares_of_run steps begins (h := ⟨store, []⟩)
  rw [show desk = ⟨ofScan final, after⟩ by rw [← done, ← here]]
  refine ⟨comparing.wellFormed, fun request member => ?_⟩
  rcases asked request member with old | ⟨before, rest, split, built, asks⟩
  · cases old
  · rw [here]
    exact ⟨before, rest, split, built, asks⟩

/-- The first execution comes too early, and what is compared after the second is not asked for. -/
theorem requests_wellFormed_adults :
    let o : Options := { Options.none with limit := some 10 }
    let steps : List Draft.Step := [.select "age", .not, .execute, .lt (.int 21), .limit (some 0),
      .execute, .select "name", .null]
    let send := Heard.send fun _ (store : Unit) => (.error (.transport .noRegion), store)
    let opened := (create Sample.user (.ofModel Sample.user) o none ⟨(), []⟩).2
    let desk := (opened.run send steps).2
    desk.draft.WellFormed ∧ desk.store.requests.length = 1 ∧
      ∀ request ∈ desk.store.requests, ∃ before after, steps = before ++ .execute :: after ∧
        ((opened.run send before).2.step send .build).1 = .ok (.request request) ∧
        Request.Asks "users" (.ofModel Sample.user) (opened.finished send before)
          request.toValue := by
  intro o steps send opened desk
  have positive : ∀ n, o.limit = some n → 1 ≤ n := by
    rintro n ⟨⟩
    decide
  have formed := requests_wellFormed Sample.user (.ofModel Sample.user) o positive none
    (fun _ (store : Unit) => (.error (.transport .noRegion), store)) () steps
  exact ⟨formed.1, rfl, formed.2⟩

end Desk

end TableScan
