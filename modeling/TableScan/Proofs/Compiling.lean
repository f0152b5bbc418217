import TableScan.Sample
import TableScan.Proofs.Encoding

/-! Requests compiled from filters. Main statement: a request is built exactly when every filter is on
a declared attribute and its operands encode, and then shows each filter by itself, in order;
otherwise the first filter that fails says why. -/

namespace TableScan

open Attempt

namespace Schema

def Keyed (s : Schema) : Prop := ∀ name a, s.attribute? name = some a → a.name = name

theorem keyed_ofModel (m : Model) : (ofModel m).Keyed := by
  intro name a declared
  obtain ⟨f, -, stored, rfl⟩ := exists_field_of_attribute? declared
  exact stored

variable {s : Schema} {name : String} {element : Bool} {v : Value}

theorem find_eq_ok_iff {a : Attribute} : s.find name = .ok a ↔ s.attribute? name = some a := by
  unfold find
  split
  · next found => simp [found]
  · next found => simp [found]

theorem mem_names_iff : name ∈ s.names ↔ ∃ a, s.attribute? name = some a := by
  rw [names, ← isSome_named?_iff, Option.isSome_iff_exists]
  rfl

theorem find_of_not_mem (absent : name ∉ s.names) :
    s.find name = .error (.unknownAttribute name s.model s.names) := by
  unfold find
  split
  · next found => exact absurd (mem_names_iff.2 ⟨_, found⟩) absent
  · rfl

theorem encode_of_declared {a : Attribute} (declared : s.attribute? name = some a) :
    s.encode name element v = a.encode element v := by
  rw [encode, find_eq_ok_iff.2 declared]
  rfl

/-- An operand that fails is reported with the name that it was encoded under, unless it stumbles. -/
theorem encoding_iff_of_encode_eq_error (keyed : s.Keyed) {a : Attribute} {failure : Failure}
    (declared : s.attribute? name = some a) (failed : s.encode name element v = .error failure) :
    (∃ cause, failure = .encoding name cause) ↔ ¬Coercion.Stumbles (a.operandType element) v := by
  rw [encode_of_declared declared] at failed
  rw [← Attribute.closed_iff, failed, keyed name a declared]
  constructor
  · rintro ⟨cause, rfl⟩
    exact .refused cause
  · intro closed
    cases closed with
    | refused cause => exact ⟨cause, rfl⟩
    | undeclared => exact absurd failed Attribute.encode_ne_unknownAttribute

end Schema

/-- The filter is on a declared attribute, and each of its operands encodes for it. -/
structure Encodes (s : Schema) (key : String) (f : Filter) : Prop where
  declared : key ∈ s.names
  operands : ∀ v ∈ f.operands, ∃ w, s.encode key f.operator.onElement v = .ok w

/-- A filter fails for an attribute that is not declared, whatever its operands are, and else for the
first of its operands that does not encode. -/
inductive FailsWith (s : Schema) (key : String) (f : Filter) : Failure → Prop where
  | undeclared (absent : key ∉ s.names) : FailsWith s key f (.unknownAttribute key s.model s.names)
  | operand {before after : List Value} {v : Value} {failure : Failure} (declared : key ∈ s.names)
    (split : f.operands = before ++ v :: after)
    (passed : ∀ u ∈ before, ∃ w, s.encode key f.operator.onElement u = .ok w)
    (failed : s.encode key f.operator.onElement v = .error failure) : FailsWith s key f failure

/-- The entry that shows a filter: its operator's name and, position by position, what its operands
are encoded to. -/
inductive ShowsFilter (s : Schema) (key : String) (f : Filter) : Value × Value → Prop where
  | shown {encoded : List AttributeValue}
    (each : List.Forall₂ (fun v w => s.encode key f.operator.onElement v = .ok w) f.operands encoded) :
    ShowsFilter s key f (.text key, .map [(.text "ComparisonOperator", .text f.operator.wireName),
      (.text "AttributeValueList", .list (encoded.map AttributeValue.toValue))])

/-- A mapping that shows filters and options; what is empty or absent is left out. -/
structure Shows (s : Schema) (table : String) (filters : List (String × Filter)) (o : Options)
    (shown : Value) : Prop where
  table : shown.entryAt? "TableName" = some (.text table)
  unfiltered : shown.entryAt? "ScanFilter" = none ↔ filters = []
  filtered : filters ≠ [] → ∃ entries, shown.entryAt? "ScanFilter" = some (.map entries) ∧
    List.Forall₂ (fun filter entry => ShowsFilter s filter.1 filter.2 entry) filters entries
  fields : shown.entryAt? "AttributesToGet" =
    if o.fields = [] then none else some (.list (o.fields.map .text))
  limit : shown.entryAt? "Limit" = o.limit.map .int
  startKey : shown.entryAt? "ExclusiveStartKey" = o.startKey

namespace Request

variable {s : Schema} {key : String} {f : Filter}

theorem ShowsFilter.unique {entry other : Value × Value} (one : ShowsFilter s key f entry)
    (two : ShowsFilter s key f other) : entry = other := by
  obtain ⟨each⟩ := one
  obtain ⟨each'⟩ := two
  have same := mapM_eq_ok_iff.2 each
  rw [mapM_eq_ok_iff.2 each', Except.ok.injEq] at same
  rw [same]

theorem ofFilter_of_declared {a : Attribute} (declared : s.attribute? key = some a) :
    Condition.ofFilter s key f =
      (f.operands.mapM (s.encode key f.operator.onElement)).map (⟨f.operator, ·⟩) := by
  have operands : s.encode key f.operator.onElement = a.encode f.operator.onElement :=
    funext fun _ => Schema.encode_of_declared declared
  rw [Condition.ofFilter, Schema.find_eq_ok_iff.2 declared, ok_bind, encodeAll_eq_mapM, operands]
  cases f.operands.mapM (a.encode f.operator.onElement) <;> rfl

theorem ofFilter_eq_ok_iff {c : Condition} :
    Condition.ofFilter s key f = .ok c ↔ key ∈ s.names ∧ c.operator = f.operator ∧
      List.Forall₂ (fun v w => s.encode key f.operator.onElement v = .ok w) f.operands c.operands := by
  by_cases declared : key ∈ s.names
  · obtain ⟨a, found⟩ := Schema.mem_names_iff.1 declared
    rw [ofFilter_of_declared found, map_eq_ok_iff, ← mapM_eq_ok_iff]
    constructor
    · rintro ⟨encoded, done, rfl⟩
      exact ⟨declared, rfl, done⟩
    · rintro ⟨-, same, done⟩
      exact ⟨c.operands, done, by rw [← same]⟩
  · simp [Condition.ofFilter, Schema.find_of_not_mem declared, declared]

theorem ofFilter_eq_error_iff {failure : Failure} :
    Condition.ofFilter s key f = .error failure ↔ FailsWith s key f failure := by
  by_cases declared : key ∈ s.names
  · obtain ⟨a, found⟩ := Schema.mem_names_iff.1 declared
    rw [ofFilter_of_declared found, map_eq_error_iff, mapM_eq_error_iff]
    constructor
    · rintro ⟨before, v, after, split, passed, failed⟩
      exact .operand declared split passed failed
    · intro fails
      cases fails with
      | undeclared absent => exact absurd declared absent
      | operand _ split passed failed => exact ⟨_, _, _, split, passed, failed⟩
  · rw [Condition.ofFilter, Schema.find_of_not_mem declared, error_bind, Except.error.injEq]
    constructor
    · rintro rfl
      exact .undeclared declared
    · intro fails
      cases fails with
      | undeclared => rfl
      | operand known => exact absurd known declared

theorem exists_ofFilter_iff : (∃ c, Condition.ofFilter s key f = .ok c) ↔ Encodes s key f := by
  by_cases declared : key ∈ s.names
  · obtain ⟨a, found⟩ := Schema.mem_names_iff.1 declared
    have operands : (∃ c, Condition.ofFilter s key f = .ok c) ↔
        ∃ ws, f.operands.mapM (s.encode key f.operator.onElement) = .ok ws := by
      rw [ofFilter_of_declared found]
      cases f.operands.mapM (s.encode key f.operator.onElement) <;> simp
    rw [operands, exists_mapM_iff]
    exact ⟨.mk declared, Encodes.operands⟩
  · rw [Condition.ofFilter, Schema.find_of_not_mem declared, error_bind]
    exact iff_of_false nofun fun encodes => declared encodes.declared

variable {table : String} {filters : List (String × Filter)} {o : Options}

theorem build_eq (s : Schema) (table : String) (filters : List (String × Filter)) (o : Options) :
    build s table filters o =
      (filters.mapM fun entry => (Condition.ofFilter s entry.1 entry.2).map (entry.1, ·)).map
        (⟨table, ·, o.fields, o.limit, o.startKey⟩) := by
  rw [build, conditionsOf_eq_mapM]
  cases filters.mapM fun entry => (Condition.ofFilter s entry.1 entry.2).map (entry.1, ·) <;> rfl

theorem exists_condition_iff {entry : String × Filter} :
    (∃ c, (Condition.ofFilter s entry.1 entry.2).map (entry.1, ·) = .ok c) ↔
      Encodes s entry.1 entry.2 := by
  rw [← exists_ofFilter_iff]
  simp only [map_eq_ok_iff]
  exact ⟨fun ⟨_, c, made, _⟩ => ⟨c, made⟩, fun ⟨c, made⟩ => ⟨_, c, made, rfl⟩⟩

/-- A request is not built just if some filter fails, and the first that does says why. -/
theorem build_eq_error_iff {failure : Failure} :
    build s table filters o = .error failure ↔
      ∃ before entry after, filters = before ++ entry :: after ∧
        (∀ other ∈ before, Encodes s other.1 other.2) ∧ FailsWith s entry.1 entry.2 failure := by
  rw [build_eq, map_eq_error_iff, mapM_eq_error_iff]
  simp only [exists_condition_iff, map_eq_error_iff, ofFilter_eq_error_iff]

theorem exists_build_iff :
    (∃ r, build s table filters o = .ok r) ↔ ∀ entry ∈ filters, Encodes s entry.1 entry.2 := by
  simp only [← exists_condition_iff]
  rw [← exists_mapM_iff, build_eq]
  cases filters.mapM fun entry => (Condition.ofFilter s entry.1 entry.2).map (entry.1, ·) <;> simp

theorem entryAt?_startKey (r : Request) : r.toValue.entryAt? "ExclusiveStartKey" = r.startKey := by
  simp [entryAt?_toValue]

theorem showsFilter_of_ofFilter {c : Condition} (made : Condition.ofFilter s key f = .ok c) :
    ShowsFilter s key f (.text key, c.toValue) := by
  obtain ⟨-, operator, each⟩ := ofFilter_eq_ok_iff.1 made
  rw [Condition.toValue, operator]
  exact .shown each

theorem shows_of_build {r : Request} (built : build s table filters o = .ok r) :
    Shows s table filters o r.toValue := by
  rw [build_eq] at built
  obtain ⟨conditions, made, rfl⟩ := map_eq_ok_iff.1 built
  have each := mapM_eq_ok_iff.1 made
  have empty : conditions.isEmpty = filters.isEmpty := by
    cases each <;> rfl
  refine ⟨entryAt?_tableName _, ?_, fun some => ?_, ?_, entryAt?_limit _, entryAt?_startKey _⟩
  · simp [entryAt?_scanFilter, empty]
  · refine ⟨conditions.map fun condition => (.text condition.1, condition.2.toValue), ?_, ?_⟩
    · simp [entryAt?_scanFilter, empty, some]
    · refine List.forall₂_map_right_iff.2 (each.imp fun entry condition one => ?_)
      obtain ⟨c, made, rfl⟩ := map_eq_ok_iff.1 one
      exact showsFilter_of_ofFilter made
  · rw [entryAt?_attributesToGet]
    cases o.fields <;> rfl

/-- Requests are built from filters one by one: exactly when all are on declared attributes and their
operands encode, and then each is shown by itself, in its place. Otherwise the first that fails says
why: its attribute is not declared, or else the first of its operands that does not encode is reported
with the filter's key exactly if it does not stumble as it is fitted. -/
theorem build_entrywise (keyed : s.Keyed) (table : String) (filters : List (String × Filter))
    (o : Options) :
    ((∃ r, build s table filters o = .ok r) ↔ ∀ entry ∈ filters, Encodes s entry.1 entry.2) ∧
    (∀ r, build s table filters o = .ok r → Shows s table filters o r.toValue) ∧
    (∀ key f entry other, ShowsFilter s key f entry → ShowsFilter s key f other → entry = other) ∧
    (∀ failure, build s table filters o = .error failure ↔
      ∃ before entry after, filters = before ++ entry :: after ∧
        (∀ other ∈ before, Encodes s other.1 other.2) ∧ FailsWith s entry.1 entry.2 failure) ∧
    ∀ key a element v failure, s.attribute? key = some a →
      s.encode key element v = .error failure →
        ((∃ cause, failure = .encoding key cause) ↔
          ¬Coercion.Stumbles (a.operandType element) v) := by
  refine ⟨exists_build_iff, fun r => shows_of_build, fun _ _ _ _ => ShowsFilter.unique,
    fun failure => build_eq_error_iff, ?_⟩
  intro key a element v failure declared failed
  exact Schema.encoding_iff_of_encode_eq_error keyed declared failed

def nicknamed : List (String × Filter) :=
  [("age", ⟨"years", .ge, [.text "21"]⟩), ("nick", ⟨"nick", .null, []⟩)]

theorem build_entrywise_nicknamed :
    (Schema.ofModel Sample.user).Keyed ∧
      (∃ r, build (.ofModel Sample.user) "users" (nicknamed.take 1) .none = .ok r ∧
        Shows (.ofModel Sample.user) "users" (nicknamed.take 1) .none r.toValue) ∧
      build (.ofModel Sample.user) "users" nicknamed .none =
        .error (.unknownAttribute "nick" "User" (Schema.ofModel Sample.user).names) := by
  have keyed := Schema.keyed_ofModel Sample.user
  obtain ⟨-, -, -, fails, -⟩ := build_entrywise keyed "users" nicknamed .none
  have age : Encodes (.ofModel Sample.user) "age" ⟨"years", .ge, [.text "21"]⟩ := by
    refine ⟨by decide, fun v found => ?_⟩
    rw [List.mem_singleton.1 found]
    exact ⟨_, rfl⟩
  refine ⟨keyed, ⟨_, rfl, (build_entrywise keyed "users" _ .none).2.1 _ rfl⟩, ?_⟩
  exact (fails _).2 ⟨nicknamed.take 1, _, [], rfl, List.forall_mem_singleton.2 age,
    .undeclared (by decide)⟩

/-- A signalling not-a-number is not reported with the filter's key. -/
theorem not_forall_named :
    ¬∀ (s : Schema) (table : String) (filters : List (String × Filter)) (o : Options)
      (failure : Failure), s.Keyed → build s table filters o = .error failure →
      ∃ entry ∈ filters, failure = .unknownAttribute entry.1 s.model s.names ∨
        ∃ cause, failure = .encoding entry.1 cause := by
  intro named
  obtain ⟨entry, found, undeclared | ⟨cause, refused⟩⟩ :=
    named (.ofModel Schema.sizes) "sizes" [("size", ⟨"size", .eq, [.decimal (.nan false true 0)]⟩)]
      .none (.fault .invalidOperation) (Schema.keyed_ofModel _) rfl
  · cases undeclared
  · cases refused

end Request

end TableScan
