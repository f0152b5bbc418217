import TableScan.Proofs.BinaryText
import TableScan.Proofs.SetWriting
import TableScan.Proofs.Storable

/-! The types of what is looked for in collections. Main statement: what is fitted to such a type fits
it again as it is, if whole numbers stand where the type is that of whole numbers. -/

namespace TableScan

open Coercion Outcome Value

inductive FieldType.Single : FieldType → Prop where
  | member {t : FieldType} (member : t.OfSets) : Single t
  | float : Single .float
  | datetime : Single .datetime
  | texts {e : Enumeration} (base : e.base ≠ .int)
    (values : ∀ entry ∈ e.members, ∃ s, entry.2 = .text s) : Single (.enumeration e)
  | numbers {e : Enumeration} (base : e.base = .int)
    (values : ∀ entry ∈ e.members, ∃ n, entry.2 = .int n) : Single (.enumeration e)

def Collection.isSet : Collection → Bool
  | .set | .mutableSet | .frozenset | .abstractSet => true
  | .list | .mutableSequence | .sequence | .tuple => false

/-- Single values, truth values, and what is made of them: optional values, lists, mappings of names
and, of single values only, sets. -/
inductive Searchable : FieldType → Prop where
  | single {t : FieldType} (single : t.Single) : Searchable t
  | bool : Searchable .bool
  | optional {ts : List FieldType} {t : FieldType} (absent : ts.any FieldType.isNull = true)
    (only : FieldType.presentAlternatives ts = [t]) (searchable : Searchable t) :
    Searchable (.union ts)
  | listed {kind : Collection} {t : FieldType} (ordered : kind.isSet = false)
    (searchable : Searchable t) : Searchable (.collection kind t)
  | set {kind : Collection} {t : FieldType} (unordered : kind.isSet = true) (single : t.Single) :
    Searchable (.collection kind t)
  | map {t : FieldType} (searchable : Searchable t) : Searchable (.map .text t)

def Owned (t : FieldType) (w : Value) : Prop :=
  ∀ e y, Place t w (.enumeration e) y → ∃ entry, e.Owns entry ∧ y = e.memberOf entry

/-- A value of a type as callers have it, with a whole number at each place for one. -/
structure Genuine (t : FieldType) (w : Value) : Prop where
  owned : Owned t w
  whole : WholeNumbers t w

inductive Lone : FieldType → Value → Prop where
  | kept {t : FieldType} {w : Value} (member : t.OfSets) (kept : Keeps t w) : Lone t w
  | float (x : Binary64) : Lone .float (.float x)
  | datetime (d : DateTime) : Lone .datetime (.datetime d)
  | textMember {e : Enumeration} (base : e.base ≠ .int) (name s : String) :
    Lone (.enumeration e) (e.memberOf (name, .text s))
  | intMember {e : Enumeration} (base : e.base = .int) (name : String) (n : Int) :
    Lone (.enumeration e) (e.memberOf (name, .int n))

variable {kind : Collection} {t u : FieldType} {v w x : Value}

namespace Genuine

theorem of_place (genuine : Genuine t w) (inner : ∀ v y, Place u x v y → Place t w v y) :
    Genuine u x where
  owned e y place := genuine.owned e y (inner _ _ place)
  whole y place := genuine.whole y (inner _ _ place)

theorem item {items : List Value} (genuine : Genuine (.collection kind t) w)
    (source : sequenceItems? w = some items) (member : x ∈ items) : Genuine t x :=
  genuine.of_place fun _ _ => .item source member

theorem present {ts : List FieldType} (genuine : Genuine (.union ts) w)
    (only : FieldType.presentAlternatives ts = [t]) (some : w ≠ .null) : Genuine t w :=
  genuine.of_place fun _ _ => .of_only only some

end Genuine

theorem FieldType.Single.lone (single : t.Single) (given : (coerce t v).Gives w)
    (genuine : Genuine t w) : Lone t w := by
  cases single with
  | member member =>
    refine .kept member (member.keeps_of_gives given fun same => ?_)
    subst same
    exact genuine.whole w (.here _ _)
  | float =>
    obtain ⟨x, rfl⟩ := exists_of_gives_toFloat given
    exact .float x
  | datetime =>
    obtain ⟨d, rfl⟩ := exists_of_gives_toDatetime given
    exact .datetime d
  | texts base values =>
    obtain ⟨⟨name, payload⟩, owns, rfl⟩ := genuine.owned _ w (.here _ _)
    obtain ⟨s, rfl⟩ := values _ (List.mem_of_find?_eq_some owns)
    exact .textMember base name s
  | numbers base values =>
    obtain ⟨⟨name, payload⟩, owns, rfl⟩ := genuine.owned _ w (.here _ _)
    obtain ⟨n, rfl⟩ := values _ (List.mem_of_find?_eq_some owns)
    exact .intMember base name n

namespace Lone

theorem gives_self (lone : Lone t w) : (coerce t w).Gives w := by
  cases lone with
  | kept _ kept => exact kept.gives_self
  | float x => exact gives_accept.2 rfl
  | datetime d => exact gives_toDatetime d
  | textMember | intMember => exact gives_toMember _ _

theorem hashFault?_eq_none (lone : Lone t w) : w.hashFault? = none := by
  cases lone with
  | kept member kept => exact kept.hashFault?_eq_none member
  | _ => rfl

/-- Single values whose native forms are the same have one native form, or are the same. -/
theorem eq_or_same {y n m : Value} (lone : Lone t x) (other : Lone t y) (plain : x.native = .ok n)
    (plain' : y.native = .ok m) (equal : same n m = true) :
    n = m ∨ same x y = true ∧ same y x = true := by
  -- Texts that are the same are one text; one number has many forms, such as 1.0 and 1.00.
  cases lone with
  | kept member kept =>
    cases other with
    | kept _ kept' =>
      rw [kept.native_eq_plain member] at plain
      rw [kept'.native_eq_plain member] at plain'
      cases plain
      cases plain'
      rw [kept.same_plain member kept'] at equal
      exact .inr ⟨equal, (kept'.same_comm member kept).trans equal⟩
    | _ => cases member
  | float x =>
    cases other with
    | kept member => cases member
    | float y =>
      cases plain
      cases plain'
      have one : same (.float x) (.float y) = true := Binary64.sameNumber_exactDecimal equal
      exact .inr ⟨one, (Decimal.sameNumber_comm y.exactDecimal x.exactDecimal).trans one⟩
  | datetime d =>
    cases other with
    | kept member => cases member
    | datetime d' =>
      cases plain
      cases plain'
      rw [same_text, beq_iff_eq] at equal
      exact .inl (congrArg Value.text equal)
  | textMember base name s =>
    cases other with
    | kept member => cases member
    | textMember _ name' s' =>
      cases plain
      cases plain'
      rw [same_text, beq_iff_eq] at equal
      exact .inl (congrArg Value.text equal)
    | intMember base' => exact absurd base' base
  | intMember base name n =>
    cases other with
    | kept member => cases member
    | textMember base' => exact absurd base base'
    | intMember _ name' n' =>
      cases plain
      cases plain'
      rw [Enumeration.memberOf, Enumeration.memberOf, base]
      exact .inr ⟨equal, (Decimal.sameNumber_comm (.ofInt n') (.ofInt n)).trans equal⟩

theorem native_ne_bool (lone : Lone t w) (b : Bool) : w.native ≠ .ok (.bool b) := by
  cases lone with
  | kept member kept => cases member <;> cases kept <;> exact nofun
  | _ => exact nofun

end Lone

namespace Coercion

theorem exists_of_gives_fitListItems {items xs : List Value}
    (given : (fitListItems false (coerce t) items).Gives xs) :
    ∀ x ∈ xs, ∃ v, (coerce t v).Gives x :=
  exists_of_fits (gives_fitItems.1 given)

theorem gives_fitListItems {items : List Value} (each : ∀ x ∈ items, (coerce t x).Gives x) :
    (fitListItems false (coerce t) items).Gives items :=
  gives_fitItems.2 (List.forall₂_same.2 each)

theorem exists_of_gives_listed (ordered : kind.isSet = false) (typed : t.isAny = false)
    (given : (coerce (.collection kind t) v).Gives w) :
    ∃ items, (w = .list items ∨ w = .tuple items) ∧ (∀ x ∈ items, ∃ v, (coerce t v).Gives x) ∧
      ((∀ x ∈ items, (coerce t x).Gives x) → (coerce (.collection kind t) w).Gives w) := by
  cases kind with
  | list | mutableSequence =>
    obtain ⟨items, rfl, fits⟩ := exists_of_gives_list typed given
    refine ⟨items, .inl rfl, fits, fun each => ?_⟩
    rw [coerce, fitCollection, typed, gives_fromSequence]
    exact ⟨items, rfl, gives_map.2 ⟨_, gives_fitListItems each, rfl⟩⟩
  | tuple =>
    obtain ⟨items, rfl, fits⟩ := exists_of_gives_sequence given
    refine ⟨items, .inr rfl, fits, fun each => ?_⟩
    rw [coerce, fitCollection, gives_fromSequence]
    exact ⟨items, rfl, gives_map.2 ⟨_, gives_fitItems.2 (List.forall₂_same.2 each), rfl⟩⟩
  | sequence =>
    rw [coerce, fitCollection, typed, fitSequence.eq_def] at given
    split at given
    · obtain ⟨items, fits, rfl⟩ := gives_map.1 given
      refine ⟨items, .inl rfl, exists_of_gives_fitListItems fits, fun each => ?_⟩
      rw [coerce, fitCollection, typed]
      exact gives_map.2 ⟨_, gives_fitListItems each, rfl⟩
    · obtain ⟨items, fits, rfl⟩ := gives_map.1 given
      refine ⟨items, .inr rfl, exists_of_gives_fitListItems fits, fun each => ?_⟩
      rw [coerce, fitCollection, typed]
      exact gives_map.2 ⟨_, gives_fitListItems each, rfl⟩
    · split_ifs at given with _ any
      · exact absurd given not_gives_reject
      · cases any
      · exact absurd given not_gives_reject
  | set | mutableSet | frozenset | abstractSet => cases ordered

theorem exists_of_gives_unordered (unordered : kind.isSet = true)
    (given : (coerce (.collection kind t) v).Gives w) :
    ∃ items, (w = .set items ∨ w = .frozenset items) ∧ (∀ x ∈ items, ∃ v, (coerce t v).Gives x) ∧
      Distinct items ∧ ((∀ x ∈ items, (coerce t x).Gives x ∧ x.hashFault? = none) →
        (coerce (.collection kind t) w).Gives w) := by
  cases kind with
  | set | mutableSet =>
    obtain ⟨items, rfl, fits, different⟩ := exists_of_gives_set given
    refine ⟨items, .inl rfl, fits, different, fun each => ?_⟩
    exact gives_coerce_set (f := id) (by simp [sequenceItems?]) each different
  | frozenset | abstractSet =>
    obtain ⟨items, rfl, fits, different⟩ := exists_of_gives_frozenset given
    refine ⟨items, .inr rfl, fits, different, fun each => ?_⟩
    exact gives_coerce_frozenset (f := id) (by simp [sequenceItems?]) each different
  | list | mutableSequence | sequence | tuple => cases unordered

end Coercion

theorem sequenceItems?_listed {items : List Value} (listed : w = .list items ∨ w = .tuple items) :
    sequenceItems? w = some items := by
  rcases listed with rfl | rfl <;> rfl

theorem sequenceItems?_set {items : List Value} (set : w = .set items ∨ w = .frozenset items) :
    sequenceItems? w = some items := by
  rcases set with rfl | rfl <;> rfl

namespace Searchable

theorem isAny_eq_false (searchable : Searchable t) : t.isAny = false := by
  cases searchable with
  | single single =>
    cases single with
    | member member => cases member <;> rfl
    | _ => rfl
  | _ => rfl

/-- What is fitted to a type fits it as it is. -/
theorem gives_self (searchable : Searchable t) (given : (coerce t v).Gives w)
    (genuine : Genuine t w) : (coerce t w).Gives w := by
  induction searchable generalizing v w with
  | single single => exact (single.lone given genuine).gives_self
  | bool =>
    obtain ⟨b, rfl⟩ := exists_of_gives_toBool given
    exact gives_accept.2 rfl
  | optional absent only _ ih =>
    rw [gives_coerce_union only absent]
    by_cases null : w = .null
    · exact .inl ⟨null, null⟩
    · obtain ⟨_, rfl⟩ | ⟨_, fitted⟩ := (gives_coerce_union only absent).1 given
      · exact absurd rfl null
      · exact .inr ⟨null, ih fitted (genuine.present only null)⟩
  | listed ordered searchable ih =>
    obtain ⟨items, listed, fits, whole⟩ :=
      exists_of_gives_listed ordered searchable.isAny_eq_false given
    refine whole fun x found => ?_
    obtain ⟨v, fitted⟩ := fits x found
    exact ih fitted (genuine.item (sequenceItems?_listed listed) found)
  | set unordered single =>
    obtain ⟨items, set, fits, -, whole⟩ := exists_of_gives_unordered unordered given
    refine whole fun x found => ?_
    obtain ⟨v, fitted⟩ := fits x found
    have lone := single.lone fitted (genuine.item (sequenceItems?_set set) found)
    exact ⟨lone.gives_self, lone.hashFault?_eq_none⟩
  | @map t _ ih =>
    obtain ⟨entries, rfl, names, fits, different⟩ := exists_of_gives_map given
    have each : ∀ entry ∈ entries, (coerce t entry.2).Gives entry.2 := by
      intro entry found
      obtain ⟨v, fitted⟩ := fits entry found
      exact ih fitted (genuine.of_place fun _ _ => .entry found)
    simpa using gives_coerce_map (f := id) (g := id) names each different

end Searchable

end TableScan
