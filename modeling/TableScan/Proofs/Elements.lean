import TableScan.Proofs.Canonical
import TableScan.Proofs.ExactNumbers
import TableScan.Proofs.Merging
import TableScan.Proofs.Settling

/-! Elements of collections as operands. Main statement: an element of an encoded collection, encoded
as an operand for one element, is what stands for it in the attribute value of the collection. -/

namespace TableScan

open Attempt Coercion Outcome Value AttributeValue

inductive Collects (t : FieldType) : FieldType → Prop where
  | alone {kind : Collection} (searchable : Searchable (.collection kind t)) :
    Collects t (.collection kind t)
  | optional {kind : Collection} {ts : List FieldType} (absent : ts.any FieldType.isNull = true)
    (only : FieldType.presentAlternatives ts = [.collection kind t])
    (searchable : Searchable (.collection kind t)) : Collects t (.union ts)

/-- The value fits the type, and is then written as this, with the members of a set in the order of
the set. -/
def Writes (t : FieldType) (v : Value) (b : AttributeValue) : Prop :=
  ∃ y, (coerce t v).Gives y ∧ unsorted y = .ok b

namespace AttributeValue

def members? : AttributeValue → Option (List AttributeValue)
  | .numberSet members => some (members.map .number)
  | .textSet members => some (members.map .text)
  | .bytesSet members => some (members.map .bytes)
  | _ => none

end AttributeValue

/-- The elements of the value, as operands for one element, are encoded to the items of the attribute
value, but for the order inside sets; or to the members of a set, all of them and no others. -/
inductive Agrees (a : Attribute) : Value → AttributeValue → Prop where
  | absent : Agrees a .null .null
  | items {v : Value} {items : List Value} {parts : List AttributeValue}
    (source : sequenceItems? v = some items)
    (each : List.Forall₂ (fun x b => ∃ b', a.encode true x = .ok b' ∧ b.Rearranges b') items parts) :
    Agrees a v (.list parts)
  | members {v : Value} {w : AttributeValue} {items : List Value} {parts : List AttributeValue}
    (source : sequenceItems? v = some items) (members : w.members? = some parts)
    (each : ∀ x ∈ items, ∃ b ∈ parts, a.encode true x = .ok b)
    (all : ∀ b ∈ parts, ∃ x ∈ items, a.encode true x = .ok b) : Agrees a v w

namespace FieldType

variable {t : FieldType} {ts : List FieldType} {v w : Value}

theorem elementsOfPresent_eq_map (ts : List FieldType) :
    elementsOfPresent ts = (presentAlternatives ts).map element := by
  induction ts with
  | nil => rfl
  | cons t ts ih =>
    rw [elementsOfPresent, presentAlternatives, List.filter_cons]
    cases t.isNull with
    | true => exact ih
    | false => exact congrArg (t.element :: ·) ih

/-- A type that is the only alternative takes what it takes alone. -/
theorem gives_coerce_ofAlternatives (searchable : Searchable t) :
    (coerce (ofAlternatives [t]) v).Gives w ↔ (coerce t v).Gives w := by
  cases t with
  | union us =>
    cases searchable with
    | single single =>
      cases single with
      | member member => cases member
    | @optional _ u absent only =>
      have flat : [FieldType.union us].flatMap alternatives = us := by
        rw [List.flatMap_singleton, alternatives]
      obtain ⟨ts, union, present, held⟩ :=
        exists_union_of_presentAlternatives (flat.symm ▸ only) (flat.symm ▸ absent)
      rw [union, gives_coerce_union present held, gives_coerce_union only absent]
  | _ => rfl

end FieldType

namespace Searchable

variable {kind : Collection} {t : FieldType}

theorem of_collection (searchable : Searchable (.collection kind t)) : Searchable t := by
  cases searchable with
  | single single =>
    cases single with
    | member member => cases member
  | listed _ searchable => exact searchable
  | set _ single => exact .single single

end Searchable

theorem Collects.gives_coerce_element {t u : FieldType} {v w : Value} (collects : Collects t u) :
    (coerce u.element v).Gives w ↔ (coerce t v).Gives w := by
  cases collects with
  | alone => rfl
  | optional absent only searchable =>
    rw [FieldType.element, FieldType.elementsOfPresent_eq_map, only]
    exact FieldType.gives_coerce_ofAlternatives searchable.of_collection

namespace AttributeValue

variable {t : FieldType} {items natives : List Value} {parts : List AttributeValue}
  {w b : AttributeValue}

theorem members?_sorted (members : w.members? = some parts) :
    ∃ turned, w.sorted.members? = some turned ∧ turned.Perm parts := by
  cases w with
  | numberSet digits =>
    cases members
    exact ⟨_, rfl, (List.mergeSort_perm _ _).map _⟩
  | textSet texts =>
    cases members
    exact ⟨_, rfl, (List.mergeSort_perm _ _).map _⟩
  | bytesSet texts => exact ⟨parts, members, .refl _⟩
  | _ => cases members

theorem sorted_of_mem (members : w.members? = some parts) (found : b ∈ parts) : b.sorted = b := by
  cases w with
  | numberSet digits | textSet digits | bytesSet digits =>
    cases members
    obtain ⟨s, -, rfl⟩ := List.mem_map.1 found
    rfl
  | _ => cases members

theorem ofNative_of_storedNumber? {n : Value} {d : Decimal} {s : String}
    (other : ∀ b, n ≠ .bool b) (stored : storedNumber? n = some d) (written : numberText d = .ok s) :
    ofNative n = .ok (.number s) := by
  cases n with
  | bool b => exact absurd rfl (other b)
  | int n | decimal d =>
    cases stored
    rw [ofNative, written]
    rfl
  | _ => cases stored

theorem SetOf.exists_members (set : SetOf natives w) (other : ∀ n ∈ natives, ∀ b, n ≠ .bool b) :
    ∃ parts, w.members? = some parts ∧
      List.Forall₂ (fun n b => ofNative n = .ok b) natives parts := by
  rcases set with ⟨each⟩ | ⟨-, each⟩ | ⟨-, each⟩
  · refine ⟨_, rfl, List.forall₂_map_right_iff.2 (forall₂_imp_of_mem (fun n found s stored => ?_) each)⟩
    obtain ⟨d, stored, written⟩ := stored
    exact ofNative_of_storedNumber? (other n found) stored written
  · refine ⟨_, rfl, List.forall₂_map_right_iff.2 (each.imp fun n s same => ?_)⟩
    rw [same, ofNative]
  · refine ⟨_, rfl, List.forall₂_map_right_iff.2 (each.imp fun n bs same => ?_)⟩
    rw [same, ofNative]

/-- All native forms of different single values are kept: two that are the same are one form, or come
from one value. -/
theorem mem_distinct_natives (lone : ∀ x ∈ items, Lone t x) (different : Distinct items)
    (each : List.Forall₂ (fun x n => x.native = .ok n ∧ n.hashFault? = none) items natives) :
    ∀ n ∈ natives, n ∈ distinct natives := by
  intro n found
  obtain ⟨m, kept, rfl | equal⟩ := exists_mem_distinct found
  · exact kept
  obtain ⟨x, one, plain, -⟩ := exists_mem_of_forall₂ each n found
  obtain ⟨y, other, plain', -⟩ := exists_mem_of_forall₂ each m ((distinct_distinct natives).2 kept)
  rcases (lone y other).eq_or_same (lone x one) plain' plain equal with rfl | ⟨same, same'⟩
  · exact kept
  · cases different.eq_of_same other one same same'
    cases plain.symm.trans plain'
    exact kept

/-- The members of a set of single values are what the different native forms are written as. -/
theorem exists_parts (lone : ∀ x ∈ items, Lone t x) (written : unsorted (.set items) = .ok w) :
    ∃ natives parts,
      List.Forall₂ (fun x n => x.native = .ok n ∧ n.hashFault? = none) items natives ∧
      SetOf (distinct natives) w ∧ w.members? = some parts ∧
      List.Forall₂ (fun n b => ofNative n = .ok b) (distinct natives) parts := by
  obtain ⟨natives, each, set⟩ := exists_natives written
  have truthless : ∀ n ∈ distinct natives, ∀ b, n ≠ .bool b := by
    rintro n found b rfl
    obtain ⟨x, one, plain, -⟩ := exists_mem_of_forall₂ each _ ((distinct_distinct natives).2 found)
    exact (lone x one).native_ne_bool b plain
  obtain ⟨parts, members, alone⟩ := set.exists_members truthless
  exact ⟨natives, parts, each, set, members, alone⟩

/-- Each member of a set of single values is written alone as in the set, and the set has no other
members. Members whose texts are the same share one. -/
theorem exists_members (lone : ∀ x ∈ items, Lone t x) (different : Distinct items)
    (written : unsorted (.set items) = .ok w) :
    ∃ parts, w.members? = some parts ∧ (∀ x ∈ items, ∃ b ∈ parts, unsorted x = .ok b) ∧
      ∀ b ∈ parts, ∃ x ∈ items, unsorted x = .ok b := by
  obtain ⟨natives, parts, each, -, members, alone⟩ := exists_parts lone written
  have kept := mem_distinct_natives lone different each
  refine ⟨parts, members, fun x found => ?_, fun b found => ?_⟩
  · obtain ⟨n, native, plain, -⟩ := exists_mem_of_forall₂ each.flip x found
    obtain ⟨b, part, written⟩ := exists_mem_of_forall₂ alone.flip n (kept n native)
    exact ⟨b, part, bind_eq_ok_iff.2 ⟨n, plain, written⟩⟩
  · obtain ⟨n, native, written⟩ := exists_mem_of_forall₂ alone b found
    obtain ⟨x, member, plain, -⟩ :=
      exists_mem_of_forall₂ each n ((distinct_distinct natives).2 native)
    exact ⟨x, member, bind_eq_ok_iff.2 ⟨n, plain, written⟩⟩

end AttributeValue

namespace Attribute

variable {a : Attribute} {kind : Collection} {t : FieldType} {v x : Value} {w : AttributeValue}
  {items : List Value}

/-- An operand is encoded to what it is written as, with sets sorted. -/
theorem encode_eq_ok_iff_writes {element : Bool} :
    a.encode element v = .ok w ↔ ∃ b, Writes (a.operandType element) v b ∧ w = b.sorted := by
  constructor
  · intro written
    obtain ⟨y, b, fits, plain, rfl⟩ := exists_of_encode written
    exact ⟨b, ⟨y, validate_eq_ok_iff.1 fits, plain⟩, rfl⟩
  · rintro ⟨b, ⟨y, fits, plain⟩, rfl⟩
    rw [encode_of_validate (validate_eq_ok_iff.2 fits), AttributeValue.ofValue_eq, plain]
    rfl

theorem encode_element (fits : (coerce a.type.element x).Gives x) (written : unsorted x = .ok w) :
    a.encode true x = .ok w.sorted :=
  encode_eq_ok_iff_writes.2 ⟨w, ⟨x, fits, written⟩, rfl⟩

theorem agrees_items (listed : x = .list items ∨ x = .tuple items)
    (fits : ∀ y ∈ items, (coerce a.type.element y).Gives y) (written : unsorted x = .ok w) :
    Agrees a x w.sorted := by
  have whole : unsorted (.list items) = .ok w := by
    rcases listed with rfl | rfl <;> exact written
  obtain ⟨parts, each, rfl⟩ := unsorted_list_iff.1 whole
  refine .items (sequenceItems?_listed listed) (forall₂_imp_of_mem (fun y found b part => ?_) each)
  exact ⟨b.sorted, encode_element (fits y found) part, (AttributeValue.Rearranges.refl b).to_sorted⟩

theorem agrees_members (set : x = .set items ∨ x = .frozenset items)
    (fits : ∀ y ∈ items, (coerce a.type.element y).Gives y) (lone : ∀ y ∈ items, Lone t y)
    (different : Distinct items) (written : unsorted x = .ok w) : Agrees a x w.sorted := by
  have whole : unsorted (.set items) = .ok w := by
    rcases set with rfl | rfl <;> exact written
  obtain ⟨parts, members, each, all⟩ := exists_members lone different whole
  obtain ⟨turned, sorted, perm⟩ := members?_sorted members
  have alone (y : Value) (b : AttributeValue) (member : y ∈ items) (found : b ∈ parts)
      (part : unsorted y = .ok b) : a.encode true y = .ok b := by
    rw [encode_element (fits y member) part, sorted_of_mem members found]
  refine .members (sequenceItems?_set set) sorted (fun y member => ?_) fun b found => ?_
  · obtain ⟨b, found, part⟩ := each y member
    exact ⟨b, perm.symm.subset found, alone y b member found part⟩
  · have found := perm.subset found
    obtain ⟨y, member, part⟩ := all b found
    exact ⟨y, member, alone y b member found part⟩

theorem agrees_collection (collects : Collects t a.type)
    (searchable : Searchable (.collection kind t))
    (given : (coerce (.collection kind t) v).Gives x) (genuine : Genuine (.collection kind t) x)
    (written : unsorted x = .ok w) : Agrees a x w.sorted := by
  have fits {y v : Value} (fitted : (coerce t v).Gives y) (genuine : Genuine t y) :
      (coerce a.type.element y).Gives y :=
    collects.gives_coerce_element.2 (searchable.of_collection.gives_self fitted genuine)
  cases searchable with
  | single single =>
    cases single with
    | member member => cases member
  | listed ordered searchable =>
    obtain ⟨items, listed, each, -⟩ :=
      exists_of_gives_listed ordered searchable.isAny_eq_false given
    refine agrees_items listed (fun y found => ?_) written
    obtain ⟨v, fitted⟩ := each y found
    exact fits fitted (genuine.item (sequenceItems?_listed listed) found)
  | set unordered single =>
    obtain ⟨items, set, each, different, -⟩ := exists_of_gives_unordered unordered given
    have within (y : Value) (found : y ∈ items) : Genuine t y :=
      genuine.item (sequenceItems?_set set) found
    have lone : ∀ y ∈ items, Lone t y := by
      intro y found
      obtain ⟨v, fitted⟩ := each y found
      exact single.lone fitted (within y found)
    refine agrees_members set (fun y found => ?_) lone different written
    obtain ⟨v, fitted⟩ := each y found
    exact fits fitted (within y found)

/-- For an attribute of collections, each element of an operand as it was validated is encoded alone
as in the collection, where whole numbers stand at the places for them. -/
theorem encode_elements (collects : Collects t a.type) (written : a.encode false v = .ok w) :
    ∃ x, validate a.type v = .ok x ∧ (Genuine a.type x → Agrees a x w) := by
  obtain ⟨x, raw, fits, plain, rfl⟩ := exists_of_encode written
  refine ⟨x, fits, fun genuine => ?_⟩
  have given : (coerce a.type v).Gives x := validate_eq_ok_iff.1 fits
  have type := collects
  generalize a.type = u at type given genuine
  cases type with
  | alone searchable => exact agrees_collection collects searchable given genuine plain
  | optional absent only searchable =>
    by_cases null : x = .null
    · cases null
      cases plain
      exact .absent
    · obtain ⟨-, rfl⟩ | ⟨-, fitted⟩ := (gives_coerce_union only absent).1 given
      · exact absurd rfl null
      · exact agrees_collection collects searchable fitted (genuine.present only null) plain

def sizes : Attribute := ⟨"sizes", "sizes", .collection .list .int⟩

theorem collects_sizes : Collects .int sizes.type :=
  .alone (.listed rfl (.single (.member .int)))

theorem encode_elements_sizes :
    Collects .int sizes.type ∧
      sizes.encode false (.tuple [.int 7, .text "12"]) = .ok (.list [.number "7", .number "12"]) ∧
      Agrees sizes (.list [.int 7, .int 12]) (.list [.number "7", .number "12"]) := by
  have written : sizes.encode false (.tuple [.int 7, .text "12"]) =
      .ok (.list [.number "7", .number "12"]) := rfl
  obtain ⟨x, fits, agrees⟩ := encode_elements collects_sizes written
  cases fits
  refine ⟨collects_sizes, written, agrees ⟨?_, ?_⟩⟩
  · intro e y place
    cases place with
    | item _ _ inner => cases inner
  · intro y place
    cases place with
    | item source member inner =>
      cases source
      cases inner
      simp only [List.mem_cons, List.not_mem_nil, or_false] at member
      rcases member with rfl | rfl
      · exact ⟨7, rfl⟩
      · exact ⟨12, rfl⟩

def red : Value := .member "Colour" .plain "RED" (.text "red")

/-- A member of a plain enumeration passes for a whole number, but what it stands for does not. -/
theorem not_forall_agrees :
    ¬∀ (t : FieldType) (a : Attribute) (v x : Value) (w : AttributeValue), Collects t a.type →
      a.encode false v = .ok w → validate a.type v = .ok x → Owned a.type x → Agrees a x w := by
  intro agrees
  have owned : Owned sizes.type (.list [.text "red"]) := by
    intro e y place
    cases place with
    | item _ _ inner => cases inner
  cases agrees .int sizes (.list [red]) (.list [.text "red"]) (.list [.text "red"]) collects_sizes
    rfl rfl owned with
  | items source each =>
    cases source
    obtain _ | ⟨⟨b, alone, -⟩, -⟩ := each
    cases alone
  | members _ members => cases members

end Attribute

end TableScan
