import Mathlib.Data.List.Perm.Basic
import TableScan.Proofs.Refitting
import TableScan.Proofs.Writing

/-! What kept sets are written as, and what comes back. Main statement: a set is written as the set of
what its members are written as, and members that are different stay so. -/

namespace TableScan

open Attempt Value AttributeValue

theorem Uuid.toText_inj {u u' : Uuid} : u.toText = u'.toText ↔ u = u' := by
  refine ⟨fun same => ?_, congrArg _⟩
  have chars : u.toChars = u'.toChars := String.ofList_inj.1 same
  have read := congrArg ofText? chars
  simpa [ofText?_toChars] using read

theorem Date.toText_inj {d d' : Date} : d.toText = d'.toText ↔ d = d' := by
  refine ⟨fun same => ?_, congrArg _⟩
  have chars : d.civil.toChars = d'.civil.toChars := String.ofList_inj.1 same
  have read := congrArg Civil.ofAnyText? chars
  rw [Civil.ofAnyText?_toChars d.real.1, Civil.ofAnyText?_toChars d'.real.1, Option.some.injEq] at read
  cases d
  cases d'
  cases read
  rfl

namespace Value

def plain : Value → Value
  | .uuid u => .text u.toText
  | .date d => .text d.toText
  | v => v

theorem same_text (s s' : String) : same (.text s) (.text s') = (s == s') := by
  simp [same, sameScalar, number?, text?]

end Value

namespace AttributeValue

variable {natives : List Value} {a : AttributeValue}

theorem mapM_eq_some_iff {α β : Type} {f : α → Option β} {xs : List α} {ys : List β} :
    xs.mapM f = some ys ↔ List.Forall₂ (fun x y => f x = some y) xs ys := by
  induction xs generalizing ys with
  | nil => simp [eq_comm]
  | cons x xs ih =>
    simp only [List.mapM_cons, Option.bind_eq_bind, Option.bind_eq_some_iff, ih, Option.pure_def,
      Option.some.injEq]
    constructor
    · intro given
      obtain ⟨y, one, rest, others, rfl⟩ := given
      exact .cons one others
    · intro given
      rcases given with _ | ⟨one, others⟩
      exact ⟨_, one, _, others, rfl⟩

theorem plainText?_eq_some_iff {v : Value} {s : String} : plainText? v = some s ↔ v = .text s := by
  cases v <;> simp [plainText?]

theorem plainBytes?_eq_some_iff {v : Value} {bs : List UInt8} :
    plainBytes? v = some bs ↔ v = .bytes bs := by
  cases v <;> simp [plainBytes?]

/-- The members of a set of natives: all numbers, as in the empty set, all texts or all bytes. -/
inductive SetOf (natives : List Value) : AttributeValue → Prop where
  | numbers {digits : List String} (each : List.Forall₂ (fun n s => ∃ d, storedNumber? n = some d ∧
      numberText d = .ok s) natives digits) : SetOf natives (.numberSet digits)
  | texts {texts : List String} (some : natives ≠ [])
    (each : List.Forall₂ (fun n s => n = .text s) natives texts) : SetOf natives (.textSet texts)
  | bytes {members : List (List UInt8)} (some : natives ≠ [])
    (each : List.Forall₂ (fun n bs => n = .bytes bs) natives members) :
    SetOf natives (.bytesSet members)

theorem mapM_eq_none_of_cons {β : Type} {f : Value → Option β} {v : Value} {vs : List Value}
    (first : f v = none) : (v :: vs).mapM f = none := by
  simp [first]

theorem ofSet_eq_ok_iff : ofSet natives = .ok a ↔ SetOf natives a := by
  constructor
  · intro written
    rw [ofSet.eq_def] at written
    split at written
    · next ds found =>
      obtain ⟨digits, done, rfl⟩ := map_eq_ok_iff.1 written
      exact .numbers (forall₂_comp_iff.1 ⟨ds, mapM_eq_some_iff.1 found, mapM_eq_ok_iff.1 done⟩)
    · next texts _ none found =>
      cases written
      refine .texts ?_ ((mapM_eq_some_iff.1 found).imp fun _ _ => plainText?_eq_some_iff.1)
      intro same
      subst same
      cases none
    · next members none _ found =>
      cases written
      refine .bytes ?_ ((mapM_eq_some_iff.1 found).imp fun _ _ => plainBytes?_eq_some_iff.1)
      intro same
      subst same
      cases none
    · cases written
  · intro given
    rcases given with ⟨each⟩ | ⟨some, each⟩ | ⟨some, each⟩
    · obtain ⟨ds, numbers, written⟩ := forall₂_comp_iff.2 each
      rw [ofSet.eq_def, mapM_eq_some_iff.2 numbers]
      exact map_eq_ok_iff.2 ⟨_, mapM_eq_ok_iff.2 written, rfl⟩
    · have texts := mapM_eq_some_iff.2 (each.imp fun _ _ => plainText?_eq_some_iff.2)
      cases each with
      | nil => exact absurd rfl some
      | cons first rest =>
        rw [ofSet.eq_def, texts, mapM_eq_none_of_cons (by rw [first]; rfl)]
    · have members := mapM_eq_some_iff.2 (each.imp fun _ _ => plainBytes?_eq_some_iff.2)
      cases each with
      | nil => exact absurd rfl some
      | cons first rest =>
        rw [ofSet.eq_def, members, mapM_eq_none_of_cons (by rw [first]; rfl),
          mapM_eq_none_of_cons (by rw [first]; rfl)]

end AttributeValue

namespace Keeps

variable {t : FieldType} {x y : Value}

theorem native_eq_plain (member : t.OfSets) (kept : Keeps t x) : x.native = .ok x.plain := by
  cases member <;> cases kept <;> rfl

theorem hashFault?_plain (member : t.OfSets) (kept : Keeps t x) : x.plain.hashFault? = none := by
  have hashes := kept.hashFault?_eq_none member
  cases member <;> cases kept <;> exact hashes

theorem hashFault?_readBack (member : t.OfSets) (kept : Keeps t x) : x.readBack.hashFault? = none := by
  have hashes := kept.hashFault?_eq_none member
  cases member <;> cases kept <;> exact hashes

theorem same_plain (member : t.OfSets) (one : Keeps t x) (other : Keeps t y) :
    same x.plain y.plain = same x y := by
  cases member <;> cases one <;> cases other
  case uuid.uuid.uuid u u' =>
    rw [plain, plain, same_text, Bool.eq_iff_iff, beq_iff_eq, Uuid.toText_inj]
    simp [same, sameScalar]
  case date.date.date d d' =>
    rw [plain, plain, same_text, Bool.eq_iff_iff, beq_iff_eq, Date.toText_inj]
    simp [same, sameScalar]
  all_goals rfl

theorem same_readBack (member : t.OfSets) (one : Keeps t x) (other : Keeps t y) :
    same x.readBack y.readBack = same x y := by
  rw [← same_plain member one other]
  cases member <;> cases one <;> cases other <;> rfl

theorem same_comm (member : t.OfSets) (one : Keeps t x) (other : Keeps t y) : same x y = same y x := by
  rw [← same_readBack member one other, ← same_readBack member other one]
  cases member <;> cases one <;> cases other
  case int.int.int m n => exact Decimal.sameNumber_comm (.ofInt m) (.ofInt n)
  case decimal.decimal.decimal d _ d' _ => exact Decimal.sameNumber_comm d d'
  case bytes.bytes.bytes bs bs' => exact BEq.comm
  all_goals
    simp only [readBack, same_text]
    exact BEq.comm

theorem same_self (member : t.OfSets) (kept : Keeps t x) : same x x = true := by
  rw [← same_readBack member kept kept]
  cases member <;> cases kept
  case int.int n => exact Decimal.sameNumber_self (d := .ofInt n) rfl
  case decimal.decimal d finite => exact Decimal.sameNumber_self finite
  case bytes.bytes bs => exact BEq.rfl
  all_goals
    simp only [readBack, same_text]
    exact BEq.rfl

theorem unsorted_eq_ofNative_plain (member : t.OfSets) (kept : Keeps t x) :
    unsorted x = ofNative x.plain := by
  rw [unsorted, native_eq_plain member kept, ok_bind]

theorem unsorted_eq_number_iff (member : t.OfSets) (kept : Keeps t x) {s : String} :
    unsorted x = .ok (.number s) ↔ ∃ d, storedNumber? x.plain = some d ∧ numberText d = .ok s := by
  rw [unsorted_eq_ofNative_plain member kept]
  cases member <;> cases kept <;> simp [plain, ofNative, storedNumber?, map_eq_ok_iff]

theorem unsorted_eq_text_iff (member : t.OfSets) (kept : Keeps t x) {s : String} :
    unsorted x = .ok (.text s) ↔ x.plain = .text s := by
  rw [unsorted_eq_ofNative_plain member kept]
  cases member <;> cases kept <;> simp [plain, ofNative, map_eq_ok_iff]

theorem unsorted_eq_bytes_iff (member : t.OfSets) (kept : Keeps t x) {bs : List UInt8} :
    unsorted x = .ok (.bytes bs) ↔ x.plain = .bytes bs := by
  rw [unsorted_eq_ofNative_plain member kept]
  cases member <;> cases kept <;> simp [plain, ofNative, map_eq_ok_iff]

end Keeps

namespace AttributeValue

inductive WrittenSet (items : List Value) : AttributeValue → Prop where
  | numbers {digits : List String}
    (each : List.Forall₂ (fun x s => unsorted x = .ok (.number s)) items digits) :
    WrittenSet items (.numberSet digits)
  | texts {texts : List String} (some : items ≠ [])
    (each : List.Forall₂ (fun x s => unsorted x = .ok (.text s)) items texts) :
    WrittenSet items (.textSet texts)
  | bytes {members : List (List UInt8)} (some : items ≠ [])
    (each : List.Forall₂ (fun x bs => unsorted x = .ok (.bytes bs)) items members) :
    WrittenSet items (.bytesSet members)

variable {t : FieldType} {items : List Value} {a : AttributeValue}

theorem nativeMembers_of_keeps (member : t.OfSets) (each : ∀ x ∈ items, Keeps t x) :
    nativeMembers items = .ok (items.map plain) := by
  rw [nativeMembers_eq_ok_iff, List.forall₂_map_right_iff, List.forall₂_same]
  intro x found
  have kept := each x found
  exact ⟨kept.native_eq_plain member, kept.hashFault?_plain member⟩

theorem distinct_map_plain (member : t.OfSets) (each : ∀ x ∈ items, Keeps t x)
    (different : Distinct items) : Distinct (items.map plain) := by
  rw [Distinct, List.pairwise_map]
  refine different.imp_of_mem fun {x y} one other apart => ?_
  rwa [Keeps.same_plain member (each x one) (each y other)]

theorem unsorted_set_iff (member : t.OfSets) (each : ∀ x ∈ items, Keeps t x)
    (different : Distinct items) : unsorted (.set items) = .ok a ↔ WrittenSet items a := by
  have natives : unsorted (.set items) = ofSet (items.map plain) := by
    rw [unsorted, native, nativeMembers_of_keeps member each, ok_bind,
      distinct_eq_self (distinct_map_plain member each different)]
    rfl
  have numbers (digits : List String) :
      List.Forall₂ (fun x s => unsorted x = .ok (.number s)) items digits ↔
        List.Forall₂ (fun x s => ∃ d, storedNumber? x.plain = some d ∧ numberText d = .ok s) items
          digits :=
    forall₂_iff_of_mem fun x found _ => (each x found).unsorted_eq_number_iff member
  have texts (texts : List String) :
      List.Forall₂ (fun x s => unsorted x = .ok (.text s)) items texts ↔
        List.Forall₂ (fun x s => x.plain = .text s) items texts :=
    forall₂_iff_of_mem fun x found _ => (each x found).unsorted_eq_text_iff member
  have bytes (members : List (List UInt8)) :
      List.Forall₂ (fun x bs => unsorted x = .ok (.bytes bs)) items members ↔
        List.Forall₂ (fun x bs => x.plain = .bytes bs) items members :=
    forall₂_iff_of_mem fun x found _ => (each x found).unsorted_eq_bytes_iff member
  rw [natives, ofSet_eq_ok_iff]
  constructor
  · intro given
    rcases given with ⟨written⟩ | ⟨some, written⟩ | ⟨some, written⟩
    all_goals rw [List.forall₂_map_left_iff] at written
    · exact .numbers ((numbers _).2 written)
    · exact .texts (by simpa using some) ((texts _).2 written)
    · exact .bytes (by simpa using some) ((bytes _).2 written)
  · intro given
    rcases given with ⟨written⟩ | ⟨some, written⟩ | ⟨some, written⟩
    · exact .numbers (List.forall₂_map_left_iff.2 ((numbers _).1 written))
    · exact .texts (by simpa using some) (List.forall₂_map_left_iff.2 ((texts _).1 written))
    · exact .bytes (by simpa using some) (List.forall₂_map_left_iff.2 ((bytes _).1 written))

theorem distinct_map_readBack (member : t.OfSets) (each : ∀ x ∈ items, Keeps t x)
    (different : Distinct items) : Distinct (items.map readBack) := by
  rw [Distinct, List.pairwise_map]
  refine different.imp_of_mem fun {x y} one other apart => ?_
  rwa [Keeps.same_readBack member (each x one) (each y other)]

theorem storedSet_eq_ok {α : Type} {read : Value → Except Fault Value} {part : α → Value}
    {parts : List α} (member : t.OfSets) (each : ∀ x ∈ items, Keeps t x) (different : Distinct items)
    (back : List.Forall₂ (fun x b => read (part b) = .ok x.readBack) items parts) :
    storedSet read (.list (parts.map part)) = .ok (.set (items.map readBack)) := by
  have members : (parts.map part).mapM (fun item => do hashed (← read item)) =
      .ok (items.map readBack) := by
    rw [mapM_eq_ok_iff, List.forall₂_map_left_iff, List.forall₂_map_right_iff]
    refine (forall₂_imp_of_mem (fun x found b read => ?_) back).flip
    rw [flip, read, ok_bind, hashed, (each x found).hashFault?_readBack member]
  rw [storedSet, elements, elements?, ok_bind, members, ok_bind,
    distinct_eq_self (distinct_map_readBack member each different)]
  rfl

theorem ofTagged_of_writtenSet (member : t.OfSets) (each : ∀ x ∈ items, Keeps t x)
    (different : Distinct items)
    (back : ∀ x ∈ items, ∀ b, unsorted x = .ok b → b.toValue.ofTagged = .ok x.readBack)
    (written : WrittenSet items a) : a.toValue.ofTagged = .ok (.set (items.map readBack)) := by
  rcases written with ⟨parts⟩ | ⟨_, parts⟩ | ⟨_, parts⟩
  · exact storedSet_eq_ok member each different
      (forall₂_imp_of_mem (fun x found s => back x found (.number s)) parts)
  · exact storedSet_eq_ok member each different
      (forall₂_imp_of_mem (fun x found s => back x found (.text s)) parts)
  · exact storedSet_eq_ok member each different
      (forall₂_imp_of_mem (fun x found bs => back x found (.bytes bs)) parts)

theorem distinct_of_perm {others : List Value} (member : t.OfSets) (each : ∀ x ∈ items, Keeps t x)
    (different : Distinct items) (perm : others.Perm items) : Distinct others :=
  different.of_perm (fun x one y other => (each x one).same_comm member (each y other)) perm

/-- A set is also written in the order in which its attribute value is sorted. -/
theorem exists_perm_writtenSet_sorted (written : WrittenSet items a) :
    ∃ others, others.Perm items ∧ WrittenSet others a.sorted := by
  rcases written with ⟨parts⟩ | ⟨some, parts⟩ | ⟨some, parts⟩
  · obtain ⟨others, turned, perm⟩ := List.perm_comp_forall₂ (List.mergeSort_perm _ _) parts.flip
    exact ⟨others, perm, .numbers turned.flip⟩
  · obtain ⟨others, turned, perm⟩ := List.perm_comp_forall₂ (List.mergeSort_perm _ _) parts.flip
    refine ⟨others, perm, .texts ?_ turned.flip⟩
    intro same
    subst same
    exact some perm.symm.eq_nil
  · exact ⟨items, .refl items, .bytes some parts⟩

end AttributeValue

end TableScan
