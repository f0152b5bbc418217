import TableScan.Proofs.Faulting

/-! When fitting a value to a type ends in a fault in place of a value or issues. Main statement:
when the value stumbles, that is, a signalling not-a-number meets an enumeration with a number among
its members, or the key of a mapping is fitted to what cannot be a key. -/

namespace TableScan.Coercion

open Outcome

/-- Fitting the value to the type comes upon what cannot be compared or be a key. -/
inductive Stumbles : FieldType → Value → Prop where
  /-- A signalling not-a-number is looked for among numbers. -/
  | member {e : Enumeration} {d : Decimal} {entry : String × Value} (signals : d.isSignaling = true)
    (among : entry ∈ e.members) (number : entry.2.number?.isSome = true) :
    Stumbles (.enumeration e) (.decimal d)
  | item {kind : Collection} {t : FieldType} {v item : Value} {items : List Value}
    (fitted : itemsFor kind v = some items) (among : item ∈ items) (inner : Stumbles t item) :
    Stumbles (.collection kind t) v
  | part {ts : List FieldType} {t : FieldType} {v item : Value} {items : List Value}
    (fitted : sequenceItems? v = some items) (among : (t, item) ∈ ts.zip items)
    (inner : Stumbles t item) : Stumbles (.tuple ts) v
  | key {k t : FieldType} {entry : Value × Value} {entries : List (Value × Value)}
    (among : entry ∈ entries) (inner : Stumbles k entry.1) : Stumbles (.map k t) (.map entries)
  | content {k t : FieldType} {entry : Value × Value} {entries : List (Value × Value)}
    (among : entry ∈ entries) (inner : Stumbles t entry.2) : Stumbles (.map k t) (.map entries)
  /-- A key is fitted to what cannot be one. -/
  | unhashable {k t : FieldType} {entry : Value × Value} {entries : List (Value × Value)}
    {key content : Value} (among : entry ∈ entries) (ofKey : (coerce k entry.1).Gives key)
    (ofContent : (coerce t entry.2).Gives content) (faulty : key.hashFault?.isSome = true) :
    Stumbles (.map k t) (.map entries)
  | bareKey {entry : Value × Value} {entries : List (Value × Value)} (among : entry ∈ entries)
    (faulty : entry.1.hashFault?.isSome = true) : Stumbles (.bare .map) (.map entries)
  /-- An alternative is tried only if the value is not exactly of an earlier one. -/
  | alternative {before after : List FieldType} {t : FieldType} {v : Value}
    (unsettled : ∀ u ∈ before, u.isNull = false → ¬FitsExactly u v) (inner : Stumbles t v) :
    Stumbles (.union (before ++ t :: after)) v

section Types

variable {t k : FieldType} {ts : List FieldType} {v : Value}

theorem isFault_coerce_bare_iff {b : Bare} :
    isFault (coerce (.bare b) v) = true ↔ b = .map ∧ ∃ entries, v = .map entries ∧
      ∃ entry ∈ entries, entry.1.hashFault?.isSome = true := by
  have collections (kind : Collection) :
      isFault (fitCollection true (accept .strict) v kind) = false := by
    rw [Bool.eq_false_iff, Ne, isFault_fitCollection_iff (by simp)]
    simp
  rw [coerce]
  cases b with
  | map => simp [fitBare, Bare.collection?, isFault_fitMap_iff, isFault_fitEntry_iff]
  | _ => simp [fitBare, Bare.collection?, collections]

theorem isFault_coerce_collection_iff {kind : Collection} :
    isFault (coerce (.collection kind t) v) = true ↔
      ∃ items, itemsFor kind v = some items ∧ ∃ item ∈ items, isFault (coerce t item) = true := by
  rw [coerce, isFault_fitCollection_iff]
  intro any item
  cases t with
  | any => rfl
  | _ => cases any

theorem isFault_coerce_tuple_iff :
    isFault (coerce (.tuple ts) v) = true ↔ ∃ items, sequenceItems? v = some items ∧
      ∃ p ∈ ts.zip items, isFault (coerce p.1 p.2) = true := by
  simp only [coerce, isFault_fromSequence_iff, isFault_map, isFault_orTooLong, isFault_coerceParts,
    List.any_eq_true]

theorem isFault_coerce_map_iff :
    isFault (coerce (.map k t) v) = true ↔ ∃ entries, v = .map entries ∧ ∃ entry ∈ entries,
      isFault (coerce k entry.1) = true ∨ isFault (coerce t entry.2) = true ∨
        ∃ key content, (coerce k entry.1).Gives key ∧ (coerce t entry.2).Gives content ∧
          key.hashFault?.isSome = true := by
  rw [coerce, isFault_fitMap_iff]
  simp only [isFault_fitEntry_iff]

theorem isFault_coerce_union_iff :
    isFault (coerce (.union ts) v) = true ↔
      (v = .null → ts.any FieldType.isNull = false) ∧
        ∃ before t after, ts = before ++ t :: after ∧
          (∀ u ∈ before, u.isNull = false → ¬FitsExactly u v) ∧
          t.isNull = false ∧ isFault (coerce t v) = true := by
  have alone (several : decide (1 < (FieldType.presentAlternatives ts).length) = false) :
      (FieldType.presentAlternatives ts).length ≤ 1 := by simpa using several
  cases v with
  | null =>
    cases absent : ts.any FieldType.isNull <;> simp [coerce, absent, isFault_coerceAmong_iff alone]
  | _ => simp [coerce, isFault_coerceAmong_iff alone]

end Types

theorem Stumbles.ne_null {t : FieldType} {v : Value} (stumbles : Stumbles t v) : v ≠ .null := by
  induction stumbles with
  | @item kind _ _ _ _ fitted =>
    rintro rfl
    cases kind <;> cases fitted
  | part fitted _ _ _ =>
    rintro rfl
    cases fitted
  | alternative _ _ ih => exact ih
  | _ => simp

theorem Stumbles.isNull_eq_false {t : FieldType} {v : Value} (stumbles : Stumbles t v) :
    t.isNull = false := by
  cases stumbles <;> rfl

mutual

theorem stumbles_of_isFault {t : FieldType} {v : Value} (faulty : isFault (coerce t v) = true) :
    Stumbles t v := by
  cases t with
  | any => cases faulty
  | enumeration e =>
    obtain ⟨d, rfl, signals, entry, among, number⟩ := isFault_toMember_iff.1 faulty
    exact .member signals among number
  | bare b =>
    obtain ⟨rfl, entries, rfl, entry, among, unhashable⟩ := isFault_coerce_bare_iff.1 faulty
    exact .bareKey among unhashable
  | collection kind t =>
    obtain ⟨items, fitted, item, among, inner⟩ := isFault_coerce_collection_iff.1 faulty
    exact .item fitted among (stumbles_of_isFault inner)
  | tuple ts =>
    obtain ⟨items, fitted, ⟨t, item⟩, among, inner⟩ := isFault_coerce_tuple_iff.1 faulty
    exact .part fitted among (stumbles_of_mem ts t (List.of_mem_zip among).1 inner)
  | map k t =>
    obtain ⟨entries, rfl, entry, among, faulty⟩ := isFault_coerce_map_iff.1 faulty
    rcases faulty with inner | inner | ⟨key, content, gives, others, unhashable⟩
    · exact .key among (stumbles_of_isFault inner)
    · exact .content among (stumbles_of_isFault inner)
    · exact .unhashable among gives others unhashable
  | union ts =>
    obtain ⟨-, before, t, after, split, unsettled, -, inner⟩ := isFault_coerce_union_iff.1 faulty
    have stumbles := stumbles_of_mem ts t (by simp [split]) inner
    rw [split]
    exact .alternative unsettled stumbles
  | text => exact absurd faulty (by simp [coerce, isFault_toText])
  | int => exact absurd faulty (by simp [coerce, isFault_toInt])
  | float => exact absurd faulty (by simp [coerce, isFault_toFloat])
  | bool => exact absurd faulty (by simp [coerce, isFault_toBool])
  | bytes => exact absurd faulty (by simp [coerce, isFault_toBytes])
  | decimal => exact absurd faulty (by simp [coerce, isFault_toDecimal])
  | datetime => exact absurd faulty (by simp [coerce, isFault_toDatetime])
  | date => exact absurd faulty (by simp [coerce, isFault_toDate])
  | uuid => exact absurd faulty (by simp [coerce, isFault_toUuid])
  | null => exact absurd faulty (by simp [coerce, isFault_toNull])
termination_by structural t

theorem stumbles_of_mem (ts : List FieldType) :
    ∀ t ∈ ts, ∀ {v : Value}, isFault (coerce t v) = true → Stumbles t v := by
  cases ts with
  | nil => simp
  | cons t ts =>
    exact List.forall_mem_cons.2 ⟨fun faulty => stumbles_of_isFault faulty, stumbles_of_mem ts⟩
termination_by structural ts

end

theorem isFault_of_stumbles {t : FieldType} {v : Value} (stumbles : Stumbles t v) :
    isFault (coerce t v) = true := by
  induction stumbles with
  | member signals among number =>
    exact isFault_toMember_iff.2 ⟨_, rfl, signals, _, among, number⟩
  | item fitted among _ ih => exact isFault_coerce_collection_iff.2 ⟨_, fitted, _, among, ih⟩
  | part fitted among _ ih => exact isFault_coerce_tuple_iff.2 ⟨_, fitted, _, among, ih⟩
  | key among _ ih => exact isFault_coerce_map_iff.2 ⟨_, rfl, _, among, .inl ih⟩
  | content among _ ih => exact isFault_coerce_map_iff.2 ⟨_, rfl, _, among, .inr (.inl ih)⟩
  | unhashable among ofKey ofContent faulty =>
    exact isFault_coerce_map_iff.2
      ⟨_, rfl, _, among, .inr (.inr ⟨_, _, ofKey, ofContent, faulty⟩)⟩
  | bareKey among faulty => exact isFault_coerce_bare_iff.2 ⟨rfl, _, rfl, _, among, faulty⟩
  | alternative unsettled inner ih =>
    refine isFault_coerce_union_iff.2 ⟨?_, _, _, _, rfl, unsettled, ?_, ih⟩
    · exact fun null => absurd null inner.ne_null
    · exact inner.isNull_eq_false

/-- Fitting ends in a fault exactly when the value stumbles. -/
theorem isFault_coerce_iff {t : FieldType} {v : Value} :
    isFault (coerce t v) = true ↔ Stumbles t v :=
  ⟨stumbles_of_isFault, isFault_of_stumbles⟩

end TableScan.Coercion
