import Mathlib.Algebra.Group.Int.Defs
import TableScan.Proofs.Attributes
import TableScan.Proofs.RoundTrip
import TableScan.Proofs.Storable

/-! Rows made of encoded values, read into records. Main statement: where the validated values are
sound, each chosen field gets an equal value, which is encoded alike. -/

namespace TableScan

open Attempt Value Coercion

theorem AttributeValue.pairwise_mergeSort_texts (members : List String) :
    (members.mergeSort fun s t => decide (s ≤ t)).Pairwise fun s t => decide (s ≤ t) = true := by
  apply List.pairwise_mergeSort
  · intro s t u one other
    exact decide_eq_true (String.le_trans (of_decide_eq_true one) (of_decide_eq_true other))
  · intro s t
    rcases String.le_total s t with less | less <;> simp [less]

theorem AttributeValue.sorted_sorted (a : AttributeValue) : a.sorted.sorted = a.sorted := by
  cases a with
  | numberSet members =>
    exact congrArg numberSet (List.mergeSort_of_pairwise (pairwise_mergeSort_texts members))
  | textSet members =>
    exact congrArg textSet (List.mergeSort_of_pairwise (pairwise_mergeSort_texts members))
  | _ => rfl

namespace Attribute

variable {a : Attribute} {v w : Value} {encoded : AttributeValue}

theorem encode_eq_ok_iff :
    a.encode false v = .ok encoded ↔
      ∃ w, validate a.type v = .ok w ∧ AttributeValue.ofValue w = .ok encoded := by
  unfold encode
  simp only [Bool.false_eq_true, if_false]
  split
  · next found => simp [found]
  · next found => simp [found]
  · next w found =>
    simp only [found, Except.ok.injEq, exists_eq_left']
    split <;> simp [*]

theorem decode_eq_ok {native : Value} (read : v.ofTagged = .ok native)
    (fits : validate a.type native = .ok w) : a.decode v = .ok w := by
  unfold decode
  simp only [read, fits]

/-- What a kept value is encoded to is decoded to an equal value, which is encoded alike. -/
theorem exists_decode (kept : Keeps a.type w) (written : AttributeValue.ofValue w = .ok encoded) :
    ∃ x, a.decode encoded.toValue = .ok x ∧ same x w = true ∧ a.encode false x = .ok encoded := by
  rw [AttributeValue.ofValue_eq] at written
  obtain ⟨raw, plain, rfl⟩ := map_eq_ok_iff.1 written
  obtain ⟨v, keptSorted, sorted, equal⟩ := kept.exists_sorted plain
  refine ⟨v.reread, ?_, equal, ?_⟩
  · exact decode_eq_ok (keptSorted.ofTagged_toValue sorted)
      (validate_eq_ok_iff.2 keptSorted.gives_reread)
  · refine encode_eq_ok_iff.2 ⟨v.reread, validate_eq_ok_iff.2 keptSorted.kept_reread.gives_self, ?_⟩
    rw [AttributeValue.ofValue_eq, AttributeValue.unsorted_reread, sorted]
    exact congrArg Except.ok raw.sorted_sorted

end Attribute

/-- A model whose records take every value for a field as it is, with fields of types whose values
the store keeps, each under a name of its own. -/
structure Model.KeepsRows (m : Model) : Prop where
  storable : ∀ f ∈ m.fields, Storable f.type
  names : (m.fields.map (·.name)).Nodup
  storedNames : (m.fields.map Field.storedName).Nodup
  settable : m.frozen = false
  fieldsSettable : ∀ f ∈ m.fields, f.frozen = false
  unvalidated : m.validatesAssignment = false

structure Choice where
  field : Field
  input : Value
  encoded : AttributeValue

/-- Choices for different fields of a model, each encoded by the model's schema. -/
structure Choices (m : Model) (chosen : List Choice) : Prop where
  fields : ∀ c ∈ chosen, c.field ∈ m.fields
  different : (chosen.map (·.field.name)).Nodup
  encodes : ∀ c ∈ chosen,
    (Schema.ofModel m).encode c.field.storedName false c.input = .ok c.encoded

def rowEntries (chosen : List Choice) : List (Value × Value) :=
  chosen.map fun c => (.text c.field.storedName, c.encoded.toValue)

/-- The row made of the encoded values is read into a record that has, for each chosen field, a value
which equals the validated input and is encoded alike. -/
def ReadsBack (m : Model) (chosen : List Choice) : Prop :=
  ∃ r, (Schema.ofModel m).decodeInto m (.map (rowEntries chosen)) m.newPersisted = (r, none) ∧
    ∀ c ∈ chosen, ∃ w x, validate c.field.type c.input = .ok w ∧
      r.value? c.field.name = some x ∧ same x w = true ∧
      (Schema.ofModel m).encode c.field.storedName false x = .ok c.encoded

namespace Model.KeepsRows

variable {m : Model} {f : Field} {c : Choice} {chosen : List Choice}

theorem encode_eq (keeps : m.KeepsRows) (member : f ∈ m.fields) (v : Value) :
    (Schema.ofModel m).encode f.storedName false v = (Attribute.ofField f).encode false v := by
  unfold Schema.encode Schema.find
  rw [Schema.attribute?_storedName keeps.storedNames member]
  rfl

theorem assign_eq (keeps : m.KeepsRows) (member : f ∈ m.fields) (v : Value) (r : Record) :
    r.assign m f.name v = .ok (r.put f.name v) := by
  unfold Record.assign
  rw [Schema.field?_of_mem keeps.names member]
  simp [keeps.settable, keeps.fieldsSettable f member, keeps.unvalidated]

theorem decodeEntry_eq {content v : Value} (keeps : m.KeepsRows) (member : f ∈ m.fields)
    (decodes : (Attribute.ofField f).decode content = .ok v) (r : Record) :
    (Schema.ofModel m).decodeEntry m (.text f.storedName) content r = .ok (r.put f.name v) := by
  unfold Schema.decodeEntry
  rw [show (Value.text f.storedName).text?.bind (Schema.ofModel m).attribute? =
    some (Attribute.ofField f) from Schema.attribute?_storedName keeps.storedNames member]
  simp only [decodes]
  rw [show (Attribute.ofField f).field = f.name from rfl, keeps.assign_eq member]

theorem decodeEntries_rowEntries {P : Choice → Value → Prop} (keeps : m.KeepsRows)
    (fields : ∀ c ∈ chosen, c.field ∈ m.fields) (different : (chosen.map (·.field.name)).Nodup)
    (decodes : ∀ c ∈ chosen, ∃ x, (Attribute.ofField c.field).decode c.encoded.toValue = .ok x ∧ P c x)
    (r : Record) :
    ∃ r', (Schema.ofModel m).decodeEntries m (rowEntries chosen) r = (r', none) ∧
      (∀ c ∈ chosen, ∃ x, r'.value? c.field.name = some x ∧ P c x) ∧
      ∀ name ∉ chosen.map (·.field.name), r'.value? name = r.value? name := by
  induction chosen generalizing r with
  | nil => exact ⟨r, rfl, by simp, by simp⟩
  | cons c chosen ih =>
    rw [List.forall_mem_cons] at fields decodes
    rw [List.map_cons, List.nodup_cons] at different
    obtain ⟨⟨x, decoded, holds⟩, decodes⟩ := decodes
    obtain ⟨r', done, chosenValues, others⟩ :=
      ih fields.2 different.2 decodes (r.put c.field.name x)
    refine ⟨r', ?_, ?_, ?_⟩
    · unfold rowEntries at done ⊢
      rw [List.map_cons, Schema.decodeEntries, keeps.decodeEntry_eq fields.1 decoded]
      exact done
    · refine List.forall_mem_cons.2 ⟨⟨x, ?_, holds⟩, chosenValues⟩
      rw [others _ different.1, Record.value?_put, if_pos rfl]
    · intro name absent
      rw [List.map_cons, List.mem_cons, not_or] at absent
      rw [others name absent.2, Record.value?_put, if_neg (Ne.symm absent.1)]

/-- A row made of encoded values is read back, whichever fields are chosen and in whichever order,
where the validated values are sound. -/
theorem readsBack_of_sound (keeps : m.KeepsRows) (choices : Choices m chosen)
    (sound : ∀ c ∈ chosen, ∀ w, validate c.field.type c.input = .ok w → Sound c.field.type w) :
    ReadsBack m chosen := by
  have decodes : ∀ c ∈ chosen, ∃ x,
      (Attribute.ofField c.field).decode c.encoded.toValue = .ok x ∧
        ∃ w, validate c.field.type c.input = .ok w ∧ same x w = true ∧
          (Schema.ofModel m).encode c.field.storedName false x = .ok c.encoded := by
    intro c member
    have field := choices.fields c member
    have encoded := choices.encodes c member
    rw [keeps.encode_eq field] at encoded
    obtain ⟨w, fits, written⟩ := Attribute.encode_eq_ok_iff.1 encoded
    have kept : Keeps c.field.type w :=
      (keeps.storable _ field).keeps_of_gives (validate_eq_ok_iff.1 fits) (sound c member w fits)
    obtain ⟨x, decoded, equal, again⟩ :=
      Attribute.exists_decode (a := .ofField c.field) kept written
    refine ⟨x, decoded, w, fits, equal, ?_⟩
    rw [keeps.encode_eq field]
    exact again
  obtain ⟨r, done, values, _⟩ := keeps.decodeEntries_rowEntries choices.fields choices.different
    decodes m.newPersisted
  refine ⟨r, done, ?_⟩
  intro c member
  obtain ⟨x, found, w, fits, equal, again⟩ := values c member
  exact ⟨w, x, fits, found, equal, again⟩

end Model.KeepsRows

namespace Sample

def size : Enumeration := ⟨"Size", .int, [("SMALL", .int 1), ("HUGE", .int (2 ^ 70))]⟩

def parcel : Model where
  name := "Parcel"
  table := none
  fields := [
    { Field.plain "number" .int none with externalName := some "no" },
    .plain "due" (.optional .date) (some .null),
    .plain "sizes" (.collection .list (.enumeration size)) none]
  validatesAssignment := false
  frozen := false

theorem keepsRows_parcel : parcel.KeepsRows where
  storable := by
    have sizes : Storable (.enumeration size) := .numbers rfl (by simp [size])
    simp only [parcel, List.forall_mem_cons, List.not_mem_nil, false_implies, implies_true, and_true]
    exact ⟨.scalar .int, .optional_of (.scalar .date), .list sizes⟩
  names := by decide
  storedNames := by decide
  settable := rfl
  fieldsSettable := by simp [parcel, Field.plain]
  unvalidated := rfl

def dueDate : Date := ⟨⟨2024, 2, 29⟩, by decide⟩

def due : Field := .plain "due" (.optional .date) (some .null)

theorem encode_due : (Schema.ofModel parcel).encode "due" false (.text "2024-02-29") =
    .ok (.text dueDate.toText) := by
  have member : due ∈ parcel.fields := by simp [parcel, due]
  have encoded : (Attribute.ofField due).encode false (.text "2024-02-29") =
      .ok (.text dueDate.toText) :=
    Attribute.encode_eq_ok_iff.2 ⟨.date dueDate, rfl, rfl⟩
  exact (keepsRows_parcel.encode_eq member _).trans encoded

def parcelChoices : List Choice := [
  ⟨.plain "sizes" (.collection .list (.enumeration size)) none, .list [.int 1], .list [.number "1"]⟩,
  ⟨due, .text "2024-02-29", .text dueDate.toText⟩,
  ⟨{ Field.plain "number" .int none with externalName := some "no" }, .text "7", .number "7"⟩]

theorem choices_parcel : Choices parcel parcelChoices where
  fields := by simp [parcel, parcelChoices, due]
  different := by decide
  encodes := by
    simp only [parcelChoices, List.forall_mem_cons, List.not_mem_nil, false_implies, implies_true,
      and_true]
    exact ⟨rfl, encode_due, rfl⟩

theorem keeps_sizes :
    Keeps (.collection .list (.enumeration size)) (.list [size.memberOf ("SMALL", .int 1)]) := by
  refine .list rfl ?_
  intro x only
  cases List.mem_singleton.1 only
  refine .intMember rfl ?_ (.inl (by decide))
  unfold Enumeration.Owns
  rfl

theorem keeps_due : Keeps (.optional .date) (.date dueDate) :=
  .present rfl rfl (.date dueDate)

theorem sound_parcel : ∀ c ∈ parcelChoices, ∀ w, validate c.field.type c.input = .ok w →
    Sound c.field.type w := by
  simp only [parcelChoices, List.forall_mem_cons, List.not_mem_nil, false_implies, implies_true,
    and_true]
  refine ⟨?_, ?_, ?_⟩
  · intro w fits
    cases fits
    exact keeps_sizes.sound
  · intro w fits
    cases fits
    exact keeps_due.sound
  · intro w fits
    cases fits
    exact Keeps.sound (.int 7)

theorem readsBack_parcel :
    parcel.KeepsRows ∧ Choices parcel parcelChoices ∧ ReadsBack parcel parcelChoices :=
  ⟨keepsRows_parcel, choices_parcel,
    keepsRows_parcel.readsBack_of_sound choices_parcel sound_parcel⟩

def modelOf (f : Field) : Model := ⟨"Model", none, [f], false, false⟩

theorem keepsRows_modelOf {f : Field} (storable : Storable f.type) (settable : f.frozen = false) :
    (modelOf f).KeepsRows where
  storable := by simpa [modelOf] using storable
  names := List.nodup_singleton _
  storedNames := List.nodup_singleton _
  settable := rfl
  fieldsSettable := by simpa [modelOf] using settable
  unvalidated := rfl

theorem choices_modelOf {c : Choice}
    (encodes : (Schema.ofModel (modelOf c.field)).encode c.field.storedName false c.input =
      .ok c.encoded) : Choices (modelOf c.field) [c] where
  fields := by simp [modelOf]
  different := List.nodup_singleton _
  encodes := by simpa using encodes

theorem not_readsBack {m : Model} {chosen : List Choice} (failure : Failure)
    (failed : ((Schema.ofModel m).decodeInto m (.map (rowEntries chosen)) m.newPersisted).2 =
      some failure) : ¬ReadsBack m chosen := by
  intro back
  obtain ⟨r, done, _⟩ := back
  rw [done] at failed
  cases failed

def huge : Choice where
  field := .plain "size" (.enumeration size) none
  input := size.memberOf ("HUGE", .int (2 ^ 70))
  encoded := .number "1180591620717411303424"

theorem not_readsBack_huge : ¬ReadsBack (modelOf huge.field) [huge] :=
  not_readsBack (.decoding (some "size") (.issues [⟨.intParsingSize, []⟩])) rfl

def colour : Enumeration := ⟨"Colour", .plain, [("RED", .text "red")]⟩

/-- A whole number for which a member is given that stands for a text. -/
def red : Choice where
  field := .plain "count" .int none
  input := colour.memberOf ("RED", .text "red")
  encoded := .text "red"

theorem not_readsBack_red : ¬ReadsBack (modelOf red.field) [red] :=
  not_readsBack (.decoding (some "count") (.issues [⟨.intParsing, []⟩])) rfl

/-- Not every row of encoded values is read back: a member need not be found by its number, and a
whole number need not be one. -/
theorem not_forall_readsBack :
    (¬∀ (m : Model) (chosen : List Choice), m.KeepsRows → Choices m chosen →
      (∀ c ∈ chosen, ∀ w, validate c.field.type c.input = .ok w →
        WellFormed c.field.type w ∧ WholeNumbers c.field.type w) → ReadsBack m chosen) ∧
    ¬∀ (m : Model) (chosen : List Choice), m.KeepsRows → Choices m chosen →
      (∀ c ∈ chosen, ∀ w, validate c.field.type c.input = .ok w →
        WellFormed c.field.type w ∧ FoundMembers c.field.type w) → ReadsBack m chosen := by
  constructor
  · intro closed
    have storable : Storable huge.field.type := .numbers rfl (by simp [size])
    apply not_readsBack_huge
    apply closed (modelOf huge.field) [huge] (keepsRows_modelOf storable rfl) (choices_modelOf rfl)
    intro c only w fits
    cases List.mem_singleton.1 only
    cases fits
    refine ⟨⟨?_, ?_⟩, ?_⟩
    · intro e y place
      cases place
      refine ⟨("HUGE", .int (2 ^ 70)), ?_, rfl⟩
      unfold Enumeration.Owns
      rfl
    · intro d place
      cases place
    · intro y place
      cases place
  · intro closed
    have storable : Storable red.field.type := .scalar .int
    apply not_readsBack_red
    apply closed (modelOf red.field) [red] (keepsRows_modelOf storable rfl) (choices_modelOf rfl)
    intro c only w fits
    cases List.mem_singleton.1 only
    cases fits
    refine ⟨⟨?_, ?_⟩, ?_⟩
    · intro e y place
      cases place
    · intro d place
      cases place
    · intro e name n base place
      cases place

end Sample

end TableScan
