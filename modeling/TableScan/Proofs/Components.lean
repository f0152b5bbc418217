import TableScan.Proofs.Elements

/-! Components of tuples as operands. Main statement: a component of an encoded tuple, encoded as an
operand for one element, is what stands for it in the attribute value exactly when it is of the first
component's type, or is a text that spells a value of that type. -/

namespace TableScan

open Attempt Coercion Outcome Value AttributeValue

inductive FieldType.Component : FieldType → Prop where
  | int : Component .int
  | text : Component .text
  | bytes : Component .bytes
  | bool : Component .bool
  | uuid : Component .uuid
  | date : Component .date

/-- A text that is how a value of the type is written. -/
inductive Spells : FieldType → Value → Prop where
  | uuid (u : Uuid) {s : String} (spelled : u.toText = s) : Spells .uuid (.text s)
  | date (d : Date) {s : String} (spelled : d.toText = s) : Spells .date (.text s)

inductive WritesComponent : FieldType → Value → AttributeValue → Prop where
  | int (n : Int) (digits : String) : WritesComponent .int (.int n) (.number digits)
  | text (s : String) : WritesComponent .text (.text s) (.text s)
  | bytes (bs : List UInt8) : WritesComponent .bytes (.bytes bs) (.bytes bs)
  | bool (b : Bool) : WritesComponent .bool (.bool b) (.bool b)
  | uuid (u : Uuid) {s : String} (spelled : u.toText = s) : WritesComponent .uuid (.uuid u) (.text s)
  | date (d : Date) {s : String} (spelled : d.toText = s) : WritesComponent .date (.date d) (.text s)

variable {t first : FieldType} {v x y : Value} {b : AttributeValue}

namespace FieldType.Component

theorem keeps_of_gives (component : t.Component) (given : (coerce t v).Gives x)
    (whole : t = .int → ∃ n, x = .int n) : Keeps t x := by
  cases component with
  | bool =>
    obtain ⟨b, rfl⟩ := exists_of_gives_toBool given
    exact .bool b
  | int => exact OfSets.int.keeps_of_gives given whole
  | text => exact OfSets.text.keeps_of_gives given whole
  | bytes => exact OfSets.bytes.keeps_of_gives given whole
  | uuid => exact OfSets.uuid.keeps_of_gives given whole
  | date => exact OfSets.date.keeps_of_gives given whole

theorem writes_of_unsorted (component : t.Component) (kept : Keeps t x)
    (written : unsorted x = .ok b) : WritesComponent t x b := by
  cases component with
  | int =>
    cases kept
    obtain ⟨digits, -, rfl⟩ := map_eq_ok_iff.1 written
    exact .int _ digits
  | text | bytes | bool =>
    cases kept
    cases written
    constructor
  | uuid =>
    cases kept
    cases written
    exact .uuid _ rfl
  | date =>
    cases kept
    cases written
    exact .date _ rfl

end FieldType.Component

theorem WritesComponent.sorted_eq_self (writes : WritesComponent t x b) : b.sorted = b := by
  cases writes <;> rfl

namespace Coercion

theorem exists_of_gives_intOfText {s : String} (given : (intOfText s).Gives y) : ∃ n, y = .int n := by
  unfold intOfText at given
  split at given
  · exact ⟨_, (gives_accept.1 given).symm⟩
  all_goals exact absurd given not_gives_reject

/-- A component passes for a whole number only if it is one or reads as one. -/
theorem exists_of_gives_toInt_component (component : t.Component) (kept : Keeps t x)
    (given : (toInt x).Gives y) : ∃ n, y = .int n := by
  cases component with
  | int | bool =>
    cases kept
    exact ⟨_, (gives_accept.1 given).symm⟩
  | text =>
    cases kept
    exact exists_of_gives_intOfText given
  | bytes =>
    cases kept with
    | bytes bs =>
      simp only [toInt, readableText?] at given
      split at given
      · exact exists_of_gives_intOfText given
      all_goals exact absurd given not_gives_reject
  | uuid | date =>
    cases kept
    exact absurd given not_gives_reject

end Coercion

theorem writes_of_gives (component : t.Component) (component' : first.Component) (kept : Keeps t x)
    (given : (coerce first x).Gives y) (written : unsorted y = .ok b) : WritesComponent first y b := by
  have whole : first = .int → ∃ n, y = .int n := by
    rintro rfl
    exact exists_of_gives_toInt_component component kept given
  exact component'.writes_of_unsorted (component'.keeps_of_gives given whole) written

theorem unsorted_uuid (u : Uuid) : unsorted (.uuid u) = .ok (.text u.toText) := rfl

theorem unsorted_date (d : Date) : unsorted (.date d) = .ok (.text d.toText) := rfl

/-- A component reads as a value of another type that is written as it is only if it spells that
value. -/
theorem writes_component_iff (component : t.Component) (component' : first.Component)
    (kept : Keeps t x) (written : unsorted x = .ok b) :
    Writes first x b ↔ t = first ∨ Spells first x := by
  have writes := component.writes_of_unsorted kept written
  constructor
  · rintro ⟨y, given, written'⟩
    have writes' := writes_of_gives component component' kept given written'
    cases writes with
    | int | bytes | bool =>
      cases writes'
      exact .inl rfl
    | text s =>
      cases writes' with
      | text => exact .inl rfl
      | uuid u spelled => exact .inr (.uuid u spelled)
      | date d spelled => exact .inr (.date d spelled)
    | uuid u spelled =>
      cases component' with
      | uuid => exact .inl rfl
      | text => exact absurd given not_gives_reject
      | date => exact absurd given not_gives_reject
      | int | bytes | bool => cases writes'
    | date d spelled =>
      cases component' with
      | date => exact .inl rfl
      | text => exact absurd given not_gives_reject
      | uuid => exact absurd given not_gives_reject
      | int | bytes | bool => cases writes'
  · rintro (rfl | spells)
    · exact ⟨x, kept.gives_self, written⟩
    · cases spells with
      | uuid u spelled =>
        cases writes
        exact ⟨.uuid u, spelled ▸ gives_toUuid_toText u, spelled ▸ unsorted_uuid u⟩
      | date d spelled =>
        cases writes
        exact ⟨.date d, spelled ▸ gives_toDate_toText d, spelled ▸ unsorted_date d⟩

namespace Attribute

variable {a : Attribute} {w : AttributeValue} {ts : List FieldType}

theorem encode_component_iff (typed : a.type.element = first) (component : t.Component)
    (component' : first.Component) (kept : Keeps t x) (written : unsorted x = .ok b) :
    a.encode true x = .ok b ↔ t = first ∨ Spells first x := by
  rw [← writes_component_iff component component' kept written, ← typed]
  constructor
  · intro encoded
    obtain ⟨raw, ⟨y, given, plain⟩, rfl⟩ := encode_eq_ok_iff_writes.1 encoded
    have writes := writes_of_gives component component' kept (typed ▸ given) plain
    exact ⟨y, given, writes.sorted_eq_self.symm ▸ plain⟩
  · rintro ⟨y, given, plain⟩
    have writes := writes_of_gives component component' kept (typed ▸ given) plain
    exact encode_eq_ok_iff_writes.2 ⟨b, ⟨y, given, plain⟩, writes.sorted_eq_self.symm⟩

/-- For an attribute of tuples, each component of an operand as it was validated, where a whole number
stands if its type is that of whole numbers, is encoded alone as in the tuple exactly when it is of
the first component's type or spells a value of it. -/
theorem encode_components_iff {rest : List FieldType} (typed : a.type = .tuple (first :: rest))
    (each : ∀ t ∈ first :: rest, t.Component) (written : a.encode false v = .ok w) :
    ∃ xs parts, validate a.type v = .ok (.tuple xs) ∧ w = .list parts ∧
      xs.length = (first :: rest).length ∧ parts.length = (first :: rest).length ∧
      ∀ (i : Nat) t x b, (first :: rest)[i]? = some t → xs[i]? = some x → parts[i]? = some b →
        (t = .int → ∃ n, x = .int n) →
          (a.encode true x = .ok b ↔ t = first ∨ Spells first x) := by
  obtain ⟨x, raw, fits, plain, rfl⟩ := exists_of_encode written
  have given : (coerce (.tuple (first :: rest)) v).Gives x := typed ▸ validate_eq_ok_iff.1 fits
  obtain ⟨xs, rfl, length, fitted⟩ := exists_of_gives_tuple given
  have listed : unsorted (.list xs) = .ok raw := plain
  obtain ⟨parts, wrote, rfl⟩ := unsorted_list_iff.1 listed
  refine ⟨xs, parts, fits, rfl, length.symm, wrote.length_eq ▸ length.symm, ?_⟩
  intro i t x b type component part whole
  have typedBy : (t, x) ∈ (first :: rest).zip xs :=
    List.mem_of_getElem? (List.getElem?_zip_eq_some.2 ⟨type, component⟩)
  have writtenBy : (x, b) ∈ xs.zip parts :=
    List.mem_of_getElem? (List.getElem?_zip_eq_some.2 ⟨component, part⟩)
  obtain ⟨u, gives⟩ := fitted _ typedBy
  have kind := each t (List.of_mem_zip typedBy).1
  refine encode_component_iff ?_ kind (each first (by simp)) (kind.keeps_of_gives gives whole)
    (List.forall₂_zip wrote writtenBy)
  rw [typed]
  rfl

def labelled : Attribute := ⟨"labelled", "labelled", .tuple [.uuid, .text, .text]⟩

theorem component_labelled : ∀ t ∈ [FieldType.uuid, .text, .text], t.Component := by
  simp only [List.forall_mem_cons]
  exact ⟨.uuid, .text, .text, by simp⟩

theorem not_spells_b : ¬Spells .uuid (.text "b") := by
  intro spells
  cases spells with
  | uuid u spelled =>
    have read : Uuid.ofText? u.toText.toList = Uuid.ofText? "b".toList := congrArg _ (by rw [spelled])
    rw [Uuid.toText, String.toList_ofList, Uuid.ofText?_toChars] at read
    cases read

theorem encode_components_iff_labelled :
    let u : Uuid := ⟨0⟩
    let v : Value := .tuple [.uuid u, .text "b", .text u.toText]
    (∀ t ∈ [FieldType.uuid, .text, .text], t.Component) ∧
      labelled.encode false v = .ok (.list [.text u.toText, .text "b", .text u.toText]) ∧
      labelled.encode true (.uuid u) = .ok (.text u.toText) ∧
      labelled.encode true (.text "b") ≠ .ok (.text "b") ∧
      labelled.encode true (.text u.toText) = .ok (.text u.toText) := by
  intro u v
  have written : labelled.encode false v =
      .ok (.list [.text u.toText, .text "b", .text u.toText]) := rfl
  obtain ⟨xs, parts, fits, same, -, -, searched⟩ :=
    encode_components_iff rfl component_labelled written
  have values : validate labelled.type v = .ok v := rfl
  rw [values, Except.ok.injEq, Value.tuple.injEq] at fits
  rw [AttributeValue.list.injEq] at same
  subst fits same
  refine ⟨component_labelled, written, ?_, ?_, ?_⟩
  · exact (searched 0 .uuid _ _ rfl rfl rfl nofun).2 (.inl rfl)
  · intro found
    rcases (searched 1 .text _ _ rfl rfl rfl nofun).1 found with same | spells
    · cases same
    · exact not_spells_b spells
  · exact (searched 2 .text _ _ rfl rfl rfl nofun).2 (.inr (.uuid u rfl))

def pair : Attribute := ⟨"pair", "pair", .tuple [.int, .text]⟩

/-- A text beside a number is no operand for one element. -/
theorem not_forall_component :
    ¬∀ (a : Attribute) (ts : List FieldType) (v : Value) (xs : List Value)
      (parts : List AttributeValue), a.type = .tuple ts → ts ≠ [] → (∀ t ∈ ts, t.Component) →
      a.encode false v = .ok (.list parts) → validate a.type v = .ok (.tuple xs) →
      ∀ (i : Nat) x b, xs[i]? = some x → parts[i]? = some b → a.encode true x = .ok b := by
  intro searched
  have component : ∀ t ∈ [FieldType.int, .text], t.Component := by
    simp only [List.forall_mem_cons]
    exact ⟨.int, .text, by simp⟩
  have found := searched pair _ (.tuple [.int 1, .text "b"]) _ _ rfl (by simp) component rfl rfl 1
    (.text "b") (.text "b") rfl rfl
  cases found

end Attribute

end TableScan
