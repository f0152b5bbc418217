import TableScan.Proofs.Attributes
import TableScan.Proofs.Overrun
import TableScan.Proofs.Requests
import TableScan.Proofs.Stumbling

/-! What encoding an operand comes to. Main statement: a well-formed attribute value, or a failure
that names the attribute, unless fitting the operand to the attribute's type ends in a fault. -/

namespace TableScan

open Attempt

def Reported {α : Type} (x : Except Fault α) : Prop :=
  ∀ cause, x = .error cause → cause.family ≠ .member

namespace Reported

variable {α β : Type}

theorem ok (x : α) : Reported (.ok x) := nofun

theorem error {cause : Fault} (family : cause.family ≠ .member) :
    Reported (.error cause : Except Fault α) := by
  intro other same
  cases same
  exact family

theorem bind {x : Except Fault α} {f : α → Except Fault β} (first : Reported x)
    (later : ∀ y, Reported (f y)) : Reported (x >>= f) := by
  intro cause failed
  rcases bind_eq_error_iff.1 failed with failed | ⟨y, _, failed⟩
  · exact first cause failed
  · exact later y cause failed

theorem map {x : Except Fault α} {f : α → β} (reported : Reported x) : Reported (x.map f) :=
  fun cause failed => reported cause (map_eq_error_iff.1 failed)

theorem mapM {f : α → Except Fault β} {xs : List α} (each : ∀ x, Reported (f x)) :
    Reported (xs.mapM f) := by
  intro cause failed
  obtain ⟨_, x, _, _, _, failed⟩ := mapM_eq_error_iff.1 failed
  exact each x cause failed

end Reported

namespace Value

theorem reported_hashed (v : Value) : Reported (hashed v) := by
  intro cause failed
  rw [family_of_hashed failed]
  decide

theorem reported_keyText (k : Value) : Reported (keyText k) := by
  unfold keyText
  split
  · exact .ok _
  · exact .error (by decide)

mutual

theorem reported_native (v : Value) : Reported v.native := by
  cases v with
  | member _ _ _ v => exact reported_native v
  | set items | frozenset items => exact .bind (reported_nativeMembers items) fun _ => .ok _
  | list items | tuple items => exact .bind (reported_nativeItems items) fun _ => .ok _
  | map entries => exact .bind (reported_nativeEntries entries) fun _ => .ok _
  | _ => exact .ok _
termination_by structural v

theorem reported_nativeItems (items : List Value) : Reported (nativeItems items) := by
  cases items with
  | nil => exact .ok _
  | cons v items =>
    exact .bind (reported_native v) fun _ => .bind (reported_nativeItems items) fun _ => .ok _
termination_by structural items

theorem reported_nativeMembers (items : List Value) : Reported (nativeMembers items) := by
  cases items with
  | nil => exact .ok _
  | cons v items =>
    exact .bind (reported_native v) fun native => .bind (reported_hashed native) fun _ =>
      .bind (reported_nativeMembers items) fun _ => .ok _
termination_by structural items

theorem reported_nativeEntries (entries : List (Value × Value)) :
    Reported (nativeEntries entries) := by
  cases entries with
  | nil => exact .ok _
  | cons entry entries =>
    obtain ⟨k, v⟩ := entry
    exact .bind (reported_keyText k) fun _ => .bind (reported_native v) fun _ =>
      .bind (reported_nativeEntries entries) fun _ => .ok _
termination_by structural entries

end

end Value

namespace AttributeValue

theorem reported_numberText (d : Decimal) : Reported (numberText d) := by
  unfold numberText
  split
  · exact .error nofun
  · split
    · exact .error (by decide)
    · exact .error (by decide)
    · exact .ok _

theorem reported_ofSet (items : List Value) : Reported (ofSet items) := by
  unfold ofSet
  split
  · exact .map (.mapM reported_numberText)
  · exact .ok _
  · exact .ok _
  · exact .error nofun

mutual

theorem reported_ofNative (v : Value) : Reported (ofNative v) := by
  cases v with
  | int n => exact .map (reported_numberText _)
  | decimal d => exact .map (reported_numberText d)
  | set items => exact reported_ofSet items
  | map entries => exact .bind (reported_ofNativeEntries entries) fun _ => .ok _
  | list items | tuple items => exact .bind (reported_ofNativeItems items) fun _ => .ok _
  | null | bool b | text s | bytes bs => exact .ok _
  | _ => exact .error nofun
termination_by structural v

theorem reported_ofNativeItems (items : List Value) : Reported (ofNativeItems items) := by
  cases items with
  | nil => exact .ok _
  | cons v items =>
    exact .bind (reported_ofNative v) fun _ => .bind (reported_ofNativeItems items) fun _ => .ok _
termination_by structural items

theorem reported_ofNativeEntries (entries : List (Value × Value)) :
    Reported (ofNativeEntries entries) := by
  cases entries with
  | nil => exact .ok _
  | cons entry entries =>
    obtain ⟨k, v⟩ := entry
    exact .bind (reported_ofNative v) fun _ =>
      .bind (reported_ofNativeEntries entries) fun _ => .ok _
termination_by structural entries

end

theorem reported_ofValue (v : Value) : Reported (ofValue v) :=
  .bind (Value.reported_native v) fun native => .bind (reported_ofNative native) fun _ => .ok _

end AttributeValue

/-- Encoding under a name gave a well-formed attribute value, or failed with that name. -/
inductive Closed (name : String) : Except Failure AttributeValue → Prop where
  | encoded {w : AttributeValue} (tagged : AttributeValue.IsTagged w.toValue) : Closed name (.ok w)
  | refused (cause : Cause) : Closed name (.error (.encoding name cause))
  | undeclared (model : String) (available : List String) :
    Closed name (.error (.unknownAttribute name model available))

namespace Attribute

variable {a : Attribute} {element : Bool} {v : Value}

def operandType (a : Attribute) (element : Bool) : FieldType :=
  if element then a.type.element else a.type

theorem encodingFailure_eq {cause : Fault} (family : cause.family ≠ .member) :
    encodingFailure a.name cause = .encoding a.name (.fault cause) := by
  unfold encodingFailure
  split
  · next member => exact absurd member family
  · rfl

theorem encode_ne_unknownAttribute {name model : String} {available : List String} :
    a.encode element v ≠ .error (.unknownAttribute name model available) := by
  unfold encode
  split
  · simp
  · simp
  · split
    · simp
    · unfold encodingFailure
      split <;> simp

theorem closed_iff :
    Closed a.name (a.encode element v) ↔ ¬Coercion.Stumbles (a.operandType element) v := by
  rw [← Coercion.isFault_coerce_iff]
  unfold encode Coercion.validate operandType
  rcases Coercion.coerce (if element then a.type.element else a.type) v with
    (found | cause) | fitted
  · simpa using Closed.refused _
  · simpa using nofun
  · simp only [Coercion.isFault_ok, Bool.false_eq_true, not_false_eq_true, iff_true]
    cases encoded : AttributeValue.ofValue fitted.value with
    | ok w => exact .encoded w.isTagged_toValue
    | error cause =>
      simp only [encodingFailure_eq (AttributeValue.reported_ofValue _ _ encoded)]
      exact .refused _

end Attribute

namespace Schema

variable {m : Model} {name : String}

theorem attribute?_eq_none_iff :
    (ofModel m).attribute? name = none ↔ name ∉ m.fields.map Field.storedName := by
  simp [attribute?_eq]

/-- Encoding an operand for the attribute of a name gives a well-formed attribute value or fails
with that name exactly when the operand does not stumble as it is fitted; the name is reported as
unknown exactly when no field is stored under it. -/
theorem encode_closed_iff (m : Model) (name : String) (element : Bool) (v : Value) :
    (Closed name ((ofModel m).encode name element v) ↔
      ∀ a, (ofModel m).attribute? name = some a → ¬Coercion.Stumbles (a.operandType element) v) ∧
    ((∃ model available, (ofModel m).encode name element v =
        .error (.unknownAttribute name model available)) ↔
      name ∉ m.fields.map Field.storedName) := by
  rw [← attribute?_eq_none_iff, encode, find]
  cases declared : (ofModel m).attribute? name with
  | none => simpa [Except.bind] using Closed.undeclared _ _
  | some a =>
    obtain ⟨f, -, rfl, rfl⟩ := exists_field_of_attribute? declared
    have encoding : ((Except.ok (Attribute.ofField f) : Except Failure Attribute).bind fun a =>
        a.encode element v) = (Attribute.ofField f).encode element v := rfl
    simp only [encoding, Option.some.injEq, forall_eq', reduceCtorEq, iff_false, not_exists]
    exact ⟨Attribute.closed_iff (a := .ofField f), fun _ _ => Attribute.encode_ne_unknownAttribute⟩

def sizes : Model where
  name := "Sizes"
  table := none
  fields := [.plain "size" (.enumeration ⟨"Size", .plain, [("SMALL", .int 1)]⟩) none]
  validatesAssignment := false
  frozen := false

/-- A signalling not-a-number is not reported with the attribute. -/
theorem not_forall_closed :
    ¬∀ (m : Model) (name : String) (element : Bool) (v : Value),
      Closed name ((ofModel m).encode name element v) := by
  intro closed
  have escaped : (ofModel sizes).encode "size" false (.decimal (.nan false true 0)) =
      .error (.fault .invalidOperation) := rfl
  have reported := closed sizes "size" false (.decimal (.nan false true 0))
  rw [escaped] at reported
  cases reported

end Schema

end TableScan
