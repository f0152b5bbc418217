import TableScan.AttributeValue.Delivery
import TableScan.Proofs.Attempt

/-! Delivered values without their wrappings. Main statement: whatever stands for an attribute
value, it is delivered just if it is read, and once unwrapped it is what is read, with nothing
wrapped in it. -/

namespace TableScan

open Attempt

namespace Delivered

/-- Both attempts fail in the same way, or one gives what is left of the other's result once that is
unwrapped. -/
inductive Unwraps {α β : Type} (plain? : α → Option β) :
    Except Fault α → Except Fault β → Prop where
  | error (cause : Fault) : Unwraps plain? (.error cause) (.error cause)
  | ok {x : α} {y : β} (plain : plain? x = some y) : Unwraps plain? (.ok x) (.ok y)

theorem Unwraps.throw {α β : Type} {plain? : α → Option β} (cause : Fault) :
    Unwraps plain? (throw cause) (throw cause) := .error cause

theorem Unwraps.bind {α β α' β' : Type} {plain? : α → Option β} {plain'? : α' → Option β'}
    {x : Except Fault α} {y : Except Fault β} {f : α → Except Fault α'} {g : β → Except Fault β'}
    (first : Unwraps plain? x y)
    (next : ∀ a b, plain? a = some b → Unwraps plain'? (f a) (g b)) :
    Unwraps plain'? (x >>= f) (y >>= g) := by
  cases first with
  | error cause => exact .error cause
  | ok plain => exact next _ _ plain

/-- Steps that are the same for both are taken together. -/
theorem Unwraps.after {α β γ : Type} {plain? : α → Option β} (x : Except Fault γ)
    {f : γ → Except Fault α} {g : γ → Except Fault β} (next : ∀ c, Unwraps plain? (f c) (g c)) :
    Unwraps plain? (x >>= f) (x >>= g) := by
  cases x with
  | error cause => exact .error cause
  | ok c => exact next c

theorem plain?_unwrap_value (v : Value) : (value v).unwrap.plain? = some v := rfl

theorem plain?_unwrap_wrap (v : Value) : (wrap v).unwrap.plain? = some v := by
  cases v <;> rfl

theorem plainAll?_unwrapAll_map {wrapping : Value → Delivered}
    (each : ∀ v, (wrapping v).unwrap.plain? = some v) (items : List Value) :
    plainAll? (unwrapAll (items.map wrapping)) = some items := by
  induction items with
  | nil => rfl
  | cons v items ih => simp [unwrapAll, plainAll?, each v, ih]

def content? (d : Delivered) : Option Value := d.unwrap.plain?

def contents? (items : List Delivered) : Option (List Value) := plainAll? (unwrapAll items)

def contentEntries? (entries : List (Value × Delivered)) : Option (List (Value × Value)) :=
  plainEntries? (unwrapEntries entries)

theorem unwraps_map {wrapping : Value → Delivered}
    (each : ∀ v, (wrapping v).content? = some v) (x : Except Fault Value) :
    Unwraps content? (x.map wrapping) x := by
  cases x with
  | error cause => exact .error cause
  | ok v => exact .ok (each v)

theorem deliveredSet_unwraps {wrapping : Value → Delivered}
    (each : ∀ v, (wrapping v).content? = some v) (read : Value → Except Fault Value) (v : Value) :
    Unwraps content? (v.deliveredSet read wrapping) (v.storedSet read) :=
  .after _ fun items => .after _ fun members => .ok (by
    simp [content?, unwrap, plain?, plainAll?_unwrapAll_map each])

mutual

theorem delivered_unwraps (v : Value) : Unwraps content? v.delivered v.ofTagged := by
  cases v with
  | map entries =>
    cases entries with
    | nil => exact .error _
    | cons entry entries =>
      obtain ⟨k, content⟩ := entry
      rw [Value.delivered, Value.ofTagged]
      refine .after _ fun tag => ?_
      generalize String.ofList (tag.toList.map Char.toLower) = name
      split
      · exact .ok rfl
      · exact .ok rfl
      · exact .ok rfl
      · exact unwraps_map plain?_unwrap_value _
      · exact unwraps_map plain?_unwrap_wrap _
      · exact deliveredSet_unwraps plain?_unwrap_value _ _
      · exact deliveredSet_unwraps plain?_unwrap_value _ _
      · exact deliveredSet_unwraps plain?_unwrap_wrap _ _
      · refine (deliveredItems_unwraps content).bind fun items read plain => .ok ?_
        rw [contents?] at plain
        simp [content?, unwrap, plain?, plain]
      · refine (deliveredEntries_unwraps content).bind fun entries read plain => .ok ?_
        rw [contentEntries?] at plain
        simp [content?, unwrap, plain?, plain]
      · simp only [*, Unwraps.throw]
  | _ =>
    simp only [Value.delivered, Value.ofTagged]
    split <;> exact .error _
termination_by structural v

theorem deliveredItems_unwraps (v : Value) : Unwraps contents? v.deliveredItems v.itemsOf := by
  cases v with
  | list items | tuple items | set items | frozenset items => exact deliveredAll_unwraps items
  | map entries => exact deliveredKeys_unwraps entries
  | _ =>
    simp only [Value.deliveredItems, Value.itemsOf]
    refine .after _ fun elements => ?_
    cases elements with
    | nil => exact .ok rfl
    | cons item _ =>
      dsimp only
      split <;> exact .error _
termination_by structural v

theorem deliveredEntries_unwraps (v : Value) :
    Unwraps contentEntries? v.deliveredEntries v.entriesOf := by
  cases v with
  | map entries => exact deliveredPairs_unwraps entries
  | _ => exact .error _
termination_by structural v

theorem deliveredAll_unwraps (items : List Value) :
    Unwraps contents? (Value.deliveredAll items) (Value.ofTaggedAll items) := by
  cases items with
  | nil => exact .ok rfl
  | cons v items =>
    refine (delivered_unwraps v).bind fun _ _ one =>
      (deliveredAll_unwraps items).bind fun _ _ rest => .ok ?_
    rw [content?] at one
    rw [contents?] at rest
    simp [contents?, unwrapAll, plainAll?, one, rest]
termination_by structural items

theorem deliveredKeys_unwraps (entries : List (Value × Value)) :
    Unwraps contents? (Value.deliveredKeys entries) (Value.ofTaggedKeys entries) := by
  cases entries with
  | nil => exact .ok rfl
  | cons entry entries =>
    obtain ⟨k, v⟩ := entry
    refine (delivered_unwraps k).bind fun _ _ one =>
      (deliveredKeys_unwraps entries).bind fun _ _ rest => .ok ?_
    rw [content?] at one
    rw [contents?] at rest
    simp [contents?, unwrapAll, plainAll?, one, rest]
termination_by structural entries

theorem deliveredPairs_unwraps (entries : List (Value × Value)) :
    Unwraps contentEntries? (Value.deliveredPairs entries) (Value.ofTaggedEntries entries) := by
  cases entries with
  | nil => exact .ok rfl
  | cons entry entries =>
    obtain ⟨k, v⟩ := entry
    refine (delivered_unwraps v).bind fun _ _ one =>
      (deliveredPairs_unwraps entries).bind fun _ _ rest => .ok ?_
    rw [content?] at one
    rw [contentEntries?] at rest
    simp [contentEntries?, unwrapEntries, plainEntries?, one, rest]
termination_by structural entries

end

/-- What is read was delivered, and nothing of it is left wrapped. -/
theorem exists_delivered {v w : Value} (read : v.ofTagged = .ok w) :
    ∃ d, v.delivered = .ok d ∧ d.unwrap.plain? = some w := by
  have unwraps := delivered_unwraps v
  rw [read] at unwraps
  generalize v.delivered = delivery at unwraps
  cases unwraps with
  | ok plain => exact ⟨_, rfl, plain⟩

end Delivered

end TableScan
