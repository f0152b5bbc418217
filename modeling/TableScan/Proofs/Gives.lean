import Mathlib.Data.List.Forall2
import TableScan.Coercion

/-! What an accepted value is fitted to, however closely it fits: the rules for the outcome of a whole
from those of its parts. -/

namespace TableScan

def Outcome.Gives {α : Type} (o : Outcome α) (x : α) : Prop := ∃ fit, o = .ok ⟨x, fit⟩

namespace Outcome

variable {α β γ : Type}

@[simp]
theorem gives_accept {fit : Fit} {x y : α} : (accept fit x).Gives y ↔ x = y := by
  simp [Gives, accept]

@[simp]
theorem not_gives_reject {kind : IssueKind} {x : α} : ¬(reject kind).Gives x := by
  simp [Gives, reject]

@[simp]
theorem not_gives_error {rejection : Rejection} {x : α} : ¬Gives (.error rejection) x := by
  simp [Gives]

theorem gives_ok {fitted : Fitted α} {x : α} : Gives (.ok fitted) x ↔ fitted.value = x := by
  obtain ⟨y, fit⟩ := fitted
  simp [Gives]

@[simp]
theorem gives_map {f : α → β} {o : Outcome α} {y : β} :
    (o.map f).Gives y ↔ ∃ x, o.Gives x ∧ f x = y := by
  cases o with
  | ok fitted => simp [map, gives_ok]
  | error rejection => simp [map]

@[simp]
theorem gives_under {steps : List Step} {o : Outcome α} {x : α} :
    (o.under steps).Gives x ↔ o.Gives x := by
  cases o <;> simp [under]

@[simp]
theorem gives_following {earlier : Fit} {o : Outcome α} {x : α} :
    (o.following earlier).Gives x ↔ o.Gives x := by
  cases o <;> simp [following, gives_ok]

@[simp]
theorem gives_andThen {f : α → Outcome β} {o : Outcome α} {y : β} :
    (o.andThen f).Gives y ↔ ∃ x, o.Gives x ∧ (f x).Gives y := by
  cases o with
  | ok fitted => simp [andThen, gives_ok]
  | error rejection => simp [andThen]

@[simp]
theorem gives_both {f : α → β → γ} {o : Outcome α} {p : Outcome β} {z : γ} :
    (both f o p).Gives z ↔ ∃ x y, o.Gives x ∧ p.Gives y ∧ f x y = z := by
  rcases o with (found | cause) | fitted <;> rcases p with (more | cause) | other <;>
    simp [both, gives_ok]

end Outcome

namespace Coercion

open Outcome

variable {fit fitKey fitValue : Value → Outcome Value} {items xs : List Value} {v w : Value}

theorem validate_eq_ok_iff {t : FieldType} : validate t v = .ok w ↔ (coerce t v).Gives w := by
  unfold validate
  cases coerce t v <;> simp [gives_ok]

theorem gives_gather {α : Type} {outcomes : List (Outcome α)} {xs : List α} :
    (gather outcomes).Gives xs ↔ List.Forall₂ Gives outcomes xs := by
  induction outcomes generalizing xs with
  | nil => simp [gather, eq_comm]
  | cons first outcomes ih =>
    simp only [gather, gives_both, ih]
    constructor
    · intro given
      obtain ⟨x, rest, one, others, rfl⟩ := given
      exact .cons one others
    · intro given
      rcases given with _ | ⟨one, others⟩
      exact ⟨_, _, one, others, rfl⟩

theorem gives_fitItems :
    (fitItems fit items).Gives xs ↔ List.Forall₂ (fun v x => (fit v).Gives x) items xs := by
  have indexed (index : Nat) : List.Forall₂ Gives (indexedFrom fit index items) xs ↔
      List.Forall₂ (fun v x => (fit v).Gives x) items xs := by
    induction items generalizing index xs with
    | nil => simp [indexedFrom]
    | cons v items ih => cases xs <;> simp [indexedFrom, ih]
  rw [fitItems, gives_gather, indexed]

theorem gives_hashedItem : (hashedItem v).Gives w ↔ v.hashFault? = none ∧ v = w := by
  unfold hashedItem
  cases v.hashFault? <;> simp

theorem gives_fitMembers :
    (fitMembers fit items).Gives xs ↔ ∃ ys, List.Forall₂ (fun v y => (fit v).Gives y ∧
      y.hashFault? = none) items ys ∧ Value.distinct ys = xs := by
  simp only [fitMembers, gives_map, gives_fitItems, gives_andThen, gives_hashedItem]
  have same (v y : Value) : (∃ x, (fit v).Gives x ∧ x.hashFault? = none ∧ x = y) ↔
      (fit v).Gives y ∧ y.hashFault? = none :=
    ⟨fun ⟨_, given, hashes, eq⟩ => eq ▸ ⟨given, hashes⟩, fun ⟨given, hashes⟩ => ⟨_, given, hashes, rfl⟩⟩
  simp only [same]

theorem gives_fromSequence {wanted : Value → Bool} {kind : IssueKind}
    {fitAll : List Value → Outcome Value} :
    (fromSequence wanted kind v fitAll).Gives w ↔
      ∃ items, sequenceItems? v = some items ∧ (fitAll items).Gives w := by
  unfold fromSequence
  cases sequenceItems? v with
  | none => simp
  | some items => cases wanted v <;> simp

theorem gives_coerceParts {ts : List FieldType} {index : Nat} :
    (coerceParts ts index items).Gives xs ↔ ts.length ≤ items.length ∧
      List.Forall₂ (fun p x => (coerce p.1 p.2).Gives x) (ts.zip items) xs := by
  induction ts generalizing index items xs with
  | nil => simp [coerceParts, eq_comm]
  | cons t ts ih =>
    cases items with
    | nil => simp [coerceParts]
    | cons v items =>
      simp only [coerceParts, gives_both, gives_under, ih, List.zip_cons_cons, List.length_cons]
      constructor
      · intro given
        obtain ⟨x, rest, one, ⟨enough, others⟩, rfl⟩ := given
        exact ⟨by omega, .cons one others⟩
      · intro given
        rcases given with ⟨enough, _ | ⟨one, others⟩⟩
        exact ⟨_, _, one, ⟨by omega, others⟩, rfl⟩

theorem gives_orTooLong {tooLong : Bool} {o : Outcome (List Value)} :
    (orTooLong tooLong o).Gives xs ↔ tooLong = false ∧ o.Gives xs := by
  rcases o with (found | cause) | fitted <;> cases tooLong <;> simp [orTooLong]

theorem gives_hashedEntry {entry fitted : Value × Value} :
    (hashedEntry entry).Gives fitted ↔ entry.1.hashFault? = none ∧ entry = fitted := by
  unfold hashedEntry
  cases entry.1.hashFault? <;> simp

theorem gives_fitEntry {entry fitted : Value × Value} :
    (fitEntry fitKey fitValue entry).Gives fitted ↔ (fitKey entry.1).Gives fitted.1 ∧
      (fitValue entry.2).Gives fitted.2 ∧ fitted.1.hashFault? = none := by
  simp only [fitEntry, gives_andThen, gives_both, gives_under, gives_hashedEntry]
  constructor
  · intro given
    obtain ⟨_, ⟨k, x, key, value, rfl⟩, hashes, rfl⟩ := given
    exact ⟨key, value, hashes⟩
  · intro given
    obtain ⟨key, value, hashes⟩ := given
    exact ⟨_, ⟨_, _, key, value, rfl⟩, hashes, rfl⟩

theorem gives_fitMap {entries : List (Value × Value)} :
    (fitMap fitKey fitValue (.map entries)).Gives w ↔
      ∃ fitted, List.Forall₂ (fun entry entry' => (fitKey entry.1).Gives entry'.1 ∧
        (fitValue entry.2).Gives entry'.2 ∧ entry'.1.hashFault? = none) entries fitted ∧
        .map (Value.ofEntries fitted) = w := by
  simp only [fitMap, gives_map, gives_gather, List.forall₂_map_left_iff, gives_fitEntry]

theorem coerceAmong_eq {ts : List FieldType} {t : FieldType}
    (only : FieldType.presentAlternatives ts = [t]) (v : Value) :
    coerceAmong ts false v none [] = coerce t v := by
  induction ts with
  | nil => cases only
  | cons u ts ih =>
    rw [FieldType.presentAlternatives, List.filter_cons] at only
    cases null : u.isNull with
    | true =>
      rw [coerceAmong, if_pos null]
      exact ih (by simpa [null, FieldType.presentAlternatives] using only)
    | false =>
      rw [coerceAmong, if_neg (by simp [null]), if_neg (by decide)]
      simp only [null, Bool.not_false, if_true, List.cons.injEq] at only
      rw [only.1]

/-- An optional type takes the absent value, and any other as the type of what is present does. -/
theorem gives_coerce_union {ts : List FieldType} {t : FieldType}
    (only : FieldType.presentAlternatives ts = [t]) (absent : ts.any FieldType.isNull = true) :
    (coerce (.union ts) v).Gives w ↔ v = .null ∧ w = .null ∨ v ≠ .null ∧ (coerce t v).Gives w := by
  have single : decide (1 < (FieldType.presentAlternatives ts).length) = false := by
    rw [only]
    rfl
  cases v with
  | null => simp [coerce, absent, eq_comm]
  | _ => simp [coerce, single, coerceAmong_eq only]

end Coercion

end TableScan
