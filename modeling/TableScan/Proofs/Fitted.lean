import TableScan.Proofs.Attempt
import TableScan.Proofs.Equality
import TableScan.Proofs.Gives

/-! What fits a type is a value of that type, wherever it came from, and its parts fit the types of
the parts. Only a whole number need not be one: a member of a plain enumeration passes for whatever
it stands for. -/

namespace TableScan.Coercion

open Outcome

variable {v w : Value}

theorem exists_of_gives_toText (given : (toText v).Gives w) : ∃ s, w = .text s := by
  unfold toText at given
  split at given <;> try split at given
  all_goals simp at given
  all_goals exact ⟨_, given.symm⟩

theorem exists_of_gives_toBytes (given : (toBytes v).Gives w) : ∃ bs, w = .bytes bs := by
  unfold toBytes at given
  split at given <;> try split at given
  all_goals simp at given
  all_goals exact ⟨_, given.symm⟩

theorem exists_of_gives_boolOfText {s : String} (given : (boolOfText s).Gives w) : ∃ b, w = .bool b := by
  unfold boolOfText at given
  split at given <;> try split at given
  all_goals simp at given
  all_goals exact ⟨_, given.symm⟩

theorem exists_of_gives_boolOfInt {n : Int} (given : (boolOfInt n).Gives w) : ∃ b, w = .bool b := by
  unfold boolOfInt at given
  split at given <;> try split at given
  all_goals simp at given
  all_goals exact ⟨_, given.symm⟩

theorem exists_of_gives_toBool (given : (toBool v).Gives w) : ∃ b, w = .bool b := by
  unfold toBool at given
  split at given <;> try split at given
  · exact ⟨_, (gives_accept.1 given).symm⟩
  · exact exists_of_gives_boolOfText given
  · exact absurd given not_gives_reject
  · exact exists_of_gives_boolOfInt given
  · exact absurd given not_gives_reject
  · split at given
    · exact exists_of_gives_boolOfInt given
    · exact absurd given not_gives_reject
  · exact absurd given not_gives_reject

theorem exists_of_gives_floatOfText {s : String} (given : (floatOfText s).Gives w) :
    ∃ x, w = .float x := by
  unfold floatOfText at given
  split at given
  · exact ⟨_, (gives_accept.1 given).symm⟩
  · exact absurd given not_gives_reject

theorem exists_of_gives_toFloat (given : (toFloat v).Gives w) : ∃ x, w = .float x := by
  unfold toFloat at given
  split at given <;> try split at given
  · exact ⟨_, (gives_accept.1 given).symm⟩
  · exact ⟨_, (gives_accept.1 given).symm⟩
  · exact ⟨_, (gives_accept.1 given).symm⟩
  · exact exists_of_gives_floatOfText given
  · exact absurd given not_gives_reject
  · exact ⟨_, (gives_accept.1 given).symm⟩
  · exact absurd given not_gives_reject

theorem exists_of_gives_finiteDecimal {fit : Fit} {d : Decimal}
    (given : (finiteDecimal fit d).Gives w) : ∃ d, w = .decimal d ∧ d.isFinite = true := by
  unfold finiteDecimal at given
  split at given
  · next finite => exact ⟨d, (gives_accept.1 given).symm, finite⟩
  · exact absurd given not_gives_reject

theorem exists_of_gives_decimalOfTriple {items : List Value}
    (given : (decimalOfTriple items).Gives w) : ∃ d, w = .decimal d ∧ d.isFinite = true := by
  unfold decimalOfTriple at given
  split at given <;> try split at given
  · exact exists_of_gives_finiteDecimal given
  all_goals exact absurd given not_gives_reject

theorem exists_of_gives_decimalOfText {s : String} (given : (decimalOfText s).Gives w) :
    ∃ d, w = .decimal d ∧ d.isFinite = true := by
  unfold decimalOfText at given
  split at given
  · exact exists_of_gives_finiteDecimal given
  · exact absurd given not_gives_reject

theorem exists_of_gives_toDecimal (given : (toDecimal v).Gives w) :
    ∃ d, w = .decimal d ∧ d.isFinite = true := by
  unfold toDecimal at given
  split at given
  · exact exists_of_gives_finiteDecimal given
  · exact exists_of_gives_finiteDecimal given
  · exact absurd given not_gives_reject
  · exact exists_of_gives_decimalOfTriple given
  · split at given
    · exact exists_of_gives_decimalOfText given
    · exact exists_of_gives_finiteDecimal given
    · exact absurd given not_gives_reject

theorem exists_of_gives_parsedUuid {u? : Option Uuid} (given : (parsedUuid u?).Gives w) :
    ∃ u, w = .uuid u := by
  cases u? with
  | none => exact absurd given not_gives_reject
  | some u => exact ⟨u, (gives_accept.1 given).symm⟩

theorem exists_of_gives_toUuid (given : (toUuid v).Gives w) : ∃ u, w = .uuid u := by
  unfold toUuid at given
  split at given
  · exact ⟨_, (gives_accept.1 given).symm⟩
  · exact exists_of_gives_parsedUuid given
  · exact exists_of_gives_parsedUuid given
  · exact absurd given not_gives_reject

theorem exists_of_gives_acceptDate {fit : Fit} {c : Civil} (given : (acceptDate fit c).Gives w) :
    ∃ d, w = .date d := by
  unfold acceptDate at given
  split at given
  · exact ⟨_, (gives_accept.1 given).symm⟩
  · exact absurd given not_gives_reject

theorem exists_of_gives_toDate (given : (toDate v).Gives w) : ∃ d, w = .date d := by
  unfold toDate at given
  split at given <;> try split at given
  · exact exists_of_gives_acceptDate given
  · exact exists_of_gives_acceptDate given
  all_goals exact absurd given not_gives_reject

theorem exists_of_gives_acceptDatetime {fit : Fit} {s : Stamp}
    (given : (acceptDatetime fit s).Gives w) : ∃ t, w = .datetime t := by
  unfold acceptDatetime at given
  split at given
  · exact ⟨_, (gives_accept.1 given).symm⟩
  · exact absurd given not_gives_reject

theorem exists_of_gives_toDatetime (given : (toDatetime v).Gives w) : ∃ t, w = .datetime t := by
  unfold toDatetime at given
  split at given
  · exact exists_of_gives_acceptDatetime given
  · exact exists_of_gives_acceptDatetime given
  all_goals exact absurd given not_gives_reject

theorem eq_null_of_gives_toNull (given : (toNull v).Gives w) : w = .null := by
  unfold toNull at given
  split at given
  · exact (gives_accept.1 given).symm
  · exact absurd given not_gives_reject

variable {t : FieldType} {x : Value}

theorem exists_of_fits {α β : Type} {R : α → β → Prop} {vs : List α} {xs : List β}
    (fits : List.Forall₂ R vs xs) : ∀ x ∈ xs, ∃ v, R v x := fun x found =>
  (Attempt.exists_mem_of_forall₂ fits x found).imp fun _ => And.right

theorem exists_of_gives_list (typed : t.isAny = false)
    (given : (coerce (.collection .list t) v).Gives w) :
    ∃ xs, w = .list xs ∧ ∀ x ∈ xs, ∃ v, (coerce t v).Gives x := by
  simp only [coerce, fitCollection, gives_fromSequence, fitListItems, typed, Bool.false_eq_true,
    if_false, gives_map, gives_fitItems] at given
  obtain ⟨_, _, xs, fits, rfl⟩ := given
  exact ⟨xs, rfl, exists_of_fits fits⟩

theorem exists_of_gives_sequence (given : (coerce (.collection .tuple t) v).Gives w) :
    ∃ xs, w = .tuple xs ∧ ∀ x ∈ xs, ∃ v, (coerce t v).Gives x := by
  simp only [coerce, fitCollection, gives_fromSequence, gives_map, gives_fitItems] at given
  obtain ⟨_, _, xs, fits, rfl⟩ := given
  exact ⟨xs, rfl, exists_of_fits fits⟩

theorem exists_of_gives_fitMembers {items xs : List Value}
    (given : (fitMembers (coerce t) items).Gives xs) :
    (∀ x ∈ xs, ∃ v, (coerce t v).Gives x) ∧ Value.Distinct xs := by
  obtain ⟨ys, fits, rfl⟩ := gives_fitMembers.1 given
  obtain ⟨apart, within⟩ := Value.distinct_distinct ys
  refine ⟨?_, apart⟩
  intro x found
  obtain ⟨v, fitted, _⟩ := exists_of_fits fits x (within found)
  exact ⟨v, fitted⟩

theorem exists_of_gives_set (given : (coerce (.collection .set t) v).Gives w) :
    ∃ xs, w = .set xs ∧ (∀ x ∈ xs, ∃ v, (coerce t v).Gives x) ∧ Value.Distinct xs := by
  simp only [coerce, fitCollection, gives_fromSequence, gives_map] at given
  obtain ⟨_, _, xs, fits, rfl⟩ := given
  exact ⟨xs, rfl, exists_of_gives_fitMembers fits⟩

theorem exists_of_gives_frozenset (given : (coerce (.collection .frozenset t) v).Gives w) :
    ∃ xs, w = .frozenset xs ∧ (∀ x ∈ xs, ∃ v, (coerce t v).Gives x) ∧ Value.Distinct xs := by
  simp only [coerce, fitCollection, gives_fromSequence, gives_map] at given
  obtain ⟨_, _, xs, fits, rfl⟩ := given
  exact ⟨xs, rfl, exists_of_gives_fitMembers fits⟩

theorem exists_of_mem_zip {ts : List FieldType} {vs xs : List Value} (length : ts.length = vs.length)
    (fits : List.Forall₂ (fun p x => (coerce p.1 p.2).Gives x) (ts.zip vs) xs)
    (member : (t, x) ∈ ts.zip xs) : ∃ v, (coerce t v).Gives x := by
  rw [← List.map_fst_zip (Nat.le_of_eq length), List.zip_map_left] at member
  obtain ⟨⟨⟨_, v⟩, _⟩, found, same⟩ := List.mem_map.1 member
  cases same
  exact ⟨v, List.forall₂_zip fits found⟩

theorem exists_of_gives_tuple {ts : List FieldType} (given : (coerce (.tuple ts) v).Gives w) :
    ∃ xs, w = .tuple xs ∧ ts.length = xs.length ∧
      ∀ p ∈ ts.zip xs, ∃ v, (coerce p.1 v).Gives p.2 := by
  rw [coerce, gives_fromSequence] at given
  obtain ⟨items, _, fitted⟩ := given
  obtain ⟨xs, parts, rfl⟩ := gives_map.1 fitted
  obtain ⟨short, parts⟩ := gives_orTooLong.1 parts
  obtain ⟨enough, fits⟩ := gives_coerceParts.1 parts
  have length : ts.length = items.length := by
    have short := of_decide_eq_false short
    omega
  have same := fits.length_eq
  rw [List.length_zip] at same
  exact ⟨xs, rfl, by omega, fun p found => exists_of_mem_zip length fits found⟩

theorem exists_of_gives_entries {k : FieldType} (given : (coerce (.map k t) v).Gives w) :
    ∃ entries, w = .map entries ∧ (∀ entry ∈ entries, (∃ v, (coerce k v).Gives entry.1) ∧
      ∃ v, (coerce t v).Gives entry.2) ∧ Value.Distinct (entries.map (·.1)) := by
  cases v with
  | map entries =>
    rw [coerce, gives_fitMap] at given
    obtain ⟨fitted, fits, rfl⟩ := given
    have each : ∀ entry ∈ fitted, (∃ v, (coerce k v).Gives entry.1) ∧
        ∃ v, (coerce t v).Gives entry.2 := by
      intro entry found
      obtain ⟨given, key, value, _⟩ := exists_of_fits fits entry found
      exact ⟨⟨_, key⟩, _, value⟩
    exact ⟨_, rfl, Value.forall_mem_ofEntries (P := fun x => ∃ v, (coerce k v).Gives x)
      (Q := fun x => ∃ v, (coerce t v).Gives x) each, Value.distinct_keys_ofEntries fitted⟩
  | _ => exact absurd given not_gives_reject

theorem exists_of_gives_map (given : (coerce (.map .text t) v).Gives w) :
    ∃ entries, w = .map entries ∧ (∀ entry ∈ entries, ∃ s, entry.1 = .text s) ∧
      (∀ entry ∈ entries, ∃ v, (coerce t v).Gives entry.2) ∧
      Value.Distinct (entries.map (·.1)) := by
  obtain ⟨entries, same, each, different⟩ := exists_of_gives_entries given
  refine ⟨entries, same, fun entry found => ?_, fun entry found => (each entry found).2, different⟩
  obtain ⟨_, key⟩ := (each entry found).1
  exact exists_of_gives_toText key

end TableScan.Coercion
