import TableScan.Proofs.Compiling
import TableScan.Proofs.Elements
import TableScan.Proofs.NonFinite

/-! Attributes that are no collections. Main statement: an operand other than the absent value is
encoded for one element as it is for the whole; the absent value is not, where only the type of the
whole allows it. -/

namespace TableScan

open Attempt Coercion Outcome

namespace FieldType

def isSole : FieldType → Bool
  | .bare b => b.collection?.isNone
  | .collection .. | .tuple _ | .union _ => false
  | _ => true

/-- The types that are no collections, and have none among their alternatives. -/
inductive Undivided : FieldType → Prop where
  | sole {t : FieldType} (sole : t.isSole = true) : Undivided t
  | among {ts : List FieldType} (each : ∀ t ∈ ts, Undivided t) : Undivided (ofAlternatives ts)

variable {t : FieldType} {ts : List FieldType}

theorem alternatives_of_sole (sole : t.isSole = true) : t.alternatives = [t] := by
  cases t <;> first | rfl | cases sole

theorem element_of_sole (sole : t.isSole = true) : t.element = t := by
  cases t with
  | bare b => cases b <;> first | rfl | cases sole
  | collection | tuple | union => cases sole
  | _ => rfl

structure Settled (ts : List FieldType) : Prop where
  sole : ∀ t ∈ ts, t.isSole = true
  apart : ts.Pairwise fun t u => same t u = false

theorem Settled.presentAlternatives (settled : Settled ts) : Settled (presentAlternatives ts) where
  sole t member := settled.sole t (List.mem_of_mem_filter member)
  apart := settled.apart.filter _

theorem ofAlternatives_of_settled (settled : Settled ts) : ofAlternatives ts = joined ts := by
  have flat : ts.flatMap alternatives = ts := by
    rw [List.flatMap_congr fun t member => alternatives_of_sole (settled.sole t member)]
    simp
  rw [ofAlternatives_eq_joined, flat, Repeats.keep_eq_append settled.apart, List.nil_append]

theorem Undivided.sole_or_union (undivided : t.Undivided) :
    t.isSole = true ∨ ∃ ts, t = .union ts ∧ Settled ts := by
  induction undivided with
  | sole sole => exact .inl sole
  | @among ts _ ih =>
    have kept : Settled (Repeats.keep same [] (ts.flatMap alternatives)) := by
      refine ⟨fun u member => ?_, Repeats.pairwise_keep List.Pairwise.nil⟩
      obtain ⟨t, found, within⟩ := List.mem_flatMap.1 (Repeats.keep_sublist.subset member)
      rcases ih t found with sole | ⟨us, rfl, settled⟩
      · rw [alternatives_of_sole sole, List.mem_singleton] at within
        exact within ▸ sole
      · exact settled.sole u within
    rw [ofAlternatives_eq_joined]
    rcases joined_cases (Repeats.keep same [] (ts.flatMap alternatives)) with ⟨t, single, same⟩ | same
    · exact .inl (same ▸ kept.sole t (by simp [single]))
    · exact .inr ⟨_, same, kept⟩

theorem Undivided.settled (undivided : Undivided (.union ts)) : Settled ts := by
  rcases undivided.sole_or_union with sole | ⟨us, same, settled⟩
  · cases sole
  · cases same
    exact settled

theorem element_of_settled (settled : Settled ts) :
    (FieldType.union ts).element = joined (presentAlternatives ts) := by
  have present := settled.presentAlternatives
  have elements : (presentAlternatives ts).map element = presentAlternatives ts :=
    (List.map_congr_left fun t member => element_of_sole (present.sole t member)).trans (List.map_id _)
  rw [element, elementsOfPresent_eq_map, elements, ofAlternatives_of_settled present]

end FieldType

namespace Coercion

variable {t : FieldType} {ts : List FieldType} {several : Bool} {v : Value}

/-- The absent value's type has no say among alternatives. -/
theorem coerceAmong_presentAlternatives (ts : List FieldType) (several : Bool) (v : Value)
    (best : Option (Fitted Value)) (found : List Issue) :
    coerceAmong (FieldType.presentAlternatives ts) several v best found =
      coerceAmong ts several v best found := by
  induction ts generalizing best found with
  | nil => rfl
  | cons t ts ih =>
    rw [FieldType.presentAlternatives, List.filter_cons]
    cases null : t.isNull with
    | true =>
      rw [coerceAmong, if_pos null]
      exact ih best found
    | false =>
      simp only [Bool.not_false, if_true, coerceAmong, null, Bool.false_eq_true, if_false]
      rw [← FieldType.presentAlternatives]
      simp only [ih]

theorem coerce_union (some : v ≠ .null) :
    coerce (.union ts) v =
      coerceAmong ts (1 < (FieldType.presentAlternatives ts).length) v none [] := by
  cases v with
  | null => exact absurd rfl some
  | _ => simp only [coerce]

theorem presentAlternatives_presentAlternatives (ts : List FieldType) :
    FieldType.presentAlternatives (FieldType.presentAlternatives ts) =
      FieldType.presentAlternatives ts := by
  simp [FieldType.presentAlternatives]

/-- What is present is fitted to the type of the elements as to the type itself. -/
theorem coerce_element (undivided : t.Undivided) (some : v ≠ .null) :
    coerce t.element v = coerce t v := by
  rcases undivided.sole_or_union with sole | ⟨ts, rfl, settled⟩
  · rw [FieldType.element_of_sole sole]
  · rw [FieldType.element_of_settled settled, coerce_union some]
    rcases FieldType.joined_cases (FieldType.presentAlternatives ts) with ⟨t, single, same⟩ | same
    · rw [same, single]
      exact (coerceAmong_eq single v).symm
    · rw [same, coerce_union some, presentAlternatives_presentAlternatives,
        coerceAmong_presentAlternatives]

theorem coerceAmong_of_refused (present : ∀ t ∈ ts, t.isNull = false)
    (refused : ∀ t ∈ ts, ∃ issues, coerce t v = .error (.issues issues)) (found : List Issue) :
    ∃ issues, coerceAmong ts several v none found = .error (.issues issues) := by
  induction ts generalizing found with
  | nil => exact ⟨found, rfl⟩
  | cons t ts ih =>
    rw [List.forall_mem_cons] at present refused
    obtain ⟨issues, refusal⟩ := refused.1
    cases several with
    | false => exact ⟨issues, by simp [coerceAmong, present.1, refusal]⟩
    | true =>
      simp only [coerceAmong, present.1, refusal, under, Rejection.under, Bool.false_eq_true, if_false,
        if_true, Option.isSome_none]
      exact ih present.2 refused.2 _

/-- The absent value is refused for an element where no other alternative takes it. -/
theorem exists_issues_of_refused (settled : FieldType.Settled ts)
    (refused : ∀ t ∈ FieldType.presentAlternatives ts,
      ∃ issues, coerce t .null = .error (.issues issues)) :
    ∃ issues, coerce (FieldType.union ts).element .null = .error (.issues issues) := by
  have present : ∀ t ∈ FieldType.presentAlternatives ts, t.isNull = false := by
    intro t member
    simpa using (List.mem_filter.1 member).2
  rw [FieldType.element_of_settled settled]
  rcases FieldType.joined_cases (FieldType.presentAlternatives ts) with ⟨t, single, same⟩ | same
  · rw [same]
    exact refused t (by simp [single])
  · have absent : (FieldType.presentAlternatives ts).any FieldType.isNull = false :=
      List.any_eq_false.2 fun t member => by simp [present t member]
    simp only [same, coerce, absent, Bool.false_eq_true, if_false]
    exact coerceAmong_of_refused present refused []

theorem validate_eq_error_iff {rejection : Rejection} :
    validate t v = .error rejection ↔ coerce t v = .error rejection := by
  unfold validate
  cases coerce t v <;> simp

end Coercion

/-- Two ways to encode an operand gave one attribute value, or both failed with the name. -/
inductive Concur (name : String) :
    Except Failure AttributeValue → Except Failure AttributeValue → Prop where
  | encoded (w : AttributeValue) : Concur name (.ok w) (.ok w)
  | refused (cause cause' : Cause) :
    Concur name (.error (.encoding name cause)) (.error (.encoding name cause'))

theorem Attribute.concur_self_iff {a : Attribute} {element : Bool} {v : Value} :
    Concur a.name (a.encode element v) (a.encode element v) ↔
      ¬Coercion.Stumbles (a.operandType element) v := by
  rw [← closed_iff]
  constructor
  · intro concur
    generalize a.encode element v = x at concur
    cases concur with
    | encoded w => exact .encoded w.isTagged_toValue
    | refused cause => exact .refused cause
  · intro closed
    generalize same : a.encode element v = x at closed
    cases closed with
    | @encoded w => exact .encoded w
    | refused cause => exact .refused cause cause
    | undeclared => exact absurd same encode_ne_unknownAttribute

namespace Schema

variable {s : Schema} {name : String} {a : Attribute} {v : Value}

theorem encode_eq_of_undivided (declared : s.attribute? name = some a)
    (undivided : a.type.Undivided) (some : v ≠ .null) :
    s.encode name true v = s.encode name false v := by
  have fitted : validate a.type.element v = validate a.type v := by
    rw [validate, validate, coerce_element undivided some]
  simp only [encode_of_declared declared, Attribute.encode, if_true, Bool.false_eq_true, if_false,
    fitted]

/-- For an attribute that is no collection, each operand but the absent value is encoded for one
element as for the whole; both ways fail with the name, if they fail, exactly if the operand does not
stumble as it is fitted. The absent value of an optional type is refused for one element where no
other alternative takes it. -/
theorem encode_undivided (declared : s.attribute? name = some a) (undivided : a.type.Undivided) :
    (∀ v, v ≠ .null → s.encode name true v = s.encode name false v ∧
      (Concur a.name (s.encode name true v) (s.encode name false v) ↔
        ¬Coercion.Stumbles a.type v)) ∧
    ∀ ts, a.type = .union ts → ts.any FieldType.isNull = true →
      (∀ t ∈ FieldType.presentAlternatives ts, ∃ issues, validate t .null = .error (.issues issues)) →
        s.encode name false .null = .ok .null ∧
          ∃ cause, s.encode name true .null = .error (.encoding a.name cause) := by
  constructor
  · intro v some
    have same := encode_eq_of_undivided declared undivided some
    refine ⟨same, ?_⟩
    rw [same, encode_of_declared declared]
    exact Attribute.concur_self_iff
  · intro ts typed absent refused
    have settled := FieldType.Undivided.settled (typed ▸ undivided)
    obtain ⟨issues, refusal⟩ := exists_issues_of_refused settled fun t member => by
      obtain ⟨issues, refusal⟩ := refused t member
      exact ⟨issues, validate_eq_error_iff.1 refusal⟩
    have whole : validate (a.operandType false) .null = .ok .null := by
      simp [Attribute.operandType, typed, validate, coerce, absent, accept]
    have part : validate a.type.element .null = .error (.issues issues) := by
      rw [typed]
      exact validate_eq_error_iff.2 refusal
    rw [encode_of_declared declared, encode_of_declared declared]
    refine ⟨?_, .issues issues, ?_⟩
    · rw [Attribute.encode_of_validate whole]
      rfl
    · simp only [Attribute.encode, if_true, part]

theorem undivided_score : Attribute.score.type.Undivided := by
  show FieldType.Undivided (.ofAlternatives [.float, .null])
  refine .among fun t member => .sole ?_
  rcases List.mem_pair.1 member with rfl | rfl <;> rfl

theorem encode_undivided_score :
    (ofModel Sample.user).attribute? "score" = some Attribute.score ∧
      Attribute.score.type.Undivided ∧
      (ofModel Sample.user).encode "score" true (.text "1.5") =
        (ofModel Sample.user).encode "score" false (.text "1.5") ∧
      (ofModel Sample.user).encode "score" false .null = .ok .null ∧
      ∃ cause, (ofModel Sample.user).encode "score" true .null = .error (.encoding "score" cause) := by
  have declared : (ofModel Sample.user).attribute? "score" = some Attribute.score := rfl
  obtain ⟨alike, absent⟩ := encode_undivided declared undivided_score
  refine ⟨declared, undivided_score, (alike (.text "1.5") nofun).1, absent [.float, .null] rfl rfl ?_⟩
  intro t member
  obtain rfl : t = .float := by
    simpa [FieldType.presentAlternatives, FieldType.isNull] using member
  exact ⟨_, rfl⟩

/-- A signalling not-a-number is not refused with the attribute, either way. -/
theorem not_forall_concur :
    ¬∀ (s : Schema) (name : String) (a : Attribute) (v : Value), s.attribute? name = some a →
      a.type.Undivided → v ≠ .null →
      Concur a.name (s.encode name true v) (s.encode name false v) := by
  intro concur
  have escaped : (ofModel sizes).encode "size" true (.decimal (.nan false true 0)) =
      .error (.fault .invalidOperation) := rfl
  have found := concur (ofModel sizes) "size" _ (.decimal (.nan false true 0)) rfl (.sole rfl) nofun
  rw [escaped] at found
  cases found

end Schema

end TableScan
