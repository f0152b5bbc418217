import TableScan.Coercion.Bounded
import TableScan.Proofs.Attempt
import TableScan.Proofs.Gives

/-! Which outcomes are faults: the rules for the outcome of a whole from those of its parts. Scalar
types meet no fault, and an enumeration meets one in a signalling not-a-number alone. -/

namespace TableScan.Coercion

open Outcome

section Outcomes

variable {α β γ : Type}

@[simp]
theorem isFault_ok (fitted : Fitted α) : isFault (.ok fitted : Outcome α) = false := rfl

@[simp]
theorem isFault_issues (found : List Issue) :
    isFault (.error (.issues found) : Outcome α) = false := rfl

@[simp]
theorem isFault_fault (cause : Fault) : isFault (.error (.fault cause) : Outcome α) = true := rfl

theorem ne_fault {o : Outcome α} {cause : Fault} (faultless : isFault o = false) :
    o ≠ .error (.fault cause) := by
  rintro rfl
  cases faultless

@[simp]
theorem isFault_accept (fit : Fit) (x : α) : isFault (accept fit x) = false := rfl

@[simp]
theorem isFault_reject (kind : IssueKind) : isFault (reject kind : Outcome α) = false := rfl

@[simp]
theorem isFault_map (f : α → β) (o : Outcome α) : isFault (o.map f) = isFault o := by
  rcases o with (found | cause) | fitted <;> rfl

@[simp]
theorem isFault_under (steps : List Step) (o : Outcome α) :
    isFault (o.under steps) = isFault o := by
  rcases o with (found | cause) | fitted <;> rfl

@[simp]
theorem isFault_following (earlier : Fit) (o : Outcome α) :
    isFault (o.following earlier) = isFault o := by
  rcases o with (found | cause) | fitted <;> rfl

@[simp]
theorem isFault_both (f : α → β → γ) (o : Outcome α) (p : Outcome β) :
    isFault (both f o p) = (isFault o || isFault p) := by
  rcases o with (found | cause) | fitted <;> rcases p with (more | cause) | other <;> rfl

theorem isFault_andThen_iff {f : α → Outcome β} {o : Outcome α} :
    isFault (o.andThen f) = true ↔ isFault o = true ∨ ∃ x, o.Gives x ∧ isFault (f x) = true := by
  rcases o with (found | cause) | fitted <;> simp [Outcome.andThen, gives_ok]

theorem isFault_gather (outcomes : List (Outcome α)) :
    isFault (gather outcomes) = outcomes.any isFault := by
  induction outcomes with
  | nil => rfl
  | cons first outcomes ih => rw [gather, isFault_both, ih, List.any_cons]

end Outcomes

section Scalars

variable (v : Value)

theorem isFault_toText : isFault (toText v) = false := by
  unfold toText
  split <;> try rfl
  split <;> rfl

theorem isFault_toBytes : isFault (toBytes v) = false := by
  unfold toBytes
  split
  · rfl
  · split <;> rfl

theorem isFault_boolOfText (s : String) : isFault (boolOfText s) = false := by
  unfold boolOfText
  split_ifs <;> rfl

theorem isFault_boolOfInt (n : Int) : isFault (boolOfInt n) = false := by
  unfold boolOfInt
  split_ifs <;> rfl

theorem isFault_toBool : isFault (toBool v) = false := by
  unfold toBool
  split
  · rfl
  · exact isFault_boolOfText _
  · rfl
  · split_ifs
    · exact isFault_boolOfInt _
    · rfl
  · split
    · split_ifs
      · exact isFault_boolOfInt _
      · rfl
    · rfl

theorem isFault_toInt : isFault (toInt v) = false := by
  have ofText (s : String) : isFault (intOfText s) = false := by
    unfold intOfText
    split <;> rfl
  have ofBinary (x : Binary64) : isFault (intOfBinary x) = false := by
    unfold intOfBinary
    split_ifs
    · rfl
    · split
      · split_ifs <;> rfl
      · rfl
  have ofDecimal (d : Decimal) : isFault (intOfDecimal d) = false := by
    unfold intOfDecimal
    split
    · split <;> rfl
    · rfl
  unfold toInt
  split <;> try simp [ofBinary, ofDecimal]
  split
  · exact ofText _
  · rfl
  · rfl

theorem isFault_toFloat : isFault (toFloat v) = false := by
  have ofText (s : String) : isFault (floatOfText s) = false := by
    unfold floatOfText
    split <;> rfl
  unfold toFloat
  split
  · rfl
  · rfl
  · exact ofText _
  · rfl
  · split <;> rfl

theorem isFault_toDecimal : isFault (toDecimal v) = false := by
  have finite (fit : Fit) (d : Decimal) : isFault (finiteDecimal fit d) = false := by
    unfold finiteDecimal
    split_ifs <;> rfl
  have ofText (s : String) : isFault (decimalOfText s) = false := by
    unfold decimalOfText
    split
    · exact finite _ _
    · rfl
  have ofTriple (items : List Value) : isFault (decimalOfTriple items) = false := by
    unfold decimalOfTriple
    split
    · split_ifs
      · exact finite _ _
      · rfl
    · rfl
  unfold toDecimal
  split <;> try simp [finite, ofTriple]
  split <;> simp [finite, ofText]

theorem isFault_acceptDatetime (fit : Fit) (s : Stamp) :
    isFault (acceptDatetime fit s) = false := by
  unfold acceptDatetime
  split <;> rfl

theorem isFault_acceptDate (fit : Fit) (c : Civil) : isFault (acceptDate fit c) = false := by
  unfold acceptDate
  split <;> rfl

theorem isFault_toDatetime : isFault (toDatetime v) = false := by
  unfold toDatetime
  split <;> simp [isFault_acceptDatetime]

theorem isFault_toDate : isFault (toDate v) = false := by
  unfold toDate
  split <;> try simp [isFault_acceptDate]
  split_ifs <;> simp [isFault_acceptDate]

theorem isFault_toUuid : isFault (toUuid v) = false := by
  have parsed (u : Option Uuid) : isFault (parsedUuid u) = false := by cases u <;> rfl
  unfold toUuid
  split <;> simp [parsed]

theorem isFault_toNull : isFault (toNull v) = false := by
  unfold toNull
  split <;> rfl

end Scalars

section Members

variable {e : Enumeration} {v : Value} {d : Decimal} {cause : Fault}

theorem same_signal (v : Value) (signals : d.isSignaling = true) :
    Value.same v (.decimal d) = false := by
  cases d with
  | finite _ _ _ | infinity _ => cases signals
  | nan negative signaling payload =>
    have different (d' : Decimal) : d'.sameNumber (.nan negative signaling payload) = false := by
      cases d' <;> rfl
    cases v with
    | float x => exact different x.exactDecimal
    | decimal d' => exact different d'
    | member _ base _ payload => cases base <;> cases payload <;> rfl
    | _ => rfl

theorem equalMember_signal (e : Enumeration) (signals : d.isSignaling = true) :
    equalMember e (.decimal d) = none := by
  simp [equalMember, Enumeration.find?, same_signal _ signals]

theorem searchMember_signal (e : Enumeration) (signals : d.isSignaling = true) :
    searchMember e (.decimal d) = .ok none := by
  have unequal := equalMember_signal e signals
  cases d with
  | finite _ _ _ | infinity _ => cases signals
  | nan negative signaling payload =>
    unfold searchMember
    cases e.base with
    | text | int => rfl
    | plain => simp [searchPlain, unequal]

theorem searchEqual_eq_fault_iff :
    searchEqual e v = .error (.fault cause) ↔ cause = .invalidOperation ∧
      ∃ d, v = .decimal d ∧ d.isSignaling = true ∧
        ∃ entry ∈ e.members, entry.2.number?.isSome = true := by
  constructor
  · intro failed
    unfold searchEqual at failed
    split at failed
    · cases failed
    · split at failed
      · next both =>
        cases failed
        obtain ⟨signals, number⟩ := Bool.and_eq_true_iff.1 both
        exact ⟨rfl, _, rfl, signals, List.any_eq_true.1 number⟩
      · cases failed
    · cases failed
  · intro given
    obtain ⟨rfl, d, rfl, signals, number⟩ := given
    simp [searchEqual, equalMember_signal e signals, signals, number]

theorem searchInt_ne_fault (n : Int) : searchInt e n ≠ .error (.fault cause) := by
  unfold searchInt
  split_ifs <;> simp [Rejection.of]

theorem searchMember_ne_fault : searchMember e v ≠ .error (.fault cause) := by
  unfold searchMember
  split
  · unfold searchFittedText
    split
    · simp
    · simp
    · next failed => exact absurd failed (ne_fault (isFault_toText v))
  · unfold searchFittedInt
    split
    · split
      · exact searchInt_ne_fault _
      · split_ifs <;> simp [Rejection.of]
    · simp
    · next failed => exact absurd failed (ne_fault (isFault_toInt v))
  · unfold searchPlain
    split
    · split_ifs
      · simp
      · exact fun failed => searchInt_ne_fault _ (Attempt.map_eq_error_iff.1 failed)
    · simp
    · exact searchInt_ne_fault _
    · simp

/-- The members that a value does not name are searched for one that equals it. -/
theorem isFault_toMember_iff :
    isFault (toMember e v) = true ↔ ∃ d, v = .decimal d ∧ d.isSignaling = true ∧
      ∃ entry ∈ e.members, entry.2.number?.isSome = true := by
  constructor
  · intro faulty
    unfold toMember at faulty
    split at faulty
    · cases faulty
    · split at faulty
      · next rejection failed =>
        rcases rejection with found | cause
        · cases faulty
        · exact absurd failed searchMember_ne_fault
      · cases faulty
      · split at faulty
        · next rejection failed =>
          rcases rejection with found | cause
          · cases faulty
          · exact (searchEqual_eq_fault_iff.1 failed).2
        · cases faulty
        · cases faulty
  · intro given
    have failed := searchEqual_eq_fault_iff.2 ⟨rfl, given⟩
    obtain ⟨d, rfl, signals, -⟩ := given
    simp [toMember, isMemberOf, searchMember_signal e signals, failed]

end Members

section Parts

variable {fit fitKey fitValue : Value → Outcome Value} {v : Value}

theorem isFault_fitItems (fit : Value → Outcome Value) (items : List Value) :
    isFault (fitItems fit items) = items.any fun v => isFault (fit v) := by
  have indexed (index : Nat) :
      (indexedFrom fit index items).any isFault = items.any fun v => isFault (fit v) := by
    induction items generalizing index with
    | nil => rfl
    | cons v items ih => simp [indexedFrom, ih]
  rw [fitItems, isFault_gather, indexed]

theorem isFault_hashedItem (v : Value) : isFault (hashedItem v) = false := by
  unfold hashedItem
  split <;> rfl

theorem isFault_fitMembers (fit : Value → Outcome Value) (items : List Value) :
    isFault (fitMembers fit items) = items.any fun v => isFault (fit v) := by
  have hashed (v : Value) : isFault ((fit v).andThen hashedItem) = isFault (fit v) := by
    rw [Bool.eq_iff_iff, isFault_andThen_iff]
    simp [isFault_hashedItem]
  simp only [fitMembers, isFault_map, isFault_fitItems, hashed]

theorem isFault_fromSequence_iff {wanted : Value → Bool} {kind : IssueKind}
    {fitAll : List Value → Outcome Value} :
    isFault (fromSequence wanted kind v fitAll) = true ↔
      ∃ items, sequenceItems? v = some items ∧ isFault (fitAll items) = true := by
  unfold fromSequence
  cases sequenceItems? v with
  | none => simp
  | some items => cases wanted v <;> simp

def itemsFor (kind : Collection) (v : Value) : Option (List Value) :=
  match kind with
  | .sequence => if isList v || isTuple v then sequenceItems? v else none
  | _ => sequenceItems? v

theorem isFault_fitListItems {anyItem : Bool} (items : List Value)
    (loose : anyItem = true → ∀ v, isFault (fit v) = false) :
    isFault (fitListItems anyItem fit items) = items.any fun v => isFault (fit v) := by
  cases anyItem with
  | false => exact isFault_fitItems fit items
  | true => simp [fitListItems, loose rfl]

theorem isFault_fitCollection_iff {anyItem : Bool} {kind : Collection}
    (loose : anyItem = true → ∀ v, isFault (fit v) = false) :
    isFault (fitCollection anyItem fit v kind) = true ↔
      ∃ items, itemsFor kind v = some items ∧ ∃ item ∈ items, isFault (fit item) = true := by
  cases kind with
  | sequence =>
    have other (w : Value) : isFault (if !textsIn w then reject .notInstance
        else if anyItem then accept .exact w else reject .sequenceText) = false := by
      split_ifs <;> rfl
    cases v with
    | list items =>
      simp [fitCollection, fitSequence, isFault_fitListItems _ loose, itemsFor, isList,
        sequenceItems?]
    | tuple items =>
      simp [fitCollection, fitSequence, isFault_fitListItems _ loose, itemsFor, isTuple,
        sequenceItems?]
    | _ =>
      simp only [fitCollection, fitSequence, other]
      simp [itemsFor, isList, isTuple]
  | _ =>
    simp only [fitCollection, isFault_fromSequence_iff, isFault_map, isFault_fitMembers,
      isFault_fitItems, isFault_fitListItems _ loose, List.any_eq_true, itemsFor]

theorem isFault_orTooLong (tooLong : Bool) (o : Outcome (List Value)) :
    isFault (orTooLong tooLong o) = isFault o := by
  rcases o with (found | cause) | fitted <;> cases tooLong <;> rfl

theorem isFault_coerceParts (ts : List FieldType) (index : Nat) (items : List Value) :
    isFault (coerceParts ts index items) =
      (ts.zip items).any fun p => isFault (coerce p.1 p.2) := by
  induction ts generalizing index items with
  | nil => rfl
  | cons t ts ih => cases items <;> simp [coerceParts, ih]

theorem isFault_hashedEntry (entry : Value × Value) :
    isFault (hashedEntry entry) = entry.1.hashFault?.isSome := by
  unfold hashedEntry
  cases entry.1.hashFault? <;> rfl

theorem isFault_fitEntry_iff {entry : Value × Value} :
    isFault (fitEntry fitKey fitValue entry) = true ↔
      isFault (fitKey entry.1) = true ∨ isFault (fitValue entry.2) = true ∨
        ∃ key content, (fitKey entry.1).Gives key ∧ (fitValue entry.2).Gives content ∧
          key.hashFault?.isSome = true := by
  simp only [fitEntry, isFault_andThen_iff, isFault_both, isFault_under, Bool.or_eq_true, or_assoc,
    gives_both, gives_under, isFault_hashedEntry]
  refine or_congr_right (or_congr_right ⟨?_, ?_⟩)
  · intro given
    obtain ⟨_, ⟨key, content, gives, others, rfl⟩, unhashable⟩ := given
    exact ⟨key, content, gives, others, unhashable⟩
  · intro given
    obtain ⟨key, content, gives, others, unhashable⟩ := given
    exact ⟨_, ⟨key, content, gives, others, rfl⟩, unhashable⟩

theorem isFault_fitMap_iff :
    isFault (fitMap fitKey fitValue v) = true ↔ ∃ entries, v = .map entries ∧
      ∃ entry ∈ entries, isFault (fitEntry fitKey fitValue entry) = true := by
  unfold fitMap
  split
  · simp [isFault_gather]
  · next other => exact ⟨nofun, fun ⟨entries, same, _⟩ => absurd same (other entries)⟩

end Parts

section Alternatives

def FitsExactly (t : FieldType) (v : Value) : Prop :=
  ∃ fitted, coerce t v = .ok fitted ∧ fitted.fit.closeness = .exact

/-- The alternatives are tried in order, up to one that the value already is of. -/
theorem isFault_coerceAmong_iff {ts : List FieldType} {several : Bool} {v : Value}
    {best : Option (Fitted Value)} {found : List Issue}
    (alone : several = false → (FieldType.presentAlternatives ts).length ≤ 1) :
    isFault (coerceAmong ts several v best found) = true ↔
      ∃ before t after, ts = before ++ t :: after ∧
        (∀ u ∈ before, u.isNull = false → ¬FitsExactly u v) ∧
        t.isNull = false ∧ isFault (coerce t v) = true := by
  induction ts generalizing best found with
  | nil => cases best <;> simp [coerceAmong]
  | cons t ts ih =>
    rw [Attempt.exists_split_cons_iff, coerceAmong]
    cases null : t.isNull with
    | true =>
      rw [if_pos rfl, ih (by simpa [FieldType.presentAlternatives, null] using alone)]
      simp
    | false =>
      simp only [Bool.false_eq_true, if_false, true_and, forall_const]
      cases several with
      | false =>
        -- no other alternative is left beside the absent value
        have rest : FieldType.presentAlternatives ts = [] := by
          simpa [FieldType.presentAlternatives, List.filter_cons, null] using alone rfl
        refine ⟨.inl, fun given => given.elim id fun later => ?_⟩
        obtain ⟨-, before, u, after, rfl, -, present, -⟩ := later
        simp [FieldType.presentAlternatives, present] at rest
      | true =>
        cases outcome : coerce t v with
        | ok fitted =>
          by_cases exact : fitted.fit.closeness = .exact
          · have fits : FitsExactly t v := ⟨fitted, outcome, exact⟩
            simp [Outcome.under, exact, fits]
          · have misses : ¬FitsExactly t v := by
              simpa [FitsExactly, outcome] using exact
            simp [Outcome.under, exact, misses, ih]
        | error rejection =>
          have misses : ¬FitsExactly t v := by simp [FitsExactly, outcome]
          cases rejection with
          | issues more => simp [Outcome.under, Rejection.under, misses, ih]
          | fault cause => simp [Outcome.under, Rejection.under]

end Alternatives

end TableScan.Coercion
