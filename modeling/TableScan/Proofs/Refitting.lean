import TableScan.Proofs.DecimalText
import TableScan.Proofs.Keeping
import TableScan.Proofs.UuidText

/-! Fitting a value that is kept: as it is, and as it comes back from the store. -/

namespace TableScan.Coercion

open Outcome Value

variable {e : Enumeration} {name s : String} {n : Int}

theorem gives_toInt_ofInt (n : Int) : (toInt (.decimal (.ofInt n))).Gives (.int n) := by
  have whole : Decimal.wholePart? n.natAbs 0 = some n.natAbs := by
    by_cases zero : n.natAbs = 0 <;> simp [Decimal.wholePart?, zero]
  have value : (if n < 0 then -(n.natAbs : Int) else n.natAbs) = n := by split <;> omega
  simp only [toInt, Decimal.ofInt, intOfDecimal, whole, decide_eq_true_eq, value]
  exact gives_accept.2 rfl

theorem gives_toDecimal {d : Decimal} (finite : d.isFinite = true) :
    (toDecimal (.decimal d)).Gives (.decimal d) := by
  simp [toDecimal, finiteDecimal, finite]

theorem gives_toUuid_toText (u : Uuid) : (toUuid (.text u.toText)).Gives (.uuid u) := by
  simp [toUuid, Uuid.toText, Uuid.ofText?_toChars, parsedUuid]

theorem gives_acceptDate (fit : Fit) (d : Date) : (acceptDate fit d.civil).Gives (.date d) := by
  simp [acceptDate, Date.ofCivil?_civil]

theorem gives_toDate (d : Date) : (toDate (.date d)).Gives (.date d) := gives_acceptDate .exact d

theorem gives_toDate_toText (d : Date) : (toDate (.text d.toText)).Gives (.date d) := by
  have read : civilOf (.text d.toText) = .ok ⟨d.civil, .lax⟩ := by
    simp [civilOf, readableText?, Value.text?, Date.toText, Date.toChars,
      Civil.ofAnyText?_toChars d.real.1, readable]
  rw [toDate, read]
  exact gives_acceptDate .lax d

theorem gives_acceptDatetime (fit : Fit) (d : Date) (time : DayTime) :
    (acceptDatetime fit ⟨d.civil, time⟩).Gives (.datetime ⟨d, time⟩) := by
  simp [acceptDatetime, Stamp.toDateTime?, Date.ofCivil?_civil]

theorem gives_toDatetime (t : DateTime) : (toDatetime (.datetime t)).Gives (.datetime t) :=
  gives_acceptDatetime .exact t.date t.time

theorem gives_toDatetime_toText {t : DateTime} (whole : t.IsWholeMinutes) :
    (toDatetime (.text t.toText)).Gives (.datetime t.asRead) := by
  have read : stampOf (.text t.toText) = .ok ⟨⟨t.date.civil, t.time.asRead⟩, .lax⟩ := by
    simp [stampOf, readableText?, Value.text?, DateTime.ofAnyText?_toText whole, readable]
  rw [toDatetime, read]
  exact gives_acceptDatetime .lax t.date t.time.asRead

theorem gives_toMember (e : Enumeration) (entry : String × Value) :
    (toMember e (e.memberOf entry)).Gives (e.memberOf entry) := by
  simp [toMember, isMemberOf, Enumeration.memberOf]

theorem gives_toMember_text (base : e.base ≠ .int) (owns : e.Owns (name, .text s)) :
    (toMember e (.text s)).Gives (e.memberOf (name, .text s)) := by
  have found : equalMember e (.text s) = some (e.memberOf (name, .text s)) := by
    rw [equalMember, Enumeration.find?, owns, Option.map_some]
  have searched : searchMember e (.text s) = .ok (some (e.memberOf (name, .text s))) := by
    unfold searchMember
    cases kind : e.base with
    | plain => simp [searchPlain, found]
    | text => simp [searchFittedText, toText, accept, found]
    | int => exact absurd kind base
  simp [toMember, isMemberOf, searched]

theorem same_int_eq (v : Value) (n : Int) : same v (.int n) = same v (.decimal (.ofInt n)) := by
  cases v with
  | member _ base _ payload => cases base <;> cases payload <;> rfl
  | _ => rfl

theorem gives_toMember_int (base : e.base = .int) (owns : e.Owns (name, .int n))
    (words : isWord n = true ∨ e.hasWord = false) :
    (toMember e (.decimal (.ofInt n))).Gives (e.memberOf (name, .int n)) := by
  have found : e.find? (same · (.int n)) = some (e.memberOf (name, .int n)) := by
    rw [Enumeration.find?, owns, Option.map_some]
  obtain ⟨fit, whole⟩ := gives_toInt_ofInt n
  have searched : searchMember e (.decimal (.ofInt n)) = searchInt e n := by
    simp [searchMember, base, searchFittedInt, whole, Value.int?]
  simp only [toMember, isMemberOf, searched, searchInt, Bool.false_eq_true, if_false]
  rcases words with word | none
  · simp [word, found]
  · cases word : isWord n with
    | true => simp [found]
    | false =>
      have equal : equalMember e (.decimal (.ofInt n)) = some (e.memberOf (name, .int n)) := by
        rw [equalMember, ← found]
        simp only [same_int_eq]
      simp [none, searchEqual, equal]

section Parts

variable {f g : Value → Value} {t : FieldType} {ts : List FieldType} {items : List Value} {v : Value}

theorem gives_fitItems_map (each : ∀ x ∈ items, (coerce t (f x)).Gives (g x)) :
    (fitItems (coerce t) (items.map f)).Gives (items.map g) := by
  rw [gives_fitItems, List.forall₂_map_left_iff, List.forall₂_map_right_iff]
  exact List.forall₂_same.2 each

theorem gives_coerce_list (typed : t.isAny = false) (source : sequenceItems? v = some (items.map f))
    (each : ∀ x ∈ items, (coerce t (f x)).Gives (g x)) :
    (coerce (.collection .list t) v).Gives (.list (items.map g)) := by
  simp only [coerce, fitCollection, gives_fromSequence, typed, fitListItems, Bool.false_eq_true, if_false,
    gives_map]
  exact ⟨_, source, _, gives_fitItems_map each, rfl⟩

theorem gives_coerce_sequence (source : sequenceItems? v = some (items.map f))
    (each : ∀ x ∈ items, (coerce t (f x)).Gives (g x)) :
    (coerce (.collection .tuple t) v).Gives (.tuple (items.map g)) := by
  simp only [coerce, fitCollection, gives_fromSequence, gives_map]
  exact ⟨_, source, _, gives_fitItems_map each, rfl⟩

theorem gives_fitMembers_map (each : ∀ x ∈ items, (coerce t (f x)).Gives x ∧ x.hashFault? = none)
    (different : Distinct items) : (fitMembers (coerce t) (items.map f)).Gives items := by
  refine gives_fitMembers.2 ⟨items, ?_, distinct_eq_self different⟩
  rw [List.forall₂_map_left_iff]
  exact List.forall₂_same.2 each

theorem gives_coerce_set (source : sequenceItems? v = some (items.map f))
    (each : ∀ x ∈ items, (coerce t (f x)).Gives x ∧ x.hashFault? = none)
    (different : Distinct items) : (coerce (.collection .set t) v).Gives (.set items) := by
  simp only [coerce, fitCollection, gives_fromSequence, gives_map]
  exact ⟨_, source, _, gives_fitMembers_map each different, rfl⟩

theorem gives_coerce_frozenset (source : sequenceItems? v = some (items.map f))
    (each : ∀ x ∈ items, (coerce t (f x)).Gives x ∧ x.hashFault? = none)
    (different : Distinct items) :
    (coerce (.collection .frozenset t) v).Gives (.frozenset items) := by
  simp only [coerce, fitCollection, gives_fromSequence, gives_map]
  exact ⟨_, source, _, gives_fitMembers_map each different, rfl⟩

theorem forall₂_zip_map (length : ts.length = items.length)
    (each : ∀ p ∈ ts.zip items, (coerce p.1 (f p.2)).Gives (g p.2)) :
    List.Forall₂ (fun p x => (coerce p.1 p.2).Gives x) (ts.zip (items.map f)) (items.map g) := by
  induction ts generalizing items with
  | nil =>
    cases List.length_eq_zero_iff.1 length.symm
    exact .nil
  | cons t ts ih =>
    cases items with
    | nil => cases length
    | cons x items =>
      rw [List.zip_cons_cons, List.forall_mem_cons] at each
      exact .cons each.1 (ih (Nat.succ.inj length) each.2)

theorem gives_coerce_tuple (length : ts.length = items.length)
    (source : sequenceItems? v = some (items.map f))
    (each : ∀ p ∈ ts.zip items, (coerce p.1 (f p.2)).Gives (g p.2)) :
    (coerce (.tuple ts) v).Gives (.tuple (items.map g)) := by
  rw [coerce, gives_fromSequence]
  refine ⟨_, source, gives_map.2 ⟨_, gives_orTooLong.2 ⟨by simp [length], ?_⟩, rfl⟩⟩
  exact gives_coerceParts.2 ⟨by simp [length], forall₂_zip_map length each⟩

theorem gives_coerce_map {entries : List (Value × Value)}
    (names : ∀ entry ∈ entries, ∃ s, entry.1 = .text s)
    (each : ∀ entry ∈ entries, (coerce t (f entry.2)).Gives (g entry.2))
    (different : Distinct (entries.map (·.1))) :
    (coerce (.map .text t) (.map (entries.map fun entry => (entry.1, f entry.2)))).Gives
      (.map (entries.map fun entry => (entry.1, g entry.2))) := by
  rw [coerce, gives_fitMap]
  have kept : ofEntries (entries.map fun entry => (entry.1, g entry.2)) =
      entries.map fun entry => (entry.1, g entry.2) :=
    ofEntries_eq_self (by rw [List.map_map]; exact different)
  refine ⟨_, ?_, congrArg _ kept⟩
  rw [List.forall₂_map_left_iff, List.forall₂_map_right_iff, List.forall₂_same]
  intro entry member
  obtain ⟨s, text⟩ := names entry member
  rw [text]
  exact ⟨gives_accept.2 rfl, each entry member, rfl⟩

end Parts

end TableScan.Coercion

namespace TableScan.Keeps

open Coercion Outcome Value

variable {t : FieldType} {w : Value}

theorem hashFault?_eq_none (member : t.OfSets) (kept : Keeps t w) : w.hashFault? = none := by
  cases member <;> cases kept
  case decimal.decimal d finite =>
    cases d with
    | finite _ _ _ => rfl
    | infinity _ | nan _ _ _ => cases finite
  all_goals rfl

theorem gives_self (kept : Keeps t w) : (coerce t w).Gives w := by
  induction kept with
  | text s => exact gives_accept.2 rfl
  | int n => exact gives_accept.2 rfl
  | bool b => exact gives_accept.2 rfl
  | bytes bs => exact gives_accept.2 rfl
  | null => exact gives_accept.2 rfl
  | decimal finite => exact gives_toDecimal finite
  | uuid u => exact gives_accept.2 rfl
  | date d => exact gives_toDate d
  | datetime => exact gives_toDatetime _
  | textMember | intMember => exact gives_toMember _ _
  | list typed _ ih => simpa using gives_coerce_list (f := id) (g := id) typed (by simp [sequenceItems?]) ih
  | sequence _ ih => simpa using gives_coerce_sequence (f := id) (g := id) (by simp [sequenceItems?]) ih
  | set member each different ih =>
    exact gives_coerce_set (f := id) (by simp [sequenceItems?])
      (fun x found => ⟨ih x found, (each x found).hashFault?_eq_none member⟩) different
  | frozenset member each different ih =>
    exact gives_coerce_frozenset (f := id) (by simp [sequenceItems?])
      (fun x found => ⟨ih x found, (each x found).hashFault?_eq_none member⟩) different
  | tuple length _ ih =>
    simpa using gives_coerce_tuple (f := id) (g := id) length (by simp [sequenceItems?]) ih
  | map names _ different ih =>
    simpa using gives_coerce_map (f := id) (g := id) names ih different
  | absent absent only => exact (gives_coerce_union only absent).2 (.inl ⟨rfl, rfl⟩)
  | @present ts absent t only w kept ih =>
    rw [gives_coerce_union only absent]
    by_cases null : w = .null
    · exact .inl ⟨null, null⟩
    · exact .inr ⟨null, ih⟩

/-- What comes back from the store fits the type again. -/
theorem gives_reread (kept : Keeps t w) : (coerce t w.readBack).Gives w.reread := by
  induction kept with
  | text s => exact gives_accept.2 rfl
  | int n => exact gives_toInt_ofInt n
  | bool b => exact gives_accept.2 rfl
  | bytes bs => exact gives_accept.2 rfl
  | null => exact gives_accept.2 rfl
  | decimal finite => exact gives_toDecimal finite
  | uuid u => exact gives_toUuid_toText u
  | date d => exact gives_toDate_toText d
  | datetime whole => exact gives_toDatetime_toText whole
  | textMember base owns => exact gives_toMember_text base owns
  | intMember base owns words => exact gives_toMember_int base owns words
  | list typed _ ih =>
    rw [reread, rereadAll_eq_map]
    exact gives_coerce_list typed (congrArg some (readBackAll_eq_map _)) ih
  | sequence _ ih =>
    rw [reread, rereadAll_eq_map]
    exact gives_coerce_sequence (congrArg some (readBackAll_eq_map _)) ih
  | set member each different ih =>
    refine gives_coerce_set (congrArg some (readBackAll_eq_map _)) (fun x found => ⟨?_, ?_⟩) different
    · have fits := ih x found
      rwa [(each x found).reread_eq_self member] at fits
    · exact (each x found).hashFault?_eq_none member
  | frozenset member each different ih =>
    refine gives_coerce_frozenset (congrArg some (readBackAll_eq_map _)) (fun x found => ⟨?_, ?_⟩)
      different
    · have fits := ih x found
      rwa [(each x found).reread_eq_self member] at fits
    · exact (each x found).hashFault?_eq_none member
  | tuple length _ ih =>
    rw [reread, rereadAll_eq_map]
    exact gives_coerce_tuple length (congrArg some (readBackAll_eq_map _)) ih
  | map names _ different ih =>
    rw [readBack, reread, readBackEntries_eq_map, rereadEntries_eq_map]
    exact gives_coerce_map names ih different
  | absent absent only => exact (gives_coerce_union only absent).2 (.inl ⟨rfl, rfl⟩)
  | @present ts absent t only w kept ih =>
    rw [gives_coerce_union only absent]
    by_cases null : w.readBack = .null
    · refine .inl ⟨null, ?_⟩
      rw [kept.eq_null_of_readBack null]
      rfl
    · exact .inr ⟨null, ih⟩

end TableScan.Keeps
