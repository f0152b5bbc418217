import TableScan.AttributeValue.Decoding
import TableScan.Proofs.Attempt

/-! When reading an attribute value ends in an arithmetic fault. Main statement: it does exactly when
the reading gets to a number that the store's format cannot hold, all before it being readable. -/

namespace TableScan.Value

open Attempt

/-- A number that is given in full but cannot be kept, or whose parts are no machine words. -/
inductive NumberOverruns (v : Value) : Fault → Prop where
  | outside {d : Decimal} {conditions : List Decimal.Condition} (denotes : v.denotedNumber = .ok d)
    (changed : d.inFormat = .error conditions) : NumberOverruns v (.outOfFormat conditions)
  | part {word : String} (large : v.denotedNumber = .error (.wordSize word)) :
    NumberOverruns v (.wordSize word)

def Names (k : Value) (tag : String) : Prop :=
  ∃ shown, k.display? = some shown ∧ String.ofList (shown.toList.map Char.toLower) = tag

def numberMember (v : Value) : Except Fault Value := do hashed (← storedNumber v)

/-- The reading gets to a number that cannot be kept. -/
inductive Overruns : Value → Fault → Prop where
  | number {k content : Value} {rest : List (Value × Value)} {cause : Fault} (tag : k.Names "n")
    (overruns : NumberOverruns content cause) : Overruns (.map ((k, content) :: rest)) cause
  | member {k content item : Value} {before after : List Value} {rest : List (Value × Value)}
    {cause : Fault} (tag : k.Names "ns") (items : content.elements? = some (before ++ item :: after))
    (done : ∀ other ∈ before, ∃ n, numberMember other = .ok n)
    (overruns : NumberOverruns item cause) : Overruns (.map ((k, content) :: rest)) cause
  | item {k content item : Value} {before after : List Value} {rest : List (Value × Value)}
    {cause : Fault} (tag : k.Names "l") (items : content.elements? = some (before ++ item :: after))
    (done : ∀ other ∈ before, ∃ native, other.ofTagged = .ok native)
    (overruns : Overruns item cause) : Overruns (.map ((k, content) :: rest)) cause
  | entry {k name content : Value} {before after rest : List (Value × Value)} {cause : Fault}
    (tag : k.Names "m") (done : ∀ other ∈ before, ∃ native, other.2.ofTagged = .ok native)
    (overruns : Overruns content cause) :
    Overruns (.map ((k, .map (before ++ (name, content) :: after)) :: rest)) cause

theorem wordNumber_eq_error {word : String} {n : Int} {cause : Fault}
    (failed : wordNumber word n = .error cause) : cause = .wordSize word := by
  unfold wordNumber at failed
  split at failed <;> cases failed
  rfl

theorem signPart_eq_error {v : Value} {cause : Fault} (failed : signPart v = .error cause)
    (family : cause.family = .arithmetic) : ∃ word, cause = .wordSize word := by
  unfold signPart at failed
  split at failed
  · cases failed
    cases family
  · rcases bind_eq_error_iff.1 failed with large | ⟨sign, _, failed⟩
    · exact ⟨_, wordNumber_eq_error large⟩
    · split at failed
      · cases failed
      · split at failed <;> cases failed
        cases family

theorem digitParts_eq_error {items : List Value} {cause : Fault}
    (failed : digitParts items = .error cause) (family : cause.family = .arithmetic) :
    ∃ word, cause = .wordSize word := by
  induction items with
  | nil => cases failed
  | cons v items ih =>
    unfold digitParts at failed
    split at failed
    · cases failed
      cases family
    · rcases bind_eq_error_iff.1 failed with large | ⟨digit, _, failed⟩
      · exact ⟨_, wordNumber_eq_error large⟩
      · split at failed
        · rcases bind_eq_error_iff.1 failed with failed | ⟨_, _, impossible⟩
          · exact ih failed
          · cases impossible
        · cases failed
          cases family

theorem exponentPart_eq_error {v : Value} {cause : Fault} (failed : exponentPart v = .error cause)
    (family : cause.family = .arithmetic) : ∃ word, cause = .wordSize word := by
  unfold exponentPart at failed
  split at failed
  case h_5 n _ _ =>
    cases large : wordNumber "ssize_t" n with
    | ok n => cases (congrArg (Except.map _) large).symm.trans failed
    | error reason =>
      cases (congrArg (Except.map _) large).symm.trans failed
      exact ⟨_, wordNumber_eq_error large⟩
  all_goals cases failed
  all_goals cases family

theorem decimalOfParts_eq_error {items : List Value} {cause : Fault}
    (failed : decimalOfParts items = .error cause) (family : cause.family = .arithmetic) :
    ∃ word, cause = .wordSize word := by
  rw [decimalOfParts.eq_def] at failed
  split at failed
  · rcases bind_eq_error_iff.1 failed with failed | ⟨negative, _, failed⟩
    · exact signPart_eq_error failed family
    rcases bind_eq_error_iff.1 failed with failed | ⟨power, _, failed⟩
    · exact exponentPart_eq_error failed family
    split at failed
    · rcases bind_eq_error_iff.1 failed with failed | ⟨_, _, impossible⟩
      · exact digitParts_eq_error failed family
      · cases impossible
    · rcases bind_eq_error_iff.1 failed with failed | ⟨_, _, impossible⟩
      · exact digitParts_eq_error failed family
      · cases impossible
    · cases failed
      cases family
  · cases failed
    cases family

theorem denotedNumber_eq_error {v : Value} {cause : Fault} (failed : v.denotedNumber = .error cause)
    (family : cause.family = .arithmetic) : ∃ word, cause = .wordSize word := by
  rw [denotedNumber.eq_def] at failed
  split at failed
  · cases failed
  · cases failed
  · exact decimalOfParts_eq_error failed family
  · exact decimalOfParts_eq_error failed family
  · cases failed
    cases family

theorem storedNumber_eq_error_iff {v : Value} {cause : Fault} :
    storedNumber v = .error cause ∧ cause.family = .arithmetic ↔ NumberOverruns v cause := by
  rw [storedNumber, bind_eq_error_iff]
  constructor
  · intro given
    rcases given with ⟨failed | ⟨d, denotes, failed⟩, family⟩
    · obtain ⟨word, rfl⟩ := denotedNumber_eq_error failed family
      exact .part failed
    · split at failed <;> cases failed
      exact .outside denotes ‹_›
  · intro given
    rcases given with ⟨denotes, changed⟩ | ⟨large⟩
    · exact ⟨.inr ⟨_, denotes, by rw [changed]; rfl⟩, rfl⟩
    · exact ⟨.inl large, rfl⟩

theorem storedBytes_not_arithmetic {v : Value} {cause : Fault} (failed : storedBytes v = .error cause) :
    cause.family ≠ .arithmetic := by
  rw [storedBytes.eq_def] at failed
  split at failed <;> cases failed
  exact fun family => by cases family

mutual

theorem family_of_hashFault? (v : Value) {cause : Fault} (failed : v.hashFault? = some cause) :
    cause.family = .type := by
  cases v with
  | tuple items => exact family_of_firstHashFault? items failed
  | decimal d =>
    rcases d with _ | _ | ⟨_, signaling, _⟩
    · cases failed
    · cases failed
    · cases signaling <;> cases failed
      rfl
  | _ =>
    cases failed
    try rfl
termination_by structural v

theorem family_of_firstHashFault? (items : List Value) {cause : Fault}
    (failed : firstHashFault? items = some cause) : cause.family = .type := by
  cases items with
  | nil => cases failed
  | cons v items =>
    rw [firstHashFault?, Option.or_eq_some_iff] at failed
    rcases failed with first | ⟨_, rest⟩
    · exact family_of_hashFault? v first
    · exact family_of_firstHashFault? items rest
termination_by structural items

end

theorem family_of_hashed {v : Value} {cause : Fault} (failed : hashed v = .error cause) :
    cause.family = .type := by
  unfold hashed at failed
  split at failed
  · next _ found =>
    cases failed
    exact family_of_hashFault? v found
  · cases failed

theorem hashed_not_arithmetic {v : Value} {cause : Fault} (failed : hashed v = .error cause) :
    cause.family ≠ .arithmetic := by
  rw [family_of_hashed failed]
  decide

theorem elements_not_arithmetic {v : Value} {cause : Fault} (failed : v.elements = .error cause) :
    cause.family ≠ .arithmetic := by
  unfold elements at failed
  split at failed <;> cases failed
  exact fun family => by cases family

theorem elements_eq_ok_iff {v : Value} {items : List Value} :
    v.elements = .ok items ↔ v.elements? = some items := by
  unfold elements
  cases v.elements? <;> simp

theorem tagText_eq_ok_iff {k : Value} {shown : String} :
    tagText k = .ok shown ↔ k.display? = some shown := by
  unfold tagText
  cases k.display? <;> simp

theorem ofTaggedAll_eq_mapM (items : List Value) : ofTaggedAll items = items.mapM ofTagged := by
  induction items with
  | nil => rfl
  | cons v items ih => rw [ofTaggedAll, List.mapM_cons, ih]

theorem ofTaggedKeys_eq_mapM (entries : List (Value × Value)) :
    ofTaggedKeys entries = (entries.map (·.1)).mapM ofTagged := by
  induction entries with
  | nil => rfl
  | cons entry entries ih => rw [ofTaggedKeys, List.map_cons, List.mapM_cons, ih]

theorem ofTaggedEntries_eq_mapM (entries : List (Value × Value)) :
    ofTaggedEntries entries = entries.mapM fun entry => (ofTagged entry.2).map (entry.1, ·) := by
  induction entries with
  | nil => rfl
  | cons entry entries ih =>
    rw [ofTaggedEntries, List.mapM_cons, ih]
    cases ofTagged entry.2 <;> rfl

theorem ofTagged_of_not_map {v : Value} (plain : ∀ entries, v ≠ .map entries) :
    v.ofTagged =
      if v.isTrue then .error (.noMember v.qualifiedKind "keys") else .error .untagged := by
  rw [ofTagged]
  intro _ _ _ same
  subst same
  exact plain _ rfl

theorem eq_map_of_arithmetic {v : Value} {cause : Fault} (failed : v.ofTagged = .error cause)
    (family : cause.family = .arithmetic) : ∃ entries, v = .map entries := by
  cases v with
  | map entries => exact ⟨entries, rfl⟩
  | _ =>
    rw [ofTagged_of_not_map (by intro _ same; cases same)] at failed
    split at failed <;> cases failed <;> cases family

/-- The items of a list are read one after the other, whatever is taken for a list. -/
theorem itemsOf_eq (v : Value) : itemsOf v = v.elements >>= (·.mapM ofTagged) := by
  rw [itemsOf.eq_def]
  split
  · exact ofTaggedAll_eq_mapM _
  · exact ofTaggedAll_eq_mapM _
  · exact ofTaggedAll_eq_mapM _
  · exact ofTaggedAll_eq_mapM _
  · exact ofTaggedKeys_eq_mapM _
  · next list tuple set frozenset map =>
    cases found : v.elements with
    | error cause => rfl
    | ok items =>
      cases items with
      | nil => rfl
      | cons item items =>
        -- Texts and bytes are iterated too, but by characters and numbers, which nothing tags.
        have plain : ∀ entries, item ≠ .map entries := by
          rw [elements_eq_ok_iff, elements?.eq_def] at found
          split at found
          · obtain ⟨c, -, rfl⟩ := List.mem_map.1 (Option.some.inj found ▸ List.mem_cons_self)
            intro _ given
            cases given
          · obtain ⟨c, -, rfl⟩ := List.mem_map.1 (Option.some.inj found ▸ List.mem_cons_self)
            intro _ given
            cases given
          · obtain ⟨b, -, rfl⟩ := List.mem_map.1 (Option.some.inj found ▸ List.mem_cons_self)
            intro _ given
            cases given
          · exact absurd rfl (list _)
          · exact absurd rfl (tuple _)
          · exact absurd rfl (set _)
          · exact absurd rfl (frozenset _)
          · exact absurd rfl (map _)
          · cases found
        simp only [ok_bind, List.mapM_cons, ofTagged_of_not_map plain]
        split <;> rfl

section Failure

variable {v : Value} {cause : Fault} (family : cause.family = .arithmetic)

include family

theorem storedSet_eq_error_iff {read : Value → Except Fault Value} :
    storedSet read v = .error cause ↔
      ∃ before item after, v.elements? = some (before ++ item :: after) ∧
        (∀ other ∈ before, ∃ n, (read other >>= hashed) = .ok n) ∧ read item = .error cause := by
  rw [storedSet, bind_eq_error_iff]
  constructor
  · intro given
    rcases given with failed | ⟨items, found, failed⟩
    · exact absurd family (elements_not_arithmetic failed)
    · rcases bind_eq_error_iff.1 failed with failed | ⟨_, _, impossible⟩
      · obtain ⟨before, item, after, rfl, done, failed⟩ := mapM_eq_error_iff.1 failed
        refine ⟨before, item, after, elements_eq_ok_iff.1 found, done, ?_⟩
        rcases bind_eq_error_iff.1 failed with failed | ⟨_, _, failed⟩
        · exact failed
        · exact absurd family (hashed_not_arithmetic failed)
      · cases impossible
  · intro given
    obtain ⟨before, item, after, found, done, failed⟩ := given
    refine .inr ⟨_, elements_eq_ok_iff.2 found, bind_eq_error_iff.2 (.inl ?_)⟩
    exact mapM_eq_error_iff.2 ⟨before, item, after, rfl, done, by rw [failed]; rfl⟩

theorem itemsOf_eq_error_iff :
    itemsOf v = .error cause ↔
      ∃ before item after, v.elements? = some (before ++ item :: after) ∧
        (∀ other ∈ before, ∃ native, other.ofTagged = .ok native) ∧
        item.ofTagged = .error cause := by
  rw [itemsOf_eq, bind_eq_error_iff]
  constructor
  · intro given
    rcases given with failed | ⟨items, found, failed⟩
    · exact absurd family (elements_not_arithmetic failed)
    · obtain ⟨before, item, after, rfl, done, failed⟩ := mapM_eq_error_iff.1 failed
      exact ⟨before, item, after, elements_eq_ok_iff.1 found, done, failed⟩
  · intro given
    obtain ⟨before, item, after, found, done, failed⟩ := given
    exact .inr ⟨_, elements_eq_ok_iff.2 found,
      mapM_eq_error_iff.2 ⟨before, item, after, rfl, done, failed⟩⟩

theorem entriesOf_eq_error_iff :
    entriesOf v = .error cause ↔
      ∃ before name content after, v = .map (before ++ (name, content) :: after) ∧
        (∀ other ∈ before, ∃ native, other.2.ofTagged = .ok native) ∧
        content.ofTagged = .error cause := by
  rw [entriesOf.eq_def]
  constructor
  · intro failed
    split at failed
    · next entries =>
      rw [ofTaggedEntries_eq_mapM, mapM_eq_error_iff] at failed
      obtain ⟨before, ⟨name, content⟩, after, rfl, done, failed⟩ := failed
      refine ⟨before, name, content, after, rfl, fun other member => ?_, ?_⟩
      · obtain ⟨_, fine⟩ := done other member
        obtain ⟨native, read, _⟩ := map_eq_ok_iff.1 fine
        exact ⟨native, read⟩
      · cases read : content.ofTagged with
        | ok native => simp [read] at failed
        | error reason => simpa [read] using failed
    · cases failed
      cases family
  · intro given
    obtain ⟨before, name, content, after, rfl, done, failed⟩ := given
    change ofTaggedEntries _ = _
    rw [ofTaggedEntries_eq_mapM, mapM_eq_error_iff]
    refine ⟨before, (name, content), after, rfl, fun other member => ?_, by rw [failed]; rfl⟩
    obtain ⟨native, read⟩ := done other member
    exact ⟨(other.1, native), by rw [read]; rfl⟩

end Failure

theorem sizeOf_lt_of_mem_elements {v : Value} {items : List Value} {entries : List (Value × Value)}
    (found : v.elements? = some items) (member : .map entries ∈ items) :
    sizeOf (Value.map entries) < sizeOf v := by
  rw [elements?.eq_def] at found
  split at found
  all_goals cases found
  · obtain ⟨_, _, ⟨⟩⟩ := List.mem_map.1 member
  · obtain ⟨_, _, ⟨⟩⟩ := List.mem_map.1 member
  · obtain ⟨_, _, ⟨⟩⟩ := List.mem_map.1 member
  · have := List.sizeOf_lt_of_mem member
    simp only [list.sizeOf_spec]
    omega
  · have := List.sizeOf_lt_of_mem member
    simp only [tuple.sizeOf_spec]
    omega
  · have := List.sizeOf_lt_of_mem member
    simp only [set.sizeOf_spec]
    omega
  · have := List.sizeOf_lt_of_mem member
    simp only [frozenset.sizeOf_spec]
    omega
  · obtain ⟨⟨key, content⟩, member, rfl⟩ := List.mem_map.1 member
    have := List.sizeOf_lt_of_mem member
    simp only [map.sizeOf_spec, Prod.mk.sizeOf_spec] at this ⊢
    omega

theorem overruns_of_ofTagged_eq_error {v : Value} {cause : Fault}
    (failed : v.ofTagged = .error cause) (family : cause.family = .arithmetic) :
    Overruns v cause := by
  -- Items and entries are values of their own, smaller than the one that holds them.
  induction size : sizeOf v using Nat.strongRecOn generalizing v with | ind size ih
  obtain ⟨entries, rfl⟩ := eq_map_of_arithmetic failed family
  cases entries with
  | nil =>
    cases failed
    cases family
  | cons entry rest =>
    obtain ⟨k, content⟩ := entry
    simp only [map.sizeOf_spec, List.cons.sizeOf_spec, Prod.mk.sizeOf_spec] at size
    unfold ofTagged at failed
    rcases bind_eq_error_iff.1 failed with failed | ⟨tag, shown, failed⟩
    · unfold tagText at failed
      split at failed <;> cases failed
      cases family
    have shown := tagText_eq_ok_iff.1 shown
    split at failed
    case h_4 lower => exact .number ⟨tag, shown, lower⟩ (storedNumber_eq_error_iff.1 ⟨failed, family⟩)
    case h_5 => exact absurd family (storedBytes_not_arithmetic failed)
    case h_6 lower =>
      obtain ⟨before, item, after, found, done, failed⟩ := (storedSet_eq_error_iff family).1 failed
      exact .member ⟨tag, shown, lower⟩ found done (storedNumber_eq_error_iff.1 ⟨failed, family⟩)
    case h_7 =>
      obtain ⟨_, _, _, _, _, impossible⟩ := (storedSet_eq_error_iff family).1 failed
      cases impossible
    case h_8 =>
      obtain ⟨_, _, _, _, _, failed⟩ := (storedSet_eq_error_iff family).1 failed
      exact absurd family (storedBytes_not_arithmetic failed)
    case h_9 lower =>
      rcases bind_eq_error_iff.1 failed with failed | ⟨_, _, impossible⟩
      · obtain ⟨before, item, after, found, done, failed⟩ := (itemsOf_eq_error_iff family).1 failed
        obtain ⟨entries, rfl⟩ := eq_map_of_arithmetic failed family
        have smaller : sizeOf (Value.map entries) < sizeOf content :=
          sizeOf_lt_of_mem_elements found (by simp)
        exact .item ⟨tag, shown, lower⟩ found done (ih _ (by omega) failed rfl)
      · cases impossible
    case h_10 lower =>
      rcases bind_eq_error_iff.1 failed with failed | ⟨_, _, impossible⟩
      · obtain ⟨before, name, inner, after, rfl, done, failed⟩ :=
          (entriesOf_eq_error_iff family).1 failed
        have smaller : sizeOf (name, inner) < sizeOf (before ++ (name, inner) :: after) :=
          List.sizeOf_lt_of_mem (by simp)
        simp only [Prod.mk.sizeOf_spec] at smaller
        simp only [map.sizeOf_spec] at size
        exact .entry ⟨tag, shown, lower⟩ done (ih _ (by omega) failed rfl)
      · cases impossible
    all_goals cases failed
    all_goals cases family

theorem ofTagged_eq_error_of_overruns {v : Value} {cause : Fault} (overruns : Overruns v cause) :
    v.ofTagged = .error cause ∧ cause.family = .arithmetic := by
  induction overruns with
  | number tag overruns =>
    obtain ⟨shown, displayed, lower⟩ := tag
    obtain ⟨failed, family⟩ := storedNumber_eq_error_iff.2 overruns
    rw [ofTagged, tagText_eq_ok_iff.2 displayed, ok_bind, lower]
    exact ⟨failed, family⟩
  | member tag items done overruns =>
    obtain ⟨shown, displayed, lower⟩ := tag
    obtain ⟨failed, family⟩ := storedNumber_eq_error_iff.2 overruns
    rw [ofTagged, tagText_eq_ok_iff.2 displayed, ok_bind, lower]
    exact ⟨(storedSet_eq_error_iff family).2 ⟨_, _, _, items, done, failed⟩, family⟩
  | item tag items done _ ih =>
    obtain ⟨shown, displayed, lower⟩ := tag
    obtain ⟨failed, family⟩ := ih
    rw [ofTagged, tagText_eq_ok_iff.2 displayed, ok_bind, lower]
    exact ⟨bind_eq_error_iff.2 (.inl ((itemsOf_eq_error_iff family).2 ⟨_, _, _, items, done, failed⟩)),
      family⟩
  | entry tag done _ ih =>
    obtain ⟨shown, displayed, lower⟩ := tag
    obtain ⟨failed, family⟩ := ih
    rw [ofTagged, tagText_eq_ok_iff.2 displayed, ok_bind, lower]
    exact ⟨bind_eq_error_iff.2 (.inl ((entriesOf_eq_error_iff family).2
      ⟨_, _, _, _, rfl, done, failed⟩)), family⟩

/-- Reading an attribute value ends in an arithmetic fault just where it gets to a number that cannot
be kept. -/
theorem ofTagged_eq_error_iff {v : Value} {cause : Fault} :
    v.ofTagged = .error cause ∧ cause.family = .arithmetic ↔ Overruns v cause :=
  ⟨fun failed => overruns_of_ofTagged_eq_error failed.1 failed.2, ofTagged_eq_error_of_overruns⟩

end TableScan.Value
