import TableScan.Proofs.RoundTrip
import TableScan.Proofs.RowRoundTrip
import TableScan.Proofs.Unwrapping

/-! Attribute values of an attribute of any type. Main statement: one whose numbers are printed as
the store's format prints them, and whose sets are not empty and repeat nothing, is read with
nothing left wrapped, and is written again as it was but for the order inside sets. -/

namespace TableScan

open Attempt Value

namespace Value

/-- The values are the same but for the order inside sets. -/
inductive Rearranges : Value → Value → Prop where
  | refl (v : Value) : Rearranges v v
  | set {items others : List Value} (perm : items.Perm others) :
    Rearranges (.set items) (.set others)
  | list {items others : List Value} (each : List.Forall₂ Rearranges items others) :
    Rearranges (.list items) (.list others)
  | map {entries others : List (Value × Value)} (keys : entries.map (·.1) = others.map (·.1))
    (each : List.Forall₂ Rearranges (entries.map (·.2)) (others.map (·.2))) :
    Rearranges (.map entries) (.map others)

end Value

namespace AttributeValue

/-- The attribute values are the same but for the order inside sets. -/
inductive Rearranges : AttributeValue → AttributeValue → Prop where
  | refl (w : AttributeValue) : Rearranges w w
  | numberSet {members others : List String} (perm : members.Perm others) :
    Rearranges (.numberSet members) (.numberSet others)
  | textSet {members others : List String} (perm : members.Perm others) :
    Rearranges (.textSet members) (.textSet others)
  | bytesSet {members others : List (List UInt8)} (perm : members.Perm others) :
    Rearranges (.bytesSet members) (.bytesSet others)
  | list {items others : List AttributeValue} (each : List.Forall₂ Rearranges items others) :
    Rearranges (.list items) (.list others)
  | map {entries others : List (String × AttributeValue)}
    (keys : entries.map (·.1) = others.map (·.1))
    (each : List.Forall₂ Rearranges (entries.map (·.2)) (others.map (·.2))) :
    Rearranges (.map entries) (.map others)

def IsPrinted (s : String) : Prop :=
  ∃ d, (readNumberText s).inFormat = .ok d ∧ d.isFinite = true ∧ d.toText = s

inductive Canonical : AttributeValue → Prop where
  | null : Canonical .null
  | bool (b : Bool) : Canonical (.bool b)
  | number {s : String} (printed : IsPrinted s) : Canonical (.number s)
  | text (s : String) : Canonical (.text s)
  | bytes (bs : List UInt8) : Canonical (.bytes bs)
  | numberSet {members : List String} (some : members ≠ []) (printed : ∀ s ∈ members, IsPrinted s)
    (different : members.Pairwise fun s s' =>
      (readNumberText s).sameNumber (readNumberText s') = false) : Canonical (.numberSet members)
  | textSet {members : List String} (some : members ≠ []) (different : members.Nodup) :
    Canonical (.textSet members)
  | bytesSet {members : List (List UInt8)} (some : members ≠ []) (different : members.Nodup) :
    Canonical (.bytesSet members)
  | list {items : List AttributeValue} (each : ∀ w ∈ items, Canonical w) : Canonical (.list items)
  | map {entries : List (String × AttributeValue)} (each : ∀ entry ∈ entries, Canonical entry.2)
    (different : (entries.map (·.1)).Nodup) : Canonical (.map entries)

mutual

/-- The value that a canonical attribute value stands for. -/
def meaning : AttributeValue → Value
  | .null => .null
  | .bool b => .bool b
  | .number s => .decimal (readNumberText s)
  | .text s => .text s
  | .bytes bs => .bytes bs
  | .numberSet members => .set (members.map fun s => .decimal (readNumberText s))
  | .textSet members => .set (members.map .text)
  | .bytesSet members => .set (members.map .bytes)
  | .list items => .list (meanings items)
  | .map entries => .map (meaningEntries entries)
termination_by structural w => w

def meanings : List AttributeValue → List Value
  | [] => []
  | w :: items => meaning w :: meanings items
termination_by structural items => items

def meaningEntries : List (String × AttributeValue) → List (Value × Value)
  | [] => []
  | (name, w) :: entries => (.text name, meaning w) :: meaningEntries entries
termination_by structural entries => entries

end

theorem meanings_eq_map (items : List AttributeValue) : meanings items = items.map meaning := by
  induction items with
  | nil => rfl
  | cons w items ih => rw [meanings, ih, List.map_cons]

theorem meaningEntries_eq_map (entries : List (String × AttributeValue)) :
    meaningEntries entries = entries.map fun entry => (.text entry.1, entry.2.meaning) := by
  induction entries with
  | nil => rfl
  | cons entry entries ih => rw [meaningEntries, ih, List.map_cons]

variable {w : AttributeValue}

theorem IsPrinted.kept {s : String} (printed : IsPrinted s) :
    (readNumberText s).isFinite = true ∧ numberText (readNumberText s) = .ok s := by
  obtain ⟨d, kept, finite, shown⟩ := printed
  cases read : readNumberText s with
  | finite negative c e =>
    rw [read] at kept
    refine ⟨rfl, ?_⟩
    rw [numberText, kept]
    rw [Decimal.inFormat] at kept
    split at kept <;> cases kept
    exact congrArg Except.ok shown
  | infinity negative =>
    rw [read] at kept
    cases kept
    cases finite
  | nan negative signaling payload =>
    rw [read] at kept
    cases kept
    simp only [Decimal.trimPayload] at finite
    split_ifs at finite <;> cases finite

theorem Canonical.readBack_meaning (canonical : Canonical w) : w.meaning.readBack = w.meaning := by
  induction canonical with
  | null | bool | number | text | bytes => rfl
  | numberSet | textSet | bytesSet =>
    simp [meaning, readBack, readBackAll_eq_map, Function.comp_def]
  | list _ ih =>
    rw [meaning, readBack, readBackAll_eq_map, meanings_eq_map, List.map_map]
    exact congrArg _ (List.map_congr_left ih)
  | map _ _ ih =>
    rw [meaning, readBack, readBackEntries_eq_map, meaningEntries_eq_map, List.map_map]
    exact congrArg _ (List.map_congr_left fun entry found => congrArg _ (ih entry found))

/-- The members of a canonical set are kept, different, and written as they are. -/
theorem Canonical.exists_writtenSet (canonical : Canonical w) {items : List Value}
    (set : w.meaning = .set items) :
    ∃ t : FieldType, t.OfSets ∧ (∀ x ∈ items, Keeps t x) ∧ Distinct items ∧ WrittenSet items w := by
  cases canonical with
  | @numberSet members some printed different =>
    cases set
    refine ⟨.decimal, .decimal,
      List.forall_mem_map.2 fun s found => .decimal (printed s found).kept.1,
      List.pairwise_map.2 different, .numbers ?_⟩
    rw [List.forall₂_map_left_iff, List.forall₂_same]
    exact fun s found => congrArg (Except.map AttributeValue.number) (printed s found).kept.2
  | @textSet members some different =>
    cases set
    refine ⟨.text, .text, List.forall_mem_map.2 fun s _ => .text s, ?_, .texts (by simpa) ?_⟩
    · exact List.pairwise_map.2 (different.imp fun apart => by rw [same_text]; simpa)
    · rw [List.forall₂_map_left_iff, List.forall₂_same]
      exact fun _ _ => rfl
  | @bytesSet members some different =>
    cases set
    refine ⟨.bytes, .bytes, List.forall_mem_map.2 fun bs _ => .bytes bs, ?_, .bytes (by simpa) ?_⟩
    · exact List.pairwise_map.2 (different.imp fun apart => by simpa [same, sameScalar])
    · rw [List.forall₂_map_left_iff, List.forall₂_same]
      exact fun _ _ => rfl
  | _ => cases set

theorem Canonical.set_meaning (canonical : Canonical w) {items : List Value}
    (set : w.meaning = .set items) :
    unsorted w.meaning = .ok w ∧ w.toValue.ofTagged = .ok w.meaning := by
  obtain ⟨t, member, each, different, written⟩ := canonical.exists_writtenSet set
  have whole := (unsorted_set_iff member each different).2 written
  have read := (Keeps.set member each different).ofTagged_toValue whole
  rw [← set] at whole read
  exact ⟨whole, by rw [read, canonical.readBack_meaning]⟩

theorem meaningEntries_names (entries : List (String × AttributeValue))
    (different : (entries.map (·.1)).Nodup) :
    (∀ entry ∈ meaningEntries entries, ∃ s, entry.1 = .text s) ∧
      Distinct ((meaningEntries entries).map (·.1)) := by
  rw [meaningEntries_eq_map]
  refine ⟨List.forall_mem_map.2 fun entry _ => ⟨entry.1, rfl⟩, ?_⟩
  rw [Distinct, List.map_map, List.pairwise_map]
  exact (List.pairwise_map.1 different).imp fun apart => by
    rw [Function.comp_apply, Function.comp_apply, same_text]
    simpa

/-- What a canonical attribute value stands for is written as that attribute value. -/
theorem Canonical.unsorted_meaning (canonical : Canonical w) : unsorted w.meaning = .ok w := by
  induction canonical with
  | null | bool | text | bytes => rfl
  | number printed => exact congrArg (Except.map _) printed.kept.2
  | numberSet some printed different =>
    exact (set_meaning (.numberSet some printed different) rfl).1
  | textSet some different => exact (set_meaning (.textSet some different) rfl).1
  | bytesSet some different => exact (set_meaning (.bytesSet some different) rfl).1
  | @list items _ ih =>
    rw [meaning, meanings_eq_map]
    exact unsorted_list_iff.2 ⟨items, List.forall₂_map_left_iff.2 (List.forall₂_same.2 ih), rfl⟩
  | @map entries _ different ih =>
    obtain ⟨names, apart⟩ := meaningEntries_names entries different
    rw [meaning, unsorted_map_iff names apart]
    refine ⟨entries, ?_, rfl⟩
    rw [meaningEntries_eq_map, List.forall₂_map_left_iff, List.forall₂_same]
    exact fun entry found => ⟨rfl, ih entry found⟩

theorem Canonical.ofTagged_toValue (canonical : Canonical w) :
    w.toValue.ofTagged = .ok w.meaning := by
  induction canonical with
  | null | bool | text | bytes => rfl
  | number printed =>
    obtain ⟨finite, written⟩ := printed.kept
    exact (Decimal.storedNumber_of_numberText finite written).2
  | numberSet some printed different =>
    exact (set_meaning (.numberSet some printed different) rfl).2
  | textSet some different => exact (set_meaning (.textSet some different) rfl).2
  | bytesSet some different => exact (set_meaning (.bytesSet some different) rfl).2
  | @list items each ih =>
    have back : List.Forall₂ (fun x b => b.toValue.ofTagged = .ok x.readBack)
        (items.map meaning) items := by
      rw [List.forall₂_map_left_iff, List.forall₂_same]
      exact fun w found => by rw [ih w found, (each w found).readBack_meaning]
    have whole := Canonical.readBack_meaning (.list each)
    rw [meaning, readBack, readBackAll_eq_map, meanings_eq_map] at whole
    rw [ofTagged_list back, whole, meaning, meanings_eq_map]
  | @map entries each different ih =>
    have back : List.Forall₂ (fun entry part => entry.1 = .text part.1 ∧
        part.2.toValue.ofTagged = .ok entry.2.readBack) (meaningEntries entries) entries := by
      rw [meaningEntries_eq_map, List.forall₂_map_left_iff, List.forall₂_same]
      exact fun entry found => ⟨rfl, by rw [ih entry found, (each entry found).readBack_meaning]⟩
    have whole := Canonical.readBack_meaning (.map each different)
    rw [meaning, readBack, readBackEntries_eq_map] at whole
    rw [ofTagged_map back, whole, meaning]

theorem exists_perm_of_map {α β : Type} {f : α → β} {members : List α} {others : List β}
    (some : members ≠ []) (perm : (members.map f).Perm others) :
    ∃ turned, turned ≠ [] ∧ members.Perm turned ∧ turned.map f = others := by
  have named : List.Forall₂ (fun x s => x = f s) (members.map f) members := by
    rw [List.forall₂_map_left_iff, List.forall₂_same]
    exact fun _ _ => rfl
  obtain ⟨turned, each, back⟩ := List.perm_comp_forall₂ perm.symm named
  refine ⟨turned, fun none => some (by simpa [none] using back.symm), back.symm, ?_⟩
  rw [← List.forall₂_eq_eq_eq, List.forall₂_map_left_iff]
  exact each.flip.imp fun _ _ same => same.symm

theorem exists_of_forall₂ {items : List AttributeValue} {others : List Value}
    (step : ∀ w ∈ items, ∀ v, w.meaning.Rearranges v →
      ∃ w', w.Rearranges w' ∧ Canonical w' ∧ w'.meaning = v)
    (each : List.Forall₂ Value.Rearranges (items.map meaning) others) :
    ∃ turned, List.Forall₂ Rearranges items turned ∧ (∀ w ∈ turned, Canonical w) ∧
      turned.map meaning = others := by
  induction items generalizing others with
  | nil =>
    cases each
    exact ⟨[], .nil, by simp, rfl⟩
  | cons w items ih =>
    obtain _ | ⟨one, rest⟩ := each
    obtain ⟨w', same, canonical, rfl⟩ := step w (by simp) _ one
    obtain ⟨turned, sames, canonicals, rfl⟩ := ih (fun x found => step x (by simp [found])) rest
    exact ⟨w' :: turned, .cons same sames, List.forall_mem_cons.2 ⟨canonical, canonicals⟩, rfl⟩

theorem exists_of_entries {entries : List (String × AttributeValue)} {others : List (Value × Value)}
    (step : ∀ entry ∈ entries, ∀ v, entry.2.meaning.Rearranges v →
      ∃ w', entry.2.Rearranges w' ∧ Canonical w' ∧ w'.meaning = v)
    (keys : (meaningEntries entries).map (·.1) = others.map (·.1))
    (each : List.Forall₂ Value.Rearranges ((meaningEntries entries).map (·.2)) (others.map (·.2))) :
    ∃ turned : List (String × AttributeValue), entries.map (·.1) = turned.map (·.1) ∧
      List.Forall₂ Rearranges (entries.map (·.2)) (turned.map (·.2)) ∧
      (∀ entry ∈ turned, Canonical entry.2) ∧ meaningEntries turned = others := by
  have values : (meaningEntries entries).map (·.2) = (entries.map (·.2)).map meaning := by
    rw [meaningEntries_eq_map, List.map_map, List.map_map]
    rfl
  have names : (meaningEntries entries).map (·.1) = (entries.map (·.1)).map .text := by
    rw [meaningEntries_eq_map, List.map_map, List.map_map]
    rfl
  rw [values] at each
  obtain ⟨items, same, canonical, meant⟩ := exists_of_forall₂ (List.forall_mem_map.2 step) each
  have length : (entries.map (·.1)).length = items.length := by
    rw [← same.length_eq, List.length_map, List.length_map]
  have firsts := List.map_fst_zip (Nat.le_of_eq length)
  have seconds := List.map_snd_zip (Nat.le_of_eq length.symm)
  refine ⟨(entries.map (·.1)).zip items, firsts.symm, by rwa [seconds], fun entry found =>
    canonical _ (List.of_mem_zip found).2, ?_⟩
  have whole := List.zip_of_prod (keys.symm.trans names) meant.symm
  rw [List.zip_map] at whole
  rw [meaningEntries_eq_map, whole]
  rfl

/-- To rearrange what a canonical attribute value stands for is to rearrange it. -/
theorem Canonical.exists_of_rearranges (canonical : Canonical w) {v : Value}
    (turned : w.meaning.Rearranges v) :
    ∃ w', w.Rearranges w' ∧ Canonical w' ∧ w'.meaning = v := by
  induction canonical generalizing v with
  | null | bool | number | text | bytes =>
    cases turned
    exact ⟨_, .refl _, by constructor <;> assumption, rfl⟩
  | @numberSet members some printed different =>
    cases turned with
    | refl => exact ⟨_, .refl _, .numberSet some printed different, rfl⟩
    | set shuffled =>
      obtain ⟨others, some, perm, rfl⟩ := exists_perm_of_map some shuffled
      refine ⟨_, .numberSet perm, .numberSet some ?_ ?_, rfl⟩
      · exact fun s found => printed s (perm.symm.subset found)
      · exact (perm.pairwise_iff fun apart => by rwa [Decimal.sameNumber_comm]).1 different
  | @textSet members some different =>
    cases turned with
    | refl => exact ⟨_, .refl _, .textSet some different, rfl⟩
    | set shuffled =>
      obtain ⟨others, some, perm, rfl⟩ := exists_perm_of_map some shuffled
      exact ⟨_, .textSet perm, .textSet some (perm.nodup_iff.1 different), rfl⟩
  | @bytesSet members some different =>
    cases turned with
    | refl => exact ⟨_, .refl _, .bytesSet some different, rfl⟩
    | set shuffled =>
      obtain ⟨others, some, perm, rfl⟩ := exists_perm_of_map some shuffled
      exact ⟨_, .bytesSet perm, .bytesSet some (perm.nodup_iff.1 different), rfl⟩
  | @list items each ih =>
    rw [meaning, meanings_eq_map] at turned
    cases turned with
    | refl => exact ⟨_, .refl _, .list each, by rw [meaning, meanings_eq_map]⟩
    | list turned =>
      obtain ⟨others, same, canonical, rfl⟩ :=
        exists_of_forall₂ (fun w found v => ih w found) turned
      exact ⟨_, .list same, .list canonical, by rw [meaning, meanings_eq_map]⟩
  | @map entries each different ih =>
    rw [meaning] at turned
    cases turned with
    | refl => exact ⟨_, .refl _, .map each different, rfl⟩
    | map keys turned =>
      obtain ⟨others, names, same, canonical, rfl⟩ :=
        exists_of_entries (fun entry found v => ih entry found) keys turned
      exact ⟨_, .map names same, .map canonical (by rwa [← names]), rfl⟩

theorem Rearranges.to_sorted {w' : AttributeValue} (turned : w.Rearranges w') :
    w.Rearranges w'.sorted := by
  cases turned with
  | refl =>
    cases w with
    | numberSet members => exact .numberSet (List.mergeSort_perm _ _).symm
    | textSet members => exact .textSet (List.mergeSort_perm _ _).symm
    | _ => exact .refl _
  | numberSet perm => exact .numberSet (perm.trans (List.mergeSort_perm _ _).symm)
  | textSet perm => exact .textSet (perm.trans (List.mergeSort_perm _ _).symm)
  | bytesSet perm => exact .bytesSet perm
  | list each => exact .list each
  | map keys each => exact .map keys each

end AttributeValue

namespace Attribute

variable {a : Attribute} {w : AttributeValue}

/-- A canonical attribute value is read for an attribute of any type as it was delivered, with
nothing left wrapped; and the value read, whatever the order inside its sets, is written as the
attribute value but for the order inside sets. -/
theorem wire_roundTrip (untyped : a.type = .any) (canonical : w.Canonical) :
    ∃ delivered v, w.toValue.delivered = .ok delivered ∧ delivered.unwrap.plain? = some v ∧
      a.decode w.toValue = .ok v ∧
      ∀ v', v.Rearranges v' → ∃ w', a.encode false v' = .ok w' ∧ w.Rearranges w' := by
  have read := canonical.ofTagged_toValue
  obtain ⟨delivered, given, plain⟩ := Delivered.exists_delivered read
  have fits (v : Value) : Coercion.validate a.type v = .ok v := by rw [untyped]; rfl
  refine ⟨delivered, w.meaning, given, plain, decode_eq_ok read (fits _), fun v' turned => ?_⟩
  obtain ⟨w', same, again, rfl⟩ := canonical.exists_of_rearranges turned
  refine ⟨w'.sorted, encode_eq_ok_iff.2 ⟨_, fits _, ?_⟩, same.to_sorted⟩
  rw [AttributeValue.ofValue_eq, again.unsorted_meaning]
  rfl

def detail : Attribute := ⟨"detail", "detail", .any⟩

def nested : AttributeValue :=
  .map [("sizes", .list [.numberSet ["2", "1E+3", "-0"], .bytes [1, 255], .null]),
    ("parts", .list [.textSet ["y", "x"], .bytesSet [[2], [1]], .bool false]),
    ("count", .number "0.50")]

theorem canonical_nested : nested.Canonical := by
  have printed : ∀ s ∈ ["2", "1E+3", "-0"], AttributeValue.IsPrinted s := by
    simp only [List.forall_mem_cons]
    exact ⟨⟨.finite false 2 0, rfl, rfl, rfl⟩, ⟨.finite false 1 3, rfl, rfl, rfl⟩,
      ⟨.finite true 0 0, rfl, rfl, rfl⟩, by simp⟩
  have sizes :
      AttributeValue.Canonical
        (.list [.numberSet ["2", "1E+3", "-0"], .bytes [1, 255], .null]) := by
    refine .list ?_
    simp only [List.forall_mem_cons]
    exact ⟨.numberSet (by decide) printed (by decide), .bytes _, .null, by simp⟩
  have parts :
      AttributeValue.Canonical
        (.list [.textSet ["y", "x"], .bytesSet [[2], [1]], .bool false]) := by
    refine .list ?_
    simp only [List.forall_mem_cons]
    exact
      ⟨.textSet (by decide) (by decide), .bytesSet (by decide) (by decide), .bool false, by simp⟩
  refine .map ?_ (by decide)
  simp only [List.forall_mem_cons]
  exact ⟨sizes, parts, .number ⟨.finite false 50 (-2), rfl, rfl, rfl⟩, by simp⟩

theorem wire_roundTrip_nested :
    detail.type = .any ∧ nested.Canonical ∧
      ∃ delivered v, nested.toValue.delivered = .ok delivered ∧ delivered.unwrap.plain? = some v ∧
        detail.decode nested.toValue = .ok v ∧
        ∀ v', v.Rearranges v' → ∃ w', detail.encode false v' = .ok w' ∧ nested.Rearranges w' :=
  ⟨rfl, canonical_nested, wire_roundTrip rfl canonical_nested⟩

end Attribute

end TableScan
