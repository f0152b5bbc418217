import TableScan.Proofs.Fitted
import TableScan.Proofs.Keeping
import TableScan.Proofs.Repeats

/-! The types whose values the store keeps, and what keeps a value of such a type from coming back: a
whole number that is none, and a member of an enumeration that its number does not lead to. -/

namespace TableScan

open Coercion Outcome Value

inductive Storable : FieldType → Prop where
  | scalar {t : FieldType} (member : t.OfSets) : Storable t
  | bool : Storable .bool
  | datetime : Storable .datetime
  | null : Storable .null
  | texts {e : Enumeration} (base : e.base ≠ .int)
    (values : ∀ entry ∈ e.members, ∃ s, entry.2 = .text s) : Storable (.enumeration e)
  | numbers {e : Enumeration} (base : e.base = .int)
    (values : ∀ entry ∈ e.members, ∃ n, entry.2 = .int n) : Storable (.enumeration e)
  | optional {ts : List FieldType} {t : FieldType} (absent : ts.any FieldType.isNull = true)
    (only : FieldType.presentAlternatives ts = [t]) (storable : Storable t) : Storable (.union ts)
  | list {t : FieldType} (storable : Storable t) : Storable (.collection .list t)
  | sequence {t : FieldType} (storable : Storable t) : Storable (.collection .tuple t)
  | set {t : FieldType} (member : t.OfSets) : Storable (.collection .set t)
  | frozenset {t : FieldType} (member : t.OfSets) : Storable (.collection .frozenset t)
  | tuple {ts : List FieldType} (each : ∀ t ∈ ts, Storable t) : Storable (.tuple ts)
  | map {t : FieldType} (storable : Storable t) : Storable (.map .text t)

/-- In a value of a type, the places of a type and what stands there. -/
inductive Place : FieldType → Value → FieldType → Value → Prop where
  | here (t : FieldType) (w : Value) : Place t w t w
  | item {kind : Collection} {t u : FieldType} {w x y : Value} {items : List Value}
    (source : sequenceItems? w = some items) (member : x ∈ items) (inner : Place t x u y) :
    Place (.collection kind t) w u y
  | part {ts : List FieldType} {t u : FieldType} {x y : Value} {items : List Value}
    (member : (t, x) ∈ ts.zip items) (inner : Place t x u y) : Place (.tuple ts) (.tuple items) u y
  | entry {k t u : FieldType} {key x y : Value} {entries : List (Value × Value)}
    (member : (key, x) ∈ entries) (inner : Place t x u y) : Place (.map k t) (.map entries) u y
  | present {ts : List FieldType} {t u : FieldType} {w y : Value} (member : t ∈ ts)
    (some : t.isNull = false) (present : w ≠ .null) (inner : Place t w u y) : Place (.union ts) w u y

/-- In a present value of an optional type stands what stands in it as a value of the type. -/
theorem Place.of_only {ts : List FieldType} {t u : FieldType} {w y : Value}
    (only : FieldType.presentAlternatives ts = [t]) (some : w ≠ .null) (inner : Place t w u y) :
    Place (.union ts) w u y := by
  have alternative : t ∈ FieldType.presentAlternatives ts := by simp [only]
  obtain ⟨found, present⟩ := List.mem_filter.1 alternative
  exact .present found (by simpa using present) some inner

/-- A value of a type as callers have it: a member of an enumeration is one of its own, and offsets
are of whole minutes. -/
structure WellFormed (t : FieldType) (w : Value) : Prop where
  owned : ∀ e y, Place t w (.enumeration e) y → ∃ entry, e.Owns entry ∧ y = e.memberOf entry
  minutes : ∀ d, Place t w .datetime (.datetime d) → d.IsWholeMinutes

def WholeNumbers (t : FieldType) (w : Value) : Prop := ∀ y, Place t w .int y → ∃ n, y = .int n

/-- Members of enumerations of whole numbers are found by their numbers: they hold words, or no
member does. -/
def FoundMembers (t : FieldType) (w : Value) : Prop :=
  ∀ e name n, e.base = .int → Place t w (.enumeration e) (e.memberOf (name, .int n)) →
    isWord n = true ∨ e.hasWord = false

structure Sound (t : FieldType) (w : Value) : Prop where
  formed : WellFormed t w
  whole : WholeNumbers t w
  found : FoundMembers t w

variable {t u : FieldType} {v w x : Value}

theorem FieldType.OfSets.keeps_of_gives (member : t.OfSets) (given : (coerce t v).Gives w)
    (whole : t = .int → ∃ n, w = .int n) : Keeps t w := by
  cases member with
  | text =>
    obtain ⟨s, rfl⟩ := exists_of_gives_toText given
    exact .text s
  | int =>
    obtain ⟨n, rfl⟩ := whole rfl
    exact .int n
  | bytes =>
    obtain ⟨bs, rfl⟩ := exists_of_gives_toBytes given
    exact .bytes bs
  | decimal =>
    obtain ⟨d, rfl, finite⟩ := exists_of_gives_toDecimal given
    exact .decimal finite
  | uuid =>
    obtain ⟨u, rfl⟩ := exists_of_gives_toUuid given
    exact .uuid u
  | date =>
    obtain ⟨d, rfl⟩ := exists_of_gives_toDate given
    exact .date d

namespace Sound

theorem of_place (sound : Sound t w) (inner : ∀ v y, Place u x v y → Place t w v y) : Sound u x where
  formed.owned e y place := sound.formed.owned e y (inner _ _ place)
  formed.minutes d place := sound.formed.minutes d (inner _ _ place)
  whole y place := sound.whole y (inner _ _ place)
  found e name n base place := sound.found e name n base (inner _ _ place)

theorem whole_here (sound : Sound t w) : t = .int → ∃ n, w = .int n := by
  intro same
  subst same
  exact sound.whole w (.here _ _)

theorem item {kind : Collection} {items : List Value} (sound : Sound (.collection kind t) w)
    (source : sequenceItems? w = some items) (member : x ∈ items) : Sound t x :=
  sound.of_place fun _ _ => .item source member

end Sound

namespace Storable

theorem isAny_eq_false (storable : Storable t) : t.isAny = false := by
  cases storable with
  | scalar member => cases member <;> rfl
  | _ => rfl

/-- A sound value fitted to a storable type is one that the store keeps. -/
theorem keeps_of_gives (storable : Storable t) (given : (coerce t v).Gives w) (sound : Sound t w) :
    Keeps t w := by
  induction storable generalizing v w with
  | scalar member => exact member.keeps_of_gives given sound.whole_here
  | bool =>
    obtain ⟨b, rfl⟩ := exists_of_gives_toBool given
    exact .bool b
  | datetime =>
    obtain ⟨d, rfl⟩ := exists_of_gives_toDatetime given
    exact .datetime (sound.formed.minutes d (.here _ _))
  | null =>
    rw [eq_null_of_gives_toNull given]
    exact .null
  | texts base values =>
    obtain ⟨⟨name, payload⟩, owns, rfl⟩ := sound.formed.owned _ w (.here _ _)
    obtain ⟨s, rfl⟩ := values _ (List.mem_of_find?_eq_some owns)
    exact .textMember base owns
  | numbers base values =>
    obtain ⟨⟨name, payload⟩, owns, rfl⟩ := sound.formed.owned _ w (.here _ _)
    obtain ⟨n, rfl⟩ := values _ (List.mem_of_find?_eq_some owns)
    exact .intMember base owns (sound.found _ name n base (.here _ _))
  | @optional ts t absent only _ ih =>
    by_cases null : w = .null
    · rw [null]
      exact .absent absent only
    · obtain ⟨_, rfl⟩ | ⟨_, fitted⟩ := (gives_coerce_union only absent).1 given
      · exact absurd rfl null
      · exact .present absent only (ih fitted (sound.of_place fun _ _ => .of_only only null))
  | list storable ih =>
    obtain ⟨items, rfl, fits⟩ := exists_of_gives_list storable.isAny_eq_false given
    refine .list storable.isAny_eq_false ?_
    intro x member
    obtain ⟨v, fitted⟩ := fits x member
    exact ih fitted (sound.item rfl member)
  | sequence storable ih =>
    obtain ⟨items, rfl, fits⟩ := exists_of_gives_sequence given
    refine .sequence ?_
    intro x member
    obtain ⟨v, fitted⟩ := fits x member
    exact ih fitted (sound.item rfl member)
  | set ofSets =>
    obtain ⟨items, rfl, fits, different⟩ := exists_of_gives_set given
    refine .set ofSets ?_ different
    intro x member
    obtain ⟨v, fitted⟩ := fits x member
    exact ofSets.keeps_of_gives fitted (sound.item rfl member).whole_here
  | frozenset ofSets =>
    obtain ⟨items, rfl, fits, different⟩ := exists_of_gives_frozenset given
    refine .frozenset ofSets ?_ different
    intro x member
    obtain ⟨v, fitted⟩ := fits x member
    exact ofSets.keeps_of_gives fitted (sound.item rfl member).whole_here
  | tuple _ ih =>
    obtain ⟨items, rfl, length, fits⟩ := exists_of_gives_tuple given
    refine .tuple length ?_
    intro p found
    obtain ⟨v, fitted⟩ := fits p found
    exact ih p.1 (List.of_mem_zip found).1 fitted (sound.of_place fun _ _ => .part found)
  | map _ ih =>
    obtain ⟨entries, rfl, names, fits, different⟩ := exists_of_gives_map given
    refine .map names ?_ different
    intro entry found
    obtain ⟨v, fitted⟩ := fits entry found
    exact ih fitted (sound.of_place fun _ _ => .entry found)

end Storable

namespace Keeps

theorem of_mem_sequenceItems {kind : Collection} {items : List Value}
    (kept : Keeps (.collection kind t) w) (source : sequenceItems? w = some items) (member : x ∈ items) :
    Keeps t x := by
  cases kept with
  | list _ each | sequence each | set _ each _ | frozenset _ each _ =>
    cases source
    exact each x member

theorem of_place {y : Value} (kept : Keeps t w) (place : Place t w u y) : Keeps u y := by
  induction place with
  | here => exact kept
  | item source member _ ih => exact ih (kept.of_mem_sequenceItems source member)
  | part member _ ih =>
    cases kept with
    | tuple _ each => exact ih (each _ member)
  | entry member _ ih =>
    cases kept with
    | map _ each _ => exact ih (each _ member)
  | present member some present _ ih =>
    cases kept with
    | absent => exact absurd rfl present
    | present _ only kept =>
      have found : _ ∈ FieldType.presentAlternatives _ :=
        List.mem_filter.2 ⟨member, by simpa using some⟩
      rw [only, List.mem_singleton] at found
      exact ih (found ▸ kept)

theorem sound (kept : Keeps t w) : Sound t w where
  formed.owned e y place := by
    cases kept.of_place place with
    | textMember _ owns => exact ⟨_, owns, rfl⟩
    | intMember _ owns _ => exact ⟨_, owns, rfl⟩
  formed.minutes d place := by
    cases kept.of_place place with
    | datetime whole => exact whole
  whole y place := by
    cases kept.of_place place with
    | int n => exact ⟨n, rfl⟩
  found e name n base place := by
    generalize same : e.memberOf (name, .int n) = y at place
    cases kept.of_place place with
    | textMember other _ => exact absurd base other
    | intMember _ _ words =>
      cases same
      exact words

end Keeps

namespace FieldType
variable {t : FieldType}

theorem same_null (t : FieldType) : same t .null = t.isNull := by
  cases t <;> rfl

theorem null_same (t : FieldType) : same .null t = t.isNull := by
  cases t <;> rfl

theorem eq_null_of_isNull (null : t.isNull = true) : t = .null := by
  cases t <;> first | rfl | cases null

/-- Of several alternatives of which one is present, only the absent value can be repeated. -/
theorem isNull_of_any_same {kept us : List FieldType} {u : FieldType}
    (only : presentAlternatives (kept ++ u :: us) = [t]) (known : kept.any (same · u) = true) :
    u.isNull = true ∧ kept.any isNull = true := by
  obtain ⟨k, found, same⟩ := List.any_eq_true.1 known
  cases null : u.isNull with
  | true =>
    rw [eq_null_of_isNull null, same_null] at same
    exact ⟨rfl, List.any_eq_true.2 ⟨k, found, same⟩⟩
  | false =>
    have length := congrArg List.length only
    simp only [presentAlternatives, List.filter_append, List.filter_cons, null, List.length_append,
      Bool.not_false, if_true, List.length_cons, List.length_nil] at length
    have absent : kept.filter (!·.isNull) = [] := List.length_eq_zero_iff.1 (by omega)
    have nulls : k.isNull = true := by simpa using List.filter_eq_nil_iff.1 absent k found
    rw [eq_null_of_isNull nulls, null_same, null] at same
    cases same

/-- To drop repeated alternatives drops neither a single present one nor the absent value. -/
theorem presentAlternatives_keep (kept us : List FieldType)
    (only : presentAlternatives (kept ++ us) = [t]) :
    presentAlternatives (Repeats.keep same kept us) = [t] ∧
      (Repeats.keep same kept us).any isNull = (kept ++ us).any isNull := by
  induction us generalizing kept with
  | nil => simpa [Repeats.keep] using only
  | cons u us ih =>
    rw [Repeats.keep_cons]
    cases known : kept.any (same · u) with
    | false =>
      have more : presentAlternatives (kept ++ [u] ++ us) = [t] := by simpa using only
      simpa using ih _ more
    | true =>
      obtain ⟨null, held⟩ := isNull_of_any_same only known
      have fewer : presentAlternatives (kept ++ us) = [t] := by
        simpa [presentAlternatives, null] using only
      obtain ⟨present, absent⟩ := ih kept fewer
      rw [if_pos rfl]
      exact ⟨present, absent.trans (by simp [held])⟩

def joined : List FieldType → FieldType
  | [t] => t
  | ts => .union ts

theorem joined_cases (ts : List FieldType) :
    (∃ t, ts = [t] ∧ joined ts = t) ∨ joined ts = .union ts := by
  rcases ts with _ | ⟨t, _ | ⟨u, ts⟩⟩
  · exact .inr rfl
  · exact .inl ⟨t, rfl, rfl⟩
  · exact .inr rfl

theorem ofAlternatives_eq_joined (ts : List FieldType) :
    ofAlternatives ts = joined (Repeats.keep same [] (ts.flatMap alternatives)) := rfl

/-- The absent value and one other alternative make a union, which is that of these two. -/
theorem exists_union_of_presentAlternatives {us : List FieldType}
    (only : presentAlternatives (us.flatMap alternatives) = [t])
    (absent : (us.flatMap alternatives).any isNull = true) :
    ∃ ts, ofAlternatives us = .union ts ∧ presentAlternatives ts = [t] ∧ ts.any isNull = true := by
  obtain ⟨present, held⟩ := presentAlternatives_keep [] (us.flatMap alternatives) only
  replace held := held.trans absent
  rw [ofAlternatives_eq_joined]
  rcases joined_cases (Repeats.keep same [] (us.flatMap alternatives)) with ⟨u, single, -⟩ | union
  · -- a single alternative is not at once present and absent
    rw [single] at present held
    simp only [List.any_cons, List.any_nil, Bool.or_false] at held
    simp [presentAlternatives, held] at present
  · exact ⟨_, union, present, held⟩

end FieldType

namespace Storable

open FieldType

theorem of_presentAlternatives {us : List FieldType} {t : FieldType}
    (only : presentAlternatives (us.flatMap alternatives) = [t])
    (absent : (us.flatMap alternatives).any isNull = true) (storable : Storable t) :
    Storable (ofAlternatives us) := by
  obtain ⟨ts, union, present, held⟩ := exists_union_of_presentAlternatives only absent
  rw [union]
  exact .optional held present storable

theorem optional_of {t : FieldType} (storable : Storable t) : Storable t.optional := by
  cases null : t.isNull with
  | true =>
    rw [eq_null_of_isNull null]
    exact .null
  | false =>
    cases t with
    | union ts =>
      cases storable with
      | optional absent only storable =>
        refine of_presentAlternatives ?_ ?_ storable
        · simpa [alternatives, presentAlternatives, isNull] using only
        · simp [alternatives, isNull]
      | scalar member => cases member
    | null => cases null
    | _ => exact of_presentAlternatives rfl rfl storable

end Storable

end TableScan
