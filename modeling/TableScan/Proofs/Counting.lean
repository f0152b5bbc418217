import TableScan.Proofs.Encoding
import TableScan.Proofs.ExactNumbers
import TableScan.Proofs.Merging

/-! How many members and entries are encoded. Main statement: sets and mappings keep their sizes, at
every depth, exactly when no two members of a set stand for the same content and no two keys of a
mapping have one text; that is so for every sound value of a storable type. -/

namespace TableScan

open Attempt Coercion Value AttributeValue

namespace Value

inductive Content where
  | number (d : Decimal)
  | text (s : String)
  | bytes (bs : List UInt8)

def Content.same : Content → Content → Bool
  | .number d, .number d' => d.sameNumber d'
  | .text s, .text s' => s == s'
  | .bytes bs, .bytes bs' => bs == bs'
  | _, _ => false

/-- The content that a member of a set stands for: binary numbers for the number that their text
denotes, moments, dates and identifiers for their text, and members of enumerations for what their
value does. -/
def content? : Value → Option Content
  | .bool b => some (.number (.ofInt (if b then 1 else 0)))
  | .int n => some (.number (.ofInt n))
  | .float x => some (.number x.toDecimal)
  | .decimal d => some (.number d)
  | .text s => some (.text s)
  | .datetime t => some (.text t.toText)
  | .date d => some (.text d.toText)
  | .uuid u => some (.text u.toText)
  | .bytes bs => some (.bytes bs)
  | .member _ _ _ v => content? v
  | _ => none

def Alike (v v' : Value) : Prop :=
  ∃ c c', v.content? = some c ∧ v'.content? = some c' ∧ c.same c' = true

def isSingle : Value → Bool
  | .list _ | .tuple _ | .set _ | .frozenset _ | .map _ | .member .. => false
  | _ => true

/-- At every depth, no two members of a set are alike, and no two keys of a mapping have one text. -/
inductive Separate : Value → Prop where
  | single {v : Value} (single : v.isSingle = true) : Separate v
  | member {enumeration name : String} {base : EnumBase} {v : Value} (inner : Separate v) :
    Separate (.member enumeration base name v)
  | list {items : List Value} (each : ∀ x ∈ items, Separate x) : Separate (.list items)
  | tuple {items : List Value} (each : ∀ x ∈ items, Separate x) : Separate (.tuple items)
  | set {items : List Value} (apart : items.Pairwise fun x y => ¬Alike x y) : Separate (.set items)
  | frozenset {items : List Value} (apart : items.Pairwise fun x y => ¬Alike x y) :
    Separate (.frozenset items)
  | map {entries : List (Value × Value)}
    (apart : entries.Pairwise fun entry other => entry.1.display? ≠ other.1.display?)
    (each : ∀ entry ∈ entries, Separate entry.2) : Separate (.map entries)

end Value

namespace AttributeValue

def memberCount? : AttributeValue → Option Nat
  | .numberSet members | .textSet members => some members.length
  | .bytesSet members => some members.length
  | _ => none

/-- At every depth, the attribute value has as many members as the set that it stands for, and as many
entries as the mapping. -/
inductive Counts : Value → AttributeValue → Prop where
  | single {v : Value} {w : AttributeValue} (single : v.isSingle = true) : Counts v w
  | member {enumeration name : String} {base : EnumBase} {v : Value} {w : AttributeValue}
    (inner : Counts v w) : Counts (.member enumeration base name v) w
  | list {items : List Value} {parts : List AttributeValue} (each : List.Forall₂ Counts items parts) :
    Counts (.list items) (.list parts)
  | tuple {items : List Value} {parts : List AttributeValue}
    (each : List.Forall₂ Counts items parts) : Counts (.tuple items) (.list parts)
  | set {items : List Value} {w : AttributeValue} (all : w.memberCount? = some items.length) :
    Counts (.set items) w
  | frozenset {items : List Value} {w : AttributeValue} (all : w.memberCount? = some items.length) :
    Counts (.frozenset items) w
  | map {entries : List (Value × Value)} {parts : List (String × AttributeValue)}
    (all : parts.length = entries.length)
    (each : List.Forall₂ Counts (entries.map (·.2)) (parts.map (·.2))) :
    Counts (.map entries) (.map parts)

end AttributeValue

namespace Value

variable {v n m : Value} {items : List Value} {entries : List (Value × Value)}
  {enumeration name : String} {base : EnumBase}

theorem separate_member_iff : Separate (.member enumeration base name v) ↔ Separate v := by
  refine ⟨fun separate => ?_, .member⟩
  cases separate with
  | single single => cases single
  | member inner => exact inner

theorem separate_list_iff : Separate (.list items) ↔ ∀ x ∈ items, Separate x := by
  refine ⟨fun separate => ?_, .list⟩
  cases separate with
  | single single => cases single
  | list each => exact each

theorem separate_tuple_iff : Separate (.tuple items) ↔ ∀ x ∈ items, Separate x := by
  refine ⟨fun separate => ?_, .tuple⟩
  cases separate with
  | single single => cases single
  | tuple each => exact each

theorem separate_set_iff :
    Separate (.set items) ↔ items.Pairwise fun x y => ¬Alike x y := by
  refine ⟨fun separate => ?_, .set⟩
  cases separate with
  | single single => cases single
  | set apart => exact apart

theorem separate_frozenset_iff :
    Separate (.frozenset items) ↔ items.Pairwise fun x y => ¬Alike x y := by
  refine ⟨fun separate => ?_, .frozenset⟩
  cases separate with
  | single single => cases single
  | frozenset apart => exact apart

theorem separate_map_iff :
    Separate (.map entries) ↔
      entries.Pairwise (fun entry other => entry.1.display? ≠ other.1.display?) ∧
        ∀ entry ∈ entries, Separate entry.2 := by
  refine ⟨fun separate => ?_, fun both => .map both.1 both.2⟩
  cases separate with
  | single single => cases single
  | map apart each => exact ⟨apart, each⟩

inductive Flat : Value → Prop where
  | null : Flat .null
  | bool (b : Bool) : Flat (.bool b)
  | int (n : Int) : Flat (.int n)
  | decimal (d : Decimal) : Flat (.decimal d)
  | text (s : String) : Flat (.text s)
  | bytes (bs : List UInt8) : Flat (.bytes bs)
  | time (t : DayTime) : Flat (.time t)

theorem flat_of_native (v : Value) {n : Value} (plain : v.native = .ok n)
    (hashes : n.hashFault? = none) : Flat n ∧ v.content? = n.content? := by
  cases v with
  | member _ _ _ v => exact flat_of_native v plain hashes
  | list items | tuple items | set items | frozenset items | map entries =>
    obtain ⟨_, -, same⟩ := bind_eq_ok_iff.1 plain
    cases same
    cases hashes
  | _ =>
    cases plain
    exact ⟨by constructor, rfl⟩
termination_by structural v

/-- Native forms are the same just if they have the same content. -/
theorem Flat.same_iff_alike (flat : Flat n) (flat' : Flat m) (some : n.content?.isSome = true) :
    same n m = true ↔ Alike n m := by
  cases flat <;> cases flat' <;>
    simp [Alike, content?, Content.same, same, sameScalar, number?, text?] at some ⊢

end Value

namespace AttributeValue

variable {v : Value} {w : AttributeValue} {items natives : List Value}
  {entries : List (Value × Value)}

theorem SetOf.memberCount? (set : SetOf natives w) : w.memberCount? = some natives.length := by
  rcases set with ⟨each⟩ | ⟨-, each⟩ | ⟨-, each⟩
  all_goals exact congrArg some each.length_eq.symm

theorem SetOf.isSome_content? (set : SetOf natives w) : ∀ n ∈ natives, n.content?.isSome = true := by
  intro n found
  rcases set with ⟨each⟩ | ⟨-, each⟩ | ⟨-, each⟩
  · obtain ⟨s, -, d, number, -⟩ := exists_mem_of_forall₂ each.flip n found
    cases n <;> cases number <;> rfl
  all_goals
    obtain ⟨_, -, rfl⟩ := exists_mem_of_forall₂ each.flip n found
    rfl

theorem isSome_content?_of_mem (set : SetOf (distinct natives) w) (flat : ∀ n ∈ natives, Flat n) :
    ∀ n ∈ natives, n.content?.isSome = true := by
  intro n found
  obtain ⟨m, kept, rfl | equal⟩ := exists_mem_distinct found
  · exact set.isSome_content? m kept
  · obtain ⟨_, c, -, content, -⟩ :=
      ((flat m ((distinct_distinct natives).2 kept)).same_iff_alike (flat n found)
        (set.isSome_content? m kept)).1 equal
    rw [content]
    rfl

/-- A set keeps its size just if no two of its members are alike. -/
theorem memberCount?_eq_iff (written : unsorted (.set items) = .ok w) :
    w.memberCount? = some items.length ↔ items.Pairwise fun x y => ¬Alike x y := by
  obtain ⟨natives, each, set⟩ := exists_natives written
  have flat : ∀ n ∈ natives, Flat n := by
    intro n found
    obtain ⟨x, -, plain, hashes⟩ := exists_mem_of_forall₂ each n found
    exact (flat_of_native x plain hashes).1
  have size : w.memberCount? = some items.length ↔ Distinct natives := by
    rw [set.memberCount?, each.length_eq, Option.some.injEq]
    exact ⟨distinct_of_length_eq, fun different => by rw [distinct_eq_self different]⟩
  have formed : List.Forall₂ (fun x n => (Flat n ∧ n.content?.isSome = true) ∧
      x.content? = n.content?) items natives := by
    refine (forall₂_imp_of_mem (fun n found x both => ?_) each.flip).flip
    exact ⟨⟨flat n found, isSome_content?_of_mem set flat n found⟩,
      (flat_of_native x both.1 both.2).2⟩
  have alike {x y n m : Value} (one : (Flat n ∧ n.content?.isSome = true) ∧
      x.content? = n.content?) (other : (Flat m ∧ m.content?.isSome = true) ∧
      y.content? = m.content?) : same n m = false ↔ ¬Alike x y := by
    rw [← Bool.not_eq_true, one.1.1.same_iff_alike other.1.1 one.1.2, Alike, Alike, one.2, other.2]
  rw [size]
  constructor
  · exact pairwise_of_forall₂ formed fun _ _ _ _ one other => (alike one other).1
  · exact pairwise_of_forall₂ formed.flip fun _ _ _ _ one other => (alike one other).2

theorem memberCount?_sorted (w : AttributeValue) : w.sorted.memberCount? = w.memberCount? := by
  cases w with
  | numberSet members | textSet members => exact congrArg some (List.mergeSort_perm _ _).length_eq
  | _ => rfl

theorem counts_member_iff {enumeration name : String} {base : EnumBase} :
    Counts (.member enumeration base name v) w ↔ Counts v w := by
  refine ⟨fun counts => ?_, .member⟩
  cases counts with
  | single single => cases single
  | member inner => exact inner

theorem counts_list_iff :
    Counts (.list items) w ↔ ∃ parts, w = .list parts ∧ List.Forall₂ Counts items parts := by
  constructor
  · intro counts
    cases counts with
    | single single => cases single
    | list each => exact ⟨_, rfl, each⟩
  · rintro ⟨parts, rfl, each⟩
    exact .list each

theorem counts_tuple_iff :
    Counts (.tuple items) w ↔ ∃ parts, w = .list parts ∧ List.Forall₂ Counts items parts := by
  constructor
  · intro counts
    cases counts with
    | single single => cases single
    | tuple each => exact ⟨_, rfl, each⟩
  · rintro ⟨parts, rfl, each⟩
    exact .tuple each

theorem counts_set_iff : Counts (.set items) w ↔ w.memberCount? = some items.length := by
  refine ⟨fun counts => ?_, .set⟩
  cases counts with
  | single single => cases single
  | set all => exact all

theorem counts_frozenset_iff :
    Counts (.frozenset items) w ↔ w.memberCount? = some items.length := by
  refine ⟨fun counts => ?_, .frozenset⟩
  cases counts with
  | single single => cases single
  | frozenset all => exact all

theorem counts_map_iff :
    Counts (.map entries) w ↔ ∃ parts, w = .map parts ∧ parts.length = entries.length ∧
      List.Forall₂ Counts (entries.map (·.2)) (parts.map (·.2)) := by
  constructor
  · intro counts
    cases counts with
    | single single => cases single
    | map all each => exact ⟨_, rfl, all, each⟩
  · rintro ⟨parts, rfl, all, each⟩
    exact .map all each

theorem Counts.of_memberCount? (v : Value) {w w' : AttributeValue}
    (size : w.memberCount? = w'.memberCount?) (other : w.memberCount? = none → w' = w)
    (counts : Counts v w) : Counts v w' := by
  cases v with
  | member _ _ _ v =>
    exact .member (Counts.of_memberCount? v size other (counts_member_iff.1 counts))
  | set items =>
    rw [counts_set_iff] at counts ⊢
    exact size ▸ counts
  | frozenset items =>
    rw [counts_frozenset_iff] at counts ⊢
    exact size ▸ counts
  | list items =>
    obtain ⟨parts, rfl, each⟩ := counts_list_iff.1 counts
    rwa [other rfl]
  | tuple items =>
    obtain ⟨parts, rfl, each⟩ := counts_tuple_iff.1 counts
    rwa [other rfl]
  | map entries =>
    obtain ⟨parts, rfl, all, each⟩ := counts_map_iff.1 counts
    rwa [other rfl]
  | _ => exact .single rfl
termination_by structural v

theorem counts_sorted_iff : Counts v w.sorted ↔ Counts v w := by
  have kept : w.memberCount? = none → w.sorted = w := by
    intro none
    cases w <;> first | rfl | cases none
  refine ⟨.of_memberCount? v (memberCount?_sorted w) fun none => ?_,
    .of_memberCount? v (memberCount?_sorted w).symm kept⟩
  rw [memberCount?_sorted] at none
  exact (kept none).symm

theorem forall₂_counts_iff {parts : List AttributeValue}
    (each : List.Forall₂ (fun x part => unsorted x = .ok part) items parts)
    (inner : ∀ x ∈ items, ∀ w, unsorted x = .ok w → (Counts x w ↔ x.Separate)) :
    List.Forall₂ Counts items parts ↔ ∀ x ∈ items, x.Separate := by
  induction each with
  | nil => simp
  | cons written _ ih =>
    rw [List.forall_mem_cons] at inner ⊢
    rw [List.forall₂_cons, inner.1 _ written, ih inner.2]

theorem parts_counts_iff (written : unsorted (.list items) = .ok w)
    (inner : ∀ x ∈ items, ∀ w, unsorted x = .ok w → (Counts x w ↔ x.Separate)) :
    (∃ parts, w = .list parts ∧ List.Forall₂ Counts items parts) ↔ ∀ x ∈ items, x.Separate := by
  obtain ⟨parts, each, rfl⟩ := unsorted_list_iff.1 written
  rw [← forall₂_counts_iff each inner]
  constructor
  · rintro ⟨_, same, counts⟩
    cases same
    exact counts
  · exact fun counts => ⟨parts, rfl, counts⟩

/-- A mapping keeps its entries just if no two of its keys have one text. -/
theorem entries_counts_iff (written : unsorted (.map entries) = .ok w)
    (inner : ∀ entry ∈ entries, ∀ w, unsorted entry.2 = .ok w → (Counts entry.2 w ↔ entry.2.Separate)) :
    (∃ parts, w = .map parts ∧ parts.length = entries.length ∧
      List.Forall₂ Counts (entries.map (·.2)) (parts.map (·.2))) ↔
      entries.Pairwise (fun entry other => entry.1.display? ≠ other.1.display?) ∧
        ∀ entry ∈ entries, entry.2.Separate := by
  obtain ⟨parts, rfl, lengths, whole⟩ := exists_parts written
  have values (all : parts.length = entries.length) :
      List.Forall₂ Counts (entries.map (·.2)) (parts.map (·.2)) ↔
        ∀ entry ∈ entries, entry.2.Separate := by
    rw [← List.forall_mem_map (f := fun entry : Value × Value => entry.2)]
    refine forall₂_counts_iff ?_ (List.forall_mem_map.2 inner)
    rw [List.forall₂_map_left_iff, List.forall₂_map_right_iff]
    exact (whole all).imp fun _ _ both => both.2
  constructor
  · rintro ⟨_, same, all, counts⟩
    cases same
    exact ⟨lengths.1 all, (values all).1 counts⟩
  · rintro ⟨apart, separate⟩
    exact ⟨parts, rfl, lengths.2 apart, (values (lengths.2 apart)).2 separate⟩

mutual

/-- Sets and mappings keep their sizes just if nothing in them is alike. -/
theorem counts_iff_of_unsorted (v : Value) {w : AttributeValue} (written : unsorted v = .ok w) :
    Counts v w ↔ v.Separate := by
  cases v with
  | member _ _ _ v =>
    rw [counts_member_iff, separate_member_iff]
    exact counts_iff_of_unsorted v written
  | list items =>
    rw [counts_list_iff, separate_list_iff]
    exact parts_counts_iff written (counts_iff_of_mem items)
  | tuple items =>
    have listed : unsorted (.list items) = .ok w := written
    rw [counts_tuple_iff, separate_tuple_iff]
    exact parts_counts_iff listed (counts_iff_of_mem items)
  | set items =>
    rw [counts_set_iff, separate_set_iff]
    exact memberCount?_eq_iff written
  | frozenset items =>
    have whole : unsorted (.set items) = .ok w := written
    rw [counts_frozenset_iff, separate_frozenset_iff]
    exact memberCount?_eq_iff whole
  | map entries =>
    rw [counts_map_iff, separate_map_iff]
    exact entries_counts_iff written (counts_iff_of_mem_entries entries)
  | _ => exact iff_of_true (.single rfl) (.single rfl)
termination_by structural v

theorem counts_iff_of_mem (items : List Value) :
    ∀ x ∈ items, ∀ w, unsorted x = .ok w → (Counts x w ↔ x.Separate) := by
  cases items with
  | nil => simp
  | cons v items =>
    exact List.forall_mem_cons.2 ⟨fun w => counts_iff_of_unsorted v, counts_iff_of_mem items⟩
termination_by structural items

theorem counts_iff_of_mem_entries (entries : List (Value × Value)) :
    ∀ entry ∈ entries, ∀ w, unsorted entry.2 = .ok w → (Counts entry.2 w ↔ entry.2.Separate) := by
  cases entries with
  | nil => simp
  | cons entry entries =>
    obtain ⟨k, v⟩ := entry
    exact List.forall_mem_cons.2
      ⟨fun w => counts_iff_of_unsorted v, counts_iff_of_mem_entries entries⟩
termination_by structural entries

end

end AttributeValue

namespace Keeps

variable {t : FieldType} {x y w : Value}

theorem same_of_alike (member : t.OfSets) (one : Keeps t x) (other : Keeps t y)
    (alike : Alike x y) : same x y = true := by
  obtain ⟨c, c', content, content', equal⟩ := alike
  rw [← same_plain member one other]
  cases member <;> cases one <;> cases other <;> cases content <;> cases content'
  case int | decimal | bytes => exact equal
  all_goals
    simp only [plain, same_text]
    exact equal

theorem pairwise_not_alike {items : List Value} (member : t.OfSets) (each : ∀ x ∈ items, Keeps t x)
    (different : Distinct items) : items.Pairwise fun x y => ¬Alike x y := by
  refine different.imp_of_mem fun {x y} one other apart alike => ?_
  rw [same_of_alike member (each x one) (each y other) alike] at apart
  cases apart

theorem separate (kept : Keeps t w) : w.Separate := by
  induction kept with
  | textMember | intMember => exact .member (.single rfl)
  | list _ _ ih => exact .list ih
  | sequence _ ih => exact .tuple ih
  | set member each different => exact .set (pairwise_not_alike member each different)
  | frozenset member each different => exact .frozenset (pairwise_not_alike member each different)
  | @tuple ts items length _ ih =>
    refine .tuple fun x found => ?_
    rw [← List.map_snd_zip (Nat.le_of_eq length.symm)] at found
    obtain ⟨p, paired, rfl⟩ := List.mem_map.1 found
    exact ih p paired
  | map names _ different ih =>
    refine .map ((List.pairwise_map.1 different).imp_of_mem fun {p q} one other apart same => ?_) ih
    rw [(same_names_iff (names p one) (names q other)).2
      ((display?_names_iff (names p one) (names q other)).1 same)] at apart
    cases apart
  | present _ _ _ ih => exact ih
  | _ => exact .single rfl

end Keeps

namespace Attribute

variable {a : Attribute} {element : Bool} {v : Value} {w : AttributeValue}

/-- Whatever is encoded, its sets and mappings keep their sizes at every depth exactly when no two
members of a set stand for the same content and no two keys of a mapping have one text. So it is with
every sound value of a type whose values the store keeps. -/
theorem encode_counts_iff (written : a.encode element v = .ok w) :
    ∃ x, validate (a.operandType element) v = .ok x ∧ (Counts x w ↔ x.Separate) ∧
      (Storable (a.operandType element) → Sound (a.operandType element) x → x.Separate) := by
  obtain ⟨x, raw, fits, plain, rfl⟩ := exists_of_encode written
  refine ⟨x, fits, ?_, fun storable sound => ?_⟩
  · rw [counts_sorted_iff]
    exact counts_iff_of_unsorted x plain
  · exact (storable.keeps_of_gives (validate_eq_ok_iff.1 fits) sound).separate

def extras : Attribute := ⟨"extras", "extras", .bare .map⟩

def crossed : Value := .map [(.int 1, .text "a"), (.text "1", .text "b")]

theorem not_separate_crossed : ¬crossed.Separate := by
  intro separate
  exact absurd (separate_map_iff.1 separate).1 (by decide)

theorem encode_counts_iff_crossed :
    extras.encode false crossed = .ok (.map [("1", .text "b")]) ∧
      ∃ x, validate (extras.operandType false) crossed = .ok x ∧
        ¬Counts x (.map [("1", .text "b")]) := by
  have written : extras.encode false crossed = .ok (.map [("1", .text "b")]) := rfl
  obtain ⟨x, fits, counts, -⟩ := encode_counts_iff written
  refine ⟨written, x, fits, ?_⟩
  cases fits
  exact fun counted => not_separate_crossed (counts.1 counted)

/-- Not every mapping keeps its entries. -/
theorem not_forall_counts :
    ¬∀ (a : Attribute) (element : Bool) (v x : Value) (w : AttributeValue),
      a.encode element v = .ok w → validate (a.operandType element) v = .ok x → Counts x w := by
  intro counts
  cases counts extras false crossed crossed (.map [("1", .text "b")]) rfl rfl with
  | single single => cases single
  | map all each => exact absurd all (by decide)

end Attribute

end TableScan
