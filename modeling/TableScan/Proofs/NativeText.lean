import TableScan.Proofs.Elements
import TableScan.Proofs.NonFinite

/-! Texts of single values. Main statements: a single value is written as the text of its native form,
what an instance of a type is fitted to has the text of what the instance stands for, and a set of different single
values is written as the texts of its members, if each of them can be. -/

namespace TableScan

open Attempt Coercion Outcome Value AttributeValue

namespace Value

def nativeText? (v : Value) : Option String :=
  match v.native with
  | .ok (.text s) => some s
  | .ok (.int n) => some (toString n)
  | .ok (.decimal d) => some d.toText
  | _ => none

theorem same_ints_iff {m n : Int} : same (.int m) (.int n) = true ↔ m = n := by
  rw [show same (.int m) (.int n) = (Decimal.ofInt m).sameNumber (.ofInt n) from rfl]
  simp only [Decimal.ofInt, Decimal.sameNumber, if_true]
  split_ifs <;> simp only [beq_iff_eq, Bool.and_eq_true, decide_eq_decide] <;> omega

end Value

namespace FieldType

/-- What an instance of a type stands for. Moments are instances of the type of dates and stand for
theirs, and truth values are instances of that of whole numbers; any other stands for itself. -/
def standIn : FieldType → Value → Value
  | .date, .datetime t => .date t.date
  | .int, .bool b => .int (if b then 1 else 0)
  | _, v => v

def isNumeric : FieldType → Bool
  | .int | .float | .decimal => true
  | .enumeration e => e.base == .int
  | _ => false

def part (t : FieldType) (s : String) : AttributeValue :=
  if t.isNumeric = true then .number s else .text s

/-- What the texts of instances are written as, together; the empty set is one of numbers. -/
def gathered (t : FieldType) (texts : List String) : AttributeValue :=
  if t.isNumeric = true ∨ texts = [] then .numberSet texts else .textSet texts

structure Textual (t : FieldType) : Prop where
  single : t.Single
  other : t ≠ .bytes

end FieldType

/-- The instances of a type that has single values: those of its subtypes are among them. -/
inductive Instance : FieldType → Value → Prop where
  | text (s : String) : Instance .text (.text s)
  | textual (enumeration name s : String) : Instance .text (.member enumeration .text name (.text s))
  | int (n : Int) : Instance .int (.int n)
  | bool (b : Bool) : Instance .int (.bool b)
  | integral (enumeration name : String) (n : Int) :
    Instance .int (.member enumeration .int name (.int n))
  | float (x : Binary64) : Instance .float (.float x)
  | decimal (d : Decimal) : Instance .decimal (.decimal d)
  | uuid (u : Uuid) : Instance .uuid (.uuid u)
  | date (d : Date) : Instance .date (.date d)
  | moment (t : DateTime) : Instance .date (.datetime t)
  | datetime (t : DateTime) : Instance .datetime (.datetime t)
  | member {e : Enumeration} {entry : String × Value} (owns : e.Owns entry) :
    Instance (.enumeration e) (e.memberOf entry)

def Comparable (n : Value) : Prop :=
  ∀ d s, storedNumber? n = some d → numberText d = .ok s → d.isNan = false

namespace Decimal

variable {d d' : Decimal}

theorem isNan_eq_false_of_isFinite (finite : d.isFinite = true) : d.isNan = false := by
  cases d with
  | finite _ _ _ => rfl
  | infinity _ | nan _ _ _ => cases finite

theorem sameNumber_self_of_isNan (number : d.isNan = false) : d.sameNumber d = true := by
  cases d with
  | finite _ _ _ => exact sameNumber_self rfl
  | infinity negative => exact beq_self_eq_true negative
  | nan _ _ _ => cases number

theorem exists_infinity (number : d.isNan = false) (special : d.isFinite = false) :
    ∃ negative, d = .infinity negative := by
  cases d with
  | finite _ _ _ => cases special
  | infinity negative => exact ⟨negative, rfl⟩
  | nan _ _ _ => cases number

/-- Numbers with one text are one number, with one coefficient and one exponent. -/
theorem eq_of_toText_eq (number : d.isNan = false) (number' : d'.isNan = false)
    (same : d.toText = d'.toText) : d = d' := by
  cases special : d.isFinite with
  | true =>
    cases special' : d'.isFinite with
    | true =>
      have read := congrArg read? (String.ofList_inj.1 same)
      simpa [read?_toChars special, read?_toChars special'] using read
    | false => exact absurd (same ▸ denotes_toText special) (not_denotes_toText special')
  | false =>
    cases special' : d'.isFinite with
    | true => exact absurd (same ▸ denotes_toText special') (not_denotes_toText special)
    | false =>
      obtain ⟨negative, rfl⟩ := exists_infinity number special
      obtain ⟨negative', rfl⟩ := exists_infinity number' special'
      cases negative <;> cases negative' <;> first | rfl | exact absurd same (by decide)

end Decimal

open Decimal

theorem Binary64.toDecimal_of_isNan {x : Binary64} (nan : x.toDecimal.isNan = true) :
    x.toDecimal = .nan false false 0 := by
  cases x with
  | finite negative e f =>
    have finite : (Binary64.finite negative e f).toDecimal.isFinite = true := isFinite_toDecimal _
    rw [isNan_eq_false_of_isFinite finite] at nan
    cases nan
  | infinity negative => cases negative <;> cases nan
  | nan => rfl

variable {t : FieldType} {x y n n' : Value} {s : String} {b : AttributeValue}
  {ys : List Value}

namespace Lone

theorem same_comm (lone : Lone t x) (other : Lone t y) : same x y = same y x := by
  cases lone with
  | kept member kept =>
    cases other with
    | kept _ kept' => exact kept.same_comm member kept'
    | _ => cases member
  | float x =>
    cases other with
    | kept member => cases member
    | float y => exact sameNumber_comm x.exactDecimal y.exactDecimal
  | datetime d =>
    cases other with
    | kept member => cases member
    | datetime d' => exact congrArg₂ and BEq.comm BEq.comm
  | @textMember e base name s =>
    cases other with
    | kept member => cases member
    | intMember base' => exact absurd base' base
    | textMember _ name' s' =>
      obtain ⟨enumeration, kind, members⟩ := e
      cases kind with
      | plain => exact congrArg₂ and BEq.comm BEq.comm
      | text => exact BEq.comm (a := some s) (b := some s')
      | int => exact absurd rfl base
  | @intMember e base name n =>
    cases other with
    | kept member => cases member
    | textMember base' => exact absurd base base'
    | intMember _ name' n' =>
      rw [Enumeration.memberOf, Enumeration.memberOf, base]
      exact sameNumber_comm (.ofInt n) (.ofInt n')

theorem exists_native (lone : Lone t x) : ∃ n, x.native = .ok n ∧ n.hashFault? = none := by
  cases lone with
  | kept member kept => exact ⟨_, kept.native_eq_plain member, kept.hashFault?_plain member⟩
  | float x =>
    refine ⟨_, rfl, ?_⟩
    cases number : x.toDecimal with
    | finite | infinity => rfl
    | nan negative signaling payload =>
      cases number.symm.trans (Binary64.toDecimal_of_isNan (congrArg isNan number))
      rfl
  | datetime | textMember | intMember => exact ⟨_, rfl, rfl⟩

theorem comparable (lone : Lone t x) (native : x.native = .ok n) : Comparable n := by
  intro d s number written
  cases lone with
  | kept member kept =>
    rw [kept.native_eq_plain member] at native
    cases native
    cases member <;> cases kept <;> cases number
    · rfl
    · next finite => exact isNan_eq_false_of_isFinite finite
  | float x =>
    cases native
    cases number
    refine Bool.eq_false_iff.2 fun nan => ?_
    rw [Binary64.toDecimal_of_isNan nan] at written
    cases written
  | intMember =>
    cases native
    cases number
    rfl
  | datetime | textMember =>
    cases native
    cases number

theorem exists_part (lone : Lone t x) (other : t ≠ .bytes) (written : unsorted x = .ok b) :
    ∃ s, x.nativeText? = some s ∧ b = t.part s := by
  have numbers {d : Decimal} (written : (numberText d).map .number = .ok b) :
      b = .number d.toText := by
    obtain ⟨s, printed, rfl⟩ := map_eq_ok_iff.1 written
    rw [(cases_of_numberText printed).1]
  cases lone with
  | kept member kept =>
    cases member <;> cases kept
    case int.int n => exact ⟨_, rfl, by rw [numbers written, toText_ofInt]; rfl⟩
    case decimal.decimal d _ => exact ⟨_, rfl, numbers written⟩
    case bytes.bytes => exact absurd rfl other
    all_goals
      cases written
      exact ⟨_, rfl, rfl⟩
  | float x => exact ⟨_, rfl, numbers written⟩
  | datetime d =>
    cases written
    exact ⟨_, rfl, rfl⟩
  | textMember base name s =>
    cases written
    exact ⟨s, rfl, by simp [FieldType.part, FieldType.isNumeric, base]⟩
  | intMember base name n =>
    refine ⟨toString n, rfl, ?_⟩
    rw [numbers written, toText_ofInt]
    simp [FieldType.part, FieldType.isNumeric, base]

end Lone

namespace Instance

/-- A text, a whole number or a date is the same only as itself among the values of its type. -/
theorem eq_of_same (kept : Keeps t x) (only : t = .text ∨ t = .int ∨ t = .date) (lone : Lone t y)
    (equal : same y x = true) : y = x := by
  have kept' : Keeps t y := by
    cases lone with
    | kept _ kept => exact kept
    | _ => simp at only
  rcases only with rfl | rfl | rfl <;> cases kept <;> cases kept'
  · rw [same_text, beq_iff_eq] at equal
    exact congrArg Value.text equal
  · exact congrArg Value.int (same_ints_iff.1 equal)
  · exact congrArg Value.date (beq_iff_eq.1 equal)

theorem eq_date_of_gives {m : DateTime} (fits : (coerce .date (.datetime m)).Gives y) :
    y = .date m.date := by
  have stood : coerce .date (.datetime m) =
      if m.time.clock = .midnight then acceptDate .lax m.date.civil
      else reject .dateFromDatetimeInexact := rfl
  rw [stood] at fits
  split_ifs at fits
  · exact fits.unique (gives_acceptDate .lax m.date)
  · exact absurd fits not_gives_reject

/-- What an instance is fitted to is a single value of its text; and it is the instance itself, or
equal only to itself. -/
theorem of_gives (given : Instance t x) (single : t.Single) (fits : (coerce t x).Gives y) :
    Lone t y ∧ y.nativeText? = (t.standIn x).nativeText? ∧
      (y = x ∨ ∀ z, Lone t z → same z y = true → z = y) := by
  cases given with
  | text s | textual _ _ s =>
    cases gives_accept.1 fits
    exact ⟨.kept .text (.text s), rfl, .inr fun z => eq_of_same (.text s) (by simp)⟩
  | int n | integral _ _ n =>
    cases gives_accept.1 fits
    exact ⟨.kept .int (.int n), rfl, .inr fun z => eq_of_same (.int n) (by simp)⟩
  | bool b =>
    cases gives_accept.1 fits
    refine ⟨.kept .int (.int _), ?_, .inr fun z => eq_of_same (.int _) (by simp)⟩
    cases b <;> rfl
  | moment m =>
    cases eq_date_of_gives fits
    exact ⟨.kept .date (.date _), rfl, .inr fun z => eq_of_same (.date _) (by simp)⟩
  | float x =>
    cases gives_accept.1 fits
    exact ⟨.float x, rfl, .inl rfl⟩
  | decimal d =>
    obtain ⟨rfl, finite⟩ := eq_of_gives_toDecimal_decimal fits
    exact ⟨.kept .decimal (.decimal finite), rfl, .inl rfl⟩
  | uuid u =>
    cases gives_accept.1 fits
    exact ⟨.kept .uuid (.uuid u), rfl, .inl rfl⟩
  | date d =>
    cases (gives_toDate d).unique fits
    exact ⟨.kept .date (.date d), rfl, .inl rfl⟩
  | datetime m =>
    cases (gives_toDatetime m).unique fits
    exact ⟨.datetime m, rfl, .inl rfl⟩
  | @member e entry owns =>
    obtain ⟨name, payload⟩ := entry
    cases (gives_toMember e (name, payload)).unique fits
    refine ⟨?_, rfl, .inl rfl⟩
    cases single with
    | member member => cases member
    | texts base values =>
      obtain ⟨s, rfl⟩ := values _ (List.mem_of_find?_eq_some owns)
      exact .textMember base name s
    | numbers base values =>
      obtain ⟨n, rfl⟩ := values _ (List.mem_of_find?_eq_some owns)
      exact .intMember base name n

end Instance

namespace FieldType

theorem part_inj {s s' : String} : t.part s = t.part s' ↔ s = s' := by
  unfold part
  split_ifs <;> simp

end FieldType

namespace AttributeValue

variable {natives : List Value} {texts : List String}

theorem exists_of_ofNative_number (written : ofNative n = .ok (.number s)) :
    ∃ d, storedNumber? n = some d ∧ numberText d = .ok s := by
  cases n with
  | int m | decimal d =>
    obtain ⟨_, printed, ⟨⟩⟩ := map_eq_ok_iff.1 written
    exact ⟨_, rfl, printed⟩
  | set items => nomatch ofSet_eq_ok_iff.1 written
  | list items | tuple items | map entries =>
    obtain ⟨_, -, ⟨⟩⟩ := bind_eq_ok_iff.1 written
  | _ => cases written

theorem eq_text_of_ofNative (written : ofNative n = .ok (.text s)) : n = .text s := by
  cases n with
  | int m | decimal d => obtain ⟨_, -, ⟨⟩⟩ := map_eq_ok_iff.1 written
  | set items => nomatch ofSet_eq_ok_iff.1 written
  | list items | tuple items | map entries =>
    obtain ⟨_, -, ⟨⟩⟩ := bind_eq_ok_iff.1 written
  | _ => cases written <;> rfl

theorem same_eq_sameNumber {d d' : Decimal} (stored : storedNumber? n = some d)
    (stored' : storedNumber? n' = some d') : same n n' = d.sameNumber d' := by
  cases n <;> cases stored <;> cases n' <;> cases stored' <;> rfl

theorem same_of_ofNative (one : ofNative n = .ok (t.part s)) (other : ofNative n' = .ok (t.part s))
    (number : Comparable n) (number' : Comparable n') : same n n' = true := by
  unfold FieldType.part at one other
  split_ifs at one other
  · obtain ⟨d, stored, printed⟩ := exists_of_ofNative_number one
    obtain ⟨d', stored', printed'⟩ := exists_of_ofNative_number other
    have plain := number d s stored printed
    have texts : d.toText = d'.toText :=
      (cases_of_numberText printed).1.symm.trans (cases_of_numberText printed').1
    obtain rfl := eq_of_toText_eq plain (number' d' s stored' printed') texts
    exact (same_eq_sameNumber stored stored').trans (sameNumber_self_of_isNan plain)
  · rw [eq_text_of_ofNative one, eq_text_of_ofNative other, same_text]
    exact beq_self_eq_true s

theorem setOf_gathered (each : List.Forall₂ (fun n s => ofNative n = .ok (t.part s)) natives texts) :
    SetOf natives (t.gathered texts) := by
  by_cases numeric : t.isNumeric = true
  · simp only [FieldType.part, if_pos numeric] at each
    rw [FieldType.gathered, if_pos (.inl numeric)]
    exact .numbers (each.imp fun _ _ => exists_of_ofNative_number)
  · simp only [FieldType.part, if_neg numeric] at each
    have same := each.imp fun _ _ => eq_text_of_ofNative
    cases each with
    | nil =>
      rw [FieldType.gathered, if_pos (.inr rfl)]
      exact .numbers .nil
    | cons =>
      rw [FieldType.gathered, if_neg (by simp [numeric])]
      exact .texts (List.cons_ne_nil _ _) same

theorem nodup_of_distinct
    (each : List.Forall₂ (fun n s => ofNative n = .ok (t.part s)) natives texts)
    (different : Distinct natives) (numbers : ∀ n ∈ natives, Comparable n) : texts.Nodup := by
  have marked : List.Forall₂ (fun n s => ofNative n = .ok (t.part s) ∧ Comparable n) natives texts :=
    forall₂_imp_of_mem (fun n found s written => ⟨written, numbers n found⟩) each
  refine pairwise_of_forall₂ marked.flip (fun s s' n n' one other apart same => ?_) different
  subst same
  rw [same_of_ofNative one.1 other.1 one.2 other.2] at apart
  cases apart

theorem unsorted_eq_ofNative (plain : x.native = .ok n) : unsorted x = ofNative n := by
  rw [unsorted, plain, ok_bind]

/-- A set of different single values is written as the texts of its members, each of which is written
alone. -/
theorem exists_texts {w : AttributeValue} (lone : ∀ y ∈ ys, Lone t y) (other : t ≠ .bytes)
    (different : Distinct ys) (written : unsorted (.set ys) = .ok w) :
    ∃ texts, w = t.gathered texts ∧ texts.Nodup ∧
      (∀ s, s ∈ texts ↔ ∃ y ∈ ys, y.nativeText? = some s) ∧ ∀ y ∈ ys, ∃ b, unsorted y = .ok b := by
  obtain ⟨natives, parts, each, set, -, alone⟩ := exists_parts lone written
  have kept := mem_distinct_natives lone different each
  -- Each native form is that of a member, and is written as the member's text.
  have spelled (y : Value) (member : y ∈ ys) (n : Value) (plain : y.native = .ok n)
      (b : AttributeValue) (written : ofNative n = .ok b) :
      ∃ s, y.nativeText? = some s ∧ b = t.part s :=
    (lone y member).exists_part other ((unsorted_eq_ofNative plain).trans written)
  have single : ∀ n ∈ distinct natives, ∃ y ∈ ys, y.native = .ok n := by
    intro n found
    obtain ⟨y, member, plain, -⟩ :=
      exists_mem_of_forall₂ each n ((distinct_distinct natives).2 found)
    exact ⟨y, member, plain⟩
  have texted : ∀ n ∈ distinct natives, ∃ s, ofNative n = .ok (t.part s) := by
    intro n found
    obtain ⟨y, member, plain⟩ := single n found
    obtain ⟨b, -, written⟩ := exists_mem_of_forall₂ alone.flip n found
    obtain ⟨s, -, rfl⟩ := spelled y member n plain b written
    exact ⟨s, written⟩
  obtain ⟨texts, shown⟩ := exists_forall₂_iff.2 texted
  refine ⟨texts, ?_, ?_, fun s => ⟨fun found => ?_, ?_⟩, fun y member => ?_⟩
  · have one := ofSet_eq_ok_iff.2 set
    rw [ofSet_eq_ok_iff.2 (setOf_gathered shown), Except.ok.injEq] at one
    exact one.symm
  · refine nodup_of_distinct shown (distinct_distinct natives).1 fun n found => ?_
    obtain ⟨y, member, plain⟩ := single n found
    exact (lone y member).comparable plain
  · obtain ⟨n, kept, written⟩ := exists_mem_of_forall₂ shown s found
    obtain ⟨y, member, plain⟩ := single n kept
    obtain ⟨s', text, same⟩ := spelled y member n plain _ written
    exact ⟨y, member, FieldType.part_inj.1 same ▸ text⟩
  · rintro ⟨y, member, text⟩
    obtain ⟨n, native, plain, -⟩ := exists_mem_of_forall₂ each.flip y member
    obtain ⟨s', found, written⟩ := exists_mem_of_forall₂ shown.flip n (kept n native)
    obtain ⟨s'', text', same⟩ := spelled y member n plain _ written
    have one : s = s'' := Option.some.inj (text.symm.trans text')
    rwa [one, ← FieldType.part_inj.1 same]
  · obtain ⟨n, native, plain, -⟩ := exists_mem_of_forall₂ each.flip y member
    obtain ⟨s, written⟩ := texted n (kept n native)
    exact ⟨_, (unsorted_eq_ofNative plain).trans written⟩

theorem exists_unsorted_set (lone : ∀ y ∈ ys, Lone t y) (other : t ≠ .bytes)
    (each : ∀ y ∈ ys, ∃ b, unsorted y = .ok b) : ∃ w, unsorted (.set ys) = .ok w := by
  have formed : ∀ y ∈ ys, ∃ n, (y.native = .ok n ∧ n.hashFault? = none) ∧
      ∃ s, ofNative n = .ok (t.part s) := by
    intro y member
    obtain ⟨n, plain, hashes⟩ := (lone y member).exists_native
    obtain ⟨b, written⟩ := each y member
    obtain ⟨s, -, rfl⟩ := (lone y member).exists_part other written
    exact ⟨n, ⟨plain, hashes⟩, s, (unsorted_eq_ofNative plain).symm.trans written⟩
  obtain ⟨natives, both⟩ := exists_forall₂_iff.2 formed
  have members : nativeMembers ys = .ok natives :=
    nativeMembers_eq_ok_iff.2 (both.imp fun _ _ => And.left)
  have texted : ∀ n ∈ distinct natives, ∃ s, ofNative n = .ok (t.part s) := by
    intro n found
    obtain ⟨-, -, -, texted⟩ := exists_mem_of_forall₂ both n ((distinct_distinct natives).2 found)
    exact texted
  obtain ⟨texts, shown⟩ := exists_forall₂_iff.2 texted
  refine ⟨t.gathered texts, ?_⟩
  rw [unsorted, native, members]
  exact ofSet_eq_ok_iff.2 (setOf_gathered shown)

end AttributeValue

end TableScan
