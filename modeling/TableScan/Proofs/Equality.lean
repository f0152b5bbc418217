import Mathlib.Data.List.Forall2
import Mathlib.Data.List.Induction
import Mathlib.Data.List.Pairwise
import TableScan.Value.Equality
import TableScan.Proofs.Repeats

/-! Equality of values, part by part, and what it leaves of repeated items and keys. -/

namespace TableScan

theorem Decimal.sameNumber_self {d : Decimal} (finite : d.isFinite = true) : d.sameNumber d = true := by
  cases d with
  | finite negative c e => simp [sameNumber]
  | infinity _ | nan _ _ _ => cases finite

theorem Decimal.sameNumber_comm (d d' : Decimal) : d.sameNumber d' = d'.sameNumber d := by
  cases d with
  | finite s c e =>
    cases d' with
    | finite s' c' e' =>
      simp only [sameNumber]
      by_cases zero : c = 0 ∨ c' = 0
      · rw [if_pos zero, if_pos zero.symm, BEq.comm]
      · rw [if_neg zero, if_neg fun (other : c' = 0 ∨ c = 0) => zero other.symm]
        by_cases level : e = e'
        · rw [if_pos level, if_pos level.symm, BEq.comm (a := s), BEq.comm (a := c)]
        · rw [if_neg level, if_neg (Ne.symm level), BEq.comm (a := s),
            BEq.comm (a := adjusted c e)]
          by_cases lower : e < e'
          · rw [if_pos lower, if_neg (by omega), BEq.comm (a := c)]
          · rw [if_neg lower, if_pos (by omega), BEq.comm (a := c')]
    | _ => rfl
  | infinity s =>
    cases d' with
    | infinity s' => exact BEq.comm
    | _ => rfl
  | nan _ _ _ => cases d' <;> rfl

namespace Value

variable {items others xs ws : List Value} {v w : Value}

/-- No item equals a later one. -/
def Distinct (items : List Value) : Prop := items.Pairwise fun x y => same x y = false

theorem isIn_eq_false_iff : v.isIn items = false ↔ ∀ x ∈ items, same x v = false := by
  simp [isIn]

theorem distinct_eq_keep (items : List Value) : distinct items = Repeats.keep same [] items := rfl

theorem distinct_eq_self (different : Distinct items) : distinct items = items :=
  (distinct_eq_keep items).trans (Repeats.keep_eq_append different)

theorem distinct_distinct (items : List Value) : Distinct (distinct items) ∧ distinct items ⊆ items :=
  ⟨Repeats.pairwise_keep List.Pairwise.nil, Repeats.keep_sublist.subset⟩

theorem exists_mem_distinct (member : v ∈ items) :
    ∃ x ∈ distinct items, x = v ∨ same x v = true :=
  Repeats.exists_mem_keep member

/-- Of different items only an item itself equals it. -/
theorem Distinct.eq_of_same (different : Distinct items) (one : v ∈ items) (other : w ∈ items)
    (equal : same v w = true) (equal' : same w v = true) : v = w := by
  let separates (x y : Value) : Prop := same x y = true → same y x = true → x = y
  have turned : Std.Symm separates := ⟨fun _ _ step back forth => (step forth back).symm⟩
  have pairs : items.Pairwise separates := different.imp fun apart both => by simp [apart] at both
  exact pairs.forall_of_forall (fun _ _ _ _ => rfl) one other equal equal'

theorem Distinct.of_perm (different : Distinct items)
    (comm : ∀ x ∈ items, ∀ y ∈ items, same x y = same y x) (perm : others.Perm items) :
    Distinct others := by
  have pairs : items.Pairwise fun x y => x ∈ items → y ∈ items → same x y = false :=
    different.imp fun apart _ _ => apart
  have turned := (perm.pairwise_iff fun {x y} one other kept => by
    rw [comm y other x kept]
    exact one kept other).2 pairs
  exact turned.imp_of_mem fun one other apart => apart (perm.subset one) (perm.subset other)

theorem distinct_of_length_eq (all : (distinct items).length = items.length) : Distinct items := by
  have whole : distinct items = items := Repeats.keep_sublist.eq_of_length all
  rw [← whole]
  exact (distinct_distinct items).1

theorem text?_of_number? {d : Decimal} (number : v.number? = some d) : v.text? = none := by
  unfold number? at number
  split at number <;> first | rfl | cases number

theorem text?_eq_of_sameScalar (equal : sameScalar v w = true) : v.text? = w.text? := by
  unfold sameScalar at equal
  split at equal
  case h_8 =>
    split at equal
    · next number number' => rw [text?_of_number? number, text?_of_number? number']
    · rw [Bool.and_eq_true, beq_iff_eq] at equal
      exact equal.2
    · cases equal
  all_goals rfl

theorem text?_eq_of_same (equal : same v w = true) : v.text? = w.text? := by
  cases v with
  | list items | tuple items | set items | frozenset items | map entries =>
    cases w <;> first | rfl | cases equal
  | _ => exact text?_eq_of_sameScalar equal

theorem same_of_text? {s : String} (text : v.text? = some s) (text' : w.text? = some s) :
    same v w = true := by
  unfold text? at text text'
  split at text <;> split at text' <;> simp_all [same, sameScalar, number?, text?]

theorem sameItems_iff : sameItems xs ws = true ↔ List.Forall₂ (fun x w => same x w = true) xs ws := by
  induction xs generalizing ws with
  | nil => simp [sameItems]
  | cons x xs ih => cases ws <;> simp [sameItems, ih]

theorem allFound_iff : allFound xs ws = true ↔ ∀ x ∈ xs, ∃ w ∈ ws, same x w = true := by
  induction xs with
  | nil => simp [allFound]
  | cons x xs ih => simp [allFound, ih]

theorem allEntriesFound_iff {entries others : List (Value × Value)} :
    allEntriesFound entries others = true ↔ ∀ entry ∈ entries, ∃ other ∈ others,
      same entry.1 other.1 = true ∧ same entry.2 other.2 = true := by
  induction entries with
  | nil => simp [allEntriesFound]
  | cons entry entries ih =>
    obtain ⟨k, v⟩ := entry
    simp [allEntriesFound, ih]

/-- An entry with a new key comes last, and one with a known key leaves the keys as they are. -/
theorem map_fst_insertEntry (k v : Value) (entries : List (Value × Value)) :
    (insertEntry k v entries).map (·.1) =
      if k.isIn (entries.map (·.1)) then entries.map (·.1) else entries.map (·.1) ++ [k] := by
  induction entries with
  | nil => rfl
  | cons entry entries ih =>
    obtain ⟨k', v'⟩ := entry
    unfold insertEntry
    cases known : same k' k with
    | true => simp [known, isIn]
    | false =>
      have found : k.isIn (k' :: entries.map (·.1)) = k.isIn (entries.map (·.1)) := by
        simp [isIn, known]
      rw [if_neg (by decide), List.map_cons, ih, List.map_cons, found]
      cases k.isIn (entries.map (·.1)) <;> rfl

theorem insertEntry_of_new {k v : Value} {entries : List (Value × Value)}
    (new : k.isIn (entries.map (·.1)) = false) : insertEntry k v entries = entries ++ [(k, v)] := by
  induction entries with
  | nil => rfl
  | cons entry entries ih =>
    obtain ⟨k', v'⟩ := entry
    simp only [isIn, List.map_cons, List.any_cons, Bool.or_eq_false_iff] at new
    rw [insertEntry, if_neg (by simp [new.1]), ih new.2, List.cons_append]

theorem distinct_keys_insertEntry {k v : Value} {entries : List (Value × Value)}
    (different : Distinct (entries.map (·.1))) : Distinct ((insertEntry k v entries).map (·.1)) := by
  rw [map_fst_insertEntry]
  cases known : k.isIn (entries.map (·.1)) with
  | true => exact different
  | false =>
    apply List.pairwise_append.2
    refine ⟨different, List.pairwise_singleton _ _, fun x member y last => ?_⟩
    rw [List.mem_singleton.1 last]
    exact isIn_eq_false_iff.1 known x member

variable {P Q : Value → Prop} {entries : List (Value × Value)}

theorem forall_mem_insertEntry {k v : Value} (key : P k) (value : Q v)
    (each : ∀ entry ∈ entries, P entry.1 ∧ Q entry.2) :
    ∀ entry ∈ insertEntry k v entries, P entry.1 ∧ Q entry.2 := by
  induction entries with
  | nil => simpa [insertEntry] using ⟨key, value⟩
  | cons first entries ih =>
    obtain ⟨k', v'⟩ := first
    rw [List.forall_mem_cons] at each
    unfold insertEntry
    split
    · exact List.forall_mem_cons.2 ⟨⟨each.1.1, value⟩, each.2⟩
    · exact List.forall_mem_cons.2 ⟨each.1, ih each.2⟩

/-- Keys and values that are kept come from the entries. -/
theorem forall_mem_ofEntries (each : ∀ entry ∈ entries, P entry.1 ∧ Q entry.2) :
    ∀ entry ∈ ofEntries entries, P entry.1 ∧ Q entry.2 := by
  suffices run : ∀ kept : List (Value × Value), (∀ entry ∈ kept, P entry.1 ∧ Q entry.2) →
      ∀ entry ∈ entries.foldl (fun kept entry => insertEntry entry.1 entry.2 kept) kept,
        P entry.1 ∧ Q entry.2 from
    run [] (by simp)
  induction entries with
  | nil => exact fun kept before => before
  | cons entry entries ih =>
    rw [List.forall_mem_cons] at each
    exact fun kept before => ih each.2 _ (forall_mem_insertEntry each.1.1 each.1.2 before)

theorem map_fst_ofEntries (entries : List (Value × Value)) :
    (ofEntries entries).map (·.1) = distinct (entries.map (·.1)) := by
  suffices run : ∀ kept : List (Value × Value),
      (entries.foldl (fun kept entry => insertEntry entry.1 entry.2 kept) kept).map (·.1) =
        (entries.map (·.1)).foldl (fun kept k => if k.isIn kept then kept else kept ++ [k])
          (kept.map (·.1)) from
    run []
  induction entries with
  | nil => exact fun kept => rfl
  | cons entry entries ih =>
    intro kept
    rw [List.foldl_cons, List.map_cons, List.foldl_cons, ih, map_fst_insertEntry]

theorem distinct_keys_ofEntries (entries : List (Value × Value)) :
    Distinct ((ofEntries entries).map (·.1)) := by
  rw [map_fst_ofEntries]
  exact (distinct_distinct _).1

theorem length_ofEntries_eq_iff :
    (ofEntries entries).length = entries.length ↔ Distinct (entries.map (·.1)) := by
  have keys : (ofEntries entries).length = (distinct (entries.map (·.1))).length := by
    rw [← map_fst_ofEntries, List.length_map]
  constructor
  · intro all
    exact distinct_of_length_eq (by rw [← keys, all, List.length_map])
  · intro different
    rw [keys, distinct_eq_self different, List.length_map]

theorem ofEntries_eq_self (different : Distinct (entries.map (·.1))) :
    ofEntries entries = entries := by
  suffices run : ∀ kept : List (Value × Value), Distinct ((kept ++ entries).map (·.1)) →
      entries.foldl (fun kept entry => insertEntry entry.1 entry.2 kept) kept = kept ++ entries from
    run [] different
  clear different
  induction entries with
  | nil => simp
  | cons entry entries ih =>
    intro kept apart
    have new : entry.1.isIn (kept.map (·.1)) = false := isIn_eq_false_iff.2 fun x member => by
      rw [List.map_append] at apart
      exact (List.pairwise_append.1 apart).2.2 x member entry.1 (by simp)
    rw [List.foldl_cons, insertEntry_of_new new, ih _ (by simpa using apart), List.append_assoc,
      List.singleton_append]

end Value

end TableScan
