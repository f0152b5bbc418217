import Mathlib.Data.List.MinMax
import TableScan.Proofs.KeyText
import TableScan.Proofs.RowRoundTrip

/-! Mappings with keys of various types in the store. Main statement: a mapping comes back as it
was, with one entry for each of its own, just if its entries can be put in an order in which the
text of each key is read as the key of the entry in its place, with the same value. -/

namespace TableScan

open Attempt Coercion Outcome Value AttributeValue

variable {K V : FieldType} {a : Attribute} {entries : List (Value × Value)} {w x : Value}

def WrittenEntries (entries : List (Value × Value)) (parts : List (String × AttributeValue)) :
    Prop :=
  List.Forall₂ (fun entry part => entry.1.display? = some part.1 ∧ unsorted entry.2 = .ok part.2)
    entries parts

namespace Value

theorem keyText_eq_ok_iff {k text : Value} :
    keyText k = .ok text ↔ ∃ shown, k.display? = some shown ∧ text = .text shown := by
  unfold keyText
  cases k.display? <;> simp [eq_comm]

theorem nativeEntries_eq_ok_texts_iff {natives : List (Value × Value)} :
    nativeEntries entries = .ok natives ↔ List.Forall₂ (fun entry pair =>
      keyText entry.1 = .ok pair.1 ∧ native entry.2 = .ok pair.2) entries natives := by
  induction entries generalizing natives with
  | nil => simp [nativeEntries, eq_comm]
  | cons entry entries ih =>
    obtain ⟨k, v⟩ := entry
    simp only [nativeEntries, bind_eq_ok_iff, ih, pure_eq_ok, Except.ok.injEq]
    constructor
    · intro given
      obtain ⟨text, key, native, one, rest, others, rfl⟩ := given
      exact .cons ⟨key, one⟩ others
    · intro given
      rcases given with _ | @⟨_, ⟨text, native⟩, _, _, ⟨key, one⟩, others⟩
      exact ⟨_, key, _, one, _, others, rfl⟩

end Value

theorem display?_ne_iff {k k' text text' : Value} (key : keyText k = .ok text)
    (key' : keyText k' = .ok text') : k.display? ≠ k'.display? ↔ same text text' = false := by
  obtain ⟨shown, display, rfl⟩ := keyText_eq_ok_iff.1 key
  obtain ⟨shown', display', rfl⟩ := keyText_eq_ok_iff.1 key'
  rw [display, display', same_text, beq_eq_false_iff_ne, ne_eq, Option.some.injEq]

/-- The attribute value has an entry for each of the mapping's just if their texts differ, and then
it has their texts and values. -/
theorem exists_parts {b : AttributeValue} (written : unsorted (.map entries) = .ok b) :
    ∃ parts, b = .map parts ∧
      (parts.length = entries.length ↔
        entries.Pairwise fun entry other => entry.1.display? ≠ other.1.display?) ∧
      (parts.length = entries.length → WrittenEntries entries parts) := by
  rw [unsorted, native] at written
  obtain ⟨whole, plain, given⟩ := bind_eq_ok_iff.1 written
  obtain ⟨natives, found, same⟩ := bind_eq_ok_iff.1 plain
  cases same
  obtain ⟨parts, encoded, same⟩ := bind_eq_ok_iff.1 given
  cases same
  rw [nativeEntries_eq_ok_texts_iff] at found
  rw [ofNativeEntries_eq_mapM, mapM_eq_ok_iff] at encoded
  have all : parts.length = entries.length ↔ Distinct (natives.map (·.1)) := by
    rw [← encoded.length_eq, found.length_eq, length_ofEntries_eq_iff]
  refine ⟨parts, rfl, all.trans ?_, fun length => ?_⟩
  · rw [Distinct, List.pairwise_map]
    constructor
    · exact pairwise_of_forall₂ found fun _ _ _ _ one other apart =>
        (display?_ne_iff one.1 other.1).2 apart
    · exact pairwise_of_forall₂ found.flip fun _ _ _ _ one other apart =>
        (display?_ne_iff one.1 other.1).1 apart
  · rw [ofEntries_eq_self (all.1 length)] at encoded
    refine forall₂_comp_iff.1 ⟨natives, found, encoded⟩ |>.imp fun entry part both => ?_
    obtain ⟨pair, ⟨key, plain⟩, written⟩ := both
    obtain ⟨shown, display, text⟩ := keyText_eq_ok_iff.1 key
    obtain ⟨b, value, rfl⟩ := map_eq_ok_iff.1 written
    refine ⟨?_, ?_⟩
    · rw [display, text]
      rfl
    · rw [unsorted, plain, ok_bind, value]

theorem Attribute.decode_eq_ok_iff {v : Value} :
    a.decode v = .ok w ↔ ∃ native, v.ofTagged = .ok native ∧ validate a.type native = .ok w := by
  unfold Attribute.decode
  cases v.ofTagged with
  | error cause => simp
  | ok native =>
    cases fits : validate a.type native with
    | ok w => simp [fits]
    | error rejection => cases rejection <;> simp [fits]

theorem ofTagged_parts {parts : List (String × AttributeValue)}
    (kept : ∀ entry ∈ entries, Keeps V entry.2) (written : WrittenEntries entries parts) :
    (AttributeValue.map parts).toValue.ofTagged =
      .ok (.map (entries.map fun entry => (.text entry.1.display, entry.2.readBack))) := by
  have back : List.Forall₂ (fun entry part => entry.1 = .text part.1 ∧
      part.2.toValue.ofTagged = .ok entry.2.readBack)
      (entries.map fun entry => (Value.text entry.1.display, entry.2)) parts := by
    rw [List.forall₂_map_left_iff]
    refine forall₂_imp_of_mem (fun entry found part both => ⟨?_, ?_⟩) written
    · rw [display, both.1]
      rfl
    · exact (kept entry found).ofTagged_toValue both.2
  rw [ofTagged_map back, List.map_map]
  rfl

/-- What the attribute value of a mapping is decoded to: each key is what its text is read as. -/
theorem decode_parts_iff {parts : List (String × AttributeValue)} (typed : a.type = .map K V)
    (member : V.OfSets) (kept : ∀ entry ∈ entries, Keeps V entry.2)
    (written : WrittenEntries entries parts) :
    a.decode (AttributeValue.map parts).toValue = .ok x ↔ ∃ fitted, List.Forall₂ (fun entry pair =>
      (coerce K (.text entry.1.display)).Gives pair.1 ∧ entry.2 = pair.2 ∧
        pair.1.hashFault? = none) entries fitted ∧ .map (ofEntries fitted) = x := by
  have value : ∀ entry ∈ entries, ∀ pair : Value × Value,
      (coerce K (.text entry.1.display)).Gives pair.1 ∧
          (coerce V entry.2.readBack).Gives pair.2 ∧ pair.1.hashFault? = none ↔
        (coerce K (.text entry.1.display)).Gives pair.1 ∧ entry.2 = pair.2 ∧
          pair.1.hashFault? = none := by
    intro entry found pair
    have again := (kept entry found).gives_reread
    rw [(kept entry found).reread_eq_self member] at again
    have same : (coerce V entry.2.readBack).Gives pair.2 ↔ entry.2 = pair.2 :=
      ⟨again.unique, fun same => same ▸ again⟩
    rw [same]
  simp only [Attribute.decode_eq_ok_iff, ofTagged_parts kept written, Except.ok.injEq,
    exists_eq_left', validate_eq_ok_iff, typed, coerce, gives_fitMap, List.forall₂_map_left_iff,
    forall₂_iff_of_mem value]

/-- The mapping comes back from the attribute value as an equal mapping, and the attribute value has
an entry for each of its own. -/
def Attribute.Returns (a : Attribute) (entries : List (Value × Value)) (b : AttributeValue) :
    Prop :=
  (∃ parts, b = .map parts ∧ parts.length = entries.length) ∧
    ∃ x, a.decode b.toValue = .ok x ∧ same x (.map entries) = true

/-- What the text of an entry's key is read as equals the key of an entry with an equal value. -/
def IsFoundAgain (K : FieldType) (entries : List (Value × Value)) (entry : Value × Value) : Prop :=
  ∃ other ∈ entries, ∃ shown k, entry.1.display? = some shown ∧
    (coerce K (.text shown)).Gives k ∧ same k other.1 = true ∧ same entry.2 other.2 = true

theorem Value.same_map_iff {xs ws : List (Value × Value)} :
    same (.map xs) (.map ws) = true ↔ xs.length = ws.length ∧
      ∀ entry ∈ xs, ∃ other ∈ ws, same entry.1 other.1 = true ∧ same entry.2 other.2 = true := by
  rw [same.eq_def]
  simp only [Bool.and_eq_true, beq_iff_eq, allEntriesFound_iff]

section

variable {b : AttributeValue} (typed : a.type = .map K V) (member : V.OfSets)
  (kept : ∀ entry ∈ entries, Keeps V entry.2) (written : unsorted (.map entries) = .ok b)

include typed member kept written

theorem isFoundAgain_of_returns (returns : a.Returns entries b) :
    ∀ entry ∈ entries, IsFoundAgain K entries entry := by
  obtain ⟨⟨parts, rfl, length⟩, x, decoded, equal⟩ := returns
  obtain ⟨_, same, _, whole⟩ := exists_parts written
  cases same
  obtain ⟨fitted, fits, rfl⟩ := (decode_parts_iff typed member kept (whole length)).1 decoded
  obtain ⟨all, found⟩ := same_map_iff.1 equal
  rw [ofEntries_eq_self (length_ofEntries_eq_iff.1 (all.trans fits.length_eq))] at found
  intro entry present
  obtain ⟨part, -, display, -⟩ := exists_mem_of_forall₂ (whole length).flip entry present
  obtain ⟨pair, within, key, value, -⟩ := exists_mem_of_forall₂ fits.flip entry present
  obtain ⟨other, elsewhere, keys, values⟩ := found pair within
  rw [Value.display, display] at key
  exact ⟨other, elsewhere, part.1, pair.1, display, key, keys, value ▸ values⟩

/-- Where the text of each key is read as the key of another entry, in some order of the entries and
with equal values, the mapping comes back. -/
theorem returns_of_perm (key : K.OfKeys) (keys : ∀ entry ∈ entries, Keeps K entry.1)
    (different : Distinct (entries.map (·.1))) {others : List (Value × Value)}
    (perm : others.Perm entries) (reads : List.Forall₂ (fun entry other =>
      KeyReads K entry.1 other.1 ∧ same entry.2 other.2 = true) entries others) :
    a.Returns entries b := by
  obtain ⟨parts, rfl, lengths, whole⟩ := exists_parts written
  have kept' : ∀ other ∈ others, Keeps K other.1 := fun other found =>
    keys other (perm.subset found)
  have apart : Distinct (others.map (·.1)) := by
    refine different.of_perm ?_ (perm.map _)
    rw [List.forall_mem_map]
    intro entry found
    rw [List.forall_mem_map]
    exact fun other found' => (keys entry found).same_comm_of_key key (keys other found')
  have each : List.Forall₂ (fun entry other => (Keeps K other.1 ∧
      ∃ shown, entry.1.display? = some shown ∧ (coerce K (.text shown)).Gives other.1) ∧
      same entry.2 other.2 = true) entries others := by
    refine (forall₂_imp_of_mem (fun other found entry read => ?_) reads.flip).flip
    exact ⟨⟨kept' other found, read.1.gives key (kept' other found)⟩, read.2⟩
  -- keys with one text would be read as one key, and the keys that they are read as differ
  have texts : entries.Pairwise fun entry other => entry.1.display? ≠ other.1.display? := by
    refine pairwise_of_forall₂ each (fun entry entry' other other' one another differ same => ?_)
      (List.pairwise_map.1 apart)
    obtain ⟨⟨kept, shown, display, given⟩, -⟩ := one
    obtain ⟨⟨_, shown', display', given'⟩, -⟩ := another
    cases display.symm.trans (same.trans display')
    rw [← given.unique given', kept.same_self_of_key key] at differ
    cases differ
  have length := lengths.2 texts
  have linked : List.Forall₂ (fun entry other => ∃ pair : Value × Value,
      ((coerce K (.text entry.1.display)).Gives pair.1 ∧ entry.2 = pair.2 ∧
        pair.1.hashFault? = none) ∧ pair.1 = other.1 ∧ same pair.2 other.2 = true)
      entries others := by
    refine each.imp fun entry other both => ⟨(other.1, entry.2), ⟨?_, rfl, ?_⟩, rfl, both.2⟩
    · obtain ⟨⟨_, shown, display, given⟩, -⟩ := both
      rwa [Value.display, display]
    · exact both.1.1.hashFault?_of_key key
  obtain ⟨fitted, fits, back⟩ := forall₂_comp_iff.2 linked
  have fresh : Distinct (fitted.map (·.1)) := by
    refine List.pairwise_map.2 (pairwise_of_forall₂ back (fun _ _ _ _ one another differ => ?_)
      (List.pairwise_map.1 apart))
    rwa [one.1, another.1]
  refine ⟨⟨parts, rfl, length⟩, .map fitted, ?_, ?_⟩
  · exact (decode_parts_iff typed member kept (whole length)).2
      ⟨fitted, fits, by rw [ofEntries_eq_self fresh]⟩
  · refine same_map_iff.2 ⟨fits.length_eq.symm, fun pair found => ?_⟩
    obtain ⟨other, within, keys', values⟩ := exists_mem_of_forall₂ back.flip pair found
    refine ⟨other, perm.subset within, ?_, values⟩
    rw [keys']
    exact (kept' other within).same_self_of_key key

end

theorem eq_nil_of_grows {α : Type} {xs : List α} (size : α → Nat)
    (grows : ∀ x ∈ xs, ∃ y ∈ xs, size x < size y) : xs = [] := by
  cases top : xs.argmax size with
  | none => exact List.argmax_eq_none.1 top
  | some x =>
    obtain ⟨y, found, more⟩ := grows x (List.argmax_mem top)
    exact absurd (List.le_of_mem_argmax found top) (Nat.not_le.2 more)

def byteCount : Value → Nat
  | .bytes bs => bs.length
  | _ => 0

/-- What the text of bytes is read as is longer, so that the longest key is not found again. -/
theorem eq_nil_of_bytes (keys : ∀ entry ∈ entries, Keeps .bytes entry.1)
    (found : ∀ entry ∈ entries, IsFoundAgain .bytes entries entry) : entries = [] := by
  refine eq_nil_of_grows (fun entry => byteCount entry.1) fun entry present => ?_
  obtain ⟨other, elsewhere, shown, k, display, given, equal, -⟩ := found entry present
  refine ⟨other, elsewhere, ?_⟩
  obtain ⟨key, _⟩ := entry
  obtain ⟨key', _⟩ := other
  cases keys _ present
  cases keys _ elsewhere
  obtain ⟨longer, rfl, more⟩ := exists_of_gives_bytes display given
  simp only [same, sameScalar, beq_iff_eq] at equal
  rw [← equal]
  exact more

section

variable (key : K.OfKeys) (keys : ∀ entry ∈ entries, Keeps K entry.1)
  (different : Distinct (entries.map (·.1)))

include key keys different

theorem eq_of_same_keys {entry other : Value × Value} (found : entry ∈ entries)
    (found' : other ∈ entries) (equal : same entry.1 other.1 = true) : entry = other := by
  have apart := List.pairwise_map.1 different
  refine List.Pairwise.forall_of_forall_of_flip (R := fun x y => same x.1 y.1 = true → x = y)
    (fun _ _ _ => rfl) (apart.imp fun differ same => ?_)
    (apart.imp_of_mem fun {x y} one another differ same => ?_) found found' equal
  · rw [differ] at same
    cases same
  · rw [(keys y another).same_comm_of_key key (keys x one), differ] at same
    cases same

theorem nodup_entries : entries.Nodup := by
  refine (List.pairwise_map.1 different).imp_of_mem fun {x y} found _ differ equal => ?_
  rw [← equal, (keys x found).same_self_of_key key] at differ
  cases differ

theorem exists_perm_of_reads (reads : ∀ entry ∈ entries, ∃ other ∈ entries,
      KeyReads K entry.1 other.1 ∧ same entry.2 other.2 = true) :
    ∃ others : List (Value × Value), others.Perm entries ∧ List.Forall₂ (fun entry other =>
      KeyReads K entry.1 other.1 ∧ same entry.2 other.2 = true) entries others := by
  choose! read within keyed using reads
  have once : (entries.map read).Nodup := by
    refine List.Nodup.map_on (fun x found y found' equal => ?_) (nodup_entries key keys different)
    have again := (keyed y found').1
    rw [← equal] at again
    refine eq_of_same_keys key keys different found found' ?_
    rw [← (keyed x found).1.unique key (keys x found) (keys y found') again]
    exact (keys x found).same_self_of_key key
  refine ⟨entries.map read, ?_, ?_⟩
  · refine (List.subperm_of_subset once ?_).perm_of_length_le
      (Nat.le_of_eq (List.length_map _).symm)
    exact List.forall_mem_map.2 within
  · exact List.forall₂_map_right_iff.2 (List.forall₂_same.2 keyed)

end

/-- An operand for a mapping comes back, with one entry of the attribute value for each of the
mapping's, just if the text of each key is read as the key of an entry with the same value, all
entries being found so in some order. Texts, dates and identifiers are read as they are, and so are
numbers within the limits of reading. A member of an enumeration is shown by its name: it is read as
the member, if any, whose value is that text. Bytes are never read as they are. -/
theorem Attribute.returns_iff {v : Value} {b : AttributeValue} (key : K.OfKeys) (member : V.OfSets)
    (typed : a.type = .map K V) (fits : validate a.type v = .ok (.map entries))
    (encodes : a.encode false v = .ok b)
    (sound : ∀ entry ∈ entries, Sound K entry.1 ∧ Sound V entry.2) :
    a.Returns entries b ↔ ∃ others : List (Value × Value), others.Perm entries ∧
      List.Forall₂ (fun entry other =>
        KeyReads K entry.1 other.1 ∧ same entry.2 other.2 = true) entries others := by
  obtain ⟨_, fits', encoded⟩ := encode_eq_ok_iff.1 encodes
  cases fits.symm.trans fits'
  rw [ofValue_eq] at encoded
  obtain ⟨raw, written, rfl⟩ := map_eq_ok_iff.1 encoded
  obtain ⟨parts, rfl, -⟩ := exists_parts written
  rw [typed, validate_eq_ok_iff] at fits
  obtain ⟨_, same, each, different⟩ := exists_of_gives_entries fits
  cases same
  have keys : ∀ entry ∈ entries, Keeps K entry.1 := fun entry found =>
    let ⟨_, given⟩ := (each entry found).1
    key.storable.keeps_of_gives given (sound entry found).1
  have values : ∀ entry ∈ entries, Keeps V entry.2 := fun entry found =>
    let ⟨_, given⟩ := (each entry found).2
    (Storable.scalar member).keeps_of_gives given (sound entry found).2
  constructor
  · intro returns
    have found := isFoundAgain_of_returns typed member values written returns
    by_cases bytes : K = .bytes
    · subst bytes
      rw [eq_nil_of_bytes keys found]
      exact ⟨[], .nil, .nil⟩
    · refine exists_perm_of_reads key keys different fun entry present => ?_
      obtain ⟨other, elsewhere, shown, k, display, given, equal, value⟩ := found entry present
      refine ⟨other, elsewhere, ?_, value⟩
      exact keyReads_of_gives key bytes (keys entry present) (keys other elsewhere) display given
        equal fun same =>
          congrArg Prod.fst (eq_of_same_keys key keys different present elsewhere same)
  · intro given
    obtain ⟨others, perm, reads⟩ := given
    exact returns_of_perm typed member values written key keys different perm reads

namespace Sample

def swapped : Enumeration :=
  ⟨"Side", .plain, [("LEFT", .text "Side.RIGHT"), ("RIGHT", .text "Side.LEFT")]⟩

def left : Value := swapped.memberOf ("LEFT", .text "Side.RIGHT")

def right : Value := swapped.memberOf ("RIGHT", .text "Side.LEFT")

def sides : Attribute := ⟨"sides", "sides", .map (.enumeration swapped) .int⟩

/-- The members are read as each other, with equal values. -/
theorem returns_iff_sides :
    (FieldType.enumeration swapped).OfKeys ∧ FieldType.OfSets .int ∧
      validate sides.type (.map [(left, .int 1), (right, .int 1)]) =
        .ok (.map [(left, .int 1), (right, .int 1)]) ∧
      sides.encode false (.map [(left, .int 1), (right, .int 1)]) =
        .ok (.map [("Side.LEFT", .number "1"), ("Side.RIGHT", .number "1")]) ∧
      sides.Returns [(left, .int 1), (right, .int 1)]
        (.map [("Side.LEFT", .number "1"), ("Side.RIGHT", .number "1")]) := by
  have key : (FieldType.enumeration swapped).OfKeys := by
    refine .texts (by decide) ?_ (by decide)
    simp [swapped]
  have kept : Keeps (.enumeration swapped) left ∧ Keeps (.enumeration swapped) right :=
    ⟨.textMember (by decide) rfl, .textMember (by decide) rfl⟩
  have sound : ∀ entry ∈ [(left, Value.int 1), (right, .int 1)],
      Sound (.enumeration swapped) entry.1 ∧ Sound .int entry.2 := by
    simp only [List.forall_mem_cons]
    exact ⟨⟨kept.1.sound, (Keeps.int 1).sound⟩, ⟨kept.2.sound, (Keeps.int 1).sound⟩, by simp⟩
  have fits : validate sides.type (.map [(left, .int 1), (right, .int 1)]) =
      .ok (.map [(left, .int 1), (right, .int 1)]) := rfl
  have encodes : sides.encode false (.map [(left, .int 1), (right, .int 1)]) =
      .ok (.map [("Side.LEFT", .number "1"), ("Side.RIGHT", .number "1")]) := by rfl
  refine ⟨key, .int, fits, encodes, (Attribute.returns_iff key .int rfl fits encodes sound).2
    ⟨[(right, .int 1), (left, .int 1)], .swap _ _ _,
      .cons ⟨.member, rfl⟩ (.cons ⟨.member, rfl⟩ .nil)⟩⟩

/-- Not every mapping comes back: bytes are read as the text that shows them. -/
theorem not_forall_returns :
    ¬∀ (K V : FieldType) (a : Attribute) (v : Value) (entries : List (Value × Value))
      (b : AttributeValue), K.OfKeys → V = .text ∨ V = .int → a.type = .map K V →
      validate a.type v = .ok (.map entries) → a.encode false v = .ok b →
      (∀ entry ∈ entries, Sound K entry.1 ∧ Sound V entry.2) → a.Returns entries b := by
  intro returns
  have sound : ∀ entry ∈ [(Value.bytes [97], Value.int 1)],
      Sound .bytes entry.1 ∧ Sound .int entry.2 := by
    simp only [List.forall_mem_singleton]
    exact ⟨(Keeps.bytes [97]).sound, (Keeps.int 1).sound⟩
  obtain ⟨_, x, decoded, equal⟩ := returns .bytes .int ⟨"d", "d", .map .bytes .int⟩
    (.map [(.bytes [97], .int 1)]) [(.bytes [97], .int 1)] (.map [("b'a'", .number "1")])
    (.scalar .bytes) (.inr rfl) rfl rfl rfl sound
  cases decoded
  exact absurd equal (by decide)

end Sample

end TableScan
