import TableScan.Proofs.DecimalText

/-! Numerals: the texts that denote finite numbers, by their grammar. Main statement: the reader takes
a text for a finite number exactly when the text is a numeral, and for the number that it denotes. -/

namespace TableScan.Decimal

open Text

inductive SignPart : List Char → Bool → Prop where
  | none : SignPart [] false
  | plus : SignPart ['+'] false
  | minus : SignPart ['-'] true

/-- Digits with at most one point among them, the number they make without it, and how many of them
come after it. -/
inductive Mantissa : List Char → Nat → Nat → Prop where
  | whole {digits : List Char} (some : digits ≠ []) (all : ∀ c ∈ digits, isAsciiDigit c = true) :
    Mantissa digits (readNumeral digits) 0
  | pointed {digits fraction : List Char} (some : digits ≠ [] ∨ fraction ≠ [])
    (all : ∀ c ∈ digits, isAsciiDigit c = true) (more : ∀ c ∈ fraction, isAsciiDigit c = true) :
    Mantissa (digits ++ '.' :: fraction) (readNumeral (digits ++ fraction)) fraction.length

inductive PowerPart : List Char → Int → Prop where
  | none : PowerPart [] 0
  | some {c : Char} {sign digits : List Char} {negative : Bool} (mark : c = 'e' ∨ c = 'E')
    (signed : SignPart sign negative) (some : digits ≠ [])
    (all : ∀ c ∈ digits, isAsciiDigit c = true) :
    PowerPart (c :: (sign ++ digits))
      (if negative then -(readNumeral digits : Int) else readNumeral digits)

inductive Numeral : List Char → Decimal → Prop where
  | mk {sign mantissa power : List Char} {negative : Bool} {c places : Nat} {k : Int}
    (signed : SignPart sign negative) (counted : Mantissa mantissa c places)
    (raised : PowerPart power k) :
    Numeral (sign ++ (mantissa ++ power)) (.finite negative c (k - places))

/-- The text is a numeral, with digits of any script, and this is the number that it denotes. -/
def Denotes (t : String) (d : Decimal) : Prop := Numeral (asciiDigits t.toList) d

variable {cs mantissa rest : List Char} {negative : Bool} {d : Decimal} {c places : Nat} {k : Int}
  {t : String}

theorem Numeral.isFinite (numeral : Numeral cs d) : d.isFinite = true := by
  cases numeral
  rfl

theorem signPart_signText (negative : Bool) : SignPart (signText negative) negative := by
  cases negative
  · exact .none
  · exact .minus

/-- What comes after a sign starts with a digit or the point. -/
theorem splitSign_append {sign : List Char} (signed : SignPart sign negative)
    (starts : ∃ x xs, cs = x :: xs ∧ x ≠ '-' ∧ x ≠ '+') :
    splitSign (sign ++ cs) = (negative, cs) := by
  cases signed with
  | plus | minus => rfl
  | none =>
    obtain ⟨x, xs, rfl, notMinus, notPlus⟩ := starts
    rw [List.nil_append, splitSign.eq_def]
    split
    · next same => exact absurd (List.cons.inj same).1 notMinus
    · next same => exact absurd (List.cons.inj same).1 notPlus
    · rfl

theorem exists_sign (cs : List Char) :
    ∃ sign, SignPart sign (splitSign cs).1 ∧ cs = sign ++ (splitSign cs).2 := by
  rw [splitSign.eq_def]
  split
  · exact ⟨['-'], .minus, rfl⟩
  · exact ⟨['+'], .plus, rfl⟩
  · exact ⟨[], .none, rfl⟩

theorem ne_sign_of_digit {x : Char} (digit : isAsciiDigit x = true) : x ≠ '-' ∧ x ≠ '+' := by
  constructor <;> rintro rfl <;> exact absurd digit (by decide)

theorem ends_of_powerPart (raised : PowerPart rest k) : Ends rest k := by
  cases raised with
  | none => exact ends_nil
  | @some c sign digits negative mark signed some all =>
    obtain ⟨x, xs, rfl⟩ := List.exists_cons_of_ne_nil some
    have split : splitSign (sign ++ x :: xs) = (negative, x :: xs) :=
      splitSign_append signed ⟨x, xs, rfl, ne_sign_of_digit (all x (by simp))⟩
    have marked : isAsciiDigit c = false ∧ c ≠ '.' := by rcases mark with rfl | rfl <;> decide
    refine ⟨?_, ?_, ?_⟩
    · intro y first
      cases first
      exact marked.1
    · rw [splitFraction.eq_def]
      split
      · next same => exact absurd (List.cons.inj same).1 marked.2
      · rfl
    · rw [readExponent?, split]
      simp [mark, List.all_eq_true.2 all]

theorem powerPart_of_readExponent? (read : readExponent? rest = some k) : PowerPart rest k := by
  cases rest with
  | nil =>
    cases read
    exact .none
  | cons c cs =>
    obtain ⟨sign, signed, split⟩ := exists_sign cs
    simp only [readExponent?] at read
    split at read
    · next allowed =>
      cases read
      have power := PowerPart.some allowed.1 signed allowed.2.1 (List.all_eq_true.1 allowed.2.2)
      rwa [← split] at power
    · cases read

theorem readFinite?_of_mantissa (counted : Mantissa mantissa c places)
    (raised : PowerPart rest k) :
    readFinite? negative (mantissa ++ rest) = some (.finite negative c (k - places)) := by
  have ends := ends_of_powerPart raised
  cases counted with
  | whole some all =>
    rw [readFinite?_whole negative ends all some, Int.natCast_zero, Int.sub_zero]
  | @pointed digits fraction some all more =>
    have point : EndsDigits ('.' :: (fraction ++ rest)) := by
      intro _ given
      cases given
      decide
    have parts : splitFraction ('.' :: (fraction ++ rest)) = (fraction, rest) :=
      Prod.ext (takeWhile_digits more ends.stops) (dropWhile_digits more ends.stops)
    have nonempty : ¬(digits = [] ∧ fraction = []) := fun both => some.elim (· both.1) (· both.2)
    rw [List.append_assoc, List.cons_append]
    simp [readFinite?, takeWhile_digits all point, dropWhile_digits all point, parts, nonempty,
      ends.exponent]

theorem forall_mem_takeWhile (cs : List Char) :
    ∀ c ∈ cs.takeWhile isAsciiDigit, isAsciiDigit c = true :=
  List.all_eq_true.1 List.all_takeWhile

theorem splitFraction_cases (cs : List Char) :
    (∃ tail, cs = '.' :: tail ∧
      splitFraction cs = (tail.takeWhile isAsciiDigit, tail.dropWhile isAsciiDigit)) ∨
    splitFraction cs = ([], cs) := by
  rw [splitFraction.eq_def]
  split
  · exact .inl ⟨_, rfl, rfl⟩
  · exact .inr rfl

/-- A finite number that is read has its mantissa and its exponent in the text. -/
theorem exists_mantissa (read : readFinite? negative cs = some d) :
    ∃ mantissa rest c places k, cs = mantissa ++ rest ∧ Mantissa mantissa c places ∧
      PowerPart rest k ∧ d = .finite negative c (k - places) := by
  have parts := List.takeWhile_append_dropWhile (p := isAsciiDigit) (l := cs)
  have whole := forall_mem_takeWhile cs
  simp only [readFinite?] at read
  generalize cs.takeWhile isAsciiDigit = digits at *
  generalize cs.dropWhile isAsciiDigit = after at *
  obtain ⟨fraction, rest, split⟩ : ∃ fraction rest, splitFraction after = (fraction, rest) :=
    ⟨_, _, rfl⟩
  rw [split] at read
  split at read
  · cases read
  · next some =>
    obtain ⟨k, raised, rfl⟩ := Option.map_eq_some_iff.1 read
    have power := powerPart_of_readExponent? raised
    rcases splitFraction_cases after with ⟨tail, rfl, same⟩ | same
    · cases split.symm.trans same
      have counted := Mantissa.pointed (not_and_or.1 some) whole (forall_mem_takeWhile tail)
      refine ⟨_, _, _, _, k, ?_, counted, power, rfl⟩
      rw [← parts, List.append_assoc, List.cons_append, List.takeWhile_append_dropWhile]
    · cases split.symm.trans same
      refine ⟨digits, after, _, 0, k, parts.symm, .whole (by simpa using some) whole, power, ?_⟩
      simp

theorem isFinite_of_readSpecial? (read : readSpecial? negative cs = some d) :
    d.isFinite = false := by
  unfold readSpecial? at read
  split at read
  · cases read
    rfl
  · cases read
    rfl
  · obtain ⟨_, _, rfl⟩ := Option.map_eq_some_iff.1 read
    rfl
  · obtain ⟨_, _, rfl⟩ := Option.map_eq_some_iff.1 read
    rfl
  · cases read

/-- The reader takes a text for a finite number just if it is a numeral of that number. -/
theorem read?_eq_some_iff (finite : d.isFinite = true) : read? cs = some d ↔ Numeral cs d := by
  constructor
  · intro read
    obtain ⟨sign, signed, split⟩ := exists_sign cs
    simp only [read?] at read
    rcases found : readFinite? (splitSign cs).1 (splitSign cs).2 with _ | d'
    · rw [found] at read
      rw [isFinite_of_readSpecial? read] at finite
      cases finite
    · rw [found] at read
      cases read
      obtain ⟨mantissa, rest, c, places, k, text, counted, raised, rfl⟩ := exists_mantissa found
      have numeral := Numeral.mk signed counted raised
      rwa [← text, ← split] at numeral
  · intro numeral
    obtain @⟨sign, mantissa, power, negative, c, places, k, signed, counted, raised⟩ := numeral
    have starts : ∃ x xs, mantissa ++ power = x :: xs ∧ x ≠ '-' ∧ x ≠ '+' := by
      cases counted with
      | whole some all =>
        obtain ⟨x, xs, rfl⟩ := List.exists_cons_of_ne_nil some
        exact ⟨x, _, rfl, ne_sign_of_digit (all x (by simp))⟩
      | @pointed digits fraction some all more =>
        cases digits with
        | nil => exact ⟨'.', _, rfl, by decide⟩
        | cons x xs => exact ⟨x, _, rfl, ne_sign_of_digit (all x (by simp))⟩
    rw [read?, splitSign_append signed starts]
    simp only [readFinite?_of_mantissa counted raised, Option.orElse]

theorem Denotes.unique {d' : Decimal} (one : Denotes t d) (other : Denotes t d') : d = d' :=
  Option.some.inj (((read?_eq_some_iff one.isFinite).2 one).symm.trans
    ((read?_eq_some_iff other.isFinite).2 other))

theorem denotes_toText (finite : d.isFinite = true) : Denotes d.toText d := by
  rw [Denotes, toText, String.toList_ofList, asciiDigits_toChars finite]
  exact (read?_eq_some_iff finite).1 (read?_toChars finite)

theorem denotes_of_readNumberText (finite : (Value.readNumberText t).isFinite = true) :
    Denotes t (Value.readNumberText t) := by
  unfold Value.readNumberText at finite ⊢
  cases read : read? (asciiDigits t.toList) with
  | none =>
    rw [read] at finite
    cases finite
  | some d =>
    rw [read] at finite
    exact (read?_eq_some_iff finite).1 read

end TableScan.Decimal
