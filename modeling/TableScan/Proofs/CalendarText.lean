import TableScan.Calendar.Timestamp
import TableScan.Proofs.Digits

/-! The texts of dates and moments. Main statement: reading them gives the date or the moment back;
its offset, of whole minutes, is then one that was read. -/

namespace TableScan

open Text

namespace Civil

theorem year_le_of_exists {c : Civil} (real : c.exists? = true) : c.year ≤ 9999 := by
  simp only [exists?, Bool.and_eq_true, decide_eq_true_eq] at real
  exact real.1.1

theorem daysInMonth_of_le {year month : Nat} (beyond : 13 ≤ month) : daysInMonth year month = 0 := by
  simp [daysInMonth, monthLengths, beyond]

theorem daysInMonth_le (year month : Nat) : daysInMonth year month ≤ 31 := by
  have leap : (if isLeap year then 29 else 28) ≤ 31 := by split <;> decide
  match month with
  | 0 | 1 | 2 | 3 | 4 | 5 | 6 | 7 | 8 | 9 | 10 | 11 | 12 => simp [daysInMonth, monthLengths, leap]
  | month + 13 => simp [daysInMonth_of_le]

theorem day_lt_of_exists {c : Civil} (real : c.exists? = true) : c.day < 100 ∧ c.month < 100 := by
  simp only [exists?, Bool.and_eq_true, decide_eq_true_eq] at real
  have short := daysInMonth_le c.year c.month
  refine ⟨by omega, Nat.lt_of_not_le fun beyond => ?_⟩
  have none : daysInMonth c.year c.month = 0 := daysInMonth_of_le (by omega)
  omega

theorem split?_toChars {c : Civil} (real : c.exists? = true) (rest : List Char) :
    split? (c.toChars ++ rest) = some (c, rest) := by
  obtain ⟨day, month⟩ := day_lt_of_exists real
  obtain ⟨y₁, y₂, y₃, y₄, years, ⟨d₁, d₂, d₃, d₄⟩, year⟩ :=
    exists_padded_four (Nat.lt_succ_of_le (year_le_of_exists real))
  obtain ⟨m₁, m₂, months, d₅, d₆, month⟩ := exists_padded_two month
  obtain ⟨a, b, days, d₇, d₈, day⟩ := exists_padded_two day
  simp [toChars, years, months, days, split?, d₁, d₂, d₃, d₄, d₅, d₆, d₇, d₈, year, month, day, real]

theorem ofAnyText?_toChars {c : Civil} (real : c.exists? = true) : ofAnyText? c.toChars = some c := by
  have read := split?_toChars real []
  rw [List.append_nil] at read
  rw [ofAnyText?, read]

end Civil

namespace Clock

theorem ofNumbers?_self (c : Clock) :
    ofNumbers? c.hour c.minute c.second c.microsecond = some c := by
  simp [ofNumbers?]

/-- What may follow a time of day: no digit, and neither a point nor a comma. -/
def Ends (rest : List Char) : Prop :=
  EndsDigits rest ∧ ∀ c ∈ rest.head?, c ≠ '.' ∧ c ≠ ','

theorem ends_nil : Ends [] := by simp [Ends, EndsDigits]

theorem readFraction_padded {n : Nat} (within : n < 1000000) : readFraction (padded 6 n) = n := by
  have length := length_padded (by decide : 0 < 6) within
  rw [readFraction, List.take_of_length_le (by omega), length, readNumeral_padded]
  exact Nat.mul_one n

theorem split?_toChars (c : Clock) {rest : List Char} (ends : Ends rest) :
    split? (c.toChars ++ rest) = some (c, rest) := by
  obtain ⟨h₁, h₂, hours, d₁, d₂, hour⟩ := exists_padded_two (Nat.lt_trans c.hour.isLt (by decide))
  obtain ⟨m₁, m₂, minutes, d₃, d₄, minute⟩ :=
    exists_padded_two (Nat.lt_trans c.minute.isLt (by decide))
  obtain ⟨s₁, s₂, seconds, d₅, d₆, second⟩ :=
    exists_padded_two (Nat.lt_trans c.second.isLt (by decide))
  have whole := ofNumbers?_self c
  by_cases exact : c.microsecond.val = 0
  · rw [exact] at whole
    have shown : c.toChars ++ rest = h₁ :: h₂ :: ':' :: m₁ :: m₂ :: ':' :: s₁ :: s₂ :: rest := by
      simp [toChars, hours, minutes, seconds, exact]
    rw [shown, split?, if_pos (by simp [d₁, d₂, d₃, d₄]), hour, minute]
    cases rest with
    | nil => simp [splitSeconds?, d₅, d₆, second, whole]
    | cons point fraction =>
      have other := ends.2 point rfl
      simp [splitSeconds?, d₅, d₆, second, other.1, other.2, whole]
  · have digits : ∀ x ∈ padded 6 c.microsecond, isAsciiDigit x = true :=
      fun x => isAsciiDigit_of_mem_padded
    have shown : c.toChars ++ rest = h₁ :: h₂ :: ':' :: m₁ :: m₂ :: ':' :: s₁ :: s₂ :: '.' ::
        (padded 6 c.microsecond ++ rest) := by
      simp [toChars, hours, minutes, seconds, exact]
    have nonempty : padded 6 c.microsecond ≠ [] := by
      simp [padded, numeral_ne_nil]
    rw [shown, split?, if_pos (by simp [d₁, d₂, d₃, d₄]), hour, minute]
    simp [splitSeconds?, d₅, d₆, second, takeWhile_digits digits ends.1, dropWhile_digits digits ends.1, nonempty,
      readFraction_padded c.microsecond.isLt, whole]

end Clock

namespace Offset

def asRead (o : Offset) : Offset := { o with wasRead := true }

def IsWholeMinutes (o : Offset) : Prop := o.microseconds % 60000000 = 0

theorem toChars_asRead (o : Offset) : o.asRead.toChars = o.toChars := rfl

theorem ofMicroseconds?_self (o : Offset) : ofMicroseconds? true o.microseconds = some o.asRead := by
  unfold ofMicroseconds?
  rw [dif_pos o.withinDay]
  rfl

theorem signed?_self (o : Offset) :
    signed? true (if o.microseconds < 0 then '-' else '+') o.microseconds.natAbs = some o.asRead := by
  unfold signed?
  split
  · next negative =>
    have value : -(o.microseconds.natAbs : Int) = o.microseconds := by omega
    rw [if_neg (by decide), if_pos (.inl rfl), value, ofMicroseconds?_self]
  · next positive =>
    have value : (o.microseconds.natAbs : Int) = o.microseconds := by omega
    rw [if_pos rfl, value, ofMicroseconds?_self]

theorem ofText?_toChars {o : Offset} (whole : o.IsWholeMinutes) : ofText? o.toChars = some o.asRead := by
  have within := o.withinDay
  have minutes : o.microseconds.natAbs % 60000000 = 0 := by
    unfold IsWholeMinutes at whole
    omega
  obtain ⟨h₁, h₂, hours, d₁, d₂, hour⟩ :=
    exists_padded_two (by omega : o.microseconds.natAbs / 3600000000 < 100)
  obtain ⟨m₁, m₂, shown, d₃, d₄, minute⟩ :=
    exists_padded_two (by omega : o.microseconds.natAbs / 60000000 % 60 < 100)
  have count : (o.microseconds.natAbs / 3600000000 * 60 + o.microseconds.natAbs / 60000000 % 60) *
      60000000 = o.microseconds.natAbs := by
    omega
  have read : readHours? h₁ h₂ m₁ m₂ = some o.microseconds.natAbs := by
    rw [readHours?, if_pos ⟨by simp [d₁, d₂, d₃, d₄], by omega⟩, hour, minute, count]
  have written : o.toChars = [if o.microseconds < 0 then '-' else '+', h₁, h₂, ':', m₁, m₂] := by
    simp [toChars, hours, shown, minutes]
  rw [written, ofText?, read, Option.bind_some, signed?_self]

theorem ends_toChars (o : Offset) : Clock.Ends o.toChars := by
  have sign : (if o.microseconds < 0 then '-' else '+') = '-' ∨
      (if o.microseconds < 0 then '-' else '+') = '+' := by
    split <;> simp
  simp only [Clock.Ends, EndsDigits, toChars, List.cons_append, List.head?_cons, Option.mem_def,
    Option.some.injEq, forall_eq']
  rcases sign with minus | plus
  · rw [minus]
    decide
  · rw [plus]
    decide

end Offset

def DayTime.IsWholeMinutes (t : DayTime) : Prop := ∀ o, t.offset = some o → o.IsWholeMinutes

def DayTime.asRead (t : DayTime) : DayTime := ⟨t.clock, t.offset.map Offset.asRead⟩

theorem DayTime.ofText?_toChars {t : DayTime} (whole : t.IsWholeMinutes) :
    DayTime.ofText? Offset.ofText? t.toChars = some t.asRead := by
  obtain ⟨clock, offset⟩ := t
  cases offset with
  | none =>
    have read : Clock.split? (clock.toChars ++ []) = some (clock, []) :=
      Clock.split?_toChars clock Clock.ends_nil
    simp only [DayTime.ofText?, DayTime.toChars, Option.elim_none, read, Option.bind_some, readOffset?,
      Option.map_some, DayTime.asRead, Option.map_none]
  | some o =>
    have read := Clock.split?_toChars clock o.ends_toChars
    have offset := Offset.ofText?_toChars (whole o rfl)
    have written : ∃ sign rest, o.toChars = sign :: rest := ⟨_, _, rfl⟩
    obtain ⟨sign, rest, written⟩ := written
    rw [written] at read offset
    simp only [DayTime.ofText?, DayTime.toChars, Option.elim_some, written, read, Option.bind_some,
      readOffset?, offset, Option.map_some, DayTime.asRead]

theorem DayTime.toChars_asRead (t : DayTime) : t.asRead.toChars = t.toChars := by
  obtain ⟨clock, _ | o⟩ := t <;> rfl

namespace DateTime

def IsWholeMinutes (t : DateTime) : Prop := t.time.IsWholeMinutes

def asRead (t : DateTime) : DateTime := ⟨t.date, t.time.asRead⟩

theorem toText_asRead (t : DateTime) : t.asRead.toText = t.toText := by
  rw [toText, toCharsWith, asRead, DayTime.toChars_asRead]
  rfl

theorem isWholeMinutes_asRead {t : DateTime} (whole : t.IsWholeMinutes) : t.asRead.IsWholeMinutes := by
  obtain ⟨date, clock, _ | o⟩ := t
  · intro _ given
    cases given
  · intro _ given
    cases given
    exact whole o rfl

theorem sameInstant_asRead (t : DateTime) : t.asRead.sameInstant t = true := by
  obtain ⟨date, clock, _ | o⟩ := t <;>
    simp [sameInstant, asRead, DayTime.asRead, universal, DayTime.universal, Offset.asRead]

theorem ofAnyText?_toText {t : DateTime} (whole : t.IsWholeMinutes) :
    Stamp.ofAnyText? t.toText.toList = some ⟨t.date.civil, t.time.asRead⟩ := by
  have split : Civil.split? (t.toCharsWith 'T') = some (t.date.civil, 'T' :: t.time.toChars) :=
    Civil.split?_toChars t.date.real.1 _
  have separator : Stamp.isSeparator 'T' = true := rfl
  simp only [Stamp.ofAnyText?, toText, String.toList_ofList, Stamp.ofText?, split, separator, if_true,
    DayTime.ofText?_toChars whole, Option.map_some]

end DateTime

end TableScan
