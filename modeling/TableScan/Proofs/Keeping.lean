import TableScan.Proofs.CalendarText
import TableScan.Proofs.Equality
import TableScan.Proofs.Gives

/-! The values that the store keeps for fields of a type, and what they come back as. -/

namespace TableScan

inductive FieldType.OfSets : FieldType → Prop where
  | text : OfSets .text
  | int : OfSets .int
  | bytes : OfSets .bytes
  | decimal : OfSets .decimal
  | uuid : OfSets .uuid
  | date : OfSets .date

/-- The entry is one of the enumeration's, and the first of those with its value. -/
def Enumeration.Owns (e : Enumeration) (entry : String × Value) : Prop :=
  e.members.find? (fun other => Value.same other.2 entry.2) = some entry

inductive Keeps : FieldType → Value → Prop where
  | text (s : String) : Keeps .text (.text s)
  | int (n : Int) : Keeps .int (.int n)
  | bool (b : Bool) : Keeps .bool (.bool b)
  | bytes (bs : List UInt8) : Keeps .bytes (.bytes bs)
  | null : Keeps .null .null
  | decimal {d : Decimal} (finite : d.isFinite = true) : Keeps .decimal (.decimal d)
  | uuid (u : Uuid) : Keeps .uuid (.uuid u)
  | date (d : Date) : Keeps .date (.date d)
  | datetime {t : DateTime} (whole : t.IsWholeMinutes) : Keeps .datetime (.datetime t)
  | textMember {e : Enumeration} {name s : String} (base : e.base ≠ .int)
    (owns : e.Owns (name, .text s)) : Keeps (.enumeration e) (e.memberOf (name, .text s))
  | intMember {e : Enumeration} {name : String} {n : Int} (base : e.base = .int)
    (owns : e.Owns (name, .int n)) (words : isWord n = true ∨ e.hasWord = false) :
    Keeps (.enumeration e) (e.memberOf (name, .int n))
  | list {t : FieldType} {items : List Value} (typed : t.isAny = false)
    (each : ∀ x ∈ items, Keeps t x) : Keeps (.collection .list t) (.list items)
  | sequence {t : FieldType} {items : List Value} (each : ∀ x ∈ items, Keeps t x) :
    Keeps (.collection .tuple t) (.tuple items)
  | set {t : FieldType} {items : List Value} (member : t.OfSets) (each : ∀ x ∈ items, Keeps t x)
    (different : Value.Distinct items) : Keeps (.collection .set t) (.set items)
  | frozenset {t : FieldType} {items : List Value} (member : t.OfSets) (each : ∀ x ∈ items, Keeps t x)
    (different : Value.Distinct items) : Keeps (.collection .frozenset t) (.frozenset items)
  | tuple {ts : List FieldType} {items : List Value} (length : ts.length = items.length)
    (each : ∀ p ∈ ts.zip items, Keeps p.1 p.2) : Keeps (.tuple ts) (.tuple items)
  | map {t : FieldType} {entries : List (Value × Value)}
    (names : ∀ entry ∈ entries, ∃ s, entry.1 = .text s) (each : ∀ entry ∈ entries, Keeps t entry.2)
    (different : Value.Distinct (entries.map (·.1))) : Keeps (.map .text t) (.map entries)
  | absent {ts : List FieldType} (absent : ts.any FieldType.isNull = true) {t : FieldType}
    (only : FieldType.presentAlternatives ts = [t]) : Keeps (.union ts) .null
  | present {ts : List FieldType} (absent : ts.any FieldType.isNull = true) {t : FieldType}
    (only : FieldType.presentAlternatives ts = [t]) {w : Value} (kept : Keeps t w) :
    Keeps (.union ts) w

namespace Value

mutual

/-- What an encoded value is decoded to before it is fitted to the field's type again. -/
def readBack : Value → Value
  | .int n => .decimal (.ofInt n)
  | .datetime t => .text t.toText
  | .date d => .text d.toText
  | .uuid u => .text u.toText
  | .member _ _ _ v => readBack v
  | .list items | .tuple items => .list (readBackAll items)
  | .set items | .frozenset items => .set (readBackAll items)
  | .map entries => .map (readBackEntries entries)
  | v => v
termination_by structural v => v

def readBackAll : List Value → List Value
  | [] => []
  | v :: items => readBack v :: readBackAll items
termination_by structural items => items

def readBackEntries : List (Value × Value) → List (Value × Value)
  | [] => []
  | (k, v) :: entries => (k, readBack v) :: readBackEntries entries
termination_by structural entries => entries

end

mutual

/-- The value with the offsets of its moments as they come from a text. -/
def reread : Value → Value
  | .datetime t => .datetime t.asRead
  | .list items => .list (rereadAll items)
  | .tuple items => .tuple (rereadAll items)
  | .map entries => .map (rereadEntries entries)
  | v => v
termination_by structural v => v

def rereadAll : List Value → List Value
  | [] => []
  | v :: items => reread v :: rereadAll items
termination_by structural items => items

def rereadEntries : List (Value × Value) → List (Value × Value)
  | [] => []
  | (k, v) :: entries => (k, reread v) :: rereadEntries entries
termination_by structural entries => entries

end

theorem readBackAll_eq_map (items : List Value) : readBackAll items = items.map readBack := by
  induction items with
  | nil => rfl
  | cons v items ih => rw [readBackAll, ih, List.map_cons]

theorem readBackEntries_eq_map (entries : List (Value × Value)) :
    readBackEntries entries = entries.map fun entry => (entry.1, readBack entry.2) := by
  induction entries with
  | nil => rfl
  | cons entry entries ih => rw [readBackEntries, ih, List.map_cons]

theorem rereadAll_eq_map (items : List Value) : rereadAll items = items.map reread := by
  induction items with
  | nil => rfl
  | cons v items ih => rw [rereadAll, ih, List.map_cons]

theorem rereadEntries_eq_map (entries : List (Value × Value)) :
    rereadEntries entries = entries.map fun entry => (entry.1, reread entry.2) := by
  induction entries with
  | nil => rfl
  | cons entry entries ih => rw [rereadEntries, ih, List.map_cons]

end Value

namespace Keeps

variable {t : FieldType} {w : Value}

theorem eq_null_of_readBack (kept : Keeps t w) (null : w.readBack = .null) : w = .null := by
  induction kept with
  | null | absent => rfl
  | present _ _ _ ih => exact ih null
  | _ => cases null

theorem reread_eq_self (member : t.OfSets) (kept : Keeps t w) : w.reread = w := by
  cases member <;> cases kept <;> rfl

end Keeps

end TableScan
