/-! Blank characters, and the trimming of text at both ends. -/

namespace TableScan.Text

def isWhiteSpace (c : Char) : Bool :=
  let n := c.toNat
  (9 ≤ n && n ≤ 13) || n == 0x20 || n == 0x85 || n == 0xA0 || n == 0x1680 ||
    (0x2000 ≤ n && n ≤ 0x200A) || n == 0x2028 || n == 0x2029 || n == 0x202F || n == 0x205F ||
    n == 0x3000

/-- White space and the four information separators. -/
def isBlank (c : Char) : Bool := isWhiteSpace c || (0x1C ≤ c.toNat && c.toNat ≤ 0x1F)

def trimBy (blank : Char → Bool) (cs : List Char) : List Char :=
  ((cs.dropWhile blank).reverse.dropWhile blank).reverse

theorem trimBy_eq_self {blank : Char → Bool} {cs : List Char} (shown : ∀ c ∈ cs, blank c = false) :
    trimBy blank cs = cs := by
  have keep : ∀ ds : List Char, (∀ c ∈ ds, blank c = false) → ds.dropWhile blank = ds := by
    intro ds visible
    cases ds with
    | nil => rfl
    | cons d ds => simp [visible d (by simp)]
  unfold trimBy
  rw [keep cs shown, keep cs.reverse (by simpa using shown), List.reverse_reverse]

end TableScan.Text
