import Mathlib.Algebra.Group.Nat.Defs
import TableScan.Uuid

/-! The text of an identifier. Main statement: reading it gives the identifier back. -/

namespace TableScan.Uuid

open Text

theorem nibble?_hexDigit (n : Nat) : nibble? (hexDigit n) = some (n % 16) := by
  have digits : ∀ k < 16, nibble? (Nat.digitChar k) = some k := by decide
  exact digits (n % 16) (Nat.mod_lt n (by decide))

theorem length_hexDigits (width n : Nat) : (hexDigits width n).length = width := by
  induction width generalizing n with
  | zero => rfl
  | succ width ih => rw [hexDigits, List.length_append, ih, List.length_singleton]

theorem readHex?_append_singleton (cs : List Char) (c : Char) :
    readHex? (cs ++ [c]) = (readHex? cs).bind fun n => (nibble? c).map (16 * n + ·) := by
  simp [readHex?, List.foldl_append]

theorem readHex?_hexDigits (width n : Nat) : readHex? (hexDigits width n) = some (n % 16 ^ width) := by
  induction width generalizing n with
  | zero => simp [hexDigits, readHex?, Nat.mod_one]
  | succ width ih =>
    rw [hexDigits, readHex?_append_singleton, ih, nibble?_hexDigit]
    have split : n % 16 ^ (width + 1) = n % 16 + 16 * (n / 16 % 16 ^ width) := by
      rw [Nat.pow_succ', Nat.mod_mul]
    simp only [Option.bind_some, Option.map_some, Option.some.injEq]
    omega

theorem ofGroups?_groups {cs : List Char} (length : cs.length = 32) :
    ofGroups? (groups cs) = ofDigits? cs := by
  have whole : cs = cs.take 8 ++ ((cs.drop 8).take 4 ++ ((cs.drop 12).take 4 ++
      ((cs.drop 16).take 4 ++ cs.drop 20))) := by
    rw [show cs.drop 12 = (cs.drop 8).drop 4 by simp, show cs.drop 16 = ((cs.drop 8).drop 4).drop 4 by
      simp, show cs.drop 20 = (((cs.drop 8).drop 4).drop 4).drop 4 by simp, List.take_append_drop,
      List.take_append_drop, List.take_append_drop, List.take_append_drop]
  have joined : ofGroups? (groups cs) = ofDigits? (cs.take 8 ++ ((cs.drop 8).take 4 ++
      ((cs.drop 12).take 4 ++ ((cs.drop 16).take 4 ++ cs.drop 20)))) := by
    simp [groups, ofGroups?, List.drop_append, List.drop_take, List.getElem?_append, length]
  rw [joined, ← whole]

theorem ofText?_toChars (u : Uuid) : ofText? u.toChars = some u := by
  have length : (hexDigits 32 u.bits.toNat).length = 32 := length_hexDigits 32 _
  have long : u.toChars.length = 36 := by
    simp [toChars, groups, length]
  have fits : u.bits.toNat % 16 ^ 32 = u.bits.toNat := Nat.mod_eq_of_lt u.bits.isLt
  rw [ofText?, if_neg (by omega), if_neg (by omega), if_neg (by omega), toChars, ofGroups?_groups length,
    ofDigits?, if_pos length, readHex?_hexDigits, fits, Option.map_some, BitVec.ofNat_toNat,
    BitVec.setWidth_eq]

end TableScan.Uuid
