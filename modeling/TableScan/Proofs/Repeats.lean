import Mathlib.Data.List.Basic

/-! Lists from which what repeats an earlier member is left out. -/

namespace TableScan.Repeats

variable {α : Type} {R : α → α → Bool} {kept items : List α} {x : α}

/-- The kept members and, of the items, those that no earlier one stands for. -/
def keep (R : α → α → Bool) (kept items : List α) : List α :=
  items.foldl (fun kept x => if kept.any (R · x) then kept else kept ++ [x]) kept

theorem keep_cons (kept : List α) (x : α) (items : List α) :
    keep R kept (x :: items) =
      if kept.any (R · x) = true then keep R kept items else keep R (kept ++ [x]) items := by
  rw [keep, List.foldl_cons]
  split <;> rfl

theorem keep_eq_append (different : (kept ++ items).Pairwise fun x y => R x y = false) :
    keep R kept items = kept ++ items := by
  induction items generalizing kept with
  | nil => simp [keep]
  | cons x items ih =>
    have new : ¬kept.any (R · x) = true := by
      intro known
      obtain ⟨y, member, same⟩ := List.any_eq_true.1 known
      rw [(List.pairwise_append.1 different).2.2 y member x (by simp)] at same
      cases same
    rw [keep_cons, if_neg new, ih (by simpa using different), List.append_assoc,
      List.singleton_append]

theorem pairwise_keep (different : kept.Pairwise fun x y => R x y = false) :
    (keep R kept items).Pairwise fun x y => R x y = false := by
  induction items generalizing kept with
  | nil => exact different
  | cons x items ih =>
    rw [keep_cons]
    split
    · exact ih different
    · next new =>
      refine ih (List.pairwise_append.2 ⟨different, by simp, fun y member z last => ?_⟩)
      rw [List.mem_singleton.1 last, ← Bool.not_eq_true]
      exact fun same => new (List.any_eq_true.2 ⟨y, member, same⟩)

theorem keep_sublist : (keep R kept items).Sublist (kept ++ items) := by
  induction items generalizing kept with
  | nil => simp [keep]
  | cons x items ih =>
    rw [keep_cons]
    split
    · exact ih.trans ((List.append_sublist_append_left kept).2 (List.sublist_cons_self x items))
    · simpa using @ih (kept ++ [x])

theorem subset_keep : kept ⊆ keep R kept items := by
  induction items generalizing kept with
  | nil => simp [keep]
  | cons x items ih =>
    rw [keep_cons]
    split
    · exact ih
    · exact List.Subset.trans (by simp) (@ih (kept ++ [x]))

/-- Of each item one that is it or stands for it is kept. -/
theorem exists_mem_keep (member : x ∈ items) : ∃ y ∈ keep R kept items, y = x ∨ R y x = true := by
  induction items generalizing kept with
  | nil => cases member
  | cons first items ih =>
    rw [keep_cons]
    rcases List.mem_cons.1 member with rfl | later
    · split
      · next known =>
        obtain ⟨y, found, same⟩ := List.any_eq_true.1 known
        exact ⟨y, subset_keep found, .inr same⟩
      · exact ⟨x, subset_keep (by simp), .inl rfl⟩
    · split
      · exact ih later
      · exact ih later

end TableScan.Repeats
