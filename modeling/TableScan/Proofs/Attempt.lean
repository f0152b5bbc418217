import Mathlib.Data.List.Forall2

/-! Steps that may fail, one after the other. -/

namespace TableScan.Attempt

variable {ε α β : Type}

@[simp]
theorem ok_bind (x : α) (f : α → Except ε β) : (Except.ok x >>= f) = f x := rfl

@[simp]
theorem error_bind (e : ε) (f : α → Except ε β) : (Except.error e >>= f) = .error e := rfl

@[simp]
theorem pure_eq_ok (x : α) : (pure x : Except ε α) = .ok x := rfl

theorem bind_eq_ok_iff {x : Except ε α} {f : α → Except ε β} {y : β} :
    (x >>= f) = .ok y ↔ ∃ a, x = .ok a ∧ f a = .ok y := by
  cases x <;> simp

theorem bind_eq_error_iff {x : Except ε α} {f : α → Except ε β} {e : ε} :
    (x >>= f) = .error e ↔ x = .error e ∨ ∃ a, x = .ok a ∧ f a = .error e := by
  cases x <;> simp

@[simp]
theorem map_ok (f : α → β) (x : α) : (Except.ok x : Except ε α).map f = .ok (f x) := rfl

@[simp]
theorem map_error (f : α → β) (e : ε) : (Except.error e : Except ε α).map f = .error e := rfl

theorem exists_split_cons_iff {x : α} {xs : List α} {passed hit : α → Prop} :
    (∃ before y after, x :: xs = before ++ y :: after ∧ (∀ z ∈ before, passed z) ∧ hit y) ↔
      hit x ∨ passed x ∧
        ∃ before y after, xs = before ++ y :: after ∧ (∀ z ∈ before, passed z) ∧ hit y := by
  constructor
  · intro given
    rcases given with ⟨_ | ⟨z, before⟩, y, after, split, each, found⟩
    · cases split
      exact .inl found
    · cases split
      exact .inr ⟨each x (by simp), before, y, after, rfl,
        fun z member => each z (by simp [member]), found⟩
  · intro given
    rcases given with found | ⟨first, before, y, after, rfl, each, found⟩
    · exact ⟨[], x, xs, rfl, by simp, found⟩
    · exact ⟨x :: before, y, after, rfl, by simpa using ⟨first, each⟩, found⟩

/-- A list fails where its first failing member does. -/
theorem mapM_eq_error_iff {f : α → Except ε β} {xs : List α} {e : ε} :
    xs.mapM f = .error e ↔
      ∃ before x after, xs = before ++ x :: after ∧ (∀ y ∈ before, ∃ z, f y = .ok z) ∧
        f x = .error e := by
  induction xs with
  | nil => simp
  | cons x xs ih =>
    rw [List.mapM_cons, exists_split_cons_iff, ← ih]
    cases f x with
    | error e' => simp
    | ok z => simp [bind_eq_error_iff]

theorem mapM_eq_ok_iff {f : α → Except ε β} {xs : List α} {ys : List β} :
    xs.mapM f = .ok ys ↔ List.Forall₂ (fun x y => f x = .ok y) xs ys := by
  induction xs generalizing ys with
  | nil => simp [eq_comm]
  | cons x xs ih =>
    simp only [List.mapM_cons, bind_eq_ok_iff, ih, pure_eq_ok, Except.ok.injEq]
    constructor
    · intro given
      obtain ⟨y, one, rest, others, rfl⟩ := given
      exact .cons one others
    · intro given
      rcases given with _ | ⟨one, others⟩
      exact ⟨_, one, _, others, rfl⟩

theorem exists_forall₂_iff {R : α → β → Prop} {xs : List α} :
    (∃ ys, List.Forall₂ R xs ys) ↔ ∀ x ∈ xs, ∃ y, R x y := by
  induction xs with
  | nil => simp
  | cons x xs ih =>
    rw [List.forall_mem_cons, ← ih]
    constructor
    · rintro ⟨_, _ | ⟨one, others⟩⟩
      exact ⟨⟨_, one⟩, _, others⟩
    · rintro ⟨⟨y, one⟩, ys, others⟩
      exact ⟨y :: ys, .cons one others⟩

theorem exists_mapM_iff {f : α → Except ε β} {xs : List α} :
    (∃ ys, xs.mapM f = .ok ys) ↔ ∀ x ∈ xs, ∃ y, f x = .ok y := by
  simp only [mapM_eq_ok_iff, exists_forall₂_iff]

theorem forall₂_imp_of_mem {R S : α → β → Prop} {xs : List α} {ys : List β}
    (step : ∀ x ∈ xs, ∀ y, R x y → S x y) (each : List.Forall₂ R xs ys) : List.Forall₂ S xs ys := by
  have both := (List.forall₂_and_left _ _).2 ⟨fun x (found : x ∈ xs) => found, each⟩
  exact both.imp fun x y both => step x both.1 y both.2

theorem forall₂_iff_of_mem {R S : α → β → Prop} {xs : List α} {ys : List β}
    (step : ∀ x ∈ xs, ∀ y, R x y ↔ S x y) : List.Forall₂ R xs ys ↔ List.Forall₂ S xs ys :=
  ⟨forall₂_imp_of_mem fun x found y => (step x found y).1,
    forall₂_imp_of_mem fun x found y => (step x found y).2⟩

theorem exists_mem_of_forall₂ {R : α → β → Prop} {xs : List α} {ys : List β}
    (each : List.Forall₂ R xs ys) : ∀ y ∈ ys, ∃ x ∈ xs, R x y := by
  induction each with
  | nil => simp
  | cons one _ ih =>
    refine List.forall_mem_cons.2 ⟨⟨_, List.mem_cons_self, one⟩, fun y found => ?_⟩
    obtain ⟨x, member, related⟩ := ih y found
    exact ⟨x, List.mem_cons_of_mem _ member, related⟩

/-- What holds between any two members of one list holds between those that they are related to. -/
theorem pairwise_of_forall₂ {R : α → β → Prop} {S : α → α → Prop} {T : β → β → Prop} {xs : List α}
    {ys : List β} (each : List.Forall₂ R xs ys)
    (step : ∀ x x' y y', R x y → R x' y' → T y y' → S x x') (pairs : ys.Pairwise T) :
    xs.Pairwise S := by
  rw [← List.map_snd_zip (Nat.le_of_eq each.length_eq.symm), List.pairwise_map] at pairs
  rw [← List.map_fst_zip (Nat.le_of_eq each.length_eq), List.pairwise_map]
  exact pairs.imp_of_mem fun {p q} one other related =>
    step _ _ _ _ (List.forall₂_zip each one) (List.forall₂_zip each other) related

/-- To relate lists through a third is to relate their members through its members. -/
theorem forall₂_comp_iff {γ : Type} {R : α → β → Prop} {S : β → γ → Prop} {xs : List α} {zs : List γ} :
    (∃ ys, List.Forall₂ R xs ys ∧ List.Forall₂ S ys zs) ↔
      List.Forall₂ (fun x z => ∃ y, R x y ∧ S y z) xs zs := by
  constructor
  · intro given
    obtain ⟨ys, first, second⟩ := given
    induction first generalizing zs with
    | nil =>
      cases second
      exact .nil
    | cons one _ ih =>
      rcases second with _ | ⟨other, others⟩
      exact .cons ⟨_, one, other⟩ (ih others)
  · intro both
    induction both with
    | nil => exact ⟨[], .nil, .nil⟩
    | cons one _ ih =>
      obtain ⟨y, first, second⟩ := one
      obtain ⟨ys, firsts, seconds⟩ := ih
      exact ⟨y :: ys, .cons first firsts, .cons second seconds⟩

/-- Two steps on all members one after the other are both steps on each. -/
theorem mapM_bind_mapM_eq_ok_iff {γ : Type} {f : α → Except ε β} {g : β → Except ε γ} {xs : List α}
    {zs : List γ} :
    (xs.mapM f >>= (·.mapM g)) = .ok zs ↔ List.Forall₂ (fun x z => (f x >>= g) = .ok z) xs zs := by
  simp only [bind_eq_ok_iff, mapM_eq_ok_iff, forall₂_comp_iff]

theorem map_eq_ok_iff {x : Except ε α} {f : α → β} {y : β} :
    x.map f = .ok y ↔ ∃ a, x = .ok a ∧ f a = y := by
  cases x <;> simp

theorem mapError_eq_ok_iff {ε' : Type} {x : Except ε α} {f : ε → ε'} {y : α} :
    x.mapError f = .ok y ↔ x = .ok y := by
  cases x <;> simp [Except.mapError]

theorem map_eq_error_iff {x : Except ε α} {f : α → β} {e : ε} :
    x.map f = .error e ↔ x = .error e := by
  cases x <;> simp

end TableScan.Attempt
