import Mathlib.Data.Nat.Basic
import Mathlib.Order.Basic
import Mathlib.Algebra.Order.BigOperators.Group.Finset
import Mathlib.Tactic.Ring

/-!
# Reverting computations

A call of a contract either reverts with an error or returns.  This file fixes the
vocabulary of such computations in `Except ε`: the guard `revertIf`, the checked arithmetic
of fixed-width unsigned integers, and the inversion lemmas that turn a successful run into
the list of facts its guards established.
-/

namespace Leopold.Lib

variable {ε α β : Type}

/-- `if (bad) revert e;` -/
def revertIf (bad : Prop) [Decidable bad] (e : ε) : Except ε Unit :=
  if bad then .error e else .ok ()

/-- Unsigned addition at `bits` bits that reverts with `e` on overflow. -/
def checkedAdd (bits : Nat) (e : ε) (a b : Nat) : Except ε Nat :=
  if a + b < 2 ^ bits then .ok (a + b) else .error e

/-- Unsigned multiplication at `bits` bits that reverts with `e` on overflow. -/
def checkedMul (bits : Nat) (e : ε) (a b : Nat) : Except ε Nat :=
  if a * b < 2 ^ bits then .ok (a * b) else .error e

/-- Unsigned subtraction that reverts with `e` on underflow. -/
def checkedSub (e : ε) (a b : Nat) : Except ε Nat :=
  if b ≤ a then .ok (a - b) else .error e

/-- The answer of a call that reverts with `e` when it answers nothing. -/
def orRevert (e : ε) : Option α → Except ε α
  | none => .error e
  | some a => .ok a

/-! ## Inversion of successful runs -/

/-- A sequence of two computations returns exactly when both do. -/
@[simp] theorem seq_eq_ok {m : Except ε α} {k : α → Except ε β} {b : β} :
    (m >>= k) = .ok b ↔ ∃ a, m = .ok a ∧ k a = .ok b := by
  rcases m with e | a
  · exact ⟨fun h => (nomatch h), fun ⟨_, h, _⟩ => (nomatch h)⟩
  · refine ⟨fun h => ⟨a, rfl, h⟩, ?_⟩
    rintro ⟨_, ⟨⟩, h⟩
    exact h

@[simp] theorem bind_ok (a : α) (f : α → Except ε β) : (Except.ok a >>= f) = f a := rfl

@[simp] theorem bind_error (e : ε) (f : α → Except ε β) :
    ((Except.error e : Except ε α) >>= f) = .error e := rfl

@[simp] theorem pure_eq_ok (a : α) : (pure a : Except ε α) = .ok a := rfl

@[simp] theorem revertIf_eq_ok {bad : Prop} [Decidable bad] {e : ε} {u : Unit} :
    revertIf bad e = .ok u ↔ ¬ bad := by
  unfold revertIf
  split <;> simp [*]

theorem revertIf_of_not {bad : Prop} [Decidable bad] {e : ε} (h : ¬ bad) :
    revertIf bad e = .ok () := if_neg h

@[simp] theorem checkedAdd_eq_ok {bits : Nat} {e : ε} {a b c : Nat} :
    checkedAdd bits e a b = .ok c ↔ a + b < 2 ^ bits ∧ c = a + b := by
  unfold checkedAdd
  split <;> simp [*, eq_comm]

@[simp] theorem checkedMul_eq_ok {bits : Nat} {e : ε} {a b c : Nat} :
    checkedMul bits e a b = .ok c ↔ a * b < 2 ^ bits ∧ c = a * b := by
  unfold checkedMul
  split <;> simp [*, eq_comm]

@[simp] theorem checkedSub_eq_ok {e : ε} {a b c : Nat} :
    checkedSub e a b = .ok c ↔ b ≤ a ∧ c = a - b := by
  unfold checkedSub
  split <;> simp [*, eq_comm]

@[simp] theorem orRevert_eq_ok {e : ε} {x : Option α} {a : α} :
    orRevert e x = .ok a ↔ x = some a := by
  cases x <;> simp [orRevert]

@[simp] theorem map_eq_ok {m : Except ε α} {f : α → β} {b : β} :
    m.map f = .ok b ↔ ∃ a, m = .ok a ∧ f a = b := by
  cases m <;> simp [Except.map]

@[simp] theorem ok_eq_ok {a b : α} : (Except.ok a : Except ε α) = .ok b ↔ a = b :=
  ⟨fun h => Except.ok.inj h, fun h => h ▸ rfl⟩

/-- Where a whole list passes, each element did. -/
theorem getElem?_of_mapM {f : α → Except ε β} {xs : List α} {ys : List β}
    (h : xs.mapM f = .ok ys) {i : Nat} {x : α} (hx : xs[i]? = some x) :
    ∃ y, f x = .ok y ∧ ys[i]? = some y := by
  induction xs generalizing ys i with
  | nil => cases hx
  | cons a xs ih =>
    rw [List.mapM_cons] at h
    obtain ⟨y, hy, h⟩ := seq_eq_ok.1 h
    obtain ⟨rest, hrest, h⟩ := seq_eq_ok.1 h
    obtain rfl := ok_eq_ok.1 h
    cases i with
    | zero =>
      obtain rfl := Option.some.inj hx
      exact ⟨y, hy, rfl⟩
    | succ i => exact ih hrest hx

/-! ## Inversion of runs that revert -/

variable {e : ε}

/-- A sequence reverts where its first computation does, or where the second one does. -/
theorem seq_eq_error {m : Except ε α} {k : α → Except ε β} :
    (m >>= k) = .error e ↔ m = .error e ∨ ∃ a, m = .ok a ∧ k a = .error e := by
  rcases m with e' | a
  · rw [bind_error]
    refine ⟨fun h => .inl (congrArg _ (Except.error.inj h)), ?_⟩
    rintro (h | ⟨_, h, _⟩)
    · exact congrArg _ (Except.error.inj h)
    · nomatch h
  · refine ⟨fun h => .inr ⟨a, rfl, h⟩, ?_⟩
    rintro (h | ⟨_, ⟨⟩, h⟩)
    · nomatch h
    · exact h

theorem revertIf_eq_error {bad : Prop} [Decidable bad] {e' : ε} :
    (revertIf bad e' : Except ε Unit) = .error e ↔ bad ∧ e = e' := by
  unfold revertIf
  split <;> simp [*, eq_comm]

theorem checkedAdd_eq_error {bits : Nat} {e' : ε} {a b : Nat} :
    checkedAdd bits e' a b = .error e ↔ 2 ^ bits ≤ a + b ∧ e = e' := by
  unfold checkedAdd
  split_ifs with hfits
  · exact iff_of_false nofun fun h => Nat.not_lt.2 h.1 hfits
  · rw [Except.error.injEq, eq_comm, and_iff_right (Nat.not_lt.1 hfits)]

theorem checkedMul_eq_error {bits : Nat} {e' : ε} {a b : Nat} :
    checkedMul bits e' a b = .error e ↔ 2 ^ bits ≤ a * b ∧ e = e' := by
  unfold checkedMul
  split_ifs with hfits
  · exact iff_of_false nofun fun h => Nat.not_lt.2 h.1 hfits
  · rw [Except.error.injEq, eq_comm, and_iff_right (Nat.not_lt.1 hfits)]

theorem checkedSub_eq_error {e' : ε} {a b : Nat} :
    checkedSub e' a b = .error e ↔ a < b ∧ e = e' := by
  unfold checkedSub
  split_ifs with hle
  · exact iff_of_false nofun fun h => Nat.not_lt.2 hle h.1
  · rw [Except.error.injEq, eq_comm, and_iff_right (Nat.not_le.1 hle)]

theorem orRevert_eq_error {e' : ε} {x : Option α} :
    orRevert e' x = .error e ↔ x = none ∧ e = e' := by
  cases x <;> simp [orRevert, eq_comm]

theorem map_eq_error {m : Except ε α} {f : α → β} :
    m.map f = .error e ↔ m = .error e := by
  cases m <;> simp [Except.map]

@[simp] theorem pure_ne_error {a : α} : (pure a : Except ε α) ≠ .error e := nofun

@[simp] theorem ok_ne_error {a : α} : (Except.ok a : Except ε α) ≠ .error e := nofun

/-! ## Computations under a map -/

section Map

variable {α' β' : Type} {m : Except ε α} {k : α → Except ε β}

/-- The map is taken into the second computation. -/
theorem map_bind_eq {g : β → β'} {k' : α → Except ε β'} (h : ∀ a, m = .ok a → (k a).map g = k' a) :
    (m >>= k).map g = m >>= k' := by
  rcases m with e | a
  · rfl
  · exact h a rfl

/-- Both computations have an image, and the second image is one of the first. -/
theorem map_bind_image_of_ok {f : α → α'} {g : β → β'} {m' : Except ε α'}
    {k' : α' → Except ε β'} (hm : m.map f = m')
    (h : ∀ a, m = .ok a → (k a).map g = k' (f a)) : (m >>= k).map g = m' >>= k' := by
  subst hm
  rcases m with e | a
  · rfl
  · exact h a rfl

theorem map_bind_image {f : α → α'} {g : β → β'} {m' : Except ε α'} {k' : α' → Except ε β'}
    (hm : m.map f = m') (h : ∀ a, (k a).map g = k' (f a)) : (m >>= k).map g = m' >>= k' :=
  map_bind_image_of_ok hm fun a _ => h a

theorem map_ite {p : Prop} [Decidable p] {m₁ m₂ : Except ε α} {m₁' m₂' : Except ε β} {f : α → β}
    (h₁ : p → m₁.map f = m₁') (h₂ : ¬ p → m₂.map f = m₂') :
    (if p then m₁ else m₂).map f = if p then m₁' else m₂' := by
  split_ifs with hp
  · exact h₁ hp
  · exact h₂ hp

theorem map_fst_image {γ : Type} {m : Except ε (α × γ)} {f : α → α'} {m' : Except ε (α' × β)}
    (g : γ → β) (h : m.map (fun r => (f r.1, g r.2)) = m') :
    (m.map Prod.fst).map f = m'.map Prod.fst := by
  subst h
  cases m <;> rfl

theorem orRevert_map {x : Option α} {f : α → β} :
    (orRevert e x).map f = orRevert e (x.map f) := by
  cases x <;> rfl

end Map

/-! ## Errors that do not occur -/

/-- The computation does not revert with an error of `bad`. -/
def Avoids (bad : ε → Prop) (m : Except ε α) : Prop := ∀ e, m = .error e → ¬ bad e

namespace Avoids

variable {bad : ε → Prop} {e : ε}

theorem ok (a : α) : Avoids bad (.ok a : Except ε α) := nofun

theorem error (h : ¬ bad e) : Avoids bad (.error e : Except ε α) := by
  rintro _ ⟨⟩
  exact h

theorem of_eq_ok {m : Except ε α} {a : α} (h : m = .ok a) : Avoids bad m := h ▸ ok a

theorem bind {m : Except ε α} {k : α → Except ε β} (hm : Avoids bad m)
    (hk : ∀ a, m = .ok a → Avoids bad (k a)) : Avoids bad (m >>= k) := by
  intro e he
  rcases seq_eq_error.1 he with h | ⟨a, ha, h⟩
  · exact hm e h
  · exact hk a ha e h

theorem revertIf {p : Prop} [Decidable p] (h : ¬ bad e) :
    Avoids bad (Lib.revertIf p e : Except ε Unit) := by
  intro e' he
  rw [(revertIf_eq_error.1 he).2]
  exact h

theorem checkedAdd {bits a b : Nat} (h : ¬ bad e) : Avoids bad (checkedAdd bits e a b) := by
  intro e' he
  rw [(checkedAdd_eq_error.1 he).2]
  exact h

theorem checkedMul {bits a b : Nat} (h : ¬ bad e) : Avoids bad (checkedMul bits e a b) := by
  intro e' he
  rw [(checkedMul_eq_error.1 he).2]
  exact h

theorem checkedSub {a b : Nat} (h : ¬ bad e) : Avoids bad (checkedSub e a b) := by
  intro e' he
  rw [(checkedSub_eq_error.1 he).2]
  exact h

/-- A subtraction that does not underflow. -/
theorem checkedSub_of_le {a b : Nat} (h : b ≤ a) : Avoids bad (Lib.checkedSub e a b) :=
  of_eq_ok (if_pos h)

theorem orRevert {x : Option α} (h : ¬ bad e) : Avoids bad (orRevert e x) := by
  intro e' he
  rw [(orRevert_eq_error.1 he).2]
  exact h

theorem map {m : Except ε α} {f : α → β} (h : Avoids bad m) : Avoids bad (m.map f) :=
  fun e he => h e (map_eq_error.1 he)

theorem ite {p : Prop} [Decidable p] {m m' : Except ε α} (h : p → Avoids bad m)
    (h' : ¬ p → Avoids bad m') : Avoids bad (if p then m else m') := by
  split_ifs with hp
  · exact h hp
  · exact h' hp

end Avoids

end Leopold.Lib
