import Mathlib.Algebra.BigOperators.Fin
import Mathlib.Algebra.BigOperators.Finprod
import Mathlib.Algebra.Order.BigOperators.Group.Finset
import Mathlib.Tactic.Ring

/-!
# Sums of a function under a write to one point

How the total of a family of amounts changes when one of them does, as equations without
subtraction, so that a ledger argument is linear arithmetic.
-/

namespace Leopold.Lib

variable {ι : Type} [DecidableEq ι]

theorem sum_update_add {s : Finset ι} {i : ι} (hi : i ∈ s) (f : ι → Nat) (n : Nat) :
    (∑ j ∈ s, Function.update f i n j) + f i = (∑ j ∈ s, f j) + n := by
  rw [Finset.sum_update_of_mem hi, ← Finset.sum_sdiff (Finset.singleton_subset_iff.2 hi),
    Finset.sum_singleton]
  omega

theorem sum_univ_update_add [Fintype ι] (f : ι → Nat) (i : ι) (n : Nat) :
    (∑ j, Function.update f i n j) + f i = (∑ j, f j) + n :=
  sum_update_add (Finset.mem_univ i) f n

omit [DecidableEq ι] in
theorem le_sum [Fintype ι] (f : ι → Nat) (i : ι) : f i ≤ ∑ j, f j :=
  Finset.single_le_sum (fun _ _ => Nat.zero_le _) (Finset.mem_univ i)

/-- A write outside the range of a sum does not change it. -/
theorem sum_update_of_notMem' {s : Finset ι} {i : ι} (hi : i ∉ s) (f : ι → Nat) (n : Nat) :
    ∑ j ∈ s, Function.update f i n j = ∑ j ∈ s, f j :=
  Finset.sum_update_of_notMem hi f n

/-! ## Sums of finite support -/

theorem support_update_finite {f : ι → Nat} (hf : (Function.support f).Finite) (i : ι) (n : Nat) :
    (Function.support (Function.update f i n)).Finite := by
  refine (hf.insert i).subset fun j hj => ?_
  by_cases hij : j = i
  · exact .inl hij
  · rw [Function.mem_support, Function.update_of_ne hij] at hj
    exact .inr hj

theorem finsum_update_add {f : ι → Nat} (hf : (Function.support f).Finite) (i : ι) (n : Nat) :
    (∑ᶠ j, Function.update f i n j) + f i = (∑ᶠ j, f j) + n := by
  have hsub : Function.support f ⊆ ↑(insert i hf.toFinset) := by
    intro j hj
    simp only [Finset.coe_insert, Set.Finite.coe_toFinset]
    exact .inr hj
  have hsub' : Function.support (Function.update f i n) ⊆ ↑(insert i hf.toFinset) := by
    intro j hj
    by_cases hij : j = i
    · simp [hij]
    · rw [Function.mem_support, Function.update_of_ne hij] at hj
      exact hsub hj
  rw [finsum_eq_sum_of_support_subset _ hsub, finsum_eq_sum_of_support_subset _ hsub']
  exact sum_update_add (Finset.mem_insert_self _ _) f n

omit [DecidableEq ι] in
theorem le_finsum {f : ι → Nat} (hf : (Function.support f).Finite) (i : ι) : f i ≤ ∑ᶠ j, f j := by
  classical
  rw [finsum_eq_sum_of_support_subset f (s := insert i hf.toFinset)
    (fun j hj => by simp only [Finset.coe_insert, Set.Finite.coe_toFinset]; exact .inr hj)]
  exact Finset.single_le_sum (fun _ _ => Nat.zero_le _) (Finset.mem_insert_self _ _)

/-! ## Sums over lists of distinct members -/

/-- The sum over a list of distinct members under a write to one of them. -/
theorem list_sum_update_add {l : List ι} (hl : l.Nodup) {i : ι} (hi : i ∈ l) (f : ι → Nat)
    (n : Nat) : (l.map (Function.update f i n)).sum + f i = (l.map f).sum + n := by
  rw [← List.sum_toFinset _ hl, ← List.sum_toFinset _ hl]
  exact sum_update_add (List.mem_toFinset.2 hi) f n

theorem list_sum_update_of_notMem {l : List ι} {i : ι} (hi : i ∉ l) (f : ι → Nat) (n : Nat) :
    (l.map (Function.update f i n)).sum = (l.map f).sum := by
  congr 1
  apply List.map_congr_left
  intro j hj
  refine Function.update_of_ne ?_ _ _
  rintro rfl
  exact hi hj

/-- The sum over distinct members is at most the sum over everything. -/
theorem list_sum_le [Fintype ι] {l : List ι} (hl : l.Nodup) (f : ι → Nat) :
    (l.map f).sum ≤ ∑ j, f j := by
  rw [← List.sum_toFinset _ hl]
  exact Finset.sum_le_sum_of_subset (Finset.subset_univ _)

end Leopold.Lib
