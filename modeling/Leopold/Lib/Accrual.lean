import Leopold.Lib.Sums
import Leopold.Lib.TimeWeighted

/-!
# Accruing a time-weighted sum over a growing group

A group of members, each of whom joined at some time and has a history of values, is summed in
constant time per event: only the total of the current values and the sum accrued so far are
kept.  An event first advances the sum to its own time, then changes one value or adds one
member.  The sum kept is the sum of the members' own histories from the time each joined.
-/

namespace Leopold.Lib

/-- The group with what an accrual keeps of it. -/
@[ext] structure Accrual (α : Type) where
  members : List α
  /-- When a member joined. -/
  start : α → Nat
  history : α → Nat → Nat
  current : α → Nat
  /-- The time up to which the sum is accrued. -/
  time : Nat
  total : Nat
  cumulative : Nat

namespace Accrual

section

variable {α : Type}

/-- The weight of a member from the time it joined to `t`. -/
def weight (A : Accrual α) (t : Nat) (a : α) : Nat :=
  ∑ s ∈ Finset.Ico (A.start a) t, A.history a s

/-- The total and the sum accrued agree with the histories of the members. -/
structure Sound (A : Accrual α) : Prop where
  nodup : A.members.Nodup
  start_le : ∀ a ∈ A.members, A.start a ≤ A.time
  current_eq : ∀ a ∈ A.members, ∀ s, A.time ≤ s → A.history a s = A.current a
  total_eq : A.total = (A.members.map A.current).sum
  cumulative_eq : A.cumulative = (A.members.map (A.weight A.time)).sum

/-- The sum brought to time `t`. -/
def advance (A : Accrual α) (t : Nat) : Accrual α :=
  { A with time := t, cumulative := A.cumulative + A.total * (t - A.time) }

variable [DecidableEq α]

/-- A member joins at the time of the accrual. -/
def enroll (A : Accrual α) (a : α) : Accrual α :=
  { A with
    members := A.members ++ [a]
    start := Function.update A.start a A.time
    total := A.total + A.current a }

/-- The value of `a` becomes `n` from time `t` on. -/
def rebalance (A : Accrual α) (t : Nat) (a : α) (n : Nat) : Accrual α :=
  { A with
    history := Function.update A.history a fun s => if t ≤ s then n else A.history a s
    current := Function.update A.current a n
    total := if a ∈ A.members then A.total - A.current a + n else A.total }

end

namespace Sound

variable {α : Type} {A : Accrual α} {t n : Nat} {a : α}

theorem current_le (h : A.Sound) (ha : a ∈ A.members) : A.current a ≤ A.total := by
  rw [h.total_eq]
  exact List.single_le_sum (fun _ _ => Nat.zero_le _) _ (List.mem_map_of_mem ha)

/-- Nothing but the time passes. -/
theorem advance (h : A.Sound) (ht : A.time ≤ t) : (A.advance t).Sound := by
  refine ⟨h.nodup, fun a ha => (h.start_le a ha).trans ht,
    fun a ha s hs => h.current_eq a ha s (ht.trans hs), h.total_eq, ?_⟩
  -- each member contributes its current value for the time that passed
  have hweight : ∀ a ∈ A.members,
      A.weight t a = A.weight A.time a + A.current a * (t - A.time) := by
    intro a ha
    rw [weight, weight, ← Finset.sum_Ico_consecutive _ (h.start_le a ha) ht]
    congr 1
    rw [Finset.sum_congr rfl fun s hs => h.current_eq a ha s (Finset.mem_Ico.1 hs).1,
      Finset.sum_const, Nat.card_Ico, smul_eq_mul, Nat.mul_comm]
  show A.cumulative + A.total * (t - A.time) = (A.members.map (A.weight t)).sum
  rw [List.map_congr_left hweight, List.sum_map_add, List.sum_map_mul_right, h.total_eq,
    h.cumulative_eq]

variable [DecidableEq α]

theorem enroll (h : A.Sound) (ha : a ∉ A.members)
    (hcurrent : ∀ s, A.time ≤ s → A.history a s = A.current a) : (A.enroll a).Sound := by
  have hne : ∀ b ∈ A.members, b ≠ a := fun b hb hab => ha (hab ▸ hb)
  constructor
  · exact List.nodup_append'.2 ⟨h.nodup, List.nodup_singleton a, by simpa using ha⟩
  · intro b hb
    rcases List.mem_append.1 hb with hb | hb
    · simp only [Accrual.enroll, Function.update_of_ne (hne b hb)]
      exact h.start_le b hb
    · rw [List.mem_singleton] at hb
      subst hb
      simp only [Accrual.enroll, Function.update_self, Nat.le_refl]
  · intro b hb s hs
    rcases List.mem_append.1 hb with hb | hb
    · exact h.current_eq b hb s hs
    · rw [List.mem_singleton] at hb
      exact hb ▸ hcurrent s hs
  · show A.total + A.current a = ((A.members ++ [a]).map A.current).sum
    rw [List.map_append, List.sum_append, ← h.total_eq, List.map_singleton, List.sum_singleton]
  · -- the new member has no weight yet
    have hself : (A.enroll a).weight A.time a = 0 := by
      simp only [weight, Accrual.enroll, Function.update_self, Finset.Ico_self, Finset.sum_empty]
    have hother : ∀ b ∈ A.members, (A.enroll a).weight A.time b = A.weight A.time b := by
      intro b hb
      simp only [weight, Accrual.enroll, Function.update_of_ne (hne b hb)]
    show A.cumulative = ((A.members ++ [a]).map ((A.enroll a).weight A.time)).sum
    rw [List.map_append, List.sum_append, List.map_congr_left hother, List.map_singleton, hself,
      List.sum_singleton, Nat.add_zero, h.cumulative_eq]

/-- A change at the time of the accrual, or of somebody who is no member. -/
theorem rebalance (h : A.Sound) (ht : a ∈ A.members → t = A.time) :
    (A.rebalance t a n).Sound := by
  have hweight : ∀ b ∈ A.members, (A.rebalance t a n).weight A.time b = A.weight A.time b := by
    intro b hb
    by_cases hab : b = a
    · subst hab
      refine Finset.sum_congr rfl fun s hs => ?_
      have hs : s < A.time := (Finset.mem_Ico.1 hs).2
      simp only [Accrual.rebalance, Function.update_self]
      rw [if_neg (by rw [ht hb]; omega)]
    · simp only [weight, Accrual.rebalance, Function.update_of_ne hab]
  constructor
  · exact h.nodup
  · exact h.start_le
  · intro b hb s hs
    have hb : b ∈ A.members := hb
    have hs : A.time ≤ s := hs
    by_cases hab : b = a
    · subst hab
      simp only [Accrual.rebalance, Function.update_self]
      rw [if_pos (by rw [ht hb]; exact hs)]
    · simp only [Accrual.rebalance, Function.update_of_ne hab]
      exact h.current_eq b hb s hs
  · show (if a ∈ A.members then A.total - A.current a + n else A.total) =
      (A.members.map (Function.update A.current a n)).sum
    by_cases ha : a ∈ A.members
    · have hsum := list_sum_update_add h.nodup ha A.current n
      have hle := h.current_le ha
      rw [← h.total_eq] at hsum
      rw [if_pos ha]
      omega
    · rw [if_neg ha, list_sum_update_of_notMem ha, h.total_eq]
  · show A.cumulative = (A.members.map ((A.rebalance t a n).weight A.time)).sum
    rw [List.map_congr_left hweight, h.cumulative_eq]

end Sound

end Accrual

end Leopold.Lib
