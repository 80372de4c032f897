import Mathlib.Algebra.BigOperators.Group.List.Basic
import Mathlib.Data.Set.Card
import Mathlib.Order.Interval.Finset.Nat
import Mathlib.Algebra.Order.BigOperators.Group.Finset
import Mathlib.Tactic.Ring

/-!
# Drawing a member by weight

The members of a list hold consecutive intervals of tickets, each as long as its weight.  A
ticket below the total weight lies in the interval of exactly one member, and a member holds as
many tickets as it has weight.
-/

namespace Leopold.Lib

section

variable {α : Type} (f : α → Nat)

/-- Ticket `t` lies in the interval that `a` holds among the members `l`. -/
def Wins (l : List α) (t : Nat) (a : α) : Prop :=
  ∃ before after, l = before ++ a :: after ∧ (before.map f).sum ≤ t ∧
    t < (before.map f).sum + f a

variable {f} {l : List α} {t : Nat} {a b : α}

theorem Wins.mem (h : Wins f l t a) : a ∈ l := by
  obtain ⟨before, after, rfl, _, _⟩ := h
  simp

/-- A member that joins holds the interval after all the others. -/
theorem wins_concat : Wins f (l ++ [a]) t b ↔
    Wins f l t b ∨ (b = a ∧ (l.map f).sum ≤ t ∧ t < (l.map f).sum + f a) := by
  constructor
  · rintro ⟨before, after, heq, hle, hlt⟩
    rcases List.eq_nil_or_concat after with rfl | ⟨after, c, rfl⟩
    · obtain ⟨rfl, hb⟩ := List.append_inj' heq rfl
      obtain rfl := List.singleton_inj.1 hb
      exact .inr ⟨rfl, hle, hlt⟩
    · rw [List.concat_eq_append, ← List.cons_append, ← List.append_assoc] at heq
      obtain ⟨rfl, _⟩ := List.append_inj' heq rfl
      exact .inl ⟨before, after, rfl, hle, hlt⟩
  · rintro (⟨before, after, rfl, hle, hlt⟩ | ⟨rfl, hle, hlt⟩)
    · exact ⟨before, after ++ [a], by simp, hle, hlt⟩
    · exact ⟨l, [], rfl, hle, hlt⟩

theorem wins_nil : ¬ Wins f [] t a := fun h => nomatch h.mem

/-- A winning ticket is below the total weight. -/
theorem Wins.lt (h : Wins f l t a) : t < (l.map f).sum := by
  obtain ⟨before, after, rfl, _, hlt⟩ := h
  rw [List.map_append, List.sum_append, List.map_cons, List.sum_cons]
  omega

/-- Two members never hold the same ticket. -/
theorem Wins.unique (h : Wins f l t a) (h' : Wins f l t b) : a = b := by
  induction l using List.reverseRecOn with
  | nil => exact absurd h wins_nil
  | append_singleton l c ih =>
    rcases wins_concat.1 h with h | ⟨rfl, hle, _⟩
    · rcases wins_concat.1 h' with h' | ⟨_, hle', _⟩
      · exact ih h h'
      · exact absurd h.lt (Nat.not_lt.2 hle')
    · rcases wins_concat.1 h' with h' | ⟨rfl, _⟩
      · exact absurd h'.lt (Nat.not_lt.2 hle)
      · rfl

/-- Every ticket below the total weight is held. -/
theorem exists_wins (h : t < (l.map f).sum) : ∃ a, Wins f l t a := by
  induction l using List.reverseRecOn with
  | nil => exact absurd h (Nat.not_lt_zero t)
  | append_singleton l c ih =>
    rw [List.map_append, List.sum_append, List.map_singleton, List.sum_singleton] at h
    by_cases hlt : t < (l.map f).sum
    · obtain ⟨a, ha⟩ := ih hlt
      exact ⟨a, wins_concat.2 (.inl ha)⟩
    · exact ⟨c, wins_concat.2 (.inr ⟨rfl, Nat.not_lt.1 hlt, h⟩)⟩

/-- Later members do not take a ticket from those who came first. -/
theorem wins_append {l' : List α} (ha : a ∉ l') : Wins f (l ++ l') t a ↔ Wins f l t a := by
  induction l' using List.reverseRecOn with
  | nil => rw [List.append_nil]
  | append_singleton l' c ih =>
    rw [List.mem_append, List.mem_singleton, not_or] at ha
    rw [← List.append_assoc, wins_concat, ih ha.1]
    exact or_iff_left fun h => ha.2 h.1

/-- A member of a list without repetitions holds as many tickets as it has weight. -/
theorem ncard_wins (hl : l.Nodup) (ha : a ∈ l) : {t | Wins f l t a}.ncard = f a := by
  obtain ⟨before, after, rfl⟩ := List.append_of_mem ha
  have hafter : a ∉ after := (List.nodup_cons.1 (List.nodup_append'.1 hl).2.1).1
  have hbefore : a ∉ before := fun hmem =>
    (List.disjoint_left.1 (List.nodup_append'.1 hl).2.2 hmem) (List.mem_cons_self ..)
  have hset : {t | Wins f (before ++ a :: after) t a} =
      ↑(Finset.Ico (before.map f).sum ((before.map f).sum + f a)) := by
    ext t
    rw [Finset.coe_Ico, Set.mem_Ico, Set.mem_ofPred_eq, List.append_cons, wins_append hafter,
      wins_concat]
    constructor
    · rintro (h | ⟨_, hle, hlt⟩)
      · exact absurd h.mem hbefore
      · exact ⟨hle, hlt⟩
    · exact fun h => .inr ⟨rfl, h⟩
  rw [hset, Set.ncard_coe_finset, Nat.card_Ico, Nat.add_sub_cancel_left]

/-! ## Numbered holders -/

/-- Ticket `t` lies in the interval of the holder with number `i`, where each holder `j` has `w j`
tickets. -/
def Holds (w : Nat → Int) (i t : Nat) : Prop :=
  ∑ j ∈ Finset.range i, w j ≤ t ∧ t < ∑ j ∈ Finset.range i, w j + w i

section

variable {w : Nat → Int} {i j n : Nat}

theorem Holds.unique (hw : ∀ j, 0 ≤ w j) (h : Holds w i t) (h' : Holds w j t) : i = j := by
  have hle {i j : Nat} (hij : i < j) (h : Holds w i t) (h' : Holds w j t) : False := by
    have hsub : ∑ k ∈ Finset.range (i + 1), w k ≤ ∑ k ∈ Finset.range j, w k :=
      Finset.sum_le_sum_of_subset_of_nonneg (Finset.range_mono hij) fun k _ _ => hw k
    rw [Finset.sum_range_succ] at hsub
    exact absurd (h.2.trans_le hsub) (not_lt.2 h'.1)
  rcases Nat.lt_trichotomy i j with hij | hij | hij
  · exact (hle hij h h').elim
  · exact hij
  · exact (hle hij h' h).elim

end

/-! ## Rejection sampling -/

/-- Of the numbers below a multiple of the total weight, every ticket is the remainder of equally
many. -/
theorem ncard_mod_eq (quotient : Nat) {total : Nat} (ht : t < total) :
    {c | c < quotient * total ∧ c % total = t}.ncard = quotient := by
  have hset : {c | c < quotient * total ∧ c % total = t} =
      ↑((Finset.range quotient).image fun k => k * total + t) := by
    ext c
    simp only [Set.mem_ofPred_eq, Finset.coe_image, Finset.coe_range, Set.mem_image, Set.mem_Iio]
    constructor
    · rintro ⟨hlt, rfl⟩
      refine ⟨c / total, Nat.div_lt_of_lt_mul (by rwa [Nat.mul_comm]), ?_⟩
      rw [Nat.mul_comm, Nat.div_add_mod]
    · rintro ⟨k, hk, rfl⟩
      have hle : (k + 1) * total ≤ quotient * total := Nat.mul_le_mul_right _ hk
      rw [Nat.add_mul, Nat.one_mul] at hle
      exact ⟨by omega, by rw [Nat.mul_add_mod_self_right, Nat.mod_eq_of_lt ht]⟩
  have hinj : Function.Injective fun k => k * total + t := fun k k' h =>
    Nat.eq_of_mul_eq_mul_right (by omega : 0 < total) (Nat.add_right_cancel h)
  rw [hset, Set.ncard_coe_finset, Finset.card_image_of_injective _ hinj, Finset.card_range]

/-- The largest multiple of the total weight that is at most `domain` covers at least half of a
domain of even size. -/
theorem half_le_limit (half : Nat) {total : Nat} (hpos : 0 < total) (hle : total ≤ half) :
    half ≤ 2 * half / total * total := by
  have hmod := Nat.mod_lt (2 * half) hpos
  have hdiv := Nat.div_add_mod (2 * half) total
  rw [Nat.mul_comm] at hdiv
  omega

end

end Leopold.Lib
