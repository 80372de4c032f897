import Leopold.Lib.Bisect
import Mathlib.Algebra.BigOperators.Intervals
import Mathlib.Algebra.Order.BigOperators.Group.Finset
import Mathlib.Algebra.Group.Action.Defs
import Mathlib.Tactic.Common

/-!
# Checkpointed histories

A quantity that changes at known times is kept as a list of checkpoints: when it changed, its
value from then on, and its time-weighted sum up to then.  The history a list stands for is the
function `valueAt`; the sums the checkpoints carry are sums of that function, so the sum up to any
time follows from one checkpoint.
-/

namespace Leopold.Lib

section

variable {σ : Type} (time value cumulative : σ → Nat)

/-- The value at time `s`: that of the last checkpoint at or before `s`. -/
def valueAt (l : List σ) (s : Nat) : Nat :=
  l.foldl (fun v o => if time o ≤ s then value o else v) 0

/-- The checkpoints are ordered and each carries the sum of the history before it. -/
structure Tracks (l : List σ) : Prop where
  sorted : l.Pairwise fun o o' => time o < time o'
  exact_sum : ∀ o ∈ l, cumulative o = ∑ s ∈ Finset.range (time o), valueAt time value l s

variable {time value cumulative} {l : List σ} {o o' : σ} {s t bound : Nat}

theorem valueAt_concat : valueAt time value (l ++ [o]) s =
    if time o ≤ s then value o else valueAt time value l s := by
  rw [valueAt, List.foldl_append]
  rfl

/-- Later checkpoints do not change the history before them. -/
theorem valueAt_append {l' : List σ} (h : ∀ o ∈ l', s < time o) :
    valueAt time value (l ++ l') s = valueAt time value l s := by
  induction l' using List.reverseRecOn with
  | nil => rw [List.append_nil]
  | append_singleton l' o ih =>
    rw [← List.append_assoc, valueAt_concat, if_neg (Nat.not_le.2 (h o (by simp))),
      ih fun o' ho' => h o' (by simp [ho'])]

theorem valueAt_before (h : ∀ o ∈ l, s < time o) : valueAt time value l s = 0 :=
  valueAt_append (l := []) h

theorem valueAt_le (h : ∀ o ∈ l, value o ≤ bound) : valueAt time value l s ≤ bound := by
  induction l using List.reverseRecOn with
  | nil => exact Nat.zero_le _
  | append_singleton l o ih =>
    rw [valueAt_concat]
    split_ifs
    · exact h o (by simp)
    · exact ih fun o' ho' => h o' (by simp [ho'])

/-- The time-weighted sum of a history that is bounded. -/
theorem sum_range_le {f : Nat → Nat} (h : ∀ s, f s ≤ bound) :
    ∑ s ∈ Finset.range t, f s ≤ bound * t := by
  refine (Finset.sum_le_card_nsmul _ _ bound fun s _ => h s).trans ?_
  rw [Finset.card_range, smul_eq_mul, Nat.mul_comm]

/-- A history that keeps one value from `s` to `t`. -/
theorem sum_range_add {f : Nat → Nat} {n : Nat} (hst : s ≤ t)
    (h : ∀ i, s ≤ i → i < t → f i = n) :
    ∑ i ∈ Finset.range t, f i = ∑ i ∈ Finset.range s, f i + n * (t - s) := by
  have hconst : ∑ i ∈ Finset.Ico s t, f i = ∑ _i ∈ Finset.Ico s t, n := by
    refine Finset.sum_congr rfl fun i hi => ?_
    rw [Finset.mem_Ico] at hi
    exact h i hi.1 hi.2
  rw [← Finset.sum_range_add_sum_Ico f hst, hconst, Finset.sum_const, Nat.card_Ico, smul_eq_mul,
    Nat.mul_comm]

/-- The part of a history between two times, from the two sums. -/
theorem sum_Ico_eq_sub_range {f : Nat → Nat} (hst : s ≤ t) :
    ∑ i ∈ Finset.Ico s t, f i = ∑ i ∈ Finset.range t, f i - ∑ i ∈ Finset.range s, f i := by
  rw [← Finset.sum_range_add_sum_Ico f hst, Nat.add_sub_cancel_left]

variable (time) in
/-- The binary search over a list whose first checkpoint is not after `t` ends at a checkpoint that
is not after `t`, right before one that is. -/
theorem search_spec {first : σ} (rest : List σ) (hfirst : time first ≤ t) :
    ∃ i o, i = bisect (fun middle => ((first :: rest)[middle]?).any fun o => decide (time o ≤ t))
        (first :: rest).length 0 (first :: rest).length ∧
      (first :: rest)[i]? = some o ∧ time o ≤ t ∧
        ∀ o', (first :: rest)[i + 1]? = some o' → t < time o' := by
  obtain ⟨i, o, hi, hget, hle, hnext⟩ := bisect_list_spec
    (p := fun o => decide (time o ≤ t)) rest (decide_eq_true hfirst)
  exact ⟨i, o, hi, hget, of_decide_eq_true hle,
    fun o' ho' => Nat.not_le.1 (of_decide_eq_false (hnext o' ho'))⟩

namespace Tracks

theorem nil : Tracks time value cumulative ([] : List σ) := ⟨.nil, fun _ h => nomatch h⟩

/-- A checkpoint at a later time. -/
theorem concat (h : Tracks time value cumulative l) (hlater : ∀ o ∈ l, time o < time o')
    (hsum : cumulative o' = ∑ s ∈ Finset.range (time o'), valueAt time value l s) :
    Tracks time value cumulative (l ++ [o']) := by
  have hpast : ∀ t ≤ time o', ∑ s ∈ Finset.range t, valueAt time value (l ++ [o']) s =
      ∑ s ∈ Finset.range t, valueAt time value l s := by
    intro t ht
    refine Finset.sum_congr rfl fun s hs => ?_
    rw [Finset.mem_range] at hs
    rw [valueAt_concat, if_neg (by omega)]
  constructor
  · rw [List.pairwise_append]
    refine ⟨h.sorted, List.pairwise_singleton _ _, fun o ho b hb => ?_⟩
    rw [List.mem_singleton] at hb
    exact hb ▸ hlater o ho
  · intro o ho
    rw [List.mem_append, List.mem_singleton] at ho
    rcases ho with ho | rfl
    · rw [hpast _ (Nat.le_of_lt (hlater o ho)), h.exact_sum o ho]
    · rw [hpast _ (Nat.le_refl _), hsum]

theorem dropLast (h : Tracks time value cumulative (l ++ [o])) :
    Tracks time value cumulative l := by
  have hsorted := List.pairwise_append.1 h.sorted
  refine ⟨hsorted.1, fun o' ho' => ?_⟩
  rw [h.exact_sum o' (by simp [ho'])]
  refine Finset.sum_congr rfl fun s hs => ?_
  rw [Finset.mem_range] at hs
  have hlt : time o' < time o := hsorted.2.2 o' ho' o (by simp)
  rw [valueAt_concat, if_neg (by omega)]

/-- The last checkpoint gets another value at its own time. -/
theorem replace_last (h : Tracks time value cumulative (l ++ [o])) (htime : time o' = time o)
    (hcum : cumulative o' = cumulative o) : Tracks time value cumulative (l ++ [o']) := by
  refine h.dropLast.concat (fun b hb => ?_) ?_
  · rw [htime]
    exact (List.pairwise_append.1 h.sorted).2.2 b hb o (by simp)
  · rw [hcum, htime, h.exact_sum o (by simp)]
    refine Finset.sum_congr rfl fun s hs => ?_
    rw [Finset.mem_range] at hs
    rw [valueAt_concat, if_neg (by omega)]

/-- The sum up to `t` from the last checkpoint at or before `t`. -/
theorem sum_at {i : Nat} (h : Tracks time value cumulative l) (hi : l[i]? = some o)
    (ht : time o ≤ t) (hnext : ∀ o', l[i + 1]? = some o' → t < time o') :
    ∑ s ∈ Finset.range t, valueAt time value l s = cumulative o + value o * (t - time o) := by
  obtain ⟨hlt, hget⟩ := List.getElem?_eq_some_iff.1 hi
  rw [h.exact_sum o (hget ▸ List.getElem_mem hlt)]
  refine sum_range_add ht fun s hs hst => ?_
  -- the checkpoints after position `i` lie after `t`
  have hsplit : l = (l.take i ++ [o]) ++ l.drop (i + 1) := by
    rw [← hget, ← List.take_succ_eq_append_getElem hlt, List.take_append_drop]
  have hafter : ∀ b ∈ l.drop (i + 1), s < time b := by
    intro b hb
    obtain ⟨j, hj, rfl⟩ := List.getElem_of_mem hb
    rw [List.length_drop] at hj
    rw [List.getElem_drop]
    have hlt1 : i + 1 < l.length := by omega
    have hltj : i + 1 + j < l.length := by omega
    have h1 := hnext _ (List.getElem?_eq_getElem hlt1)
    have hle : time l[i + 1] ≤ time l[i + 1 + j] := by
      rcases Nat.eq_zero_or_pos j with rfl | hpos
      · exact Nat.le_refl _
      · exact Nat.le_of_lt (List.pairwise_iff_getElem.1 h.sorted _ _ _ _ (by omega))
    omega
  rw [hsplit, valueAt_append hafter, valueAt_concat, if_pos hs]

/-- The sum up to a time before the first checkpoint. -/
theorem sum_before (h : Tracks time value cumulative l) (hfirst : ∀ o ∈ l.head?, t < time o) :
    ∑ s ∈ Finset.range t, valueAt time value l s = 0 := by
  refine Finset.sum_eq_zero fun s hs => valueAt_before fun o ho => ?_
  rw [Finset.mem_range] at hs
  cases l with
  | nil => nomatch ho
  | cons a l =>
    have ha : t < time a := hfirst a rfl
    rw [List.mem_cons] at ho
    rcases ho with rfl | ho
    · omega
    · have := List.rel_of_pairwise_cons h.sorted ho
      omega

/-- The sum of the history begins at the first checkpoint. -/
theorem sum_from_first (h : Tracks time value cumulative l) (hfirst : o ∈ l.head?)
    (ht : time o ≤ t) :
    ∑ s ∈ Finset.range t, valueAt time value l s =
      ∑ s ∈ Finset.Ico (time o) t, valueAt time value l s := by
  have hbefore : ∑ s ∈ Finset.range (time o), valueAt time value l s = 0 := by
    obtain ⟨rest, rfl⟩ : ∃ rest, l = o :: rest := List.head?_eq_some_iff.1 hfirst
    refine Finset.sum_eq_zero fun s hs => valueAt_before fun o' ho' => ?_
    rw [Finset.mem_range] at hs
    rcases List.mem_cons.1 ho' with rfl | ho'
    · exact hs
    · exact hs.trans (List.rel_of_pairwise_cons h.sorted ho')
  rw [← Finset.sum_range_add_sum_Ico _ ht, hbefore, Nat.zero_add]

end Tracks

end

end Leopold.Lib
