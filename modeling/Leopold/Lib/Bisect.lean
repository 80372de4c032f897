import Mathlib.Tactic.Common
import Mathlib.Data.Nat.Basic
import Mathlib.Algebra.Order.BigOperators.Group.Finset
import Mathlib.Tactic.Ring

/-!
# Binary search over a prefix-closed predicate

The loop `while (low + 1 < high)` that keeps a position where a predicate holds below a position
where it does not.  The loop halves `high - low`, so as many rounds as that difference end it.
-/

namespace Leopold.Lib

/-- `while (low + 1 < high) { middle = low + (high - low) / 2; if (p(middle)) low = middle; else
high = middle; }`, for at most `fuel` rounds; answers `low`. -/
def bisect (p : Nat → Bool) : (fuel low high : Nat) → Nat
  | 0, low, _ => low
  | fuel + 1, low, high =>
    if low + 1 < high then
      if p (low + (high - low) / 2) then bisect p fuel (low + (high - low) / 2) high
      else bisect p fuel low (low + (high - low) / 2)
    else low

/-- With enough rounds the loop ends at the last position of its range before the predicate
fails: it stays where `p` holds, and either it reached the end or `p` fails right after. -/
theorem bisect_spec {p : Nat → Bool} {bound : Nat} {fuel low high : Nat}
    (hlow : p low = true) (hlt : low < high) (hhigh : high = bound ∨ p high = false)
    (hbound : high ≤ bound) (hfuel : high - low ≤ fuel) :
    let r := bisect p fuel low high
    p r = true ∧ low ≤ r ∧ r < bound ∧ (r + 1 = bound ∨ p (r + 1) = false) := by
  induction fuel generalizing low high with
  | zero => omega
  | succ fuel ih =>
    simp only [bisect]
    by_cases hmore : low + 1 < high
    · rw [if_pos hmore]
      have hmid : low < low + (high - low) / 2 ∧ low + (high - low) / 2 < high := by omega
      cases hp : p (low + (high - low) / 2) with
      | true =>
        obtain ⟨h1, h2, h3, h4⟩ := ih hp hmid.2 hhigh hbound (by omega)
        rw [if_pos rfl]
        exact ⟨h1, by omega, h3, h4⟩
      | false =>
        obtain ⟨h1, h2, h3, h4⟩ := ih hlow hmid.1 (.inr hp) (by omega) (by omega)
        rw [if_neg Bool.false_ne_true]
        exact ⟨h1, h2, h3, h4⟩
    · rw [if_neg hmore]
      have hend : high = low + 1 := by omega
      subst hend
      exact ⟨hlow, Nat.le_refl _, by omega, hhigh⟩

/-- The binary search over a list whose first member satisfies `p` ends at a member that does,
right before one that does not. -/
theorem bisect_list_spec {σ : Type} {p : σ → Bool} {first : σ} (rest : List σ)
    (hfirst : p first = true) :
    ∃ i o, i = bisect (fun middle => ((first :: rest)[middle]?).any p)
        (first :: rest).length 0 (first :: rest).length ∧
      (first :: rest)[i]? = some o ∧ p o = true ∧
        ∀ o', (first :: rest)[i + 1]? = some o' → p o' = false := by
  have hzero : ((first :: rest)[0]?).any p = true := hfirst
  obtain ⟨hp, _, hlt, hnext⟩ := bisect_spec (p := fun middle => ((first :: rest)[middle]?).any p)
    hzero (by simp : 0 < (first :: rest).length) (.inl rfl) (Nat.le_refl _)
    (Nat.le_refl _)
  generalize bisect _ _ _ _ = i at hp hlt hnext
  have hget : (first :: rest)[i]? = some (first :: rest)[i] := List.getElem?_eq_getElem hlt
  refine ⟨i, _, rfl, hget, ?_, fun o' ho' => ?_⟩
  · rw [hget] at hp
    exact hp
  · rcases hnext with hend | hfail
    · rw [List.getElem?_eq_none (Nat.le_of_eq hend.symm)] at ho'
      nomatch ho'
    · rw [ho'] at hfail
      exact hfail

end Leopold.Lib
