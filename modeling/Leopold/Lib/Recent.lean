import Mathlib.Data.List.Basic
import Mathlib.Algebra.Order.BigOperators.Group.Finset
import Mathlib.Tactic.Ring

/-!
# Bounded lists, newest first

A store that keeps the `n` rows written last puts a new row in front, removes the row it replaces
and cuts the rest off.  What such a store still holds is a question of positions: a row stays as
long as fewer than `n` others stand before it.
-/

namespace Leopold.Lib.Recent

universe u

variable {α : Type u} {p : α → Bool} {l before after : List α} {x y : α} {m n : Nat}

theorem mem_take_iff :
    x ∈ l.take n ↔ ∃ before after, l = before ++ x :: after ∧ before.length < n := by
  constructor
  · intro hx
    obtain ⟨before, after, h⟩ := List.append_of_mem hx
    refine ⟨before, after ++ l.drop n, ?_, ?_⟩
    · rw [← List.cons_append, ← List.append_assoc, ← h, List.take_append_drop]
    · have hlen : (l.take n).length = before.length + (after.length + 1) := by
        rw [h, List.length_append, List.length_cons]
      have := List.length_take_le n l
      omega
  · rintro ⟨before, after, rfl, hlt⟩
    rw [List.take_append, List.mem_append]
    right
    obtain ⟨k, hk⟩ : ∃ k, n - before.length = k + 1 := ⟨n - before.length - 1, by omega⟩
    rw [hk, List.take_succ_cons]
    exact List.mem_cons_self

/-- A row passes a cut, a filter and a second cut if and only if it passes the filter and few
enough rows stand before it, counted for the second cut after the filter. -/
theorem mem_take_filter_take_iff :
    x ∈ ((l.take n).filter p).take m ↔ p x = true ∧ ∃ before after, l = before ++ x :: after ∧
      before.length < n ∧ (before.filter p).length < m := by
  constructor
  · intro hx
    obtain ⟨kept, rest, h, hm⟩ := mem_take_iff.1 hx
    have hpx : p x = true := by
      have hmem : x ∈ (l.take n).filter p := by
        rw [h]
        simp
      exact (List.mem_filter.1 hmem).2
    refine ⟨hpx, ?_⟩
    obtain ⟨before, after, htake, rfl, hrest⟩ := List.filter_eq_append_iff.1 h
    obtain ⟨skipped, tail, rfl, hskip, -, -⟩ := List.filter_eq_cons_iff.1 hrest
    have hsplit : l = (before ++ skipped) ++ x :: (tail ++ l.drop n) := by
      rw [← List.cons_append, ← List.append_assoc, List.append_assoc before, ← htake,
        List.take_append_drop]
    refine ⟨before ++ skipped, tail ++ l.drop n, hsplit, ?_, ?_⟩
    · have hlen := List.length_take_le n l
      rw [htake, List.length_append, List.length_append, List.length_cons] at hlen
      rw [List.length_append]
      omega
    · have hnone : skipped.filter p = [] := by
        rw [List.filter_eq_nil_iff]
        exact hskip
      rw [List.filter_append, hnone, List.append_nil]
      exact hm
  · rintro ⟨hpx, before, after, rfl, hn, hm⟩
    obtain ⟨k, hk⟩ : ∃ k, n - before.length = k + 1 := ⟨n - before.length - 1, by omega⟩
    rw [List.take_append, List.take_of_length_le (Nat.le_of_lt hn), hk, List.take_succ_cons,
      List.filter_append, List.filter_cons_of_pos hpx]
    exact mem_take_iff.2 ⟨_, _, rfl, hm⟩

/-! ### The row of a key, put in front -/

section Put

universe v

variable {κ : Type v} [DecidableEq κ] {key : α → κ}

/-- The row in front of the others, in place of the row with its key. -/
def put (key : α → κ) (x : α) (l : List α) : List α :=
  x :: l.filter fun y => key y ≠ key x

theorem mem_put : y ∈ put key x l ↔ y = x ∨ y ∈ l ∧ key y ≠ key x := by
  simp [put]

theorem nodup_put (h : (l.map key).Nodup) : ((put key x l).map key).Nodup := by
  rw [put, List.map_cons, List.nodup_cons]
  constructor
  · intro hx
    obtain ⟨y, hy, hkey⟩ := List.mem_map.1 hx
    simpa [hkey] using (List.mem_filter.1 hy).2
  · exact h.sublist (List.filter_sublist.map key)

theorem pairwise_put {r : α → α → Prop} (h : l.Pairwise r) (hx : ∀ y ∈ l, r x y) :
    (put key x l).Pairwise r :=
  List.pairwise_cons.2 ⟨fun y hy => hx y (List.mem_of_mem_filter hy), h.filter _⟩

theorem find?_put_of_pos (h : p x = true) : (put key x l).find? p = some x :=
  List.find?_cons_of_pos h

/-- A row that does not count hides no row with another key. -/
theorem find?_put_of_neg (h : p x = false) (hy : l.find? p = some y) (hne : key y ≠ key x) :
    (put key x l).find? p = some y := by
  rw [put, List.find?_cons_of_neg (by simp [h])]
  obtain ⟨hp, before, after, rfl, hbefore⟩ := List.find?_eq_some_iff_append.1 hy
  refine List.find?_eq_some_iff_append.2
    ⟨hp, before.filter (key · ≠ key x), after.filter (key · ≠ key x), ?_, fun z hz => ?_⟩
  · simp [hne]
  · exact hbefore z (List.mem_of_mem_filter hz)

end Put

end Leopold.Lib.Recent
