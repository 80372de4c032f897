import Mathlib.Algebra.Order.BigOperators.Group.Finset
import Mathlib.Data.List.Range
import Mathlib.Data.Nat.ModEq
import Mathlib.Tactic.Ring

/-!
# Arcs of a circle

Consecutive places of a circle of `n`, from a start on.  Arcs that follow each other make one arc,
and an arc of `n` places goes all the way round.
-/

namespace Leopold.Lib

/-- `m` places of a circle of `n`, from a start on. -/
def arc (n start m : Nat) : List Nat := (List.range m).map fun i => (start + i) % n

variable {n start m : Nat}

@[simp]
theorem length_arc : (arc n start m).length = m := by
  rw [arc, List.length_map, List.length_range]

theorem lt_of_mem_arc (hn : 0 < n) {i : Nat} (h : i ∈ arc n start m) : i < n := by
  obtain ⟨j, -, rfl⟩ := List.mem_map.1 h
  exact Nat.mod_lt _ hn

theorem arc_mod : arc n (start % n) m = arc n start m := by
  refine List.map_congr_left fun i _ => ?_
  rw [Nat.add_mod, Nat.mod_mod, ← Nat.add_mod]

theorem arc_congr {start' : Nat} (h : start % n = start' % n) :
    arc n start m = arc n start' m := by
  rw [← arc_mod, h, arc_mod]

/-- An arc that is not longer than the circle has no place twice. -/
theorem nodup_arc (h : m ≤ n) : (arc n start m).Nodup := by
  refine (List.nodup_map_iff_inj_on List.nodup_range).2 fun i hi j hj heq => ?_
  rw [List.mem_range] at hi hj
  have hmod : i % n = j % n := Nat.ModEq.add_left_cancel' start heq
  rwa [Nat.mod_eq_of_lt (hi.trans_le h), Nat.mod_eq_of_lt (hj.trans_le h)] at hmod

theorem arc_add {k : Nat} : arc n start (m + k) = arc n start m ++ arc n (start + m) k := by
  rw [arc, List.range_add, List.map_append, List.map_map, arc, arc]
  congr 1
  refine List.map_congr_left fun i _ => ?_
  rw [Function.comp_apply, Nat.add_assoc]

/-- An arc at least as long as the circle goes all the way round. -/
theorem mem_arc (h : n ≤ m) {i : Nat} (hi : i < n) : i ∈ arc n start m := by
  have hpos := Nat.zero_lt_of_lt hi
  have hlt := Nat.mod_lt start hpos
  have hback : start % n + (i + (n - start % n)) = i + n := by omega
  refine List.mem_map.2 ⟨(i + (n - start % n)) % n,
    List.mem_range.2 ((Nat.mod_lt _ hpos).trans_le h), ?_⟩
  calc (start + (i + (n - start % n)) % n) % n
      = (start % n + (i + (n - start % n))) % n := by
        rw [Nat.add_mod_mod, Nat.mod_add_mod]
    _ = i := by rw [hback, Nat.add_mod_right, Nat.mod_eq_of_lt hi]

end Leopold.Lib
