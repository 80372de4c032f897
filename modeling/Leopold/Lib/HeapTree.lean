import Mathlib.Algebra.BigOperators.Intervals
import Mathlib.Algebra.Order.BigOperators.Group.Finset
import Mathlib.Data.Nat.Log
import Mathlib.Tactic.Ring

/-!
# Complete binary trees by heap index

The nodes of a complete binary tree of depth `d`, numbered from the root `1` on: the children of
`n` are `2 * n` and `2 * n + 1`, the leaves `2 ^ d + slot`.  The nodes above a leaf are its
quotients by powers of two.  A weight that adds up at every inner node adds up over the leaves, and
the walk from a leaf to the root over the left siblings collects the weights of the leaves before
it.
-/

namespace Leopold.Lib

/-- The nodes from one up to the root, at most `fuel` of them. -/
def pathUp : (fuel node : Nat) → List Nat
  | 0, _ => []
  | fuel + 1, node => if node = 0 then [] else node :: pathUp fuel (node / 2)

/-- `n` lies on the way from `leaf` to the root. -/
def Above (n leaf : Nat) : Prop := 0 < n ∧ ∃ k, leaf / 2 ^ k = n

section

variable {σ ε : Type} (f : σ → Except ε σ)

/-- Applies `f` at every node of a path. -/
def alongPath : List Nat → (Nat → σ) → Except ε (Nat → σ)
  | [], nodes => .ok nodes
  | node :: rest, nodes => do
    let x ← f (nodes node)
    alongPath rest (Function.update nodes node x)

variable {f}

/-- Along a path without repetitions every node is changed once, and no other node is. -/
theorem alongPath_eq_ok {path : List Nat} (hpath : path.Nodup) {nodes next : Nat → σ}
    (hon : ∀ n ∈ path, f (nodes n) = .ok (next n)) (hoff : ∀ n, n ∉ path → next n = nodes n) :
    alongPath f path nodes = .ok next := by
  induction path generalizing nodes with
  | nil => exact congrArg _ (funext fun n => (hoff n List.not_mem_nil).symm)
  | cons node rest ih =>
    obtain ⟨hnode, hrest⟩ := List.nodup_cons.1 hpath
    rw [alongPath, hon node (List.mem_cons_self ..)]
    refine ih hrest ?_ ?_
    · intro n hn
      rw [Function.update_of_ne (ne_of_mem_of_not_mem hn hnode)]
      exact hon n (List.mem_cons_of_mem _ hn)
    · intro n hn
      by_cases hsame : n = node
      · rw [hsame, Function.update_self]
      · rw [Function.update_of_ne hsame, hoff n (by simp [hsame, hn])]

end

variable {d fuel n node leaf leaf' : Nat}

/-! ### Nodes above a leaf -/

theorem above_half (h : n ≠ node) : Above n node ↔ Above n (node / 2) := by
  constructor
  · rintro ⟨hn, k, hk⟩
    cases k with
    | zero => exact absurd (by simpa using hk.symm) h
    | succ k => exact ⟨hn, k, by rw [Nat.div_div_eq_div_mul, ← Nat.pow_succ', hk]⟩
  · rintro ⟨hn, k, hk⟩
    exact ⟨hn, k + 1, by rw [Nat.pow_succ', ← Nat.div_div_eq_div_mul, hk]⟩

theorem above_self (h : 0 < node) : Above node node := ⟨h, 0, by simp⟩

theorem mem_pathUp (h : node < 2 ^ fuel) : n ∈ pathUp fuel node ↔ Above n node := by
  induction fuel generalizing node with
  | zero =>
    obtain rfl : node = 0 := by simpa using h
    refine ⟨fun hn => absurd hn List.not_mem_nil, ?_⟩
    rintro ⟨hn, k, hk⟩
    rw [Nat.zero_div] at hk
    omega
  | succ fuel ih =>
    have hhalf : node / 2 < 2 ^ fuel := by
      rw [Nat.pow_succ] at h
      omega
    rw [pathUp]
    split
    · next hzero =>
      refine ⟨fun hn => absurd hn List.not_mem_nil, ?_⟩
      rintro ⟨hn, k, hk⟩
      rw [hzero, Nat.zero_div] at hk
      omega
    · next hne =>
      rw [List.mem_cons, ih hhalf]
      by_cases hn : n = node
      · exact iff_of_true (.inl hn) (hn ▸ above_self (by omega))
      · rw [or_iff_right hn, above_half hn]

theorem lt_of_mem_pathUp {m : Nat} (h : m ∈ pathUp fuel (node / 2)) (hnode : node ≠ 0) :
    m < node := by
  have hle : m ≤ node / 2 := by
    clear hnode
    induction fuel generalizing node with
    | zero => exact absurd h List.not_mem_nil
    | succ fuel ih =>
      rw [pathUp] at h
      split at h
      · exact absurd h List.not_mem_nil
      · rcases List.mem_cons.1 h with rfl | h
        · exact Nat.le_refl _
        · have := ih h
          omega
  omega

theorem nodup_pathUp : (pathUp fuel node).Nodup := by
  induction fuel generalizing node with
  | zero => exact .nil
  | succ fuel ih =>
    rw [pathUp]
    split
    · exact .nil
    · next hne => exact List.nodup_cons.2 ⟨fun hmem => (lt_of_mem_pathUp hmem hne).ne rfl, ih⟩

/-- A leaf lies below an inner node when it lies below one of its children. -/
theorem above_children (hn : 0 < n) (hinner : n < leaf) :
    Above n leaf ↔ Above (2 * n) leaf ∨ Above (2 * n + 1) leaf := by
  constructor
  · rintro ⟨-, k, hk⟩
    cases k with
    | zero =>
      rw [Nat.pow_zero, Nat.div_one] at hk
      omega
    | succ k =>
      have hhalf : leaf / 2 ^ k / 2 = n := by
        rw [Nat.div_div_eq_div_mul, ← Nat.pow_succ, hk]
      rcases Nat.mod_two_eq_zero_or_one (leaf / 2 ^ k) with hmod | hmod
      · exact .inl ⟨by omega, k, by omega⟩
      · exact .inr ⟨by omega, k, by omega⟩
  · have hup {m : Nat} (hm : m / 2 = n) : Above m leaf → Above n leaf := by
      rintro ⟨-, k, hk⟩
      exact ⟨hn, k + 1, by rw [Nat.pow_succ, ← Nat.div_div_eq_div_mul, hk, hm]⟩
    rintro (h | h)
    · exact hup (by omega) h
    · exact hup (by omega) h

/-- No leaf lies below both children. -/
theorem not_above_both (hn : 0 < n) (h : Above (2 * n) leaf) : ¬ Above (2 * n + 1) leaf := by
  obtain ⟨-, i, hi⟩ := h
  rintro ⟨-, j, hj⟩
  rcases Nat.lt_trichotomy i j with hlt | rfl | hlt
  · obtain ⟨k, rfl⟩ := Nat.exists_eq_add_of_lt hlt
    have hdiv : 2 * n / 2 ^ (k + 1) = leaf / 2 ^ (i + k + 1) := by
      rw [← hi, Nat.div_div_eq_div_mul, ← Nat.pow_add, ← Nat.add_assoc]
    have := Nat.div_le_self (2 * n) (2 ^ (k + 1))
    omega
  · omega
  · obtain ⟨k, rfl⟩ := Nat.exists_eq_add_of_lt hlt
    have hdiv : (2 * n + 1) / 2 ^ (k + 1) = leaf / 2 ^ (j + k + 1) := by
      rw [← hj, Nat.div_div_eq_div_mul, ← Nat.pow_add, ← Nat.add_assoc]
    have hle : (2 * n + 1) / 2 ^ (k + 1) ≤ (2 * n + 1) / 2 :=
      Nat.div_le_div_left (Nat.le_self_pow (by omega) 2) (by decide)
    omega

/-- A leaf lies below no other leaf. -/
theorem above_leaf (hleaf : 2 ^ d ≤ leaf) (hlt : leaf < 2 ^ (d + 1)) (hleaf' : 2 ^ d ≤ leaf') :
    Above leaf' leaf ↔ leaf' = leaf := by
  constructor
  · rintro ⟨-, k, hk⟩
    cases k with
    | zero => simpa using hk.symm
    | succ k =>
      have hle : leaf / 2 ^ (k + 1) ≤ leaf / 2 :=
        Nat.div_le_div_left (Nat.le_self_pow (by omega) 2) (by decide)
      rw [Nat.pow_succ] at hlt
      omega
  · rintro rfl
    exact above_self (Nat.lt_of_lt_of_le (Nat.two_pow_pos d) hleaf)

/-- The root lies above everything. -/
theorem above_root (h : 0 < node) : Above 1 node := by
  refine ⟨Nat.one_pos, Nat.log 2 node, ?_⟩
  have hle := Nat.pow_log_le_self 2 h.ne'
  have hlt := Nat.lt_pow_succ_log_self (by decide : 1 < 2) node
  rw [Nat.pow_succ] at hlt
  rw [Nat.div_eq_iff (Nat.two_pow_pos _)]
  omega

/-! ### Sums over the leaves -/

section

variable {M : Type} [AddCommMonoid M] (w : Nat → M)

/-- The weights of the left siblings on the way up to the root. -/
def prefixWalk : (fuel node : Nat) → M
  | 0, _ => 0
  | fuel + 1, node =>
    if 1 < node then
      (if node % 2 = 1 then w (node - 1) else 0) + prefixWalk fuel (node / 2)
    else 0

variable {w}

/-- A weight that adds up at the inner nodes adds up level by level. -/
theorem sum_level (h : ∀ n, 0 < n → n < 2 ^ d → w n = w (2 * n) + w (2 * n + 1)) {k j : Nat}
    (hk : k < d) (hj : j ≤ 2 ^ k) :
    ∑ i ∈ Finset.range (2 * j), w (2 ^ (k + 1) + i) = ∑ i ∈ Finset.range j, w (2 ^ k + i) := by
  induction j with
  | zero => rfl
  | succ j ih =>
    have hpow : 2 ^ (k + 1) ≤ 2 ^ d := Nat.pow_le_pow_right (by decide) hk
    have hpos := Nat.two_pow_pos k
    have hdouble : 2 ^ (k + 1) = 2 * 2 ^ k := Nat.pow_succ'
    have hadd := h (2 ^ k + j) (by omega) (by omega)
    have hleft : 2 ^ (k + 1) + 2 * j = 2 * (2 ^ k + j) := by omega
    have hright : 2 ^ (k + 1) + (2 * j + 1) = 2 * (2 ^ k + j) + 1 := by omega
    rw [Nat.mul_succ, Finset.sum_range_succ, Finset.sum_range_succ, ih (by omega),
      Finset.sum_range_succ, hleft, hright, hadd, add_assoc]

/-- The walk from a node collects the nodes before it on its level. -/
theorem prefixWalk_eq (h : ∀ n, 0 < n → n < 2 ^ d → w n = w (2 * n) + w (2 * n + 1)) {k j : Nat}
    (hk : k ≤ d) (hj : j < 2 ^ k) (hfuel : k ≤ fuel) :
    prefixWalk w fuel (2 ^ k + j) = ∑ i ∈ Finset.range j, w (2 ^ k + i) := by
  induction k generalizing j fuel with
  | zero =>
    obtain rfl : j = 0 := by simpa using hj
    cases fuel with
    | zero => rfl
    | succ fuel => simp [prefixWalk]
  | succ k ih =>
    obtain ⟨fuel, rfl⟩ : ∃ f, fuel = f + 1 := ⟨fuel - 1, by omega⟩
    have hdouble : 2 ^ (k + 1) = 2 * 2 ^ k := Nat.pow_succ'
    have hpos := Nat.two_pow_pos k
    have hhalf : (2 ^ (k + 1) + j) / 2 = 2 ^ k + j / 2 := by omega
    have hlevel := sum_level h hk (by omega : j / 2 ≤ 2 ^ k)
    rw [prefixWalk, if_pos (by omega), hhalf, ih (by omega) (by omega) (by omega), ← hlevel]
    rcases Nat.mod_two_eq_zero_or_one j with hmod | hmod
    · rw [if_neg (by omega), zero_add]
      congr 2
      omega
    · have hodd : j = 2 * (j / 2) + 1 := by omega
      have hsibling : 2 ^ (k + 1) + j - 1 = 2 ^ (k + 1) + 2 * (j / 2) := by omega
      rw [if_pos (by omega), hsibling, add_comm, ← Finset.sum_range_succ, ← hodd]

end

theorem prefixWalk_nonneg {w : Nat → Int} (h : ∀ n, 0 ≤ w n) : 0 ≤ prefixWalk w fuel node := by
  induction fuel generalizing node with
  | zero => exact le_rfl
  | succ fuel ih =>
    rw [prefixWalk]
    split_ifs
    · exact add_nonneg (h _) ih
    · exact add_nonneg le_rfl ih
    · exact le_rfl

end Leopold.Lib
