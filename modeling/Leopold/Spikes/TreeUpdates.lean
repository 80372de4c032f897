import Leopold.Spikes.MomentTree

/-!
# Updates of a segment tree

The balance updates a tree has received, oldest first.  The balance of a node at a time is the sum
of the signed changes of the slots below it; it adds up over the children of an inner node.
-/

namespace Leopold

open Lib

/-- A balance update of the account in a slot. -/
structure TreeUpdate where
  slot : Nat
  delta : Nat
  increase : Bool
  timestamp : Nat
  deriving DecidableEq, Repr

namespace TreeUpdate

def signed (u : TreeUpdate) : Int := if u.increase then u.delta else -u.delta

/-- The update passes the node on its way to the root. -/
def Passes (depth : TreeDepth) (n : Nat) (u : TreeUpdate) : Prop :=
  n ∈ nodePath (depth.leaf u.slot)

instance (depth : TreeDepth) (n : Nat) (u : TreeUpdate) : Decidable (u.Passes depth n) :=
  inferInstanceAs (Decidable (_ ∈ _))

/-- What the update adds to the balance of a node at time `s`. -/
def share (depth : TreeDepth) (n s : Nat) (u : TreeUpdate) : Int :=
  if u.Passes depth n ∧ u.timestamp ≤ s then u.signed else 0

end TreeUpdate

/-- The balance of a node at time `s`. -/
def netAt (depth : TreeDepth) (us : List TreeUpdate) (n s : Nat) : Int :=
  (us.map (TreeUpdate.share depth n s)).sum

/-- The balance of a node after all updates. -/
def net (depth : TreeDepth) (us : List TreeUpdate) (n : Nat) : Int :=
  ((us.filter (·.Passes depth n)).map TreeUpdate.signed).sum

/-- The balance of every node fits its width. -/
def InRange (depth : TreeDepth) (us : List TreeUpdate) : Prop :=
  ∀ n, 0 ≤ net depth us n ∧ net depth us n < 2 ^ 64

/-- Updates of slots of the tree, in the order of their timestamps, that leave no node below zero
or beyond 64 bits at any point. -/
structure Admissible (depth : TreeDepth) (us : List TreeUpdate) : Prop where
  slots : ∀ u ∈ us, u.slot < depth.capacity
  ordered : us.Pairwise fun u u' => u.timestamp ≤ u'.timestamp
  timestamps : ∀ u ∈ us, u.timestamp < 2 ^ 64
  inRange : ∀ us', us' <+: us → InRange depth us'

variable {depth : TreeDepth} {us : List TreeUpdate} {u : TreeUpdate} {n s : Nat}

theorem Admissible.append_left {us' : List TreeUpdate} (h : Admissible depth (us ++ us')) :
    Admissible depth us where
  slots v hv := h.slots v (List.mem_append_left _ hv)
  ordered := (List.pairwise_append.1 h.ordered).1
  timestamps v hv := h.timestamps v (List.mem_append_left _ hv)
  inRange us₁ hus₁ := h.inRange us₁ (hus₁.trans (List.prefix_append _ _))

theorem leaf_lt_word (depth : TreeDepth) {slot : Nat} (hslot : slot < depth.capacity) :
    depth.leaf slot < 2 ^ (depth.bits + 1) ∧ depth.leaf slot < 2 ^ 256 := by
  have hdouble : 2 ^ (depth.bits + 1) = 2 * depth.capacity := Nat.pow_succ'
  have hle := depth.le
  have hword : 2 ^ (depth.bits + 1) ≤ 2 ^ 256 := Nat.pow_le_pow_right (by decide) (by omega)
  rw [TreeDepth.leaf]
  omega

theorem TreeUpdate.passes_iff (hslot : u.slot < depth.capacity) :
    u.Passes depth n ↔ Above n (depth.leaf u.slot) :=
  mem_pathUp (leaf_lt_word depth hslot).2

theorem netAt_concat : netAt depth (us ++ [u]) n s = netAt depth us n s + u.share depth n s := by
  simp [netAt]

theorem net_concat : net depth (us ++ [u]) n =
    net depth us n + if u.Passes depth n then u.signed else 0 := by
  rw [net, net, List.filter_append, List.map_append, List.sum_append]
  by_cases hpasses : u.Passes depth n
  · simp [hpasses]
  · simp [hpasses]

/-- Every update counts from the time of the last one on. -/
theorem netAt_eq_net (h : ∀ u ∈ us, u.timestamp ≤ s) : netAt depth us n s = net depth us n := by
  induction us with
  | nil => rfl
  | cons u us ih =>
    have hu : u.timestamp ≤ s := h u (by simp)
    have ih' := ih fun u' hu' => h u' (List.mem_cons_of_mem _ hu')
    rw [netAt, net] at ih' ⊢
    by_cases hpasses : u.Passes depth n
    · simp [TreeUpdate.share, hpasses, hu, ih']
    · simp [TreeUpdate.share, hpasses, ih']

/-- The share of an inner node is the shares of its children. -/
theorem TreeUpdate.share_children (hslot : u.slot < depth.capacity) (hn : 0 < n)
    (hinner : n < depth.capacity) :
    u.share depth n s = u.share depth (2 * n) s + u.share depth (2 * n + 1) s := by
  have hpasses (m : Nat) : u.Passes depth m ↔ Above m (depth.leaf u.slot) := passes_iff hslot
  have hchildren : u.Passes depth n ↔ u.Passes depth (2 * n) ∨ u.Passes depth (2 * n + 1) := by
    rw [hpasses, hpasses, hpasses]
    exact above_children hn (Nat.lt_add_right _ hinner)
  have hboth : u.Passes depth (2 * n) → ¬ u.Passes depth (2 * n + 1) := by
    rw [hpasses, hpasses]
    exact not_above_both hn
  by_cases hleft : u.Passes depth (2 * n)
  · simp [share, hchildren, hleft, hboth hleft]
  · simp [share, hchildren, hleft]

theorem netAt_children (hslots : ∀ u ∈ us, u.slot < depth.capacity) (hn : 0 < n)
    (hinner : n < depth.capacity) :
    netAt depth us n s = netAt depth us (2 * n) s + netAt depth us (2 * n + 1) s := by
  rw [netAt, netAt, netAt, ← List.sum_map_add]
  exact congrArg List.sum (List.map_congr_left fun u hu =>
    TreeUpdate.share_children (hslots u hu) hn hinner)

/-! ### Slots below a node -/

/-- The slots whose leaves lie below a node. -/
def below (depth : TreeDepth) (n : Nat) : Finset Nat :=
  (Finset.range depth.capacity).filter fun slot => n ∈ nodePath (depth.leaf slot)

/-- An update passes the leaf of its own slot only. -/
theorem TreeUpdate.passes_leaf (hu : u.slot < depth.capacity) {slot : Nat} :
    u.Passes depth (depth.leaf slot) ↔ slot = u.slot := by
  have hleaf (slot : Nat) : 2 ^ depth.bits ≤ depth.leaf slot := Nat.le_add_right _ _
  rw [passes_iff hu, above_leaf (hleaf _) (leaf_lt_word depth hu).1 (hleaf _)]
  exact Nat.add_left_cancel_iff

/-- The balance of a node is the sum of the balances of the slots below it. -/
theorem netAt_eq_sum_below (hslots : ∀ u ∈ us, u.slot < depth.capacity) :
    netAt depth us n s = ∑ slot ∈ below depth n, netAt depth us (depth.leaf slot) s := by
  induction us using List.reverseRecOn with
  | nil => exact Finset.sum_const_zero.symm
  | append_singleton us u ih =>
    have hu : u.slot < depth.capacity := hslots u (by simp)
    have hshare (slot : Nat) : u.share depth (depth.leaf slot) s =
        if slot = u.slot then (if u.timestamp ≤ s then u.signed else 0) else 0 := by
      rw [TreeUpdate.share, ← ite_and]
      exact if_congr (and_congr_left' (TreeUpdate.passes_leaf hu)) rfl rfl
    have hmem : u.slot ∈ below depth n ↔ u.Passes depth n := by
      rw [below, Finset.mem_filter, Finset.mem_range]
      exact and_iff_right hu
    simp only [netAt_concat, Finset.sum_add_distrib, hshare, Finset.sum_ite_eq']
    rw [ih fun v hv => hslots v (by simp [hv]), TreeUpdate.share, ite_and]
    exact congrArg _ (if_congr hmem.symm rfl rfl)

/-- The balance of a node after all updates. -/
theorem net_eq_sum_below (hslots : ∀ u ∈ us, u.slot < depth.capacity) :
    net depth us n = ∑ slot ∈ below depth n, net depth us (depth.leaf slot) := by
  obtain ⟨s, hs⟩ : ∃ s, ∀ u ∈ us, u.timestamp ≤ s := by
    refine ⟨(us.map TreeUpdate.timestamp).sum, fun u hu => ?_⟩
    exact List.single_le_sum (fun _ _ => Nat.zero_le _) _ (List.mem_map_of_mem hu)
  simp only [← netAt_eq_net hs]
  exact netAt_eq_sum_below hslots

theorem below_root : below depth 1 = Finset.range depth.capacity := by
  refine Finset.filter_true_of_mem fun slot hslot => ?_
  exact (mem_pathUp (leaf_lt_word depth (Finset.mem_range.1 hslot)).2).2
    (above_root (Nat.add_pos_left (Nat.two_pow_pos _) _))

/-- Balances that do not go below zero stay inside the width when the total does. -/
theorem inRange_of_total (hslots : ∀ u ∈ us, u.slot < depth.capacity)
    (hleaves : ∀ slot < depth.capacity, 0 ≤ net depth us (depth.leaf slot))
    (htotal : net depth us 1 < 2 ^ 64) : InRange depth us := by
  intro n
  have hsub : below depth n ⊆ below depth 1 := below_root ▸ Finset.filter_subset _ _
  have hnonneg : ∀ slot ∈ below depth 1, 0 ≤ net depth us (depth.leaf slot) := by
    rw [below_root]
    exact fun slot hslot => hleaves slot (Finset.mem_range.1 hslot)
  rw [net_eq_sum_below hslots] at htotal
  rw [net_eq_sum_below hslots]
  refine ⟨Finset.sum_nonneg fun slot hslot => hnonneg slot (hsub hslot), lt_of_le_of_lt ?_ htotal⟩
  exact Finset.sum_le_sum_of_subset_of_nonneg hsub fun slot hslot _ => hnonneg slot hslot

/-- Updates are admissible when no account goes below zero and the total stays inside the width. -/
theorem Admissible.of_total (hslots : ∀ u ∈ us, u.slot < depth.capacity)
    (hordered : us.Pairwise fun u u' => u.timestamp ≤ u'.timestamp)
    (htimestamps : ∀ u ∈ us, u.timestamp < 2 ^ 64)
    (hbalances : ∀ k ≤ us.length,
      (∀ slot < depth.capacity, 0 ≤ net depth (us.take k) (depth.leaf slot)) ∧
        net depth (us.take k) 1 < 2 ^ 64) : Admissible depth us := by
  refine ⟨hslots, hordered, htimestamps, fun us' hus' => ?_⟩
  obtain ⟨hleaves, htotal⟩ := hbalances us'.length hus'.length_le
  rw [← List.prefix_iff_eq_take.1 hus'] at hleaves htotal
  exact inRange_of_total (fun u hu => hslots u (hus'.subset hu)) hleaves htotal

/-! ### Time-weighted balances -/

/-- The balance of the account in a slot at time `s`. -/
def slotBalance (us : List TreeUpdate) (slot s : Nat) : Int :=
  ((us.filter fun u => u.slot = slot ∧ u.timestamp ≤ s).map TreeUpdate.signed).sum

/-- The time-weighted balance of the account in a slot. -/
def slotTwab (us : List TreeUpdate) (start fin slot : Nat) : Int :=
  ∑ s ∈ Finset.Ico start fin, slotBalance us slot s

/-- The time-weighted balance of a node. -/
def nodeTwab (depth : TreeDepth) (us : List TreeUpdate) (start fin n : Nat) : Int :=
  ∑ s ∈ Finset.Ico start fin, netAt depth us n s

variable {start fin slot : Nat}

theorem slotBalance_concat : slotBalance (us ++ [u]) slot s =
    slotBalance us slot s + if u.slot = slot ∧ u.timestamp ≤ s then u.signed else 0 := by
  rw [slotBalance, slotBalance, List.filter_append, List.map_append, List.sum_append,
    List.filter_singleton]
  by_cases h : u.slot = slot ∧ u.timestamp ≤ s
  · simp [h]
  · rw [if_neg h, decide_eq_false h]
    rfl

theorem netAt_leaf (hslots : ∀ u ∈ us, u.slot < depth.capacity) :
    netAt depth us (depth.leaf slot) s = slotBalance us slot s := by
  induction us using List.reverseRecOn with
  | nil => rfl
  | append_singleton us u ih =>
    rw [netAt_concat, slotBalance_concat, ih fun v hv => hslots v (by simp [hv]), TreeUpdate.share]
    have hleaf : u.Passes depth (depth.leaf slot) ↔ slot = u.slot :=
      TreeUpdate.passes_leaf (hslots u (by simp))
    exact congrArg _ (if_congr (and_congr_left' (hleaf.trans eq_comm)) rfl rfl)

theorem nodeTwab_leaf (hslots : ∀ u ∈ us, u.slot < depth.capacity) :
    nodeTwab depth us start fin (depth.leaf slot) = slotTwab us start fin slot :=
  Finset.sum_congr rfl fun _ _ => netAt_leaf hslots

/-- The time-weighted balance of a node is the sum of those of the slots below it. -/
theorem nodeTwab_eq_sum_below (hslots : ∀ u ∈ us, u.slot < depth.capacity) :
    nodeTwab depth us start fin n = ∑ slot ∈ below depth n, slotTwab us start fin slot := by
  simp only [nodeTwab, slotTwab]
  rw [Finset.sum_comm]
  refine Finset.sum_congr rfl fun s _ => ?_
  rw [netAt_eq_sum_below hslots]
  exact Finset.sum_congr rfl fun _ _ => netAt_leaf hslots

theorem nodeTwab_root (hslots : ∀ u ∈ us, u.slot < depth.capacity) :
    nodeTwab depth us start fin 1 =
      ∑ slot ∈ Finset.range depth.capacity, slotTwab us start fin slot := by
  rw [nodeTwab_eq_sum_below hslots, below_root]

theorem nodeTwab_children (hslots : ∀ u ∈ us, u.slot < depth.capacity) (n : Nat) (hn : 0 < n)
    (hinner : n < 2 ^ depth.bits) :
    nodeTwab depth us start fin n =
      nodeTwab depth us start fin (2 * n) + nodeTwab depth us start fin (2 * n + 1) := by
  rw [nodeTwab, nodeTwab, nodeTwab, ← Finset.sum_add_distrib]
  exact Finset.sum_congr rfl fun s _ => netAt_children hslots hn hinner

/-- The walk from a leaf collects the slots before it. -/
theorem prefixWalk_nodeTwab (hslots : ∀ u ∈ us, u.slot < depth.capacity)
    (hslot : slot < depth.capacity) :
    prefixWalk (nodeTwab depth us start fin) depth.bits (depth.leaf slot) =
      ∑ i ∈ Finset.range slot, slotTwab us start fin i := by
  refine (prefixWalk_eq (nodeTwab_children hslots) le_rfl hslot le_rfl).trans ?_
  exact Finset.sum_congr rfl fun i _ => nodeTwab_leaf hslots

/-- An update does not change the balances before it. -/
theorem slotTwab_concat (h : fin ≤ u.timestamp) :
    slotTwab (us ++ [u]) start fin = slotTwab us start fin := by
  funext slot
  refine Finset.sum_congr rfl fun s hs => ?_
  have hlt := (Finset.mem_Ico.1 hs).2
  rw [slotBalance_concat, if_neg fun hpast => absurd (h.trans hpast.2) (not_le.2 hlt), add_zero]

theorem nodeTwab_concat (h : fin ≤ u.timestamp) :
    nodeTwab depth (us ++ [u]) start fin = nodeTwab depth us start fin := by
  funext n
  refine Finset.sum_congr rfl fun s hs => ?_
  have hlt := (Finset.mem_Ico.1 hs).2
  rw [netAt_concat, TreeUpdate.share,
    if_neg fun hpast => absurd (h.trans hpast.2) (not_le.2 hlt), add_zero]

end Leopold
