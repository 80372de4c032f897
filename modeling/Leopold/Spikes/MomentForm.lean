import Leopold.Spikes.TreeUpdates
import Mathlib.Algebra.BigOperators.Ring.Finset

/-!
# The moment form

An observation of the moment tree stands for the checkpoint of the prefix tree at the same time:
its balance times that time, less the moment, is the sum up to then, however often the moment has
wrapped.  Updates and queries of the two trees go through this translation.
-/

namespace Leopold

open Lib

/-! ### Arithmetic modulo the width -/

namespace Fhe

variable {b t e m d : Nat}

/-- A balance that is held for longer. -/
theorem plain_accrue (hm : m < 2 ^ 128) :
    plain.add128 (plain.sub128 (plain.mul128 b t) m) (plain.mul128 b e) =
      plain.sub128 (plain.mul128 b (t + e)) m := by
  show ((b * t % 2 ^ 128 + 2 ^ 128 - m) % 2 ^ 128 + b * e % 2 ^ 128) % 2 ^ 128 =
    (b * (t + e) % 2 ^ 128 + 2 ^ 128 - m) % 2 ^ 128
  rw [Nat.mul_add]
  omega

/-- A change moves the balance and the moment alike. -/
theorem plain_increase (hm : m < 2 ^ 128) :
    plain.sub128 (plain.mul128 (b + d) t) (plain.add128 m (plain.mul128 d t)) =
      plain.sub128 (plain.mul128 b t) m := by
  show ((b + d) * t % 2 ^ 128 + 2 ^ 128 - (m + d * t % 2 ^ 128) % 2 ^ 128) % 2 ^ 128 =
    (b * t % 2 ^ 128 + 2 ^ 128 - m) % 2 ^ 128
  rw [Nat.add_mul]
  omega

theorem plain_decrease (hm : m < 2 ^ 128) (hd : d ≤ b) :
    plain.sub128 (plain.mul128 (b - d) t) (plain.sub128 m (plain.mul128 d t)) =
      plain.sub128 (plain.mul128 b t) m := by
  show ((b - d) * t % 2 ^ 128 + 2 ^ 128 - (m + 2 ^ 128 - d * t % 2 ^ 128) % 2 ^ 128) % 2 ^ 128 =
    (b * t % 2 ^ 128 + 2 ^ 128 - m) % 2 ^ 128
  have hle : d * t ≤ b * t := Nat.mul_le_mul_right t hd
  rw [Nat.sub_mul]
  omega

end Fhe

namespace MomentTree

open PrefixTree (changed changed_eq)

/-- The checkpoint an observation stands for. -/
def toCheckpoint (o : Observation Nat Nat) : Leopold.Observation Nat Nat where
  timestamp := o.timestamp
  balance := o.balance
  cumulative := Fhe.plain.sub128 (Fhe.plain.mul128 o.balance o.timestamp) o.moment

variable {obs : List (Observation Nat Nat)} {principal t delta start fin : Nat} {increase : Bool}

/-- The checkpoint of a change has the sum up to the change. -/
theorem checkpoint_changed {b m : Nat} (hm : m < 2 ^ 128) (hdelta : increase = false → delta ≤ b) :
    Fhe.plain.sub128 (Fhe.plain.mul128 (changed increase b delta) t)
        (if increase then Fhe.plain.add128 m (Fhe.plain.mul128 delta t)
          else Fhe.plain.sub128 m (Fhe.plain.mul128 delta t)) =
      Fhe.plain.sub128 (Fhe.plain.mul128 b t) m := by
  cases increase with
  | true =>
    rw [changed, if_pos rfl, if_pos rfl]
    exact Fhe.plain_increase hm
  | false =>
    rw [changed, if_neg Bool.false_ne_true, if_neg Bool.false_ne_true]
    exact Fhe.plain_decrease hm (hdelta rfl)

/-- The observations of a node that has the balance `principal`. -/
structure Encodes (now principal : Nat) (obs : List (Observation Nat Nat)) : Prop where
  moments : ∀ o ∈ obs, o.moment < 2 ^ 128
  recorded : Recorded now principal (obs.map toCheckpoint)

theorem Encodes.last {now : Nat} (h : Encodes now principal obs) :
    (obs.getLast?.map Observation.balance).getD 0 = principal := by
  have hlast := PrefixTree.last_balance h.recorded
  rw [List.getLast?_map, Option.map_map] at hlast
  exact hlast

theorem getD_moment_lt (h : ∀ o ∈ obs, o.moment < 2 ^ 128) :
    (obs.getLast?.map Observation.moment).getD 0 < 2 ^ 128 := by
  cases hlast : obs.getLast? with
  | none => simp
  | some o => exact h o (List.mem_of_getLast? hlast)

/-- What the prefix tree takes over from the last observation. -/
theorem carried_toCheckpoint {now : Nat} (h : Encodes now principal obs) (hnow : now ≤ t)
    (ht : t < 2 ^ 64) :
    PrefixTree.carried Fhe.plain t (obs.map toCheckpoint) =
      .ok (principal, Fhe.plain.sub128 (Fhe.plain.mul128 principal t)
        ((obs.getLast?.map Observation.moment).getD 0)) := by
  have hlast := h.last
  rw [PrefixTree.carried, List.getLast?_map]
  cases hget : obs.getLast? with
  | none =>
    rw [hget] at hlast
    obtain rfl : principal = 0 := hlast.symm
    rw [Fhe.plain_mul128 (by omega), Nat.zero_mul, Option.map_none, Option.map_none,
      Option.getD_none, Fhe.plain_sub128 (by decide) le_rfl]
    rfl
  | some o =>
    rw [hget] at hlast
    obtain rfl : o.balance = principal := hlast
    have hmem : o ∈ obs := List.mem_of_getLast? hget
    have hle : o.timestamp ≤ t :=
      (h.recorded.written (toCheckpoint o) (List.mem_map_of_mem hmem)).1.trans hnow
    have haccrue := Fhe.plain_accrue (b := o.balance) (t := o.timestamp) (e := t - o.timestamp)
      (h.moments o hmem)
    rw [Nat.add_sub_of_le hle] at haccrue
    have htime : (toCheckpoint o).timestamp = o.timestamp := rfl
    simp only [Option.map_some, Option.getD_some, htime, checkedSub, if_pos hle, bind_ok,
      pure_eq_ok]
    by_cases hzero : t - o.timestamp = 0
    · have hsame : o.timestamp = t := by omega
      rw [if_neg (not_not.2 hzero), ← hsame]
      rfl
    · rw [if_pos hzero, Fhe.plain_asEuint128 (by omega), ← haccrue]
      rfl

/-- `_updateNode` of the two trees. -/
theorem updateNode_toCheckpoint {now : Nat} (h : Encodes now principal obs) (hnow : now ≤ t)
    (ht : t < 2 ^ 64) (hp : principal < 2 ^ 64) (hdelta : increase = false → delta ≤ principal)
    (hlt : changed increase principal delta < 2 ^ 64) :
    PrefixTree.updateNode Fhe.plain delta increase t (obs.map toCheckpoint) =
      .ok ((updateNode Fhe.plain delta (Fhe.plain.mul128 delta t) increase t obs).map
        toCheckpoint) := by
  have hbalance := changed_eq hp hdelta hlt
  have hcheckpoint := checkpoint_changed (t := t) (getD_moment_lt h.moments) hdelta
  have hsame : (obs.map toCheckpoint).getLast?.any (·.timestamp = t) =
      obs.getLast?.any (·.timestamp = t) := by
    rw [List.getLast?_map, Option.any_map]
    rfl
  rw [PrefixTree.updateNode, carried_toCheckpoint h hnow ht, bind_ok]
  simp only [hbalance, hsame]
  rw [← hcheckpoint, updateNode]
  have hzero : Fhe.plain.asEuint64 0 = 0 := rfl
  have hzero128 : Fhe.plain.asEuint128 0 = 0 := rfl
  simp only [hzero, hzero128, h.last, hbalance]
  split <;> simp only [List.map_append, List.map_dropLast, List.map_cons, List.map_nil, pure_eq_ok,
    toCheckpoint]

/-- The balance a node records for time `s`. -/
def nodeBalanceAt (obs : List (Observation Nat Nat)) (s : Nat) : Nat :=
  balanceAt (obs.map toCheckpoint) s

/-- The moments stay inside the width. -/
theorem updateNode_moments (h : ∀ o ∈ obs, o.moment < 2 ^ 128) :
    ∀ o ∈ updateNode Fhe.plain delta (Fhe.plain.mul128 delta t) increase t obs,
      o.moment < 2 ^ 128 := by
  have hnew : (if increase then
      Fhe.plain.add128 ((obs.getLast?.map (·.moment)).getD (Fhe.plain.asEuint128 0))
        (Fhe.plain.mul128 delta t)
      else Fhe.plain.sub128 ((obs.getLast?.map (·.moment)).getD (Fhe.plain.asEuint128 0))
        (Fhe.plain.mul128 delta t)) < 2 ^ 128 := by
    split
    · exact Nat.mod_lt _ (Nat.two_pow_pos 128)
    · exact Nat.mod_lt _ (Nat.two_pow_pos 128)
  intro o ho
  rw [updateNode] at ho
  split at ho <;> rcases List.mem_append.1 ho with hold | hlast
  · exact h o (List.mem_of_mem_dropLast hold)
  · rw [List.mem_singleton.1 hlast]
    exact hnew
  · exact h o hold
  · rw [List.mem_singleton.1 hlast]
    exact hnew

/-- An update at the present extends the history of the node. -/
theorem Encodes.updateNode {now : Nat} (h : Encodes now principal obs) (hnow : now ≤ t)
    (ht : t < 2 ^ 64) (hp : principal < 2 ^ 64) (hdelta : increase = false → delta ≤ principal)
    (hlt : changed increase principal delta < 2 ^ 64) :
    let obs' := MomentTree.updateNode Fhe.plain delta (Fhe.plain.mul128 delta t) increase t obs
    Encodes t (changed increase principal delta) obs' ∧
      ∀ s, nodeBalanceAt obs' s =
        if t ≤ s then changed increase principal delta else nodeBalanceAt obs s := by
  obtain ⟨next, hnext, hrecorded, hat⟩ :=
    PrefixTree.updateNode_ok h.recorded hp hnow ht hdelta hlt
  rw [updateNode_toCheckpoint h hnow ht hp hdelta hlt] at hnext
  obtain rfl := ok_eq_ok.1 hnext
  exact ⟨⟨updateNode_moments h.moments, hrecorded⟩, hat⟩

/-! ### Queries -/

theorem searchAt_toCheckpoint :
    searchAt Leopold.Observation.timestamp (obs.map toCheckpoint) t =
      searchAt Observation.timestamp obs t := by
  have hfound (middle : Nat) :
      ((obs.map toCheckpoint)[middle]?).any (fun o => decide (o.timestamp ≤ t)) =
        (obs[middle]?).any fun o => decide (o.timestamp ≤ t) := by
    rw [List.getElem?_map, Option.any_map]
    rfl
  rw [searchAt, searchAt, List.length_map, funext hfound]

/-- `_cumulativeAt` of the two trees. -/
theorem cumulativeAt_toCheckpoint {now : Nat} (h : Encodes now principal obs) (ht : t < 2 ^ 64) :
    cumulativeAt Fhe.plain t obs =
      PrefixTree.cumulativeAt Fhe.plain t (obs.map toCheckpoint) := by
  rw [cumulativeAt, PrefixTree.cumulativeAt, List.getElem?_map]
  cases hfirst : obs[0]? with
  | none => rfl
  | some first =>
    obtain ⟨rest, rfl⟩ : ∃ rest, obs = first :: rest := by
      cases obs with
      | nil => cases hfirst
      | cons a rest => exact ⟨rest, by rw [← Option.some.inj hfirst]⟩
    have hsame : (toCheckpoint first).timestamp = first.timestamp := rfl
    simp only [Option.map_some, hsame, searchAt_toCheckpoint]
    by_cases hbefore : t < first.timestamp
    · rw [if_pos hbefore, if_pos hbefore]
    · rw [if_neg hbefore, if_neg hbefore]
      obtain ⟨i, o, hi, hget, hle, -⟩ := search_spec Observation.timestamp rest
        (Nat.not_lt.1 hbefore)
      have hsearch : searchAt Observation.timestamp (first :: rest) t = i := hi.symm
      have hmem : o ∈ first :: rest := List.mem_of_getElem? hget
      have haccrue := Fhe.plain_accrue (b := o.balance) (t := o.timestamp) (e := t - o.timestamp)
        (h.moments o hmem)
      rw [Nat.add_sub_of_le hle] at haccrue
      have htime : (toCheckpoint o).timestamp = o.timestamp := rfl
      rw [hsearch, List.getElem?_map, hget]
      simp only [Option.map_some, htime, checkedSub, if_pos hle, bind_ok]
      by_cases hzero : t - o.timestamp = 0
      · have hnow : o.timestamp = t := by omega
        rw [if_pos hzero, Fhe.plain_asEuint128 (by omega), ← hnow]
        rfl
      · rw [if_neg hzero, Fhe.plain_asEuint128 (by omega), Fhe.plain_asEuint128 (by omega)]
        exact congrArg _ haccrue.symm

/-- `_nodeWeight` of the two trees. -/
theorem nodeWeight_toCheckpoint {now : Nat} (h : Encodes now principal obs) (hstart : start < 2 ^ 64)
    (hfin : fin < 2 ^ 64) :
    nodeWeight Fhe.plain start fin obs =
      PrefixTree.nodeWeight Fhe.plain start fin (obs.map toCheckpoint) := by
  rw [nodeWeight, PrefixTree.nodeWeight, cumulativeAt_toCheckpoint h hfin,
    cumulativeAt_toCheckpoint h hstart]

/-! ### Updates of a path -/

theorem updateNodes_apply {path : List Nat} (hpath : path.Nodup) {m n : Nat}
    {nodes : Nat → List (Observation Nat Nat)} :
    updateNodes Fhe.plain delta m increase t path nodes n =
      if n ∈ path then updateNode Fhe.plain delta m increase t (nodes n) else nodes n := by
  induction path generalizing nodes with
  | nil => rw [updateNodes, if_neg List.not_mem_nil]
  | cons node rest ih =>
    obtain ⟨hnode, hrest⟩ := List.nodup_cons.1 hpath
    rw [updateNodes, ih hrest]
    by_cases hsame : n = node
    · subst hsame
      rw [if_neg hnode, Function.update_self, if_pos (List.mem_cons_self ..)]
    · rw [Function.update_of_ne hsame]
      exact if_congr (by simp [hsame]) rfl rfl

variable {depth : TreeDepth} {us : List TreeUpdate} {u : TreeUpdate}
  {nodes : Nat → List (Observation Nat Nat)} {now n s : Nat}

/-- The nodes after one update. -/
def receive (depth : TreeDepth) (nodes : Nat → List (Observation Nat Nat)) (u : TreeUpdate) :
    Nat → List (Observation Nat Nat) :=
  updateBalancePath Fhe.plain depth u.slot u.delta u.increase u.timestamp nodes

/-- The nodes have recorded the updates up to `now`. -/
structure TreeRecords (depth : TreeDepth) (us : List TreeUpdate) (now : Nat)
    (nodes : Nat → List (Observation Nat Nat)) : Prop where
  encodes : ∀ n, Encodes now (net depth us n).toNat (nodes n)
  balances : ∀ n s, (nodeBalanceAt (nodes n) s : Int) = netAt depth us n s

theorem Encodes.later {now' : Nat} (h : Encodes now principal obs) (hnow : now ≤ now') :
    Encodes now' principal obs := ⟨h.moments, h.recorded.later hnow⟩

theorem TreeRecords.empty : TreeRecords depth [] now fun _ => [] :=
  ⟨fun _ => ⟨nofun, .empty⟩, fun _ _ => rfl⟩

theorem TreeRecords.later {now' : Nat} (h : TreeRecords depth us now nodes) (hnow : now ≤ now') :
    TreeRecords depth us now' nodes := ⟨fun n => (h.encodes n).later hnow, h.balances⟩

theorem receive_apply (ht : u.timestamp < 2 ^ 64) :
    receive depth nodes u n =
      if u.Passes depth n then
        updateNode Fhe.plain u.delta (Fhe.plain.mul128 u.delta u.timestamp) u.increase u.timestamp
          (nodes n)
      else nodes n := by
  rw [receive, updateBalancePath, Fhe.plain_asEuint128 (by omega), Fhe.plain_widen]
  exact updateNodes_apply nodup_pathUp

/-- The balance an update leaves at a node it passes. -/
theorem changed_net (hn : u.Passes depth n) (h : InRange depth us)
    (h' : InRange depth (us ++ [u])) :
    changed u.increase (net depth us n).toNat u.delta = (net depth (us ++ [u]) n).toNat ∧
      (u.increase = false → u.delta ≤ (net depth us n).toNat) := by
  have hbefore := (h n).1
  have hafter := (h' n).1
  rw [net_concat, if_pos hn, TreeUpdate.signed] at hafter ⊢
  cases hincrease : u.increase with
  | true =>
    rw [hincrease, if_pos rfl] at hafter
    rw [changed, if_pos rfl, if_pos rfl]
    exact ⟨by omega, by rintro ⟨⟩⟩
  | false =>
    rw [hincrease, if_neg Bool.false_ne_true] at hafter
    rw [changed, if_neg Bool.false_ne_true, if_neg Bool.false_ne_true]
    exact ⟨by omega, fun _ => by omega⟩

theorem toNat_net_lt (h : InRange depth us) : (net depth us n).toNat < 2 ^ 64 := by
  have := h n
  omega

/-- **Step.**  An update is recorded at every node. -/
theorem TreeRecords.receive (h : TreeRecords depth us now nodes) (hnow : now ≤ u.timestamp)
    (ht : u.timestamp < 2 ^ 64) (hin : InRange depth us) (hin' : InRange depth (us ++ [u])) :
    TreeRecords depth (us ++ [u]) u.timestamp (MomentTree.receive depth nodes u) := by
  have hnode (n : Nat) : Encodes u.timestamp (net depth (us ++ [u]) n).toNat
      (MomentTree.receive depth nodes u n) ∧
      ∀ s, (nodeBalanceAt (MomentTree.receive depth nodes u n) s : Int) =
        netAt depth (us ++ [u]) n s := by
    rw [receive_apply ht]
    by_cases hn : u.Passes depth n
    · obtain ⟨hchanged, hdelta⟩ := changed_net hn hin hin'
      have hlt : changed u.increase (net depth us n).toNat u.delta < 2 ^ 64 :=
        hchanged ▸ toNat_net_lt hin'
      obtain ⟨hencodes, hat⟩ :=
        (h.encodes n).updateNode hnow ht (toNat_net_lt hin) hdelta hlt
      rw [if_pos hn]
      refine ⟨hchanged ▸ hencodes, fun s => ?_⟩
      rw [hat, netAt_concat, TreeUpdate.share]
      by_cases hs : u.timestamp ≤ s
      · have hall : ∀ s', now ≤ s' → netAt depth us n s' = net depth us n := by
          intro s' hs'
          rw [← h.balances, nodeBalanceAt, (h.encodes n).recorded.current s' hs',
            Int.toNat_of_nonneg (hin n).1]
        rw [if_pos hs, if_pos ⟨hn, hs⟩, hchanged, Int.toNat_of_nonneg (hin' n).1, net_concat,
          if_pos hn, hall s (hnow.trans hs)]
      · rw [if_neg hs, if_neg fun hpast => hs hpast.2, h.balances, add_zero]
    · rw [if_neg hn, net_concat, if_neg hn, add_zero]
      refine ⟨(h.encodes n).later hnow, fun s => ?_⟩
      rw [netAt_concat, TreeUpdate.share, if_neg fun hpast => hn hpast.1, add_zero]
      exact h.balances n s
  exact ⟨fun n => (hnode n).1, fun n => (hnode n).2⟩

/-! ### Weights of the nodes -/

/-- `_cumulativeAt` answers the sum of the balances of the node before `t`. -/
theorem TreeRecords.cumulativeAt_eq (h : TreeRecords depth us now nodes) (ht : t < 2 ^ 64) :
    ∃ c, cumulativeAt Fhe.plain t (nodes n) = .ok c ∧
      PrefixTree.cumulativeAt Fhe.plain t ((nodes n).map toCheckpoint) = .ok c ∧
      (c : Int) = ∑ s ∈ Finset.range t, netAt depth us n s := by
  have htree := PrefixTree.cumulativeAt_eq (h.encodes n).recorded ht
  refine ⟨_, (cumulativeAt_toCheckpoint (h.encodes n) ht).trans htree, htree, ?_⟩
  simp only [balanceSum, Nat.cast_sum, ← h.balances]
  rfl

/-- `_nodeWeight` answers the sum of the balances of the node between two times. -/
theorem TreeRecords.nodeWeight_eq (h : TreeRecords depth us now nodes) (hle : start ≤ fin)
    (hfin : fin < 2 ^ 64) :
    ∃ w, nodeWeight Fhe.plain start fin (nodes n) = .ok w ∧
      PrefixTree.nodeWeight Fhe.plain start fin ((nodes n).map toCheckpoint) = .ok w ∧
      (w : Int) = nodeTwab depth us start fin n := by
  have htree := PrefixTree.nodeWeight_eq (h.encodes n).recorded hle hfin
  refine ⟨_, (nodeWeight_toCheckpoint (h.encodes n) (hle.trans_lt hfin) hfin).trans htree,
    htree, ?_⟩
  simp only [nodeTwab, Nat.cast_sum, ← h.balances]
  rfl

theorem TreeRecords.nodeTwab_nonneg (h : TreeRecords depth us now nodes) :
    0 ≤ nodeTwab depth us start fin n := by
  refine Finset.sum_nonneg fun s _ => ?_
  rw [← h.balances]
  exact Int.natCast_nonneg _

/-- No weight of a node leaves 128 bits. -/
theorem TreeRecords.nodeTwab_lt (h : TreeRecords depth us now nodes) (hfin : fin < 2 ^ 64) :
    nodeTwab depth us start fin n < 2 ^ 128 := by
  have hsub : ∑ s ∈ Finset.Ico start fin, nodeBalanceAt (nodes n) s ≤
      balanceSum ((nodes n).map toCheckpoint) fin :=
    Finset.sum_le_sum_of_subset fun s hs => Finset.mem_range.2 (Finset.mem_Ico.1 hs).2
  have hlt := hsub.trans_lt ((h.encodes n).recorded.sum_lt hfin)
  simp only [nodeTwab, ← h.balances]
  exact_mod_cast hlt

end MomentTree

end Leopold
