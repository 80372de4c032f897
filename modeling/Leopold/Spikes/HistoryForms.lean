import Leopold.Reference.History
import Leopold.Spikes.MomentForm
import Leopold.Vault.Checkpoints

/-!
# The three forms of a node's history

The same updates are given to the moment tree, to the prefix tree and, node by node, to the
`History` of the research model.  All three answer the same sums.
-/

namespace Leopold

open Lib
open TwabReferenceModel (Written lastBalance)

variable {depth : TreeDepth} {us : List TreeUpdate} {u : TreeUpdate} {n s t now : Nat}

/-! ### The reference model -/

namespace History

variable {l : List Checkpoint} {delta : Int}

/-- The updates of one node. -/
def replay (us : List TreeUpdate) : Except String (List Checkpoint) :=
  us.foldlM (fun l u => update u.signed u.timestamp l) []

/-- A change in range writes the new balance. -/
theorem update_eq_write (h : Written now l) (hnow : now ≤ t) (hdelta : 0 ≤ lastBalance l + delta) :
    update delta t l = TwabReferenceModel.write l (lastBalance l + delta).toNat t := by
  rw [lastBalance] at hdelta
  rw [update, TwabReferenceModel.write, lastBalance]
  cases hlast : l.getLast? with
  | none =>
    obtain rfl := List.getLast?_eq_none_iff.1 hlast
    rw [hlast] at hdelta
    rw [revertIf_of_not (by simp), bind_ok]
    dsimp only
    rw [revertIf_of_not (not_lt.2 hdelta)]
    rfl
  | some o =>
    have hle : o.timestamp ≤ t := (h.past o (List.mem_of_getLast? hlast)).trans hnow
    rw [hlast] at hdelta
    have hpast : ¬ (some o).any (t < ·.timestamp) = true := by simpa using hle
    rw [revertIf_of_not hpast, bind_ok]
    dsimp only
    rw [revertIf_of_not (not_lt.2 hdelta)]
    simp only [bind_ok, revertIf_of_not (Nat.not_lt.2 hle), Option.any_some, decide_eq_true_eq]
    by_cases hsame : o.timestamp = t
    · subst hsame
      rw [if_pos rfl, if_pos rfl]
      rfl
    · rw [if_neg hsame, if_neg hsame]
      rfl

/-- The observations record the balance of the node. -/
structure Records (depth : TreeDepth) (us : List TreeUpdate) (n now : Nat) (l : List Checkpoint) :
    Prop where
  written : Written now l
  last : (lastBalance l : Int) = net depth us n
  balances : ∀ s, (valueAt Checkpoint.timestamp Checkpoint.balance l s : Int) = netAt depth us n s

theorem Records.empty : Records depth [] n now [] := ⟨⟨.nil, nofun⟩, rfl, fun _ => rfl⟩

/-- A change of the node is recorded. -/
theorem Records.update (h : Records depth us n now l) (hnow : now ≤ u.timestamp)
    (hn : u.Passes depth n) (hin : InRange depth (us ++ [u])) :
    ∃ l', History.update u.signed u.timestamp l = .ok l' ∧
      Records depth (us ++ [u]) n u.timestamp l' := by
  have hsum : net depth (us ++ [u]) n = lastBalance l + u.signed := by
    rw [net_concat, if_pos hn, h.last]
  have hpos : 0 ≤ (lastBalance l : Int) + u.signed := hsum ▸ (hin n).1
  obtain ⟨l', hwrite, hwritten, hlast, hat⟩ :=
    h.written.write (b := ((lastBalance l : Int) + u.signed).toNat) hnow
  refine ⟨l', (update_eq_write h.written hnow hpos).trans hwrite, hwritten, ?_, fun s => ?_⟩
  · rw [hlast, Int.toNat_of_nonneg hpos, hsum]
  · rw [hat, netAt_concat, TreeUpdate.share]
    by_cases hs : u.timestamp ≤ s
    · have hbalance : netAt depth us n s = lastBalance l := by
        rw [← h.balances, h.written.valueAt_last (hnow.trans hs)]
      rw [if_pos hs, if_pos ⟨hn, hs⟩, Int.toNat_of_nonneg hpos, hbalance]
    · rw [if_neg hs, if_neg fun hpast => hs hpast.2, h.balances, add_zero]

/-- A change that does not pass the node leaves its history. -/
theorem Records.skip (h : Records depth us n now l) (hn : ¬ u.Passes depth n) :
    Records depth (us ++ [u]) n now l := by
  refine ⟨h.written, ?_, fun s => ?_⟩
  · rw [net_concat, if_neg hn, add_zero, h.last]
  · rw [netAt_concat, TreeUpdate.share, if_neg fun hpast => hn hpast.1, add_zero, h.balances]

theorem Records.later {now' : Nat} (h : Records depth us n now l) (hnow : now ≤ now') :
    Records depth us n now' l :=
  ⟨⟨h.written.tracks, fun o ho => (h.written.past o ho).trans hnow⟩, h.last, h.balances⟩

theorem replay_records (h : Admissible depth us) (n : Nat) :
    ∃ l, replay (us.filter (·.Passes depth n)) = .ok l ∧
      ∀ now, (∀ u ∈ us, u.timestamp ≤ now) → Records depth us n now l := by
  induction us using List.reverseRecOn with
  | nil => exact ⟨[], rfl, fun now _ => .empty⟩
  | append_singleton us u ih =>
    obtain ⟨l, hl, hrecords⟩ := ih h.append_left
    have hpast : ∀ v ∈ us, v.timestamp ≤ u.timestamp := fun v hv =>
      (List.pairwise_append.1 h.ordered).2.2 v hv u (by simp)
    have hnow (now : Nat) (hall : ∀ v ∈ us ++ [u], v.timestamp ≤ now) : u.timestamp ≤ now :=
      hall u (by simp)
    rw [List.filter_append, replay, List.foldlM_append]
    by_cases hn : u.Passes depth n
    · obtain ⟨l', hl', hrecords'⟩ :=
        (hrecords _ hpast).update le_rfl hn (h.inRange _ List.prefix_rfl)
      refine ⟨l', ?_, fun now hall => hrecords'.later (hnow now hall)⟩
      rw [← replay, hl, List.filter_singleton, decide_eq_true hn]
      exact (bind_pure _).trans hl'
    · refine ⟨l, ?_, fun now hall => ((hrecords _ hpast).skip hn).later (hnow now hall)⟩
      rw [← replay, hl, List.filter_singleton, decide_eq_false hn]
      rfl

/-- `twab` answers the sum of the balances of the node. -/
theorem Records.twab_eq {start fin : Nat} (h : Records depth us n now l) (hle : start ≤ fin) :
    twab start fin l = some (∑ s ∈ Finset.Ico start fin, netAt depth us n s) := by
  rw [twab, cumulativeAt, cumulativeAt, h.written.interpolate_eq, h.written.interpolate_eq]
  refine congrArg some ?_
  simp only [Nat.cast_sum, h.balances]
  rw [Finset.sum_Ico_eq_sub _ hle]

end History

/-! ### The trees -/

namespace PrefixTree

/-- The nodes after a sequence of updates. -/
def replay (depth : TreeDepth) (us : List TreeUpdate) :
    Except Panic (Nat → List (Observation Nat Nat)) :=
  us.foldlM (fun nodes u =>
    updateBalancePath Fhe.plain depth u.slot u.delta u.increase u.timestamp nodes) fun _ => []

end PrefixTree

namespace MomentTree

variable {nodes : Nat → List (Observation Nat Nat)}

/-- The nodes after a sequence of updates. -/
def replay (depth : TreeDepth) (us : List TreeUpdate) : Nat → List (Observation Nat Nat) :=
  us.foldl (receive depth) fun _ => []

/-- **Step.**  An update of the prefix tree is the translated update of the moment tree. -/
theorem updateBalancePath_toCheckpoint (h : TreeRecords depth us now nodes)
    (hnow : now ≤ u.timestamp) (ht : u.timestamp < 2 ^ 64) (hin : InRange depth us)
    (hin' : InRange depth (us ++ [u])) :
    PrefixTree.updateBalancePath Fhe.plain depth u.slot u.delta u.increase u.timestamp
        (fun n => (nodes n).map toCheckpoint) =
      .ok fun n => (receive depth nodes u n).map toCheckpoint := by
  refine alongPath_eq_ok nodup_pathUp (fun n (hn : u.Passes depth n) => ?_)
    (fun n (hn : ¬ u.Passes depth n) => ?_)
  · obtain ⟨hchanged, hdelta⟩ := changed_net hn hin hin'
    rw [receive_apply ht, if_pos hn]
    exact updateNode_toCheckpoint (h.encodes n) hnow ht (toNat_net_lt hin) hdelta
      (hchanged ▸ toNat_net_lt hin')
  · rw [receive_apply ht, if_neg hn]

theorem replay_records (h : Admissible depth us) :
    PrefixTree.replay depth us = .ok (fun n => (replay depth us n).map toCheckpoint) ∧
      ∀ now, (∀ u ∈ us, u.timestamp ≤ now) → TreeRecords depth us now (replay depth us) := by
  induction us using List.reverseRecOn with
  | nil => exact ⟨rfl, fun now _ => .empty⟩
  | append_singleton us u ih =>
    obtain ⟨htree, hrecords⟩ := ih h.append_left
    have hpast : ∀ v ∈ us, v.timestamp ≤ u.timestamp := fun v hv =>
      (List.pairwise_append.1 h.ordered).2.2 v hv u (by simp)
    have ht : u.timestamp < 2 ^ 64 := h.timestamps u (by simp)
    have hin : InRange depth us := h.inRange us (List.prefix_append _ _)
    have hin' : InRange depth (us ++ [u]) := h.inRange _ List.prefix_rfl
    have hreplay : replay depth (us ++ [u]) = receive depth (replay depth us) u := by
      rw [replay, List.foldl_append]
      rfl
    rw [hreplay]
    refine ⟨?_, fun now hall => ?_⟩
    · rw [PrefixTree.replay, List.foldlM_append, ← PrefixTree.replay, htree, bind_ok,
        List.foldlM_cons, updateBalancePath_toCheckpoint (hrecords _ hpast) le_rfl ht hin hin']
      rfl
    · exact ((hrecords _ hpast).receive le_rfl ht hin hin').later (hall u (by simp))

/-- **The three forms agree.**  Both trees accept every admissible sequence of updates, so does
the reference model at each node, and at every node they answer the same sums. -/
theorem forms_agree (h : Admissible depth us) :
    ∃ checkpoints, PrefixTree.replay depth us = .ok checkpoints ∧
      ∀ n, ∃ history, History.replay (us.filter (·.Passes depth n)) = .ok history ∧
        (∀ t < 2 ^ 64, ∃ c,
          cumulativeAt Fhe.plain t (replay depth us n) = .ok c ∧
          PrefixTree.cumulativeAt Fhe.plain t (checkpoints n) = .ok c ∧
          History.cumulativeAt t history = some c) ∧
        ∀ start fin, start ≤ fin → fin < 2 ^ 64 → ∃ w,
          nodeWeight Fhe.plain start fin (replay depth us n) = .ok w ∧
          PrefixTree.nodeWeight Fhe.plain start fin (checkpoints n) = .ok w ∧
          History.twab start fin history = some (w : Int) := by
  obtain ⟨htree, hrecords⟩ := replay_records h
  have hpast : ∀ u ∈ us, u.timestamp ≤ 2 ^ 64 := fun u hu => (h.timestamps u hu).le
  refine ⟨_, htree, fun n => ?_⟩
  obtain ⟨history, hreplay, hhistory⟩ := History.replay_records h n
  refine ⟨history, hreplay, fun t ht => ?_, fun start fin hle hfin => ?_⟩
  · obtain ⟨c, hmoment, hcheckpoint, hc⟩ := (hrecords _ hpast).cumulativeAt_eq (n := n) ht
    refine ⟨c, hmoment, hcheckpoint, ?_⟩
    rw [History.cumulativeAt, (hhistory _ hpast).written.interpolate_eq]
    refine congrArg some (Int.natCast_inj.1 ?_)
    simp only [hc, Nat.cast_sum, (hhistory _ hpast).balances]
  · obtain ⟨w, hmoment, hcheckpoint, hw⟩ := (hrecords _ hpast).nodeWeight_eq (n := n) hle hfin
    exact ⟨w, hmoment, hcheckpoint, by rw [(hhistory _ hpast).twab_eq hle, hw, nodeTwab]⟩

/-- A deposit, its withdrawal, after which the moment has wrapped below zero, and a deposit of
another account at the same time. -/
theorem forms_agree_three :
    let depth : TreeDepth := ⟨2, by decide, by decide⟩
    let us : List TreeUpdate := [⟨1, 5, true, 10⟩, ⟨1, 5, false, 20⟩, ⟨3, 7, true, 20⟩]
    ∃ checkpoints, PrefixTree.replay depth us = .ok checkpoints ∧
      ∃ history, History.replay (us.filter (·.Passes depth 1)) = .ok history ∧
        ∃ w, nodeWeight Fhe.plain 15 25 (replay depth us 1) = .ok w ∧
          PrefixTree.nodeWeight Fhe.plain 15 25 (checkpoints 1) = .ok w ∧
          History.twab 15 25 history = some (w : Int) := by
  intro depth us
  have h : Admissible depth us := .of_total (by decide +kernel) (by decide +kernel)
    (by decide +kernel) (by decide +kernel)
  obtain ⟨checkpoints, htree, hnodes⟩ := forms_agree h
  obtain ⟨history, hreplay, -, hweight⟩ := hnodes 1
  exact ⟨checkpoints, htree, history, hreplay, hweight 15 25 (by decide) (by decide)⟩

end MomentTree

end Leopold
