import Leopold.Lib.HeapTree
import Leopold.Vault.History

/-!
# The historical prefix tree

The segment tree of `LeopoldHistoricalPrefixTreeSpike`: every node keeps the observations of the
accounts below it, each with the sum it has accrued.  A balance update goes from a leaf to the
root; a prefix is collected from the left siblings on the way.
-/

namespace Leopold

open Lib

/-- The depth that the constructor of a tree accepts. -/
structure TreeDepth where
  bits : Nat
  pos : 0 < bits
  le : bits ≤ 32

namespace TreeDepth

variable (depth : TreeDepth)

/-- `CAPACITY`. -/
def capacity : Nat := 2 ^ depth.bits

/-- `_leaf`. -/
def leaf (slot : Nat) : Nat := depth.capacity + slot

end TreeDepth

/-- The nodes from one up to the root, as the loops over a 256-bit word meet them. -/
def nodePath (node : Nat) : List Nat := pathUp 256 node

/-- The position the binary search of `_cumulativeAt` ends at. -/
def searchAt {σ : Type} (time : σ → Nat) (observations : List σ) (timestamp : Nat) : Nat :=
  bisect (fun middle => (observations[middle]?).any fun o => decide (time o ≤ timestamp))
    observations.length 0 observations.length

namespace PrefixTree

section

variable {E64 E128 EBool : Type} (fhe : Fhe E64 E128 EBool)

/-- What `_updateNode` takes over from the last observation: its balance, and its cumulative brought
to the present. -/
def carried (timestamp : Nat) (observations : List (Observation E64 E128)) :
    Except Panic (E64 × E128) :=
  match observations.getLast? with
  | none => .ok (fhe.asEuint64 0, fhe.asEuint128 0)
  | some previous => do
    let elapsed ← checkedSub .underflow timestamp previous.timestamp
    let cumulative :=
      if elapsed ≠ 0 then
        fhe.add128 previous.cumulative
          (fhe.mul128 (fhe.widen previous.balance) (fhe.asEuint128 elapsed))
      else previous.cumulative
    return (previous.balance, cumulative)

/-- `_updateNode`. -/
def updateNode (delta : E64) (increase : Bool) (timestamp : Nat)
    (observations : List (Observation E64 E128)) : Except Panic (List (Observation E64 E128)) := do
  let (previousBalance, cumulative) ← carried fhe timestamp observations
  let balance :=
    if increase then fhe.add64 previousBalance delta else fhe.sub64 previousBalance delta
  if observations.getLast?.any (·.timestamp = timestamp) then
    return observations.dropLast ++ [⟨timestamp, balance, cumulative⟩]
  else return observations ++ [⟨timestamp, balance, cumulative⟩]

/-- `_updateBalancePath`. -/
def updateBalancePath (depth : TreeDepth) (slot : Nat) (delta : E64) (increase : Bool)
    (timestamp : Nat) (nodes : Nat → List (Observation E64 E128)) :
    Except Panic (Nat → List (Observation E64 E128)) :=
  alongPath (updateNode fhe delta increase timestamp) (nodePath (depth.leaf slot)) nodes

/-- `_cumulativeAt`. -/
def cumulativeAt (timestamp : Nat) (observations : List (Observation E64 E128)) :
    Except Panic E128 :=
  match observations[0]? with
  | none => .ok (fhe.asEuint128 0)
  | some first =>
    if timestamp < first.timestamp then .ok (fhe.asEuint128 0) else
    match observations[searchAt Observation.timestamp observations timestamp]? with
    | none => .error .outOfBounds
    | some observation => do
      let elapsed ← checkedSub .underflow timestamp observation.timestamp
      if elapsed = 0 then return observation.cumulative else
      return fhe.add128 observation.cumulative
        (fhe.mul128 (fhe.widen observation.balance) (fhe.asEuint128 elapsed))

/-- `_nodeWeight`. -/
def nodeWeight (start fin : Nat) (observations : List (Observation E64 E128)) :
    Except Panic E128 := do
  let cumulativeEnd ← cumulativeAt fhe fin observations
  let cumulativeStart ← cumulativeAt fhe start observations
  return fhe.sub128 cumulativeEnd cumulativeStart

end

/-! ### Observations of a node -/

variable {obs obs' : List (Observation Nat Nat)} {now principal b t delta start fin : Nat}
  {increase : Bool}

/-- The balance an update leaves. -/
def changed (increase : Bool) (balance delta : Nat) : Nat :=
  if increase then balance + delta else balance - delta

theorem changed_eq (hb : principal < 2 ^ 64) (hdelta : increase = false → delta ≤ principal)
    (hlt : changed increase principal delta < 2 ^ 64) :
    (if increase then Fhe.plain.add64 principal delta else Fhe.plain.sub64 principal delta) =
      changed increase principal delta := by
  cases increase with
  | true =>
    rw [changed, if_pos rfl] at hlt ⊢
    rw [if_pos rfl, Fhe.plain_add64 hlt]
  | false => rw [changed, if_neg Bool.false_ne_true, if_neg Bool.false_ne_true,
      Fhe.plain_sub64 hb (hdelta rfl)]

/-- The last observation has the present balance. -/
theorem last_balance (h : Recorded now principal obs) :
    (obs.getLast?.map Observation.balance).getD 0 = principal := by
  rcases List.eq_nil_or_concat obs with rfl | ⟨init, o, rfl⟩
  · exact h.current now le_rfl
  · rw [List.concat_eq_append] at h ⊢
    have hle := (h.written o (by simp)).1
    have hcurrent := h.current now le_rfl
    rw [balanceAt, valueAt_concat, if_pos hle] at hcurrent
    simpa using hcurrent

/-- `_updateNode` is `_checkpointUser` with the changed balance. -/
theorem updateNode_of_record (h : Recorded now principal obs) (hp : principal < 2 ^ 64)
    (hdelta : increase = false → delta ≤ principal)
    (hlt : changed increase principal delta < 2 ^ 64) {c : Nat}
    (hrecord : Vault.record Fhe.plain (changed increase principal delta) t obs = .ok (obs', c)) :
    updateNode Fhe.plain delta increase t obs = .ok obs' := by
  have hlast := last_balance h
  have hbalance := changed_eq hp hdelta hlt
  rw [Vault.record] at hrecord
  rw [updateNode, carried]
  cases hget : obs.getLast? with
  | none =>
    rw [hget] at hrecord hlast
    obtain rfl : principal = 0 := hlast.symm
    obtain ⟨rfl, -⟩ := Prod.mk.inj (ok_eq_ok.1 hrecord)
    simp only [bind_ok, Option.any_none, Bool.false_eq_true, if_false, pure_eq_ok]
    rw [← hbalance]
    rfl
  | some previous =>
    rw [hget] at hrecord hlast
    obtain rfl : previous.balance = principal := hlast
    obtain ⟨elapsed, helapsed, hrecord⟩ := seq_eq_ok.1 hrecord
    obtain ⟨hle, rfl⟩ := checkedSub_eq_ok.1 helapsed
    simp only [checkedSub, if_pos hle, bind_ok, pure_eq_ok, Option.any_some, decide_eq_true_eq,
      hbalance]
    by_cases hzero : t - previous.timestamp = 0
    · have hsame : previous.timestamp = t := by omega
      rw [if_pos hzero] at hrecord
      obtain ⟨rfl, -⟩ := Prod.mk.inj (ok_eq_ok.1 hrecord)
      rw [if_pos hsame, if_neg (not_not.2 hzero), hsame]
    · have hne : previous.timestamp ≠ t := by omega
      rw [if_neg hzero] at hrecord
      obtain ⟨rfl, -⟩ := Prod.mk.inj (ok_eq_ok.1 hrecord)
      rw [if_neg hne, if_pos hzero]

/-- An update at the present extends the history of the node. -/
theorem updateNode_ok (h : Recorded now principal obs) (hp : principal < 2 ^ 64) (hnow : now ≤ t)
    (ht : t < 2 ^ 64) (hdelta : increase = false → delta ≤ principal)
    (hlt : changed increase principal delta < 2 ^ 64) :
    ∃ obs', updateNode Fhe.plain delta increase t obs = .ok obs' ∧
      Recorded t (changed increase principal delta) obs' ∧
      ∀ s, balanceAt obs' s =
        if t ≤ s then changed increase principal delta else balanceAt obs s := by
  obtain ⟨obs', c, hrecord, hrecorded, hat⟩ := (h.later hnow).record ht hlt
  exact ⟨obs', updateNode_of_record h hp hdelta hlt hrecord, hrecorded, hat⟩

/-- `_cumulativeAt` answers the exact sum of the history. -/
theorem cumulativeAt_eq (h : Recorded now principal obs) (ht : t < 2 ^ 64) :
    cumulativeAt Fhe.plain t obs = .ok (balanceSum obs t) := by
  unfold cumulativeAt
  cases obs with
  | nil => exact congrArg _ (h.tracks.sum_before nofun).symm
  | cons first rest =>
    have hfirst : (first :: rest)[0]? = some first := rfl
    simp only [hfirst]
    by_cases hbefore : t < first.timestamp
    · rw [if_pos hbefore]
      refine congrArg _ (h.tracks.sum_before ?_).symm
      rintro o ⟨⟩
      exact hbefore
    · rw [if_neg hbefore]
      obtain ⟨i, o, hi, hget, hle, hafter⟩ := search_spec Observation.timestamp
        rest (Nat.not_lt.1 hbefore)
      have hsearch : searchAt Observation.timestamp (first :: rest) t = i := hi.symm
      rw [hsearch, hget]
      have hfrom := h.sum_from hget hle ht hafter
      simp only [checkedSub, if_pos hle, bind_ok]
      rw [← hfrom]
      split_ifs <;> rfl

/-- `_nodeWeight` answers the exact sum of the history between two times. -/
theorem nodeWeight_eq (h : Recorded now principal obs) (hle : start ≤ fin) (hfin : fin < 2 ^ 64) :
    nodeWeight Fhe.plain start fin obs = .ok (∑ s ∈ Finset.Ico start fin, balanceAt obs s) := by
  have hsum : balanceSum obs start + ∑ s ∈ Finset.Ico start fin, balanceAt obs s =
      balanceSum obs fin := Finset.sum_range_add_sum_Ico _ hle
  have hlt := h.sum_lt hfin
  simp only [nodeWeight, cumulativeAt_eq h hfin, cumulativeAt_eq h (hle.trans_lt hfin), bind_ok]
  rw [Fhe.plain_sub128 hlt (by omega), ← hsum, Nat.add_sub_cancel_left]
  rfl

end PrefixTree

end Leopold
