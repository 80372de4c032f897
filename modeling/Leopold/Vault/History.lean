import Leopold.Vault.Inversion
import Leopold.Lib.TimeWeighted

/-!
# Balance histories

The observations of an account, read as plaintexts, are a checkpointed history of its principal.
`_checkpointUser` extends the history from the present on and `_cumulativeAt`, with its binary
search, answers the exact sum of the history before any timestamp.
-/

namespace Leopold

open Lib

/-- The balance the observations record for time `s`. -/
def balanceAt (observations : List (Observation Nat Nat)) (s : Nat) : Nat :=
  valueAt Observation.timestamp Observation.balance observations s

/-- The sum of the recorded balances before time `t`. -/
def balanceSum (observations : List (Observation Nat Nat)) (t : Nat) : Nat :=
  ∑ s ∈ Finset.range t, balanceAt observations s

/-- The observations are a history up to `now`, after which the balance stays `principal`. -/
structure Recorded (now principal : Nat) (observations : List (Observation Nat Nat)) : Prop where
  tracks : Tracks Observation.timestamp Observation.balance Observation.cumulative observations
  written : ∀ o ∈ observations, o.timestamp ≤ now ∧ o.timestamp < 2 ^ 64
  capped : ∀ o ∈ observations, o.balance < 2 ^ 64
  current : ∀ s, now ≤ s → balanceAt observations s = principal

namespace Recorded

variable {now principal t b : Nat} {obs obs' : List (Observation Nat Nat)}

theorem empty : Recorded now 0 [] := ⟨.nil, nofun, nofun, fun _ _ => rfl⟩

theorem later (h : Recorded now principal obs) {now' : Nat} (hnow : now ≤ now') :
    Recorded now' principal obs :=
  ⟨h.tracks, fun o ho => ⟨(h.written o ho).1.trans hnow, (h.written o ho).2⟩, h.capped,
    fun s hs => h.current s (hnow.trans hs)⟩

theorem balanceAt_le (h : Recorded now principal obs) (s : Nat) : balanceAt obs s ≤ 2 ^ 64 - 1 :=
  valueAt_le fun o ho => Nat.le_sub_one_of_lt (h.capped o ho)

/-- No sum of a history leaves 128 bits. -/
theorem sum_lt (h : Recorded now principal obs) (ht : t < 2 ^ 64) : balanceSum obs t < 2 ^ 128 := by
  have hle : balanceSum obs t ≤ (2 ^ 64 - 1) * t := sum_range_le h.balanceAt_le
  have hcap : (2 ^ 64 - 1) * t ≤ (2 ^ 64 - 1) * 2 ^ 64 :=
    Nat.mul_le_mul_left _ (Nat.le_of_lt ht)
  omega

/-- The encrypted extension of a cumulative by a balance held for some time is exact. -/
theorem extend_eq {cumulative balance elapsed : Nat}
    (hlt : cumulative + balance * elapsed < 2 ^ 128) (helapsed : elapsed < 2 ^ 128) :
    Fhe.plain.add128 cumulative
        (Fhe.plain.mul128 (Fhe.plain.widen balance) (Fhe.plain.asEuint128 elapsed)) =
      cumulative + balance * elapsed := by
  rw [Fhe.plain_asEuint128 helapsed, Fhe.plain_widen, Fhe.plain_mul128 (by omega),
    Fhe.plain_add128 hlt]

/-- The sum up to `t` from the observation in force at `t`. -/
theorem sum_from {i : Nat} {o : Observation Nat Nat} (h : Recorded now principal obs)
    (hi : obs[i]? = some o) (ht : o.timestamp ≤ t) (hlt : t < 2 ^ 64)
    (hnext : ∀ o', obs[i + 1]? = some o' → t < o'.timestamp) :
    (if t - o.timestamp = 0 then o.cumulative
      else Fhe.plain.add128 o.cumulative
        (Fhe.plain.mul128 (Fhe.plain.widen o.balance) (Fhe.plain.asEuint128 (t - o.timestamp)))) =
      balanceSum obs t := by
  have hsum : balanceSum obs t = o.cumulative + o.balance * (t - o.timestamp) :=
    h.tracks.sum_at hi ht hnext
  have hbound := h.sum_lt hlt
  rw [hsum] at hbound ⊢
  split_ifs with hzero
  · rw [hzero, Nat.mul_zero, Nat.add_zero]
  · exact extend_eq hbound (by omega)

/-- `_checkpointUser` at the present extends the history with the new balance. -/
theorem record (h : Recorded now principal obs) (hnow : now < 2 ^ 64)
    (hb : b < 2 ^ 64) :
    ∃ obs' c, Vault.record Fhe.plain b now obs = .ok (obs', c) ∧ Recorded now b obs' ∧
      ∀ s, balanceAt obs' s = if now ≤ s then b else balanceAt obs s := by
  rcases List.eq_nil_or_concat obs with rfl | ⟨init, o, rfl⟩
  · have hat : ∀ s, balanceAt [⟨now, b, 0⟩] s = if now ≤ s then b else balanceAt [] s :=
      fun s => valueAt_concat (l := [])
    refine ⟨[⟨now, b, 0⟩], 0, rfl, ⟨?_, ?_, ?_, ?_⟩, hat⟩
    · refine Tracks.nil.concat nofun ?_
      exact (Finset.sum_eq_zero fun s _ => rfl).symm
    · intro o ho
      rw [List.mem_singleton.1 ho]
      exact ⟨Nat.le_refl _, hnow⟩
    · intro o ho
      rw [List.mem_singleton.1 ho]
      exact hb
    · exact fun s hs => (hat s).trans (if_pos hs)
  · rw [List.concat_eq_append] at h ⊢
    obtain ⟨hle, hlt⟩ := h.written o (by simp)
    have hlast : (init ++ [o])[init.length]? = some o := by simp
    have hfrom := h.sum_from (t := now) hlast hle hnow (by simp)
    have hinit : ∀ o' ∈ init, o'.timestamp < o.timestamp := fun o' ho' =>
      (List.pairwise_append.1 h.tracks.sorted).2.2 o' ho' o (by simp)
    simp only [Vault.record, List.getLast?_concat, List.dropLast_concat]
    rw [Vault.sub, checkedSub, if_pos hle, bind_ok]
    by_cases hzero : now - o.timestamp = 0
    · -- a second change in one block replaces the observation
      have hsame : o.timestamp = now := by omega
      rw [if_pos hzero]
      have hat : ∀ s, balanceAt (init ++ [⟨o.timestamp, b, o.cumulative⟩]) s =
          if now ≤ s then b else balanceAt (init ++ [o]) s := by
        intro s
        rw [balanceAt, balanceAt, valueAt_concat, valueAt_concat, hsame]
        split_ifs <;> rfl
      refine ⟨_, _, rfl, ⟨h.tracks.replace_last rfl rfl, ?_, ?_, ?_⟩, hat⟩
      · intro o' ho'
        rw [List.mem_append, List.mem_singleton] at ho'
        rcases ho' with ho' | rfl
        · exact h.written o' (by simp [ho'])
        · exact ⟨hle, hlt⟩
      · intro o' ho'
        rw [List.mem_append, List.mem_singleton] at ho'
        rcases ho' with ho' | rfl
        · exact h.capped o' (by simp [ho'])
        · exact hb
      · exact fun s hs => (hat s).trans (if_pos hs)
    · have hpast : o.timestamp < now := by omega
      rw [if_neg hzero] at hfrom ⊢
      have hat : ∀ c s, balanceAt ((init ++ [o]) ++ [⟨now, b, c⟩]) s =
          if now ≤ s then b else balanceAt (init ++ [o]) s := fun c s => valueAt_concat
      refine ⟨_, _, rfl, ⟨h.tracks.concat ?_ hfrom, ?_, ?_, ?_⟩, hat _⟩
      · intro o' ho'
        rw [List.mem_append, List.mem_singleton] at ho'
        rcases ho' with ho' | rfl
        · exact (hinit o' ho').trans hpast
        · exact hpast
      · intro o' ho'
        rw [List.mem_append, List.mem_singleton] at ho'
        rcases ho' with ho' | rfl
        · exact h.written o' ho'
        · exact ⟨Nat.le_refl _, hnow⟩
      · intro o' ho'
        rw [List.mem_append, List.mem_singleton] at ho'
        rcases ho' with ho' | rfl
        · exact h.capped o' ho'
        · exact hb
      · exact fun s hs => (hat _ s).trans (if_pos hs)

end Recorded

namespace Vault

variable {v : PlainVault} {now t r : Nat} {a : Address}

/-- The binary search of `_cumulativeAt` finds the observation in force, and the answer is the
exact sum of the history. -/
theorem cumulativeAt_eq {principal : Nat} (h : Recorded now principal (v.observations a))
    (ht : t < 2 ^ 64) :
    v.cumulativeAt Fhe.plain a t = .ok (balanceSum (v.observations a) t) := by
  unfold cumulativeAt
  generalize v.observations a = obs at h
  cases obs with
  | nil => exact congrArg _ (h.tracks.sum_before nofun).symm
  | cons first rest =>
    have hfirst : (first :: rest)[0]? = some first := rfl
    simp only [hfirst]
    by_cases hbefore : t < first.timestamp
    · rw [if_pos hbefore]
      refine congrArg _ (h.tracks.sum_before ?_).symm
      rintro o ⟨⟩
      exact hbefore
    · rw [if_neg hbefore]
      obtain ⟨i, o, hi, hget, hle, hafter⟩ := search_spec Observation.timestamp
        rest (Nat.not_lt.1 hbefore)
      rw [← hi, hget]
      have hfrom := h.sum_from hget hle ht hafter
      simp only [Vault.sub, checkedSub, if_pos hle, bind_ok]
      rw [← hfrom]
      split_ifs <;> rfl

/-- The weight of a registered account: its history from its registration to the close. -/
def weight (v : PlainVault) (r : Nat) (a : Address) : Nat :=
  ∑ s ∈ Finset.Ico (v.eligibilityStart r a) (v.rounds r).closesAt, balanceAt (v.observations a) s

theorem roundWeight_eq {principal : Nat} (h : Recorded now principal (v.observations a))
    (hclose : (v.rounds r).closesAt < 2 ^ 64)
    (hstart : v.eligibilityStart r a ≤ (v.rounds r).closesAt) :
    v.roundWeight Fhe.plain r a = .ok (v.weight r a) := by
  have hsum : v.weight r a + balanceSum (v.observations a) (v.eligibilityStart r a) =
      balanceSum (v.observations a) (v.rounds r).closesAt := by
    rw [Nat.add_comm]
    exact Finset.sum_range_add_sum_Ico _ hstart
  have hlt := h.sum_lt hclose
  simp only [roundWeight, cumulativeAt_eq h hclose, cumulativeAt_eq h (hstart.trans_lt hclose),
    bind_ok]
  rw [Fhe.plain_sub128 hlt (by omega), ← hsum, Nat.add_sub_cancel]
  rfl

end Vault

end Leopold
