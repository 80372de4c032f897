import Leopold.System.Past
import Leopold.System.Payments

/-!
# The encrypted arithmetic stays in its width

Encrypted operations wrap without a trace.  In every reachable state the time-weighted sums fit in
128 bits and the buffer computation in 64, so that each gives the exact number.
-/

namespace Leopold

open Lib

variable {X : Type} {E : Externals Nat Bool X} {O : Observables X} {cfg : Config}
  {w w' : PlainWorld X}

namespace Vault

/-- `LIQUIDITY_BUFFER_BPS` of the total principal, rounded down. -/
def buffer (v : PlainVault) : Nat := v.totalPrincipal * LIQUIDITY_BUFFER_BPS / BPS

variable {v v' : PlainVault} {now t : Nat}

/-- The buffer of a pool under the cap is computed without a wrap. -/
theorem liquidityTarget_eq (hcap : v.totalPrincipal ≤ MAX_POOL_BASE_UNITS) :
    v.totalPrincipal * LIQUIDITY_BUFFER_BPS < 2 ^ 64 ∧
      World.liquidityTarget Fhe.plain v = v.buffer := by
  have hlt : v.totalPrincipal * LIQUIDITY_BUFFER_BPS < 2 ^ 64 :=
    (Nat.mul_le_mul_right _ hcap).trans_lt (by decide)
  refine ⟨hlt, ?_⟩
  rw [World.liquidityTarget, Fhe.plain_asEuint64 (n := LIQUIDITY_BUFFER_BPS) (by decide),
    Fhe.plain_asEuint64 (n := BPS) (by decide), Fhe.plain_mul64 hlt]
  rfl

/-- An authentic aggregate in the domain is accepted. -/
theorem finalizeAggregate_authentic {r : Nat} (hs : (v.rounds r).state = .aggregatePending)
    (hle : (v.rounds r).aggregateTwab ≤ MAX_AGGREGATE_TWAB) :
    ∃ v', finalizeAggregate Fhe.plain r (.encode (v.rounds r).aggregateTwab) ⟨true⟩ v = .ok v' := by
  have hlength : ¬ (Cleartexts.encode (v.rounds r).aggregateTwab).length ≠ 32 := not_not.2 rfl
  have hdecode : (Cleartexts.encode (v.rounds r).aggregateTwab).decodeUint256 =
    .ok (v.rounds r).aggregateTwab := rfl
  have hsigned : ¬ Fhe.plain.checkSignatures128 (v.rounds r).aggregateTwab
    (v.rounds r).aggregateTwab ⟨true⟩ = false := by simp [Fhe.plain]
  simp only [finalizeAggregate, requireState]
  rw [revertIf_of_not (not_not.2 hs), bind_ok, revertIf_of_not hlength, bind_ok, hdecode, bind_ok,
    revertIf_of_not (Nat.not_lt.2 hle), bind_ok, revertIf_of_not hsigned]
  exact ⟨_, rfl⟩

end Vault

namespace World

/-- What a deployment takes is what the liquid principal exceeds the buffer by. -/
theorem excess_eq (hs : (w.ledger O cfg).Kept E.rate) :
    excess Fhe.plain w.vault = w.vault.liquidPrincipal - w.vault.buffer := by
  have hle := excess_le hs
  have htotal : w.vault.totalPrincipal ≤ MAX_POOL_BASE_UNITS := hs.total_le
  have hsplit : w.vault.totalPrincipal = w.vault.liquidPrincipal + w.vault.deployedPrincipal +
    w.vault.principalInTransition + w.vault.strategyShortfall := hs.total_split
  have hcap := Vault.cap_lt
  rw [excess, (Vault.liquidityTarget_eq htotal).2, Fhe.plain_select64, Fhe.plain_gt64,
    Fhe.plain_asEuint64 (by decide)]
  by_cases hgt : w.vault.buffer < w.vault.liquidPrincipal
  · rw [if_pos (decide_eq_true hgt), Fhe.plain_sub64 (by omega) (Nat.le_of_lt hgt)]
  · rw [if_neg (by simpa using hgt), Nat.sub_eq_zero_of_le (Nat.not_lt.1 hgt)]

/-- The amount a replenishment asks for, given the basis of the adapter in base units. -/
def deficit {E64 E128 EBool : Type} (fhe : Fhe E64 E128 EBool) (publicBasis : Nat)
    (v : Vault E64 E128 EBool) : E64 :=
  let target := liquidityTarget fhe v
  let deficit := fhe.select64 (fhe.lt64 v.liquidPrincipal target)
    (fhe.sub64 target v.liquidPrincipal) (fhe.asEuint64 0)
  fhe.select64 (fhe.le64 deficit (fhe.asEuint64 (uint64 publicBasis))) deficit
    (fhe.asEuint64 (uint64 publicBasis))

/-- What a replenishment asks for is what the liquid principal lacks to the buffer, as far as the
basis covers it. -/
theorem deficit_eq {publicBasis : Nat} (hcap : w.vault.totalPrincipal ≤ MAX_POOL_BASE_UNITS)
    (hbasis : publicBasis < 2 ^ 64) : deficit Fhe.plain publicBasis w.vault =
      min (w.vault.buffer - w.vault.liquidPrincipal) publicBasis := by
  have hbuffer : w.vault.buffer < 2 ^ 64 :=
    (Nat.div_le_self _ _).trans_lt (Vault.liquidityTarget_eq hcap).1
  have hdeficit : Fhe.plain.select64
      (Fhe.plain.lt64 w.vault.liquidPrincipal w.vault.buffer)
      (Fhe.plain.sub64 w.vault.buffer w.vault.liquidPrincipal) (Fhe.plain.asEuint64 0) =
        w.vault.buffer - w.vault.liquidPrincipal := by
    rw [Fhe.plain_select64, Fhe.plain_lt64, Fhe.plain_asEuint64 (by decide)]
    by_cases hlt : w.vault.liquidPrincipal < w.vault.buffer
    · rw [if_pos (decide_eq_true hlt), Fhe.plain_sub64 hbuffer (Nat.le_of_lt hlt)]
    · rw [if_neg (by simpa using hlt), Nat.sub_eq_zero_of_le (Nat.not_lt.1 hlt)]
  simp only [deficit, (Vault.liquidityTarget_eq hcap).2, hdeficit]
  rw [uint64, Nat.mod_eq_of_lt hbasis, Fhe.plain_asEuint64 hbasis, Fhe.plain_select64,
    Fhe.plain_le64]
  by_cases hle : w.vault.buffer - w.vault.liquidPrincipal ≤ publicBasis
  · rw [if_pos (decide_eq_true hle), min_eq_left hle]
  · rw [if_neg (by simpa using hle), min_eq_right (Nat.le_of_not_le hle)]

theorem requestReplenishment_ok {E64 E128 EBool : Type} {fhe : Fhe E64 E128 EBool} {id rate : Nat}
    {epoch : StrategyEpoch E64} {w w' : World E64 E128 EBool X}
    (h : requestReplenishment fhe cfg id epoch rate w = .ok w') :
    w.adapter.deployedPrincipalBasis / rate < 2 ^ 64 ∧
    ∃ gs, w' = { w with
      vault := (w.vault.setEpoch id { epoch with
        amount := deficit fhe (w.adapter.deployedPrincipalBasis / rate) w.vault
        state := .amountPending }).grant gs } := by
  simp only [requestReplenishment, seq_eq_ok, revertIf_eq_ok, pure_eq_ok, ok_eq_ok] at h
  obtain ⟨_, hbasis, rfl⟩ := h
  exact ⟨by omega, _, rfl⟩

/-- A requested amount is the exact excess over the buffer, or the exact deficit under it as far
as the basis of the adapter covers it. -/
theorem requestStrategyAmount_amount (hs : (w.ledger O cfg).Kept E.rate) {id : Nat}
    (h : requestStrategyAmount Fhe.plain E cfg id w = .ok w') :
    (w'.vault.strategyEpochs id).amount =
      if (w.vault.strategyEpochs id).kind = .deploy then
        w.vault.liquidPrincipal - w.vault.buffer
      else min (w.vault.buffer - w.vault.liquidPrincipal)
        (w.adapter.deployedPrincipalBasis / E.rate) := by
  have hrequest := h
  simp only [requestStrategyAmount, seq_eq_ok, revertIf_eq_ok] at hrequest
  obtain ⟨epoch, hepoch, _, _, hrequest⟩ := hrequest
  obtain ⟨_, _, _, _, rfl⟩ := Vault.strategyEpoch_ok hepoch
  obtain ⟨_, _, _, _, ⟨hkind, n, x, req, gs, rfl, _, rfl⟩ | ⟨hkind, _⟩⟩ :=
    requestStrategyAmount_ok h
  · rw [if_pos hkind, ← excess_eq hs]
    show (Function.update w.vault.strategyEpochs id _ id).amount = _
    rw [Function.update_self]
  · rw [if_neg hkind] at hrequest ⊢
    obtain ⟨hbasis, gs, rfl⟩ := requestReplenishment_ok hrequest
    rw [← deficit_eq hs.total_le hbasis]
    show (Function.update w.vault.strategyEpochs id _ id).amount = _
    rw [Function.update_self]

/-- **The arithmetic stays in its width.**  In every reachable state: the eligible balance of the
open round is the principal of its participants, each counted once, and part of the savings; the
sum a closed round accrued is in the domain of an aggregate, and finalizing it with an authentic
proof is not rejected; every cumulative, stored or asked for, is the exact sum of the history and
fits in 128 bits, the accrual of the open round is exact and no weight underflows; and the buffer
is computed in 64 bits, so that a requested amount is the exact excess or deficit, where the
subtraction of numbers stops at zero. -/
theorem arithmetic_in_width (hE : E.Lawful O cfg.vault cfg.asset)
    (h : (system Fhe.plain E cfg).Reachable w) :
    ((w.vault.roundParticipants w.vault.activeRoundId).Nodup ∧
      (w.vault.rounds w.vault.activeRoundId).eligibleBalance =
        ((w.vault.roundParticipants w.vault.activeRoundId).map w.vault.principal).sum ∧
      (w.vault.rounds w.vault.activeRoundId).eligibleBalance ≤ w.vault.totalPrincipal) ∧
    (MAX_POOL_BASE_UNITS * cfg.roundDuration ≤ MAX_AGGREGATE_TWAB ∧
      ∀ r, 0 < r → r < w.vault.activeRoundId →
        (w.vault.rounds r).eligibleCumulative ≤ MAX_POOL_BASE_UNITS * cfg.roundDuration ∧
        ((w.vault.rounds r).state = .aggregatePending →
          ∃ v', w.vault.finalizeAggregate Fhe.plain r
            (.encode (w.vault.rounds r).aggregateTwab) ⟨true⟩ = .ok v')) ∧
    (∀ a, (∀ o ∈ w.vault.observations a,
        o.cumulative = balanceSum (w.vault.observations a) o.timestamp) ∧
      ∀ t < 2 ^ 64, balanceSum (w.vault.observations a) t < 2 ^ 128 ∧
        w.vault.cumulativeAt Fhe.plain a t = .ok (balanceSum (w.vault.observations a) t)) ∧
    (∀ t, (w.vault.rounds w.vault.activeRoundId).eligibleTimestamp ≤ t →
      t ≤ (w.vault.rounds w.vault.activeRoundId).closesAt →
        ∃ v', w.vault.accrueEligible Fhe.plain cfg w.vault.activeRoundId t = .ok v' ∧
          (v'.rounds w.vault.activeRoundId).eligibleCumulative =
            (w.vault.rounds w.vault.activeRoundId).eligibleCumulative +
              (w.vault.rounds w.vault.activeRoundId).eligibleBalance *
                (t - (w.vault.rounds w.vault.activeRoundId).eligibleTimestamp)) ∧
    (∀ r, 0 < r → r < w.vault.activeRoundId → ∀ a, w.vault.eligibilityStart r a ≠ 0 →
      ∃ start fin, w.vault.cumulativeAt Fhe.plain a (w.vault.eligibilityStart r a) = .ok start ∧
        w.vault.cumulativeAt Fhe.plain a (w.vault.rounds r).closesAt = .ok fin ∧ start ≤ fin ∧
        w.vault.roundWeight Fhe.plain r a = .ok (fin - start)) ∧
    (w.vault.totalPrincipal * LIQUIDITY_BUFFER_BPS ≤ 2 ^ 64 - 1 ∧
      ∀ id w', requestStrategyAmount Fhe.plain E cfg id w = .ok w' →
        (w'.vault.strategyEpochs id).amount =
          if (w.vault.strategyEpochs id).kind = .deploy then
            w.vault.liquidPrincipal - w.vault.buffer
          else min (w.vault.buffer - w.vault.liquidPrincipal)
            (w.adapter.deployedPrincipalBasis / E.rate)) := by
  obtain ⟨hcfg, hB, hT⟩ := reachable_timed hE h
  have hcap : w.vault.totalPrincipal ≤ MAX_POOL_BASE_UNITS := hB.kept.total_le
  have hdomain : MAX_POOL_BASE_UNITS * cfg.roundDuration ≤ MAX_AGGREGATE_TWAB :=
    (Nat.mul_le_mul_left _ hcfg.duration_le).trans (by decide)
  refine ⟨⟨hT.accrual.nodup, hT.accrual.total_eq, hT.eligible_le hB.kept⟩,
    ⟨hdomain, fun r hr hlt => ?_⟩, fun a => ⟨(hT.recorded a).tracks.exact_sum, fun t ht => ?_⟩,
    fun t hle hclose => ?_, fun r hr hlt a ha => ?_, ?_, fun id w' hrequest => ?_⟩
  · have hC := hT.closed r hr hlt
    rw [hC.frozen]
    exact ⟨hC.aggregate_le, fun hs =>
      Vault.finalizeAggregate_authentic hs (hC.aggregate_le.trans hdomain)⟩
  · exact ⟨(hT.recorded a).sum_lt ht, Vault.cumulativeAt_eq (hT.recorded a) ht⟩
  · obtain ⟨v', hv'⟩ := Vault.accrueEligible_isOk cfg hle
    obtain ⟨_, gs, hv⟩ := Vault.accrueEligible_ok hv'
    refine ⟨v', hv', ?_⟩
    rw [hv, Vault.grant_rounds, Vault.setRound_rounds_self, Vault.accrued]
    exact (hT.accrued_eq hcfg.duration_le (hT.eligible_le_cap hB.kept) hle hclose).1
  · have hC := hT.closed r hr hlt
    have hmem := (hT.eligible r a).1 ha
    have hle := hC.start_le a hmem
    have hweight := Vault.roundWeight_eq (hT.recorded a) hC.closes_lt hle
    refine ⟨_, _, Vault.cumulativeAt_eq (hT.recorded a) (hle.trans_lt hC.closes_lt),
      Vault.cumulativeAt_eq (hT.recorded a) hC.closes_lt, ?_, ?_⟩
    · exact Finset.sum_le_sum_of_subset (Finset.range_subset_range.2 hle)
    · rw [hweight, Vault.weight, sum_Ico_eq_sub_range hle]
      rfl
  · exact Nat.le_sub_one_of_lt (Vault.liquidityTarget_eq hcap).1
  · exact requestStrategyAmount_amount hB.kept hrequest

/-- The eligible balance and the buffer at the end of the script. -/
theorem arithmetic_in_width_script : ∃ w, Demo.Ends w ∧
    (w.vault.rounds w.vault.activeRoundId).eligibleBalance ≤ w.vault.totalPrincipal ∧
    w.vault.totalPrincipal * LIQUIDITY_BUFFER_BPS ≤ 2 ^ 64 - 1 := by
  obtain ⟨w, hw, _⟩ := Demo.ends_allocated
  obtain ⟨heligible, _, _, _, _, hbuffer⟩ := arithmetic_in_width Demo.lawful hw.reachable
  exact ⟨w, hw, heligible.2.2, hbuffer.1⟩

end World

end Leopold
