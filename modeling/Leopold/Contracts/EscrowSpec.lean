import Leopold.Contracts.SettlementBondEscrow

/-!
# What a successful call of the escrow did

The inversion lemmas of the entry points of the escrow: the guards that passed and the ledgers
they left.
-/

namespace Leopold

open Lib

namespace Escrow

variable {cfg : Config} {e e' : Escrow} {sender : Address} {r : Nat}

theorem registerForRound_ok {value : Nat}
    (h : registerForRound cfg sender value r e = .ok e') :
    value = cfg.settlementBondAmount ∧ e.isRegistered r sender = false ∧
      (e.rounds r).deposited + value < 2 ^ 256 ∧ e.totalDeposited + value < 2 ^ 256 ∧
      e' = { e with
        isRegistered := Function.update e.isRegistered r
          (Function.update (e.isRegistered r) sender true)
        rounds := Function.update e.rounds r { e.rounds r with
          registered := (e.rounds r).registered + 1
          deposited := (e.rounds r).deposited + value }
        totalDeposited := e.totalDeposited + value
        totalUnresolvedLiability := e.totalUnresolvedLiability + value
        nativeBalance := e.nativeBalance + value } := by
  simp only [registerForRound, seq_eq_ok, revertIf_eq_ok, checkedAdd_eq_ok, pure_eq_ok,
    ok_eq_ok] at h
  obtain ⟨_, h1, _, h2, _, ⟨_, rfl⟩, _, ⟨h3, rfl⟩, _, ⟨h4, rfl⟩, _, ⟨_, rfl⟩, rfl⟩ := h
  exact ⟨not_not.1 h1, by simpa using h2, h3, h4, rfl⟩

/-- The ledger of a round after `n` more participants of a pass. -/
def advanced (pass n : Nat) (round : RoundLedger) : RoundLedger :=
  if pass = 1 then { round with selectionProcessed := round.selectionProcessed + n }
  else { round with allocationProcessed := round.allocationProcessed + n }

/-- The participants a round has processed in a pass. -/
def processedIn (pass : Nat) (round : RoundLedger) : Nat :=
  if pass = 1 then round.selectionProcessed else round.allocationProcessed

theorem recordPass_ok {pass n : Nat} {round round' : RoundLedger}
    (h : recordPass pass n round = .ok round') :
    (pass = 1 ∨ pass = 2) ∧ processedIn pass round + n ≤ round.registered ∧
      round' = advanced pass n round := by
  unfold recordPass at h
  by_cases h1 : pass = 1
  · rw [if_pos h1] at h
    simp only [seq_eq_ok, checkedAdd_eq_ok, revertIf_eq_ok, pure_eq_ok, ok_eq_ok] at h
    obtain ⟨_, ⟨_, rfl⟩, _, hle, rfl⟩ := h
    rw [processedIn, advanced, if_pos h1, if_pos h1]
    exact ⟨.inl h1, not_lt.1 hle, rfl⟩
  · by_cases h2 : pass = 2
    · rw [if_neg h1, if_pos h2] at h
      simp only [seq_eq_ok, checkedAdd_eq_ok, revertIf_eq_ok, pure_eq_ok, ok_eq_ok] at h
      obtain ⟨_, ⟨_, rfl⟩, _, hle, rfl⟩ := h
      rw [processedIn, advanced, if_neg h1, if_neg h1]
      exact ⟨.inr h2, not_lt.1 hle, rfl⟩
    · rw [if_neg h1, if_neg h2] at h
      cases h

theorem creditProgress_ok {pass n : Nat} {progressor : Address}
    (h : creditProgress cfg sender r pass n progressor e = .ok e') :
    sender = cfg.vault ∧ n ≠ 0 ∧ (e.rounds r).finalized = false ∧ (pass = 1 ∨ pass = 2) ∧
      processedIn pass (e.rounds r) + n ≤ (e.rounds r).registered ∧
      n * cfg.settlementRewardPerParticipantPass ≤ e.totalUnresolvedLiability ∧ e' = { e with
        rounds := Function.update e.rounds r { advanced pass n (e.rounds r) with
          rewardsAccrued := (e.rounds r).rewardsAccrued +
            n * cfg.settlementRewardPerParticipantPass }
        totalUnresolvedLiability :=
          e.totalUnresolvedLiability - n * cfg.settlementRewardPerParticipantPass
        totalRewardLiability :=
          e.totalRewardLiability + n * cfg.settlementRewardPerParticipantPass
        settlementRewardCredit := Function.update e.settlementRewardCredit progressor
          (e.settlementRewardCredit progressor +
            n * cfg.settlementRewardPerParticipantPass) } := by
  simp only [creditProgress, seq_eq_ok, revertIf_eq_ok, checkedAdd_eq_ok, checkedSub_eq_ok,
    checkedMul_eq_ok, pure_eq_ok, ok_eq_ok] at h
  obtain ⟨_, h1, _, h2, _, h3, round, hpass, _, ⟨_, rfl⟩, _, ⟨_, rfl⟩, _, ⟨h4, rfl⟩, _, ⟨_, rfl⟩,
    _, ⟨_, rfl⟩, rfl⟩ := h
  obtain ⟨h5, h6, rfl⟩ := recordPass_ok hpass
  have hrewards : (advanced pass n (e.rounds r)).rewardsAccrued = (e.rounds r).rewardsAccrued := by
    unfold advanced
    split_ifs <;> rfl
  rw [not_or] at h2
  exact ⟨not_not.1 h1, h2.1, by simpa using h3, h5, h6, h4, by rw [hrewards]⟩

/-- What a round refunds after `passes` completed passes, and when it may. -/
theorem refundFor_ok {passes refund : Nat} {round : RoundLedger}
    (h : refundFor cfg passes round = .ok refund) :
    (passes = 0 ∧ round.selectionProcessed = 0 ∧ round.allocationProcessed = 0 ∧
        refund = cfg.settlementBondAmount) ∨
      (passes = 1 ∧ round.selectionProcessed = round.registered ∧
        round.allocationProcessed = 0 ∧
        cfg.settlementRewardPerParticipantPass ≤ cfg.settlementBondAmount ∧
        refund = cfg.settlementBondAmount - cfg.settlementRewardPerParticipantPass) ∨
      (2 ≤ passes ∧ round.selectionProcessed = round.registered ∧
        round.allocationProcessed = round.registered ∧
        refund = cfg.refundPerCompletedParticipant) := by
  unfold refundFor at h
  by_cases h0 : passes = 0
  · rw [if_pos h0] at h
    simp only [seq_eq_ok, revertIf_eq_ok, pure_eq_ok, ok_eq_ok, not_or, not_not] at h
    obtain ⟨_, ⟨h1, h2⟩, h3⟩ := h
    exact .inl ⟨h0, h1, h2, h3.symm⟩
  · by_cases h1 : passes = 1
    · rw [if_neg h0, if_pos h1] at h
      simp only [seq_eq_ok, revertIf_eq_ok, checkedSub_eq_ok, not_or, not_not] at h
      obtain ⟨_, ⟨_, h2, h3⟩, h4, h5⟩ := h
      exact .inr (.inl ⟨h1, h2, h3, h4, h5⟩)
    · rw [if_neg h0, if_neg h1] at h
      simp only [seq_eq_ok, revertIf_eq_ok, pure_eq_ok, ok_eq_ok, not_or, not_not] at h
      obtain ⟨_, ⟨_, h2, h3⟩, h4⟩ := h
      exact .inr (.inr ⟨by omega, h2, h3, h4.symm⟩)

theorem finalizeRound_ok {passes : Nat} (h : finalizeRound cfg sender r passes e = .ok e') :
    sender = cfg.vault ∧ (e.rounds r).finalized = false ∧ ∃ refund,
      refundFor cfg passes (e.rounds r) = .ok refund ∧
      (e.rounds r).registered * refund ≤ e.totalUnresolvedLiability ∧ e' = { e with
        rounds := Function.update e.rounds r { e.rounds r with
          refundsAccrued := (e.rounds r).registered * refund
          refundPerParticipant := refund
          finalized := true }
        totalUnresolvedLiability :=
          e.totalUnresolvedLiability - (e.rounds r).registered * refund
        totalRefundLiability :=
          e.totalRefundLiability + (e.rounds r).registered * refund } := by
  simp only [finalizeRound, seq_eq_ok, revertIf_eq_ok, checkedAdd_eq_ok, checkedSub_eq_ok,
    checkedMul_eq_ok, pure_eq_ok, ok_eq_ok] at h
  obtain ⟨_, h1, _, h2, refund, h3, _, ⟨_, rfl⟩, _, _, _, ⟨h4, rfl⟩, _, ⟨_, rfl⟩, rfl⟩ := h
  rw [not_or] at h2
  exact ⟨not_not.1 h1, by simpa using h2.1, refund, h3, h4, rfl⟩

theorem claimBondRefund_ok {accepts : Bool} (h : claimBondRefund sender r accepts e = .ok e') :
    (e.rounds r).finalized = true ∧ e.isRegistered r sender = true ∧
      e.refundClaimed r sender = false ∧ accepts = true ∧
      (e.rounds r).refundPerParticipant ≤ e.totalRefundLiability ∧
      (e.rounds r).refundPerParticipant ≤ e.nativeBalance ∧ e' = { e with
        refundClaimed := Function.update e.refundClaimed r
          (Function.update (e.refundClaimed r) sender true)
        totalRefundLiability := e.totalRefundLiability - (e.rounds r).refundPerParticipant
        totalRefundsWithdrawn := e.totalRefundsWithdrawn + (e.rounds r).refundPerParticipant
        nativeBalance := e.nativeBalance - (e.rounds r).refundPerParticipant } := by
  simp only [claimBondRefund, pay, seq_eq_ok, revertIf_eq_ok, checkedAdd_eq_ok,
    checkedSub_eq_ok, pure_eq_ok, ok_eq_ok] at h
  obtain ⟨_, h1, _, ⟨h2, rfl⟩, _, ⟨_, rfl⟩, _, h3, rfl⟩ := h
  simp only [not_or, not_lt, Bool.not_eq_false, Bool.not_eq_true] at h1 h3
  exact ⟨h1.1, h1.2.1, h1.2.2, h3.2, h2, h3.1, rfl⟩

theorem withdrawSettlementRewards_ok {accepts : Bool}
    (h : withdrawSettlementRewards sender accepts e = .ok e') :
    e.settlementRewardCredit sender ≠ 0 ∧
      e.settlementRewardCredit sender ≤ e.totalRewardLiability ∧
      e.settlementRewardCredit sender ≤ e.nativeBalance ∧ e' = { e with
        settlementRewardCredit := Function.update e.settlementRewardCredit sender 0
        totalRewardLiability := e.totalRewardLiability - e.settlementRewardCredit sender
        totalRewardsWithdrawn := e.totalRewardsWithdrawn + e.settlementRewardCredit sender
        nativeBalance := e.nativeBalance - e.settlementRewardCredit sender } := by
  simp only [withdrawSettlementRewards, pay, seq_eq_ok, revertIf_eq_ok, checkedAdd_eq_ok,
    checkedSub_eq_ok, pure_eq_ok, ok_eq_ok] at h
  obtain ⟨_, h1, _, ⟨h2, rfl⟩, _, ⟨_, rfl⟩, _, h3, rfl⟩ := h
  rw [not_or, not_lt] at h3
  exact ⟨h1, h2, h3.1, rfl⟩

end Escrow

end Leopold
