import Leopold.Contracts.EscrowSound

/-!
# What the escrow accepts

On sound ledgers no subtraction of the escrow underflows, whatever the call; and a pass or a
settlement that matches the recorded progress is accepted, as is the claim of a refund that is
still due.
-/

namespace Leopold

open Lib

namespace Escrow

/-- A subtraction of the escrow went below zero. -/
def Underflow (e : Revert) : Prop := e = .panic .escrow .underflow

variable {cfg : Config} {e : Escrow} {sender : Address} {r : Nat}

namespace Sound

variable (hs : e.Sound cfg) (hbond : BondCovers cfg)

include hs in
theorem unresolved_le : e.unresolved r ≤ e.totalUnresolvedLiability :=
  hs.unresolved_sum ▸ le_finsum hs.unresolved_finite r

include hs in
theorem refundsDue_le : e.refundsDue r ≤ e.totalRefundLiability :=
  hs.refunds_sum ▸ le_finsum hs.refunds_finite r

include hs in
theorem due_le (a : Address) : e.due r a ≤ e.totalRefundLiability :=
  (le_sum (e.due r) a).trans hs.refundsDue_le

include hs in
theorem credit_le (a : Address) : e.settlementRewardCredit a ≤ e.totalRewardLiability :=
  hs.reward_sum ▸ le_sum e.settlementRewardCredit a

include hs hbond in
/-- The reward of a pass over registered participants of an open round is covered. -/
theorem reward_le {pass n : Nat} (hopen : (e.rounds r).finalized = false)
    (hle : processedIn pass (e.rounds r) + n ≤ (e.rounds r).registered) :
    n * cfg.settlementRewardPerParticipantPass ≤ e.totalUnresolvedLiability := by
  have hcover := (hs.round r).reward_covered hbond hle
  have hunresolved := hs.unresolved_le (r := r)
  rw [unresolved_open hopen] at hunresolved
  omega

/-- A refund that is still due. -/
theorem due_of_unclaimed (hreg : e.isRegistered r sender = true)
    (hclaimed : e.refundClaimed r sender = false) :
    e.due r sender = (e.rounds r).refundPerParticipant := by
  rw [due, hreg, hclaimed, Bool.not_false, Bool.and_true, Bool.toNat_true, Nat.one_mul]

/-! ## No subtraction underflows -/

theorem registerForRound_avoids {value : Nat} :
    Avoids Underflow (Escrow.registerForRound cfg sender value r e) :=
  .bind (.revertIf nofun) fun _ _ => .bind (.revertIf nofun) fun _ _ =>
    .bind (.checkedAdd nofun) fun _ _ => .bind (.checkedAdd nofun) fun _ _ =>
      .bind (.checkedAdd nofun) fun _ _ => .bind (.checkedAdd nofun) fun _ _ => .ok _

theorem recordPass_avoids {pass n : Nat} {round : RoundLedger} :
    Avoids Underflow (recordPass pass n round) :=
  .ite (fun _ => .bind (.checkedAdd nofun) fun _ _ => .bind (.revertIf nofun) fun _ _ => .ok _)
    fun _ => .ite (fun _ => .bind (.checkedAdd nofun) fun _ _ =>
      .bind (.revertIf nofun) fun _ _ => .ok _) fun _ => .error nofun

include hs hbond in
theorem creditProgress_avoids {pass n : Nat} {progressor : Address} :
    Avoids Underflow (Escrow.creditProgress cfg sender r pass n progressor e) := by
  refine .bind (.revertIf nofun) fun _ _ => .bind (.revertIf nofun) fun _ _ =>
    .bind (.revertIf nofun) fun _ hopen => .bind recordPass_avoids fun round hround =>
      .bind (.checkedMul nofun) fun reward hreward => .bind (.checkedAdd nofun) fun _ _ =>
        .bind (.checkedSub_of_le ?_) fun _ _ => .bind (.checkedAdd nofun) fun _ _ =>
          .bind (.checkedAdd nofun) fun _ _ => .ok _
  -- the only subtraction takes a covered reward from the unresolved bonds
  rw [revertIf_eq_ok, Bool.not_eq_true] at hopen
  obtain ⟨_, hle, _⟩ := recordPass_ok hround
  rw [(checkedMul_eq_ok.1 hreward).2]
  exact hs.reward_le hbond hopen hle

include hbond in
theorem refundFor_avoids {passes : Nat} {round : RoundLedger} :
    Avoids Underflow (refundFor cfg passes round) := by
  refine .ite (fun _ => .bind (.revertIf nofun) fun _ _ => .ok _) fun _ =>
    .ite (fun _ => .bind (.revertIf nofun) fun _ _ => .checkedSub_of_le ?_) fun _ =>
      .bind (.revertIf nofun) fun _ _ => .ok _
  rw [BondCovers] at hbond
  omega

include hbond in
theorem finalizeRound_avoids {passes : Nat} :
    Avoids Underflow (Escrow.finalizeRound cfg sender r passes e) := by
  refine .bind (.revertIf nofun) fun _ _ => .bind (.revertIf nofun) fun _ _ =>
    .bind (refundFor_avoids hbond) fun refund _ => .bind (.checkedMul nofun) fun refunds _ =>
      .bind (.revertIf nofun) fun _ hcovered => .bind (.checkedSub_of_le ?_) fun _ _ =>
        .bind (.checkedAdd nofun) fun _ _ => .ok _
  rw [revertIf_eq_ok] at hcovered
  exact Nat.not_lt.1 hcovered

theorem pay_avoids {amount : Nat} {accepts : Bool} :
    Avoids Underflow (pay amount accepts e) := .bind (.revertIf nofun) fun _ _ => .ok _

include hs in
theorem claimBondRefund_avoids {accepts : Bool} :
    Avoids Underflow (Escrow.claimBondRefund sender r accepts e) := by
  refine .bind (.revertIf nofun) fun _ hguard => .bind (.checkedSub_of_le ?_) fun _ _ =>
    .bind (.checkedAdd nofun) fun _ _ => pay_avoids
  simp only [revertIf_eq_ok, not_or, Bool.not_eq_false, Bool.not_eq_true] at hguard
  rw [← due_of_unclaimed hguard.2.1 hguard.2.2]
  exact hs.due_le sender

include hs in
theorem withdrawSettlementRewards_avoids {accepts : Bool} :
    Avoids Underflow (Escrow.withdrawSettlementRewards sender accepts e) :=
  .bind (.revertIf nofun) fun _ _ => .bind (.checkedSub_of_le (hs.credit_le sender)) fun _ _ =>
    .bind (.checkedAdd nofun) fun _ _ => pay_avoids

/-! ## Calls that are accepted -/

theorem recordPass_isOk {pass n : Nat} {round : RoundLedger} (hpass : pass = 1 ∨ pass = 2)
    (hle : processedIn pass round + n ≤ round.registered) (hlt : round.registered < 2 ^ 256) :
    recordPass pass n round = .ok (advanced pass n round) := by
  unfold recordPass advanced
  unfold processedIn at hle
  rcases hpass with rfl | rfl
  · rw [if_pos rfl] at hle
    simp only [if_true, seq_eq_ok, checkedAdd_eq_ok, revertIf_eq_ok, pure_eq_ok, ok_eq_ok]
    exact ⟨_, ⟨by omega, rfl⟩, (), by omega, rfl⟩
  · rw [if_neg (by decide)] at hle
    rw [if_neg (by decide), if_pos rfl, if_neg (by decide)]
    simp only [seq_eq_ok, checkedAdd_eq_ok, revertIf_eq_ok, pure_eq_ok, ok_eq_ok]
    exact ⟨_, ⟨by omega, rfl⟩, (), by omega, rfl⟩

include hs hbond in
/-- A pass over participants that are registered and not processed yet is credited. -/
theorem creditProgress_isOk {pass n : Nat} {progressor : Address} (hn : n ≠ 0)
    (hprogressor : progressor ≠ 0) (hopen : (e.rounds r).finalized = false)
    (hpass : pass = 1 ∨ pass = 2)
    (hle : processedIn pass (e.rounds r) + n ≤ (e.rounds r).registered) :
    ∃ e', Escrow.creditProgress cfg cfg.vault r pass n progressor e = .ok e' := by
  have hcover := (hs.round r).reward_covered hbond hle
  have hdeposited := (hs.round r).deposited_lt
  have hreward := hs.reward_le hbond hopen hle
  have hcredit := hs.credit_le progressor
  have hconservation := hs.conservation
  have hlt := hs.deposited_lt
  have hrecord := recordPass_isOk hpass hle ((hs.round r).registered_lt hbond)
  have hrewards : (advanced pass n (e.rounds r)).rewardsAccrued = (e.rounds r).rewardsAccrued := by
    unfold advanced
    split_ifs <;> rfl
  simp only [Escrow.creditProgress, seq_eq_ok, revertIf_eq_ok, checkedAdd_eq_ok, checkedSub_eq_ok,
    checkedMul_eq_ok, pure_eq_ok, ok_eq_ok]
  refine ⟨_, (), not_not.2 rfl, (), not_or.2 ⟨hn, hprogressor⟩, (), ?_, _, hrecord, _, ⟨?_, rfl⟩, _,
    ⟨?_, rfl⟩, _, ⟨hreward, rfl⟩, _, ⟨?_, rfl⟩, _, ⟨?_, rfl⟩, rfl⟩
  · rw [hopen]
    exact Bool.false_ne_true
  · omega
  · rw [hrewards]
    omega
  · omega
  · omega

include hs hbond in
/-- A round whose passes are as complete as its settlement says is finalized. -/
theorem finalizeRound_isOk {passes refund : Nat} (hopen : (e.rounds r).finalized = false)
    (hpasses : passes ≤ 2) (hrefund : refundFor cfg passes (e.rounds r) = .ok refund) :
    ∃ e', Escrow.finalizeRound cfg cfg.vault r passes e = .ok e' := by
  have hexact := (hs.round r).refund_exact hbond hrefund
  have hdeposited := (hs.round r).deposited_lt
  have hunresolved := hs.unresolved_le (r := r)
  rw [unresolved_open hopen] at hunresolved
  have hconservation := hs.conservation
  have hlt := hs.deposited_lt
  simp only [Escrow.finalizeRound, seq_eq_ok, revertIf_eq_ok, checkedAdd_eq_ok, checkedSub_eq_ok,
    checkedMul_eq_ok, pure_eq_ok, ok_eq_ok]
  refine ⟨_, (), not_not.2 rfl, (), ?_, _, hrefund, _, ⟨?_, rfl⟩, (), ?_, _, ⟨?_, rfl⟩, _,
    ⟨?_, rfl⟩, rfl⟩
  · rw [hopen, not_or, not_lt]
    exact ⟨Bool.false_ne_true, hpasses⟩
  all_goals omega

include hs in
/-- An account takes a refund that is due to it, and takes it in full. -/
theorem claimBondRefund_isOk (hfin : (e.rounds r).finalized = true)
    (hreg : e.isRegistered r sender = true) (hclaimed : e.refundClaimed r sender = false) :
    ∃ e', Escrow.claimBondRefund sender r true e = .ok e' ∧
      e'.nativeBalance + (e.rounds r).refundPerParticipant = e.nativeBalance ∧
      e'.refundClaimed r sender = true := by
  have hdue := hs.due_le (r := r) sender
  rw [due_of_unclaimed hreg hclaimed] at hdue
  have hconservation := hs.conservation
  have hlt := hs.deposited_lt
  have hsolvent := hs.solvent
  rw [accountedLiability] at hsolvent
  simp only [Escrow.claimBondRefund, pay, seq_eq_ok, revertIf_eq_ok, checkedAdd_eq_ok,
    checkedSub_eq_ok, pure_eq_ok, ok_eq_ok]
  refine ⟨_, ⟨(), ?_, _, ⟨hdue, rfl⟩, _, ⟨?_, rfl⟩, (), ?_, rfl⟩, ?_, ?_⟩
  · rw [hfin, hreg, hclaimed]
    decide
  · omega
  · simp only [not_or, not_lt]
    exact ⟨by omega, (by rintro ⟨⟩)⟩
  · simp only
    omega
  · simp only [Function.update_self]

/-- An account that was refunded is not refunded again. -/
theorem claimBondRefund_again {accepts : Bool} (hclaimed : e.refundClaimed r sender = true) :
    Escrow.claimBondRefund sender r accepts e = .error (.escrow .refundUnavailable) := by
  simp only [Escrow.claimBondRefund, seq_eq_error, revertIf_eq_error]
  exact .inl ⟨.inr (.inr hclaimed), trivial⟩

end Sound

end Escrow

end Leopold
