import Leopold.System.Runs
import Leopold.System.Settling
import Leopold.Contracts.EscrowTotal

/-!
# The bonds of a run

A call changes the escrow through one of its entry points or not at all.  With the agreement of
the vault and the escrow this makes the ledgers of the escrow sound in every reachable state,
whatever the encryption computes.
-/

namespace Leopold

open Lib

variable {E64 E128 EBool X : Type} {fhe : Fhe E64 E128 EBool} {E : Externals E64 EBool X}
  {cfg : Config} {w w' : World E64 E128 EBool X} {sender : Address} {r : Nat}

namespace World

/-- What a call does to the escrow. -/
inductive EscrowStep (cfg : Config) (sender : Address) (w : World E64 E128 EBool X) :
    Escrow → Prop
  | same : EscrowStep cfg sender w w.escrow
  | register {value : Nat} {e : Escrow}
      (h : w.escrow.registerForRound cfg sender value w.vault.activeRoundId = .ok e) :
      EscrowStep cfg sender w e
  | credit {r pass n : Nat} {e : Escrow}
      (h : w.escrow.creditProgress cfg cfg.vault r pass n sender = .ok e) :
      EscrowStep cfg sender w e
  | finalize {r passes : Nat} {e : Escrow}
      (h : w.escrow.finalizeRound cfg cfg.vault r passes = .ok e) : EscrowStep cfg sender w e
  | refund {r : Nat} {accepts : Bool} {e : Escrow}
      (h : w.escrow.claimBondRefund sender r accepts = .ok e) : EscrowStep cfg sender w e
  | reward {accepts : Bool} {e : Escrow}
      (h : w.escrow.withdrawSettlementRewards sender accepts = .ok e) :
      EscrowStep cfg sender w e

theorem exec_escrow (hsender : cfg.External sender) {c : Call E64 E128 EBool}
    (h : exec fhe E cfg sender w c = .ok w') : EscrowStep cfg sender w w'.escrow := by
  have hres : c.reserved = false := by
    by_contra hne
    exact exec_reserved hsender (Bool.not_eq_false _ ▸ hne) h
  cases c with
  | registerForRound value r =>
    obtain ⟨e, v, he, hv, rfl⟩ := registerForRound_ok h
    obtain ⟨_, _, rfl, _⟩ := Vault.acceptBondRegistration_ok hv
    exact .register he
  | deposit n d =>
    obtain ⟨x₁, sent, v, accepted, x₂, _, _, _, rfl⟩ := deposit_ok h
    exact .same
  | withdraw input =>
    obtain ⟨⟨w₁, sent⟩, hw, rfl⟩ := map_eq_ok.1 h
    obtain ⟨_, x, v, _, _, rfl⟩ := withdraw_ok hw
    exact .same
  | contributeSponsor r units =>
    obtain ⟨_, x₁, x₂, wrapped, gs, _, _, rfl⟩ := contributeSponsor_ok h
    exact .same
  | openStrategyEpoch kind =>
    obtain ⟨⟨w₁, id⟩, hw, rfl⟩ := map_eq_ok.1 h
    obtain ⟨_, _, _, _, epoch, _, _, _, rfl⟩ := openStrategyEpoch_ok hw
    exact .same
  | requestStrategyAmount id =>
    obtain ⟨_, _, _, _, ⟨_, n, x, req, gs, _, _, rfl⟩ | ⟨_, d, gs, rfl⟩⟩ :=
      requestStrategyAmount_ok h <;> exact .same
  | finalizeStrategyDeployment id n proof =>
    obtain ⟨_, _, _, x₁, x₂, a, x₃, x₄, gs, _, _, _, _, rfl⟩ := finalizeStrategyDeployment_ok h
    exact .same
  | finalizeStrategyReplenishment id c proof =>
    obtain ⟨_, _, n, _, _, a, x₁, x₂, wrapped, gs, _, _, rfl⟩ :=
      finalizeStrategyReplenishment_ok h
    exact .same
  | harvestStrategyYield =>
    obtain ⟨⟨w₁, n⟩, hw, rfl⟩ := map_eq_ok.1 h
    obtain ⟨a, x₁, recovered, _, ⟨_, rfl⟩ | ⟨x₂, wrapped, v, _, hv, rfl⟩⟩ :=
      harvestStrategyYield_ok hw <;> exact .same
  | setStrategyPaused paused =>
    obtain rfl := setStrategyPaused_ok h
    exact .same
  | emergencyUnwindStrategy =>
    obtain ⟨a, x₁, recovered, shortfall, x₂, v, gs, _, _, _, _, hv, rfl⟩ :=
      emergencyUnwindStrategy_ok h
    exact .same
  | cancelAgingStrategyEpoch id =>
    obtain ⟨_, _, rfl⟩ := cancelAgingStrategyEpoch_ok h
    exact .same
  | cancelExpiredStrategyEpoch id n proof =>
    obtain ⟨_, ⟨_, rfl⟩ | ⟨_, _, x₁, x₂, wrapped, gs, _, _, rfl⟩⟩ :=
      cancelExpiredStrategyEpoch_ok h <;> exact .same
  | closeRound | finalizeAggregate | generateRandomCandidate | finalizeCandidateValidity
  | finalizeSelectionReconciliation =>
    obtain ⟨v, _, rfl⟩ := onVault_eq_ok.1 h
    exact .same
  | processSelection r n =>
    obtain ⟨_, v₁, processed, v₂, e, _, _, _, hcredit, rfl⟩ := processSelection_ok h
    exact .credit hcredit
  | processAllocation r n =>
    obtain ⟨_, _, v₁, v₂, processed, v₃, e, _, _, _, _, hcredit, rfl⟩ := processAllocation_ok h
    exact .credit hcredit
  | finalizeSettlement r =>
    obtain ⟨e, he, rfl⟩ := settle_ok (finalizeSettlement_ok h).2
    exact .finalize he
  | recoverFailedReconciliation r =>
    obtain ⟨_, v, _, hsettle⟩ := recoverFailedReconciliation_ok h
    obtain ⟨e, he, rfl⟩ := settle_ok hsettle
    exact .finalize he
  | settleEmptyRound r =>
    obtain ⟨_, v, _, hsettle⟩ := settleEmptyRound_ok h
    obtain ⟨e, he, rfl⟩ := settle_ok hsettle
    exact .finalize he
  | withdrawWinnings input =>
    obtain ⟨⟨w₁, sent⟩, hw, rfl⟩ := map_eq_ok.1 h
    obtain ⟨x, gs, _, rfl⟩ := withdrawWinnings_ok hw
    exact .same
  | materializeMyRoundWeight r =>
    simp only [exec, onVault_eq_ok, map_eq_ok, Prod.exists] at h
    obtain ⟨v, _, rfl⟩ := h
    exact .same
  | setAutoSavePreference preference =>
    simp only [exec, onVault_eq_ok, ok_eq_ok] at h
    obtain ⟨v, _, rfl⟩ := h
    exact .same
  | claimBondRefund r accepts =>
    obtain ⟨e, he, rfl⟩ := onEscrow_eq_ok.1 h
    exact .refund he
  | withdrawSettlementRewards accepts =>
    obtain ⟨e, he, rfl⟩ := onEscrow_eq_ok.1 h
    exact .reward he
  | setPaused paused =>
    obtain ⟨a, _, rfl⟩ := map_eq_ok.1 h
    exact .same
  | acceptBondRegistration | onConfidentialTransferReceived | creditProgress | finalizeRound
  | deployAssets | withdrawPrincipal | harvest | emergencyExit => cases hres

/-- The invariant the two contracts share. -/
structure Bonded (fhe : Fhe E64 E128 EBool) (cfg : Config) (w : World E64 E128 EBool X) :
    Prop where
  covers : Escrow.BondCovers cfg
  shape : w.vault.Shape fhe
  settling : w.Settling
  sound : w.escrow.Sound cfg

/-- Each of these keeps the ledgers of the escrow sound. -/
theorem EscrowStep.sound {e : Escrow} (hstep : EscrowStep cfg sender w e)
    (h : w.Bonded fhe cfg) : e.Sound cfg := by
  cases hstep with
  | same => exact h.sound
  | register he =>
    refine h.sound.registerForRound h.covers ?_ he
    refine (h.settling _).not_finalized ?_
    rw [Round.progress, h.shape.active_open]
    rintro ⟨⟩
  | credit he => exact h.sound.creditProgress h.covers he
  | finalize he => exact h.sound.finalizeRound h.covers he
  | refund he => exact h.sound.claimBondRefund he
  | reward he => exact h.sound.withdrawSettlementRewards he

/-- What an account was refunded stays refunded, and its claim on a finalized round stays as it
is. -/
theorem EscrowStep.claims {e : Escrow} (hstep : EscrowStep cfg sender w e) (h : w.Bonded fhe cfg)
    (r : Nat) (a : Address) :
    (w.escrow.refundClaimed r a = true → e.refundClaimed r a = true) ∧
      ((w.escrow.rounds r).finalized = true → (e.rounds r).finalized = true ∧
        (e.rounds r).refundPerParticipant = (w.escrow.rounds r).refundPerParticipant ∧
        e.isRegistered r a = w.escrow.isRegistered r a) := by
  have hround : ∀ {s : Nat} {round : RoundLedger}, (w.escrow.rounds s).finalized = false →
      (w.escrow.rounds r).finalized = true →
        Function.update w.escrow.rounds s round r = w.escrow.rounds r := by
    intro s round hopen hfin
    refine Function.update_of_ne ?_ _ _
    rintro rfl
    exact Bool.false_ne_true (hopen.symm.trans hfin)
  cases hstep with
  | same => exact ⟨id, fun hfin => ⟨hfin, rfl, rfl⟩⟩
  | register he =>
    have hopen : (w.escrow.rounds w.vault.activeRoundId).finalized = false := by
      refine (h.settling _).not_finalized ?_
      rw [Round.progress, h.shape.active_open]
      rintro ⟨⟩
    obtain ⟨_, _, _, _, rfl⟩ := Escrow.registerForRound_ok he
    refine ⟨id, fun hfin => ?_⟩
    have hne : r ≠ w.vault.activeRoundId := by
      rintro rfl
      exact Bool.false_ne_true (hopen.symm.trans hfin)
    simp only [Function.update_of_ne hne]
    exact ⟨hfin, trivial, trivial⟩
  | credit he =>
    obtain ⟨_, _, hopen, _, _, _, rfl⟩ := Escrow.creditProgress_ok he
    refine ⟨id, fun hfin => ?_⟩
    simp only [hround hopen hfin]
    exact ⟨hfin, trivial, trivial⟩
  | finalize he =>
    obtain ⟨_, hopen, _, _, _, rfl⟩ := Escrow.finalizeRound_ok he
    refine ⟨id, fun hfin => ?_⟩
    simp only [hround hopen hfin]
    exact ⟨hfin, trivial, trivial⟩
  | refund he =>
    obtain ⟨_, _, _, _, _, _, rfl⟩ := Escrow.claimBondRefund_ok he
    refine ⟨fun hclaimed => ?_, fun hfin => ⟨hfin, rfl, rfl⟩⟩
    simp only [Function.update_apply]
    split_ifs with hs
    · subst hs
      rw [Function.update_apply]
      split_ifs
      · rfl
      · exact hclaimed
    · exact hclaimed
  | reward he =>
    obtain ⟨_, _, _, rfl⟩ := Escrow.withdrawSettlementRewards_ok he
    exact ⟨id, fun hfin => ⟨hfin, rfl, rfl⟩⟩

theorem construct_bonded {nativeBalance now : Nat} {x : X}
    (h : construct fhe E cfg nativeBalance now x = .ok w) : w.Bonded fhe cfg := by
  have hshape := construct_shape h
  obtain ⟨_, ⟨_, _, hbond⟩, _, gs, rfl⟩ := construct_ok h
  refine ⟨hbond, hshape, fun r => ?_, Escrow.sound_initial nativeBalance⟩
  have hclear : ∀ p : Progress, (p.state = .open ∨ p.state = .uninitialized) →
      p.selectionCursor = 0 → p.allocationCursor = 0 →
      Settles [] (fun _ => false) RoundLedger.zero p := by
    intro p hstate hsel hall
    refine ⟨.nil, fun a => ?_, rfl, hsel.symm, hall.symm, ?_, ?_, fun h1 h2 => ?_⟩
    · simp
    · refine ⟨nofun, fun hs => ?_⟩
      rcases hstate with h | h <;> rw [h] at hs <;> nomatch hs
    · rcases hstate with h | h <;> rw [h] <;> exact ⟨hsel, hall⟩
    · exact absurd hstate (not_or.2 ⟨h1, h2⟩)
  by_cases hr : r = 1
  · subst hr
    refine hclear _ (.inl ?_) ?_ ?_ <;> rw [Vault.grant_rounds, Vault.setRound_rounds_self] <;> rfl
  · refine hclear _ (.inr ?_) ?_ ?_ <;>
      rw [Vault.grant_rounds, Vault.setRound_rounds_of_ne hr] <;> rfl

/-- **Step lemma.**  Every step keeps the vault and the escrow in agreement and the ledgers of
the escrow sound. -/
theorem step_bonded (h : w.Bonded fhe cfg) {l : Label E64 E128 EBool X}
    (hstep : Step fhe E cfg w l w') : w'.Bonded fhe cfg := by
  cases l with
  | call sender c =>
    obtain ⟨hsender, hexec⟩ := hstep
    exact ⟨h.covers, exec_shape hsender h.shape hexec,
      exec_settling hsender h.shape h.settling hexec, (exec_escrow hsender hexec).sound h⟩
  | tick now =>
    obtain ⟨_, rfl⟩ := hstep
    exact ⟨h.covers, h.shape, h.settling, h.sound⟩
  | thirdParty ext =>
    obtain ⟨_, rfl⟩ := hstep
    exact ⟨h.covers, h.shape, h.settling, h.sound⟩
  | forceNative amount =>
    obtain rfl := hstep
    exact ⟨h.covers, h.shape, h.settling, h.sound.forceNative amount⟩

theorem reachable_bonded (h : (system fhe E cfg).Reachable w) : w.Bonded fhe cfg := by
  refine TransitionSystem.Reachable.invariant (I := fun w => w.Bonded fhe cfg) ?_ ?_ h
  · rintro w ⟨nativeBalance, now, x, hinit⟩
    exact construct_bonded hinit
  · exact fun w l w' _ hB hstep => step_bonded hB hstep

/-- The claims of an account survive every step. -/
theorem step_claims (h : w.Bonded fhe cfg) {l : Label E64 E128 EBool X}
    (hstep : Step fhe E cfg w l w') (r : Nat) (a : Address) :
    (w.escrow.refundClaimed r a = true → w'.escrow.refundClaimed r a = true) ∧
      ((w.escrow.rounds r).finalized = true → (w'.escrow.rounds r).finalized = true ∧
        (w'.escrow.rounds r).refundPerParticipant = (w.escrow.rounds r).refundPerParticipant ∧
        w'.escrow.isRegistered r a = w.escrow.isRegistered r a) := by
  cases l with
  | call sender c => exact (exec_escrow hstep.1 hstep.2).claims h r a
  | tick now =>
    obtain ⟨_, rfl⟩ := hstep
    exact ⟨id, fun hfin => ⟨hfin, rfl, rfl⟩⟩
  | thirdParty ext =>
    obtain ⟨_, rfl⟩ := hstep
    exact ⟨id, fun hfin => ⟨hfin, rfl, rfl⟩⟩
  | forceNative amount =>
    obtain rfl := hstep
    exact ⟨id, fun hfin => ⟨hfin, rfl, rfl⟩⟩

/-- **Run lemma.**  What an account was refunded stays refunded over every run. -/
theorem run_claims (hw : (system fhe E cfg).Reachable w) (hrun : (system fhe E cfg).Run w w')
    (r : Nat) (a : Address) (hclaimed : w.escrow.refundClaimed r a = true) :
    w'.escrow.refundClaimed r a = true :=
  (hrun.preserves (I := fun u => u.escrow.refundClaimed r a = true) hw
    (fun _ _ _ hs hu hstep _ => (step_claims (reachable_bonded hs) hstep r a).1 hu) hclaimed).2

/-- **The ledgers of the escrow.**  In every reachable state the bonds paid in are accounted for
exactly, the contract holds what it owes, an account of a finalized round takes its refund once and
never again, and no subtraction of the contract underflows. -/
theorem escrow_conserved (hw : (system fhe E cfg).Reachable w) :
    (w.escrow.totalDeposited = w.escrow.totalUnresolvedLiability + w.escrow.totalRewardLiability +
      w.escrow.totalRefundLiability + w.escrow.totalRewardsWithdrawn +
        w.escrow.totalRefundsWithdrawn) ∧
    w.escrow.accountedLiability ≤ w.escrow.nativeBalance ∧
    w.escrow.totalUnresolvedLiability = (∑ᶠ r ∈ {r | (w.escrow.rounds r).finalized = false},
      ((w.escrow.rounds r).deposited - (w.escrow.rounds r).rewardsAccrued)) ∧
    (∀ r, (w.escrow.rounds r).rewardsAccrued ≤ (w.escrow.rounds r).deposited) ∧
    (∀ r, (w.escrow.rounds r).finalized = true → (w.escrow.rounds r).deposited =
      (w.escrow.rounds r).rewardsAccrued + (w.escrow.rounds r).refundsAccrued) ∧
    (∑ a, w.escrow.settlementRewardCredit a = w.escrow.totalRewardLiability) ∧
    (∀ r a, (w.escrow.rounds r).finalized = true → w.escrow.isRegistered r a = true →
      w.escrow.refundClaimed r a = false →
        ∃ e, w.escrow.claimBondRefund a r true = .ok e ∧ e.refundClaimed r a = true ∧
          e.nativeBalance + (w.escrow.rounds r).refundPerParticipant = w.escrow.nativeBalance) ∧
    (∀ r a, w.escrow.refundClaimed r a = true → ∀ w', (system fhe E cfg).Run w w' →
      ∀ accepts, w'.escrow.claimBondRefund a r accepts = .error (.escrow .refundUnavailable)) ∧
    (∀ sender r n m account accepts,
      (w.escrow.registerForRound cfg sender n r ≠ .error (.panic .escrow .underflow)) ∧
      (w.escrow.creditProgress cfg sender r n m account ≠ .error (.panic .escrow .underflow)) ∧
      (w.escrow.finalizeRound cfg sender r n ≠ .error (.panic .escrow .underflow)) ∧
      (w.escrow.claimBondRefund sender r accepts ≠ .error (.panic .escrow .underflow)) ∧
      (w.escrow.withdrawSettlementRewards sender accepts ≠
        .error (.panic .escrow .underflow))) := by
  have hB := reachable_bonded hw
  have hs := hB.sound
  refine ⟨hs.conservation, hs.solvent, ?_, fun r => ?_, fun r => (hs.round r).split, hs.reward_sum,
    fun r a hfin hreg hclaimed => ?_, fun r a hclaimed w' hrun accepts => ?_,
    fun sender r n m account accepts => ⟨?_, ?_, ?_, ?_, ?_⟩⟩
  · rw [← hs.unresolved_sum, finsum_mem_def]
    refine finsum_congr fun r => ?_
    rw [Set.indicator_apply, Escrow.unresolved]
    have hmem : r ∈ {r | (w.escrow.rounds r).finalized = false} ↔
        ¬ (w.escrow.rounds r).finalized = true := Bool.not_eq_true _ ▸ Iff.rfl
    by_cases hfin : (w.escrow.rounds r).finalized = true
    · rw [if_pos hfin, if_neg (fun hopen => hmem.1 hopen hfin)]
    · rw [if_neg hfin, if_pos (hmem.2 hfin)]
  · have hcover := (hs.round r).covered hB.covers
    omega
  · obtain ⟨e, he, hpaid, hset⟩ := hs.claimBondRefund_isOk hfin hreg hclaimed
    exact ⟨e, he, hset, hpaid⟩
  · exact Escrow.Sound.claimBondRefund_again (run_claims hw hrun r a hclaimed)
  · exact fun h => Escrow.Sound.registerForRound_avoids _ h rfl
  · exact fun h => hs.creditProgress_avoids hB.covers _ h rfl
  · exact fun h => Escrow.Sound.finalizeRound_avoids hB.covers _ h rfl
  · exact fun h => hs.claimBondRefund_avoids _ h rfl
  · exact fun h => hs.withdrawSettlementRewards_avoids _ h rfl

end World

/-- The script goes on: the round is settled, and alice takes her refund. -/
def Demo.refundScript : List Event :=
  script ++ [.call alice (.finalizeSettlement 1), .call alice (.claimBondRefund 1 true)]

open Demo World in
/-- Alice has her refund and never gets it again; bob can still take his. -/
theorem World.escrow_conserved_script : ∃ w, outcome Demo.cfg token 100 chain refundScript = .ok w ∧
    w.escrow.totalDeposited = 20 ∧ w.escrow.nativeBalance = 14 ∧
    (w.escrow.totalDeposited = w.escrow.totalUnresolvedLiability + w.escrow.totalRewardLiability +
      w.escrow.totalRefundLiability + w.escrow.totalRewardsWithdrawn +
        w.escrow.totalRefundsWithdrawn) ∧
    w.escrow.accountedLiability ≤ w.escrow.nativeBalance ∧
    w.escrow.totalUnresolvedLiability = (∑ᶠ r ∈ {r | (w.escrow.rounds r).finalized = false},
      ((w.escrow.rounds r).deposited - (w.escrow.rounds r).rewardsAccrued)) ∧
    (w.escrow.rounds 1).deposited =
      (w.escrow.rounds 1).rewardsAccrued + (w.escrow.rounds 1).refundsAccrued ∧
    (∑ a, w.escrow.settlementRewardCredit a = w.escrow.totalRewardLiability) ∧
    (∀ w', (system Fhe.plain externals Demo.cfg).Run w w' → ∀ accepts,
      w'.escrow.claimBondRefund alice 1 accepts = .error (.escrow .refundUnavailable)) ∧
    ∃ e, w.escrow.claimBondRefund bob 1 true = .ok e ∧ e.refundClaimed 1 bob = true := by
  have hends : endsWith (fun w => decide (w.escrow.totalDeposited = 20 ∧
      w.escrow.nativeBalance = 14 ∧ (w.escrow.rounds 1).finalized = true ∧
      w.escrow.refundClaimed 1 alice = true ∧ w.escrow.isRegistered 1 bob = true ∧
      w.escrow.refundClaimed 1 bob = false))
      (outcome Demo.cfg token 100 chain refundScript) = true := by decide +kernel
  obtain ⟨w, hw, hcheck⟩ := exists_of_endsWith hends
  obtain ⟨hdeposited, hnative, hfinal, halice, hbob, hunclaimed⟩ := of_decide_eq_true hcheck
  obtain ⟨htotal, hcovered, hunresolved, _, hsplit, hrewards, hrefund, hnever, _⟩ :=
    escrow_conserved (outcome_reachable hw)
  obtain ⟨e, he, hset, _⟩ := hrefund 1 bob hfinal hbob hunclaimed
  exact ⟨w, hw, hdeposited, hnative, htotal, hcovered, hunresolved, hsplit 1 hfinal, hrewards,
    hnever 1 alice halice, e, he, hset⟩

end Leopold
