import Leopold.Vault.Inversion

/-!
# What a successful call of several contracts did

The inversion lemmas of the entry points that run on the joint state.
-/

namespace Leopold

open Lib

namespace World

variable {E64 E128 EBool X : Type} {fhe : Fhe E64 E128 EBool} {E : Externals E64 EBool X}
  {cfg : Config} {w w' : World E64 E128 EBool X} {sender : Address}

/-! ## Registration, deposits and payments -/

theorem registerForRound_ok {value r : Nat}
    (h : registerForRound fhe cfg sender value r w = .ok w') :
    ∃ e v, w.escrow.registerForRound cfg sender value r = .ok e ∧
      w.vault.acceptBondRegistration fhe cfg cfg.escrow r sender w.now = .ok v ∧
      w' = { w with escrow := e, vault := v } := by
  simp only [registerForRound, seq_eq_ok, pure_eq_ok, ok_eq_ok] at h
  obtain ⟨e, he, v, hv, rfl⟩ := h
  exact ⟨e, v, he, hv, rfl⟩

theorem deposit_ok {n : E64} {dataLength : Nat}
    (h : deposit fhe E cfg sender n dataLength w = .ok w') :
    ∃ x₁ sent v accepted x₂, E.transferAndCallSend w.ext sender cfg.vault n = some (x₁, sent) ∧
      w.vault.onConfidentialTransferReceived fhe cfg cfg.asset sender sent dataLength w.now =
        .ok (v, accepted) ∧
      E.transferAndCallRefund x₁ cfg.vault sender sent accepted = some x₂ ∧
      w' = { w with vault := v, ext := x₂ } := by
  simp only [deposit, seq_eq_ok, orRevert_eq_ok, Prod.exists, pure_eq_ok, ok_eq_ok] at h
  obtain ⟨x₁, sent, h1, v, accepted, h2, x₂, h3, rfl⟩ := h
  exact ⟨x₁, sent, v, accepted, x₂, h1, h2, h3, rfl⟩

/-- The amount `withdraw` asks the token to send. -/
def eligibleWithdrawal (fhe : Fhe E64 E128 EBool) (sender : Address) (requested : E64)
    (v : Vault E64 E128 EBool) : E64 :=
  fhe.select64 (fhe.and (fhe.le64 requested (v.principal sender))
    (fhe.le64 requested v.liquidPrincipal)) requested (fhe.asEuint64 0)

theorem withdraw_ok {input : EncryptedInput E64} {sent : E64}
    (h : withdraw fhe E cfg sender input w = .ok (w', sent)) :
    w.vault.isActiveRoundOpen w.now = true ∧ ∃ x v,
      E.confidentialTransfer w.ext cfg.vault sender
        (eligibleWithdrawal fhe sender input.handle w.vault) = some (x, sent) ∧
      w.vault.recordWithdrawal fhe cfg sender sent w.now = .ok v ∧
      w' = { w with vault := v, ext := x } := by
  simp only [withdraw, EncryptedInput.fromExternal, seq_eq_ok, revertIf_eq_ok, orRevert_eq_ok,
    Prod.exists, pure_eq_ok, ok_eq_ok, Prod.mk.injEq] at h
  obtain ⟨_, h1, _, ⟨_, _, rfl⟩, x, _, h2, v, h3, rfl, rfl⟩ := h
  exact ⟨by simpa using h1, x, v, h2, h3, rfl⟩

/-- The amount `withdrawWinnings` asks the token to send. -/
def eligibleWinnings (fhe : Fhe E64 E128 EBool) (sender : Address) (requested : E64)
    (v : Vault E64 E128 EBool) : E64 :=
  fhe.select64 (fhe.and (fhe.le64 requested (v.winnings sender))
    (fhe.le64 requested v.liquidPrizeAssets)) requested (fhe.asEuint64 0)

theorem withdrawWinnings_ok {input : EncryptedInput E64} {sent : E64}
    (h : withdrawWinnings fhe E cfg sender input w = .ok (w', sent)) :
    ∃ x gs, E.confidentialTransfer w.ext cfg.vault sender
        (eligibleWinnings fhe sender input.handle w.vault) = some (x, sent) ∧
      w' = { w with
        ext := x
        vault := Vault.grant { w.vault with
          winnings := Function.update w.vault.winnings sender
            (fhe.sub64 (w.vault.winnings sender) sent)
          winningsLiability := fhe.sub64 w.vault.winningsLiability sent
          liquidPrizeAssets := fhe.sub64 w.vault.liquidPrizeAssets sent } gs } := by
  simp only [withdrawWinnings, EncryptedInput.fromExternal, seq_eq_ok, revertIf_eq_ok,
    orRevert_eq_ok, Prod.exists, pure_eq_ok, ok_eq_ok, Prod.mk.injEq] at h
  obtain ⟨_, ⟨_, _, rfl⟩, x, _, h2, rfl, rfl⟩ := h
  exact ⟨x, _, h2, rfl⟩

theorem contributeSponsor_ok {r units : Nat}
    (h : contributeSponsor fhe E cfg sender r units w = .ok w') :
    (r = w.vault.activeRoundId ∨ r = w.vault.activeRoundId + 1) ∧
    ∃ x₁ x₂ wrapped gs,
      E.safeTransferFrom w.ext cfg.vault sender cfg.vault (units * E.rate) = some x₁ ∧
      Vault.wrapUnderlying E cfg (units * E.rate) x₁ = .ok (x₂, wrapped) ∧
      w' = { w with
        ext := x₂
        vault := Vault.grant { w.vault with
          sponsoredPrize := Function.update w.vault.sponsoredPrize r
            (fhe.add64 (w.vault.sponsoredPrize r) wrapped)
          liquidPrizeAssets := fhe.add64 w.vault.liquidPrizeAssets wrapped
          publicSponsoredPrize := Function.update w.vault.publicSponsoredPrize r
            (w.vault.publicSponsoredPrize r + units) } gs } := by
  simp only [contributeSponsor, seq_eq_ok, revertIf_eq_ok, orRevert_eq_ok, checkedMul_eq_ok,
    checkedAdd_eq_ok, Prod.exists, pure_eq_ok, ok_eq_ok] at h
  obtain ⟨_, _, _, hround, _, _, _, _, _, ⟨_, rfl⟩, x₁, h1, x₂, wrapped, h2, _, ⟨_, rfl⟩, rfl⟩ := h
  exact ⟨Vault.requireSponsorRound_ok hround, x₁, x₂, wrapped, _, h1, h2, rfl⟩

/-! ## The settlement passes -/

/-- The number of participants a pass visits stays inside the snapshot. -/
theorem chunk_ok {cursor n snapshot processed : Nat}
    (h : chunk cursor n snapshot = .ok processed) :
    processed ≤ n ∧ (cursor ≤ snapshot → cursor + processed ≤ snapshot) ∧
      (cursor < snapshot → 0 < n → 0 < processed) := by
  simp only [chunk, seq_eq_ok, checkedAdd_eq_ok, pure_eq_ok, ok_eq_ok] at h
  obtain ⟨_, ⟨_, rfl⟩, rfl⟩ := h
  split_ifs <;> omega

theorem processSelection_ok {r n : Nat} (h : processSelection fhe cfg sender r n w = .ok w') :
    n ≠ 0 ∧ ∃ v₁ processed v₂ e, w.vault.startSelection fhe cfg r = .ok v₁ ∧
      chunk (v₁.rounds r).selectionCursor n (v₁.rounds r).participantCountSnapshot =
        .ok processed ∧
      Vault.forParticipants (Vault.selectParticipant fhe cfg r) r (v₁.rounds r).selectionCursor
        processed v₁ = .ok v₂ ∧
      w.escrow.creditProgress cfg cfg.vault r 1 processed sender = .ok e ∧
      w' = { w with
        escrow := e
        vault := (v₂.setRound r { v₂.rounds r with
          selectionCursor := (v₁.rounds r).selectionCursor + processed }).requestReconciliation
            fhe cfg r } := by
  simp only [processSelection, seq_eq_ok, revertIf_eq_ok, pure_eq_ok, ok_eq_ok] at h
  obtain ⟨_, hn, v₁, h1, processed, h2, v₂, h3, e, h4, rfl⟩ := h
  exact ⟨fun h0 => hn (.inl h0), v₁, processed, v₂, e, h1, h2, h3, h4, rfl⟩

theorem processAllocation_ok {r n : Nat} (h : processAllocation fhe cfg sender r n w = .ok w') :
    n ≠ 0 ∧ w.vault.isActiveRoundOpen w.now = true ∧ ∃ v₁ v₂ processed v₃ e,
      w.vault.startAllocation r = .ok v₁ ∧
      v₁.accrueEligible fhe cfg v₁.activeRoundId (uint64 w.now) = .ok v₂ ∧
      chunk (v₂.rounds r).allocationCursor n (v₂.rounds r).participantCountSnapshot =
        .ok processed ∧
      Vault.forParticipants (Vault.allocateParticipant fhe cfg r w.now) r
        (v₂.rounds r).allocationCursor processed v₂ = .ok v₃ ∧
      w.escrow.creditProgress cfg cfg.vault r 2 processed sender = .ok e ∧
      w' = { w with
        escrow := e
        vault := (v₃.setRound r { v₃.rounds r with
          allocationCursor := (v₂.rounds r).allocationCursor + processed }).finishAllocation r }
      := by
  simp only [processAllocation, seq_eq_ok, revertIf_eq_ok, pure_eq_ok, ok_eq_ok] at h
  obtain ⟨_, hn, _, hopen, v₁, h1, v₂, h2, processed, h3, v₃, h4, e, h5, rfl⟩ := h
  exact ⟨fun h0 => hn (.inl h0), by simpa using hopen, v₁, v₂, processed, v₃, e, h1, h2, h3, h4,
    h5, rfl⟩

theorem settle_ok {r passes : Nat} (h : settle cfg r passes w = .ok w') :
    ∃ e, w.escrow.finalizeRound cfg cfg.vault r passes = .ok e ∧ w' = { w with
      escrow := e
      vault := w.vault.setRound r { w.vault.rounds r with state := .settled } } := by
  simp only [settle, seq_eq_ok, pure_eq_ok, ok_eq_ok] at h
  obtain ⟨e, he, rfl⟩ := h
  exact ⟨e, he, rfl⟩

theorem finalizeSettlement_ok {r : Nat} (h : finalizeSettlement cfg r w = .ok w') :
    (w.vault.rounds r).state = .winningsAllocated ∧ settle cfg r 2 w = .ok w' := by
  simp only [finalizeSettlement, seq_eq_ok] at h
  obtain ⟨_, h1, h2⟩ := h
  exact ⟨Vault.requireState_ok h1, h2⟩

theorem recoverFailedReconciliation_ok {r : Nat}
    (h : recoverFailedReconciliation fhe cfg r w = .ok w') :
    (w.vault.rounds r).state = .reconciliationFailed ∧ ∃ v,
      w.vault.rollPrizeForward fhe cfg r = .ok v ∧
      settle cfg r 1 { w with vault := v } = .ok w' := by
  simp only [recoverFailedReconciliation, seq_eq_ok, revertIf_eq_ok] at h
  obtain ⟨_, h1, v, h2, h3⟩ := h
  exact ⟨not_not.1 h1, v, h2, h3⟩

theorem settleEmptyRound_ok {r : Nat} (h : settleEmptyRound fhe cfg r w = .ok w') :
    (w.vault.rounds r).state = .empty ∧ ∃ v, w.vault.rollPrizeForward fhe cfg r = .ok v ∧
      settle cfg r 0 { w with vault := v } = .ok w' := by
  simp only [settleEmptyRound, seq_eq_ok] at h
  obtain ⟨_, h1, v, h2, h3⟩ := h
  exact ⟨Vault.requireState_ok h1, v, h2, h3⟩

@[simp] theorem onVault_eq_ok
    {f : Vault E64 E128 EBool → Except Revert (Vault E64 E128 EBool)} :
    onVault f w = .ok w' ↔ ∃ v, f w.vault = .ok v ∧ w' = { w with vault := v } := by
  simp only [onVault, seq_eq_ok, pure_eq_ok, ok_eq_ok]
  exact exists_congr fun _ => and_congr_right fun _ => eq_comm

@[simp] theorem onEscrow_eq_ok {f : Escrow → Except Revert Escrow} :
    onEscrow f w = .ok w' ↔ ∃ e, f w.escrow = .ok e ∧ w' = { w with escrow := e } := by
  simp only [onEscrow, seq_eq_ok, pure_eq_ok, ok_eq_ok]
  exact exists_congr fun _ => and_congr_right fun _ => eq_comm

/-! ## Strategy epochs -/

theorem openStrategyEpoch_ok {kind : StrategyEpochKind} {id : Nat}
    (h : openStrategyEpoch cfg kind w = .ok (w', id)) :
    let current := w.vault.strategyEpochs w.vault.activeStrategyEpochId
    (current.state = .none ∨ current.state = .completed ∨ current.state = .cancelled) ∧
      kind ≠ .none ∧ w.adapter.paused = false ∧ cfg.hasStrategy = true ∧
      ∃ epoch, epoch.kind = kind ∧ epoch.state = .aging ∧ epoch.openedAt = uint64 w.now ∧
        w' = { w with vault := { w.vault.setEpoch (w.vault.activeStrategyEpochId + 1) epoch with
          activeStrategyEpochId := w.vault.activeStrategyEpochId + 1 } } := by
  simp only [openStrategyEpoch, Vault.requireStrategy, seq_eq_ok, revertIf_eq_ok,
    checkedAdd_eq_ok, pure_eq_ok, ok_eq_ok, Prod.mk.injEq] at h
  obtain ⟨_, h1, _, h2, _, h3, _, h4, id', ⟨_, rfl⟩, _, _, rfl, _⟩ := h
  exact ⟨by tauto, h2, by simpa using h3, by simpa using h1, _, rfl, rfl, rfl, rfl⟩

/-- The amount a deployment takes out of the liquid principal. -/
def excess (fhe : Fhe E64 E128 EBool) (v : Vault E64 E128 EBool) : E64 :=
  fhe.select64 (fhe.gt64 v.liquidPrincipal (liquidityTarget fhe v))
    (fhe.sub64 v.liquidPrincipal (liquidityTarget fhe v)) (fhe.asEuint64 0)

/-- A requested amount is either in transition or waits for its decryption. -/
theorem requestStrategyAmount_ok {id : Nat}
    (h : requestStrategyAmount fhe E cfg id w = .ok w') :
    id ≠ 0 ∧ id = w.vault.activeStrategyEpochId ∧ (w.vault.strategyEpochs id).state = .aging ∧
    w.now ≥ (w.vault.strategyEpochs id).openedAt + cfg.minimumStrategyEpochAge ∧
    (((w.vault.strategyEpochs id).kind = .deploy ∧ ∃ amount x requestId gs,
      amount = excess fhe w.vault ∧
      E.unwrap w.ext cfg.vault cfg.vault cfg.vault amount = some (x, requestId) ∧
      w' = { w with
        ext := x
        vault := (Vault.setEpoch { w.vault with
            liquidPrincipal := fhe.sub64 w.vault.liquidPrincipal amount
            principalInTransition := fhe.add64 w.vault.principalInTransition amount } id
          { w.vault.strategyEpochs id with
            amount := amount
            unwrapRequestId := requestId
            state := .unwrapPending }).grant gs }) ∨
    ((w.vault.strategyEpochs id).kind ≠ .deploy ∧ ∃ deficit gs, w' = { w with
      vault := (w.vault.setEpoch id { w.vault.strategyEpochs id with
        amount := deficit, state := .amountPending }).grant gs })) := by
  simp only [requestStrategyAmount, seq_eq_ok, revertIf_eq_ok] at h
  obtain ⟨epoch, hepoch, _, hage, h⟩ := h
  obtain ⟨_, h1, h2, h3, rfl⟩ := Vault.strategyEpoch_ok hepoch
  refine ⟨h1, h2, h3, not_lt.1 hage, ?_⟩
  split_ifs at h with hkind
  · simp only [requestDeployment, seq_eq_ok, revertIf_eq_ok, orRevert_eq_ok, Prod.exists,
      pure_eq_ok, ok_eq_ok] at h
    obtain ⟨_, _, x, requestId, hunwrap, rfl⟩ := h
    exact .inl ⟨hkind, _, x, requestId, _, rfl, hunwrap, rfl⟩
  · simp only [requestReplenishment, seq_eq_ok, revertIf_eq_ok, pure_eq_ok, ok_eq_ok] at h
    obtain ⟨_, _, rfl⟩ := h
    exact .inr ⟨hkind, _, _, rfl⟩

theorem finalizeStrategyDeployment_ok {id n : Nat} {proof : DecryptionProof}
    (h : finalizeStrategyDeployment fhe E cfg id n proof w = .ok w') :
    id = w.vault.activeStrategyEpochId ∧ (w.vault.strategyEpochs id).state = .unwrapPending ∧
    n ≤ MAX_POOL_BASE_UNITS ∧ ∃ x₁ x₂ a x₃ x₄ gs,
      E.finalizeUnwrap w.ext (w.vault.strategyEpochs id).unwrapRequestId n proof = some x₁ ∧
      E.forceApprove x₁ cfg.vault cfg.adapter (n * E.rate) = some x₂ ∧
      w.adapter.deployAssets E cfg cfg.vault (n * E.rate) x₂ = .ok (a, x₃, n * E.rate) ∧
      E.forceApprove x₃ cfg.vault cfg.adapter 0 = some x₄ ∧
      w' = { w with
        adapter := a
        ext := x₄
        vault := (Vault.setEpoch { w.vault with
            principalInTransition :=
              fhe.sub64 w.vault.principalInTransition (fhe.asEuint64 n)
            deployedPrincipal := fhe.add64 w.vault.deployedPrincipal (fhe.asEuint64 n) } id
          { w.vault.strategyEpochs id with
            publicAmount := n, state := .completed }).grant gs } := by
  simp only [finalizeStrategyDeployment, seq_eq_ok, revertIf_eq_ok, orRevert_eq_ok,
    checkedMul_eq_ok, Prod.exists, pure_eq_ok, ok_eq_ok] at h
  obtain ⟨epoch, hepoch, _, hguard, x₁, h1, _, ⟨_, rfl⟩, x₂, h2, a, x₃, deployed, h3, x₄, h4, _,
    hdeployed, rfl⟩ := h
  obtain ⟨_, _, hid, hstate, rfl⟩ := Vault.strategyEpoch_ok hepoch
  rw [not_or, not_lt] at hguard
  rw [not_not.1 hdeployed] at h3
  exact ⟨hid, hstate, hguard.2, x₁, x₂, a, x₃, x₄, _, h1, h2, h3, h4, rfl⟩

theorem finalizeStrategyReplenishment_ok {id : Nat} {c : Cleartexts} {proof : DecryptionProof}
    (h : finalizeStrategyReplenishment fhe E cfg id c proof w = .ok w') :
    id = w.vault.activeStrategyEpochId ∧ (w.vault.strategyEpochs id).state = .amountPending ∧
    ∃ n ≤ MAX_POOL_BASE_UNITS, n * E.rate ≤ w.adapter.deployedPrincipalBasis ∧
      ∃ a x₁ x₂ wrapped gs,
      w.adapter.withdrawPrincipal E cfg cfg.vault (n * E.rate) w.ext =
        .ok (a, x₁, n * E.rate) ∧
      Vault.wrapUnderlying E cfg (n * E.rate) x₁ = .ok (x₂, wrapped) ∧
      w' = { w with
        adapter := a
        ext := x₂
        vault := (Vault.setEpoch { w.vault with
            deployedPrincipal :=
              fhe.sub64 w.vault.deployedPrincipal (fhe.asEuint64 (uint64 n))
            liquidPrincipal := fhe.add64 w.vault.liquidPrincipal wrapped } id
          { w.vault.strategyEpochs id with
            publicAmount := uint64 n, state := .completed }).grant gs } := by
  simp only [finalizeStrategyReplenishment, seq_eq_ok, revertIf_eq_ok, checkedMul_eq_ok,
    Prod.exists, pure_eq_ok, ok_eq_ok] at h
  obtain ⟨epoch, hepoch, _, _, n, _, _, hn, _, ⟨_, rfl⟩, _, hbasis, _, _, a, x₁, r, h1, _, hr, x₂,
    wrapped, h2, rfl⟩ := h
  obtain ⟨_, _, hid, hstate, rfl⟩ := Vault.strategyEpoch_ok hepoch
  rw [not_not.1 hr] at h1 h2
  exact ⟨hid, hstate, n, not_lt.1 hn, not_lt.1 hbasis, a, x₁, x₂, wrapped, _, h1, h2, rfl⟩

theorem harvestStrategyYield_ok {harvested : Nat}
    (h : harvestStrategyYield fhe E cfg w = .ok (w', harvested)) :
    ∃ a x₁ recovered, w.adapter.harvest E cfg cfg.vault w.ext = .ok (a, x₁, recovered) ∧
      ((recovered = 0 ∧ w' = { w with adapter := a, ext := x₁ }) ∨
        ∃ x₂ wrapped v, Vault.wrapUnderlying E cfg recovered x₁ = .ok (x₂, wrapped) ∧
          realizeSurplus fhe cfg wrapped (uint64 (recovered / E.rate)) w.vault = .ok v ∧
          w' = { w with adapter := a, ext := x₂, vault := v }) := by
  simp only [harvestStrategyYield, seq_eq_ok, Prod.exists] at h
  obtain ⟨_, _, a, x₁, recovered, h1, h⟩ := h
  refine ⟨a, x₁, recovered, h1, ?_⟩
  by_cases hr : recovered = 0
  · rw [if_pos hr] at h
    simp only [pure_eq_ok, ok_eq_ok, Prod.mk.injEq] at h
    exact .inl ⟨hr, h.1.symm⟩
  · rw [if_neg hr] at h
    simp only [seq_eq_ok, Prod.exists, pure_eq_ok, ok_eq_ok, Prod.mk.injEq] at h
    obtain ⟨_, _, x₂, wrapped, h2, v, h3, rfl, _⟩ := h
    exact .inr ⟨x₂, wrapped, v, h2, h3, rfl⟩

theorem setStrategyPaused_ok {paused : Bool}
    (h : setStrategyPaused cfg sender paused w = .ok w') :
    w' = { w with adapter := { w.adapter with paused := paused } } := by
  simp only [setStrategyPaused, Adapter.setPaused, seq_eq_ok, revertIf_eq_ok, pure_eq_ok,
    ok_eq_ok] at h
  obtain ⟨_, _, _, _, a, ⟨_, _, rfl⟩, rfl⟩ := h
  rfl

/-- The vault with `units` of principal back from an unwound strategy. -/
def unwoundPrincipal (fhe : Fhe E64 E128 EBool) (units : Nat) (v : Vault E64 E128 EBool) :
    Vault E64 E128 EBool :=
  { v with liquidPrincipal := fhe.add64 v.liquidPrincipal (fhe.asEuint64 (uint64 units)) }

theorem emergencyUnwindStrategy_ok (h : emergencyUnwindStrategy fhe E cfg w = .ok w') :
    ∃ a x₁ recovered shortfall x₂ v gs,
      w.adapter.emergencyExit E cfg cfg.vault w.ext = .ok (a, x₁, recovered, shortfall) ∧
      recovered % E.rate = 0 ∧ shortfall % E.rate = 0 ∧
      ((recovered = 0 ∧ x₂ = x₁) ∨
        ∃ wrapped, Vault.wrapUnderlying E cfg recovered x₁ = .ok (x₂, wrapped)) ∧
      ((recovered - min recovered w.adapter.deployedPrincipalBasis = 0 ∧
          v = unwoundPrincipal fhe
            (min recovered w.adapter.deployedPrincipalBasis / E.rate) w.vault) ∨
        (recovered - min recovered w.adapter.deployedPrincipalBasis ≠ 0 ∧
          realizeSurplus fhe cfg
            (fhe.asEuint64 (uint64
              ((recovered - min recovered w.adapter.deployedPrincipalBasis) / E.rate)))
            (uint64 ((recovered - min recovered w.adapter.deployedPrincipalBasis) / E.rate))
            (unwoundPrincipal fhe
              (min recovered w.adapter.deployedPrincipalBasis / E.rate) w.vault) = .ok v)) ∧
      w' = { w with
        adapter := a
        ext := x₂
        vault := Vault.grant { v with
          deployedPrincipal := fhe.asEuint64 0
          strategyShortfall := fhe.add64 v.strategyShortfall
            (fhe.asEuint64 (uint64 (shortfall / E.rate))) } gs } := by
  simp only [emergencyUnwindStrategy, seq_eq_ok, revertIf_eq_ok, Prod.exists, pure_eq_ok,
    ok_eq_ok] at h
  obtain ⟨_, _, _, _, a, x₁, recovered, shortfall, h1, _, h2, x₂, h3, v, h4, rfl⟩ := h
  rw [not_or, not_not, not_not] at h2
  have hmin : (if recovered < w.adapter.deployedPrincipalBasis then recovered
      else w.adapter.deployedPrincipalBasis) = min recovered w.adapter.deployedPrincipalBasis := by
    split_ifs <;> omega
  rw [hmin] at h4
  refine ⟨a, x₁, recovered, shortfall, x₂, v, _, h1, h2.1, h2.2, ?_, ?_, rfl⟩
  · split_ifs at h3 with hr
    · rw [map_eq_ok] at h3
      obtain ⟨⟨x, wrapped⟩, h3, rfl⟩ := h3
      exact .inr ⟨wrapped, h3⟩
    · rw [ok_eq_ok] at h3
      exact .inl ⟨not_not.1 hr, h3.symm⟩
  · split_ifs at h4 with hs
    · exact .inr ⟨hs, h4⟩
    · rw [ok_eq_ok] at h4
      exact .inl ⟨not_not.1 hs, h4.symm⟩

theorem cancelAgingStrategyEpoch_ok {id : Nat} (h : cancelAgingStrategyEpoch cfg id w = .ok w') :
    id = w.vault.activeStrategyEpochId ∧ (w.vault.strategyEpochs id).state = .aging ∧
      w' = { w with
        vault := w.vault.setEpoch id
          { w.vault.strategyEpochs id with state := .cancelled } } := by
  simp only [cancelAgingStrategyEpoch, seq_eq_ok, pure_eq_ok, ok_eq_ok] at h
  obtain ⟨epoch, hepoch, rfl⟩ := h
  obtain ⟨_, _, hid, hstate, rfl⟩ := Vault.strategyEpoch_ok hepoch
  exact ⟨hid, hstate, rfl⟩

theorem cancelExpiredStrategyEpoch_ok {id n : Nat} {proof : DecryptionProof}
    (h : cancelExpiredStrategyEpoch fhe E cfg id n proof w = .ok w') :
    id = w.vault.activeStrategyEpochId ∧
    (((w.vault.strategyEpochs id).state = .amountPending ∧
      w' = { w with
        vault := w.vault.setEpoch id
          { w.vault.strategyEpochs id with state := .cancelled } }) ∨
    ((w.vault.strategyEpochs id).state = .unwrapPending ∧ n ≤ MAX_POOL_BASE_UNITS ∧
      ∃ x₁ x₂ wrapped gs,
      E.finalizeUnwrap w.ext (w.vault.strategyEpochs id).unwrapRequestId n proof = some x₁ ∧
      Vault.wrapUnderlying E cfg (n * E.rate) x₁ = .ok (x₂, wrapped) ∧
      w' = { w with
        ext := x₂
        vault := (Vault.setEpoch { w.vault with
            principalInTransition :=
              fhe.sub64 w.vault.principalInTransition (fhe.asEuint64 n)
            liquidPrincipal := fhe.add64 w.vault.liquidPrincipal wrapped } id
          { w.vault.strategyEpochs id with state := .cancelled }).grant gs })) := by
  simp only [cancelExpiredStrategyEpoch, seq_eq_ok, revertIf_eq_ok] at h
  obtain ⟨_, _, _, hid, _, _, h⟩ := h
  rw [not_or, not_not] at hid
  refine ⟨hid.2, ?_⟩
  split_ifs at h with hstate
  · rw [pure_eq_ok, ok_eq_ok] at h
    exact .inl ⟨hstate, h.symm⟩
  · simp only [seq_eq_ok, revertIf_eq_ok, orRevert_eq_ok, checkedMul_eq_ok, Prod.exists,
      pure_eq_ok, ok_eq_ok] at h
    obtain ⟨_, hguard, x₁, h1, _, ⟨_, rfl⟩, x₂, wrapped, h2, rfl⟩ := h
    rw [not_or, not_not, not_lt] at hguard
    exact .inr ⟨hguard.1, hguard.2, x₁, x₂, wrapped, _, h1, h2, rfl⟩

end World

end Leopold
