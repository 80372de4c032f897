import Leopold.System.Books

/-!
# Strategy epochs in a run

Only the strategy calls touch the epochs and the principal in transition, and they keep the two in
step.  With the ledger this gives the invariant of the books for every reachable state.
-/

namespace Leopold

open Lib

section

variable {E64 E128 EBool X : Type} {fhe : Fhe E64 E128 EBool} {E : Externals E64 EBool X}
  {cfg : Config}

/-- The two vaults agree on the strategy epochs. -/
structure Vault.SameEpochs (v v' : Vault E64 E128 EBool) : Prop where
  strategyEpochs : v'.strategyEpochs = v.strategyEpochs
  activeStrategyEpochId : v'.activeStrategyEpochId = v.activeStrategyEpochId
  principalInTransition : v'.principalInTransition = v.principalInTransition

namespace Vault

variable {v v' v'' : Vault E64 E128 EBool}

theorem SameEpochs.refl (v : Vault E64 E128 EBool) : v.SameEpochs v := ⟨rfl, rfl, rfl⟩

theorem SameEpochs.trans (h : v.SameEpochs v') (h' : v'.SameEpochs v'') : v.SameEpochs v'' :=
  ⟨h'.1.trans h.1, h'.2.trans h.2, h'.3.trans h.3⟩

theorem checkpointUser_sameEpochs {a : Address} {b : E64} {t : Nat}
    (h : checkpointUser fhe cfg a b t v = .ok v') : v.SameEpochs v' := by
  obtain ⟨obs, cum, gs, _, rfl⟩ := checkpointUser_ok h
  exact ⟨rfl, rfl, rfl⟩

theorem accrueEligible_sameEpochs {r t : Nat} (h : accrueEligible fhe cfg r t v = .ok v') :
    v.SameEpochs v' := by
  obtain ⟨_, gs, rfl⟩ := accrueEligible_ok h
  exact ⟨rfl, rfl, rfl⟩

theorem changeEligible_sameEpochs {a : Address} {f : E64 → E64} {t : Nat}
    (h : changeEligible fhe cfg a f t v = .ok v') : v.SameEpochs v' := by
  rcases changeEligible_ok h with ⟨_, rfl⟩ | ⟨_, _, gs, rfl⟩ <;> exact ⟨rfl, rfl, rfl⟩

theorem rollPrizeForward_sameEpochs {r : Nat} (h : rollPrizeForward fhe cfg r v = .ok v') :
    v.SameEpochs v' := by
  obtain ⟨_, gs, rfl⟩ := rollPrizeForward_ok h
  exact ⟨rfl, rfl, rfl⟩

theorem realizeSurplus_sameEpochs {s : E64} {n : Nat}
    (h : World.realizeSurplus fhe cfg s n v = .ok v') : v.SameEpochs v' := by
  obtain ⟨_, gs, rfl⟩ := realizeSurplus_ok h
  exact ⟨rfl, rfl, rfl⟩

theorem bookAllocation_sameEpochs {r : Nat} {a : Address} {prize autoSaved : E64}
    (v : Vault E64 E128 EBool) : v.SameEpochs (v.bookAllocation fhe cfg r a prize autoSaved) := by
  by_cases hs : v.eligibilityStart v.activeRoundId a ≠ 0 <;>
    refine ⟨?_, ?_, ?_⟩ <;> simp only [bookAllocation, grant, setRound] <;>
    first | rw [if_pos hs] | rw [if_neg hs]

theorem allocateParticipant_sameEpochs {r now : Nat} {a : Address}
    (h : allocateParticipant fhe cfg r now a v = .ok v') : v.SameEpochs v' := by
  simp only [allocateParticipant, seq_eq_ok, pure_eq_ok, ok_eq_ok] at h
  obtain ⟨_, _, v₁, hcheck, rfl⟩ := h
  exact (checkpointUser_sameEpochs hcheck).trans (bookAllocation_sameEpochs _)

theorem selectParticipant_sameEpochs {r : Nat} {a : Address}
    (h : selectParticipant fhe cfg r a v = .ok v') : v.SameEpochs v' := by
  obtain ⟨weight, gs, _, rfl⟩ := selectParticipant_ok h
  exact ⟨rfl, rfl, rfl⟩

theorem forParticipants_sameEpochs {r cursor count : Nat}
    {body : Address → Vault E64 E128 EBool → Except Revert (Vault E64 E128 EBool)}
    (hparticipants : ∀ a u u', body a u = .ok u' → u'.roundParticipants = u.roundParticipants)
    (hbody : ∀ a u u', body a u = .ok u' → u.SameEpochs u')
    (h : forParticipants body r cursor count v = .ok v') : v.SameEpochs v' :=
  forList_invariant (I := fun _ u => v.SameEpochs u)
    (fun a _ u u' hu hstep => hu.trans (hbody a u u' hstep))
    (forParticipants_ok (fun a u u' hu => congrFun (hparticipants a u u' hu) r) h).2 (.refl v)

end Vault

/-- The calls that touch a strategy epoch. -/
def Call.movesEpoch : Call E64 E128 EBool → Bool
  | .openStrategyEpoch .. | .requestStrategyAmount .. | .finalizeStrategyDeployment ..
  | .finalizeStrategyReplenishment .. | .cancelAgingStrategyEpoch ..
  | .cancelExpiredStrategyEpoch .. => true
  | _ => false

variable {w w' : World E64 E128 EBool X} {sender : Address}

theorem World.processSelection_sameEpochs {r n : Nat}
    (h : World.processSelection fhe cfg sender r n w = .ok w') : w.vault.SameEpochs w'.vault := by
  obtain ⟨_, v₁, processed, v₂, e, hstart, _, hloop, _, rfl⟩ := World.processSelection_ok h
  have h₁ : w.vault.SameEpochs v₁ := by
    rcases Vault.startSelection_ok hstart with ⟨_, gs, rfl⟩ | ⟨_, rfl⟩
    · exact ⟨rfl, rfl, rfl⟩
    · exact .refl _
  have h₂ := Vault.forParticipants_sameEpochs
    (fun a u u' hu => Vault.selectParticipant_participants hu)
    (fun a u u' hu => Vault.selectParticipant_sameEpochs hu) hloop
  refine (h₁.trans h₂).trans ?_
  rcases Vault.requestReconciliation_eq fhe cfg r (v₂.setRound r
      { v₂.rounds r with selectionCursor := (v₁.rounds r).selectionCursor + processed })
    with ⟨_, gs, heq⟩ | ⟨_, heq⟩
  · simp only [heq]
    exact ⟨rfl, rfl, rfl⟩
  · simp only [heq]
    exact ⟨rfl, rfl, rfl⟩

theorem World.processAllocation_sameEpochs {r n : Nat}
    (h : World.processAllocation fhe cfg sender r n w = .ok w') :
    w.vault.SameEpochs w'.vault := by
  obtain ⟨_, _, v₁, v₂, processed, v₃, e, hstart, hacc, _, hloop, _, rfl⟩ :=
    World.processAllocation_ok h
  obtain ⟨_, rfl⟩ := Vault.startAllocation_ok hstart
  have h₂ : w.vault.SameEpochs v₂ := by
    refine Vault.SameEpochs.trans ?_ (Vault.accrueEligible_sameEpochs hacc)
    exact ⟨rfl, rfl, rfl⟩
  have h₃ := Vault.forParticipants_sameEpochs
    (fun a u u' hu => Vault.allocateParticipant_participants hu)
    (fun a u u' hu => Vault.allocateParticipant_sameEpochs hu) hloop
  simp only [Vault.finishAllocation_eq]
  exact (h₂.trans h₃).trans ⟨rfl, rfl, rfl⟩

theorem World.settle_sameEpochs {r passes : Nat} (h : World.settle cfg r passes w = .ok w') :
    w.vault.SameEpochs w'.vault := by
  obtain ⟨e, _, rfl⟩ := World.settle_ok h
  exact ⟨rfl, rfl, rfl⟩

/-- The calls outside the strategy leave the epochs alone. -/
theorem exec_sameEpochs (hsender : cfg.External sender) {c : Call E64 E128 EBool}
    (hc : c.movesEpoch = false) (h : exec fhe E cfg sender w c = .ok w') :
    w.vault.SameEpochs w'.vault := by
  have hres : c.reserved = false := by
    by_contra hne
    exact exec_reserved hsender (Bool.not_eq_false _ ▸ hne) h
  cases c with
  | registerForRound value r =>
    obtain ⟨e, v, _, hv, rfl⟩ := World.registerForRound_ok h
    obtain ⟨_, _, _, _, _, _, gs, rfl⟩ := Vault.acceptBondRegistration_ok hv
    exact ⟨rfl, rfl, rfl⟩
  | deposit n d =>
    obtain ⟨x₁, sent, v, accepted, x₂, _, hv, _, rfl⟩ := World.deposit_ok h
    obtain ⟨_, _, _, v₁, v₂, gs, hcheck, hchange, rfl⟩ :=
      Vault.onConfidentialTransferReceived_ok hv
    obtain ⟨h1, h2, h3⟩ := Vault.changeEligible_sameEpochs hchange
    exact (Vault.checkpointUser_sameEpochs hcheck).trans ⟨h1, h2, h3⟩
  | withdraw input =>
    obtain ⟨⟨w₁, sent⟩, hop, rfl⟩ := map_eq_ok.1 h
    obtain ⟨_, x, v, _, hv, rfl⟩ := World.withdraw_ok hop
    obtain ⟨v₁, v₂, gs, hcheck, hchange, rfl⟩ := Vault.recordWithdrawal_ok hv
    obtain ⟨h1, h2, h3⟩ := Vault.changeEligible_sameEpochs hchange
    exact (Vault.checkpointUser_sameEpochs hcheck).trans ⟨h1, h2, h3⟩
  | contributeSponsor r units =>
    obtain ⟨_, x₁, x₂, wrapped, gs, _, _, rfl⟩ := World.contributeSponsor_ok h
    exact ⟨rfl, rfl, rfl⟩
  | harvestStrategyYield =>
    obtain ⟨⟨w₁, n⟩, hop, rfl⟩ := map_eq_ok.1 h
    obtain ⟨a, x₁, recovered, _, ⟨_, rfl⟩ | ⟨x₂, wrapped, v, _, hv, rfl⟩⟩ :=
      World.harvestStrategyYield_ok hop
    · exact .refl _
    · exact Vault.realizeSurplus_sameEpochs hv
  | setStrategyPaused paused =>
    obtain rfl := World.setStrategyPaused_ok h
    exact .refl _
  | emergencyUnwindStrategy =>
    obtain ⟨a, x₁, recovered, shortfall, x₂, v, gs, _, _, _, _, hv, rfl⟩ :=
      World.emergencyUnwindStrategy_ok h
    rcases hv with ⟨_, rfl⟩ | ⟨_, hv⟩
    · exact ⟨rfl, rfl, rfl⟩
    · obtain ⟨h1, h2, h3⟩ := Vault.realizeSurplus_sameEpochs hv
      exact ⟨h1, h2, h3⟩
  | closeRound =>
    obtain ⟨v, hv, rfl⟩ := World.onVault_eq_ok.1 h
    obtain ⟨_, _, _, _, gs, rfl⟩ := Vault.closeRound_ok hv
    exact ⟨rfl, rfl, rfl⟩
  | finalizeAggregate r cl proof =>
    obtain ⟨v, hv, rfl⟩ := World.onVault_eq_ok.1 h
    obtain ⟨_, n, _, _, rfl⟩ := Vault.finalizeAggregate_ok hv
    exact ⟨rfl, rfl, rfl⟩
  | generateRandomCandidate r candidate =>
    obtain ⟨v, hv, rfl⟩ := World.onVault_eq_ok.1 h
    obtain ⟨_, _, _, round, attempts, gs, rfl, _⟩ := Vault.generateRandomCandidate_ok hv
    exact ⟨rfl, rfl, rfl⟩
  | finalizeCandidateValidity r cl proof =>
    obtain ⟨v, hv, rfl⟩ := World.onVault_eq_ok.1 h
    obtain ⟨_, valid, gs, _, rfl⟩ := Vault.finalizeCandidateValidity_ok hv
    exact ⟨rfl, rfl, rfl⟩
  | processSelection r n => exact World.processSelection_sameEpochs h
  | finalizeSelectionReconciliation r cl proof =>
    obtain ⟨v, hv, rfl⟩ := World.onVault_eq_ok.1 h
    obtain ⟨_, valid, _, rfl⟩ := Vault.finalizeSelectionReconciliation_ok hv
    exact ⟨rfl, rfl, rfl⟩
  | processAllocation r n => exact World.processAllocation_sameEpochs h
  | finalizeSettlement r => exact World.settle_sameEpochs (World.finalizeSettlement_ok h).2
  | recoverFailedReconciliation r =>
    obtain ⟨_, v, hroll, hsettle⟩ := World.recoverFailedReconciliation_ok h
    exact (Vault.rollPrizeForward_sameEpochs hroll).trans (World.settle_sameEpochs hsettle)
  | settleEmptyRound r =>
    obtain ⟨_, v, hroll, hsettle⟩ := World.settleEmptyRound_ok h
    exact (Vault.rollPrizeForward_sameEpochs hroll).trans (World.settle_sameEpochs hsettle)
  | withdrawWinnings input =>
    obtain ⟨⟨w₁, sent⟩, hop, rfl⟩ := map_eq_ok.1 h
    obtain ⟨x, gs, _, rfl⟩ := World.withdrawWinnings_ok hop
    exact ⟨rfl, rfl, rfl⟩
  | materializeMyRoundWeight r =>
    simp only [exec, World.onVault_eq_ok, map_eq_ok, Prod.exists] at h
    obtain ⟨v, ⟨v', weight, hv, rfl⟩, rfl⟩ := h
    obtain ⟨gs, rfl⟩ := Vault.materializeMyRoundWeight_ok hv
    exact ⟨rfl, rfl, rfl⟩
  | setAutoSavePreference preference =>
    simp only [exec, World.onVault_eq_ok, ok_eq_ok] at h
    obtain ⟨v, rfl, rfl⟩ := h
    exact ⟨rfl, rfl, rfl⟩
  | claimBondRefund r accepts =>
    obtain ⟨e, _, rfl⟩ := World.onEscrow_eq_ok.1 h
    exact .refl _
  | withdrawSettlementRewards accepts =>
    obtain ⟨e, _, rfl⟩ := World.onEscrow_eq_ok.1 h
    exact .refl _
  | setPaused paused =>
    obtain ⟨a, _, rfl⟩ := map_eq_ok.1 h
    exact .refl _
  | acceptBondRegistration | onConfidentialTransferReceived | creditProgress | finalizeRound
  | deployAssets | withdrawPrincipal | harvest | emergencyExit => cases hres
  | _ => cases hc

/-! ## What a strategy call does to the active epoch -/

/-- The active epoch becomes `epoch` and the principal in transition `transit`. -/
structure Vault.EpochTo (epoch : StrategyEpoch E64) (transit : E64)
    (v v' : Vault E64 E128 EBool) : Prop where
  strategyEpochs : v'.strategyEpochs =
    Function.update v.strategyEpochs v'.activeStrategyEpochId epoch
  principalInTransition : v'.principalInTransition = transit

theorem World.requestStrategyAmount_epochTo {id : Nat}
    (h : requestStrategyAmount fhe E cfg id w = .ok w') :
    w.activeEpoch.state = .aging ∧
      ((∃ amount req, amount = excess fhe w.vault ∧
          E.unwrap w.ext cfg.vault cfg.vault cfg.vault amount = some (w'.ext, req) ∧
          w.vault.EpochTo { w.activeEpoch with
              amount := amount
              unwrapRequestId := req
              state := .unwrapPending }
            (fhe.add64 w.vault.principalInTransition amount) w'.vault) ∨
        ∃ deficit, w.vault.EpochTo { w.activeEpoch with
            amount := deficit, state := .amountPending } w.vault.principalInTransition w'.vault) := by
  obtain ⟨_, rfl, hstate, _, hbranch⟩ := requestStrategyAmount_ok h
  refine ⟨hstate, ?_⟩
  rcases hbranch with ⟨_, n, x, req, gs, hn, hunwrap, rfl⟩ | ⟨_, d, gs, rfl⟩
  · exact .inl ⟨n, req, hn, hunwrap, rfl, rfl⟩
  · exact .inr ⟨d, rfl, rfl⟩

theorem World.finalizeStrategyDeployment_epochTo {id n : Nat} {proof : DecryptionProof}
    (h : finalizeStrategyDeployment fhe E cfg id n proof w = .ok w') :
    w.activeEpoch.state = .unwrapPending ∧ n ≤ MAX_POOL_BASE_UNITS ∧
      (∃ x, E.finalizeUnwrap w.ext w.activeEpoch.unwrapRequestId n proof = some x) ∧
      w.vault.EpochTo { w.activeEpoch with publicAmount := n, state := .completed }
        (fhe.sub64 w.vault.principalInTransition (fhe.asEuint64 n)) w'.vault := by
  obtain ⟨rfl, hstate, hn, x₁, x₂, a, x₃, x₄, gs, h1, h2, h3, h4, rfl⟩ :=
    finalizeStrategyDeployment_ok h
  exact ⟨hstate, hn, ⟨x₁, h1⟩, rfl, rfl⟩

theorem World.cancelExpiredStrategyEpoch_epochTo {id n : Nat} {proof : DecryptionProof}
    (h : cancelExpiredStrategyEpoch fhe E cfg id n proof w = .ok w') :
    (w.activeEpoch.state = .amountPending ∧ w.vault.EpochTo { w.activeEpoch with
        state := .cancelled } w.vault.principalInTransition w'.vault) ∨
      (w.activeEpoch.state = .unwrapPending ∧ n ≤ MAX_POOL_BASE_UNITS ∧
        (∃ x, E.finalizeUnwrap w.ext w.activeEpoch.unwrapRequestId n proof = some x) ∧
        w.vault.EpochTo { w.activeEpoch with state := .cancelled }
          (fhe.sub64 w.vault.principalInTransition (fhe.asEuint64 n)) w'.vault) := by
  obtain ⟨rfl, ⟨hstate, rfl⟩ | ⟨hstate, hn, x₁, x₂, wrapped, gs, h1, h2, rfl⟩⟩ :=
    cancelExpiredStrategyEpoch_ok h
  · exact .inl ⟨hstate, rfl, rfl⟩
  · exact .inr ⟨hstate, hn, ⟨x₁, h1⟩, rfl, rfl⟩

/-- The other strategy calls leave the principal in transition alone. -/
theorem World.openStrategyEpoch_epochTo {kind : StrategyEpochKind} {id : Nat}
    (h : openStrategyEpoch cfg kind w = .ok (w', id)) :
    w.activeEpoch.state ≠ .unwrapPending ∧ ∃ epoch, epoch.state = .aging ∧
      w.vault.EpochTo epoch w.vault.principalInTransition w'.vault := by
  obtain ⟨hstate, _, _, _, epoch, _, haging, _, rfl⟩ := openStrategyEpoch_ok h
  refine ⟨?_, epoch, haging, rfl, rfl⟩
  rw [activeEpoch]
  rcases hstate with h | h | h <;> rw [h] <;> nofun

theorem World.finalizeStrategyReplenishment_epochTo {id : Nat} {cl : Cleartexts}
    {proof : DecryptionProof} (h : finalizeStrategyReplenishment fhe E cfg id cl proof w = .ok w') :
    w.activeEpoch.state = .amountPending ∧ ∃ epoch, epoch.state = .completed ∧
      w.vault.EpochTo epoch w.vault.principalInTransition w'.vault := by
  obtain ⟨rfl, hstate, n, hn, hle, a, x₁, x₂, wrapped, gs, h1, h2, rfl⟩ :=
    finalizeStrategyReplenishment_ok h
  exact ⟨hstate, _, rfl, rfl, rfl⟩

theorem World.cancelAgingStrategyEpoch_epochTo {id : Nat}
    (h : cancelAgingStrategyEpoch cfg id w = .ok w') :
    w.activeEpoch.state = .aging ∧ ∃ epoch, epoch.state = .cancelled ∧
      w.vault.EpochTo epoch w.vault.principalInTransition w'.vault := by
  obtain ⟨rfl, hstate, rfl⟩ := cancelAgingStrategyEpoch_ok h
  exact ⟨hstate, _, rfl, rfl, rfl⟩

end

/-! ## The invariant of the books over runs -/

section

variable {X : Type} {E : Externals Nat Bool X} {O : Observables X} {cfg : Config}
  (hE : E.Lawful O cfg.vault cfg.asset) (hcfg : Deployed E cfg) {w w' : PlainWorld X}
  {sender : Address}

namespace World

theorem EpochSound.congr (h : w.EpochSound O cfg) (hv : w.vault.SameEpochs w'.vault)
    (hreq : w.activeEpoch.state = .unwrapPending →
      O.unwrapRequest w'.ext w.activeEpoch.unwrapRequestId =
          O.unwrapRequest w.ext w.activeEpoch.unwrapRequestId ∨
        O.unwrapRequest w'.ext w.activeEpoch.unwrapRequestId = .finalized) :
    w'.EpochSound O cfg := by
  have hepoch : w'.activeEpoch = w.activeEpoch := by
    rw [activeEpoch, activeEpoch, hv.strategyEpochs, hv.activeStrategyEpochId]
  constructor
  · rw [hepoch, hv.principalInTransition]
    exact h.in_transit
  · rw [hepoch]
    intro hstate
    rcases hreq hstate with heq | hfin
    · rw [heq]
      exact h.requested hstate
    · exact .inr hfin

include hE in
/-- The calls outside the strategy leave the unwrap requests alone. -/
theorem exec_sameRequests (hsender : cfg.External sender) {c : Call Nat Nat Bool}
    (hc : c.movesEpoch = false) (h : exec Fhe.plain E cfg sender w c = .ok w') :
    O.unwrapRequest w'.ext = O.unwrapRequest w.ext := by
  have hres : c.reserved = false := by
    by_contra hne
    exact exec_reserved hsender (Bool.not_eq_false _ ▸ hne) h
  cases c with
  | registerForRound value r =>
    obtain ⟨e, v, _, hv, rfl⟩ := World.registerForRound_ok h
    rfl
  | deposit n d =>
    obtain ⟨x₁, sent, v, accepted, x₂, hsend, _, hrefund, rfl⟩ := World.deposit_ok h
    obtain ⟨hb, hr⟩ := hE.send hsend hsender.ne_vault
    have hlt := hE.balance_lt x₁ cfg.vault
    exact (hE.refund hrefund hsender.ne_vault (by omega)).2.trans hr
  | withdraw input =>
    obtain ⟨⟨w₁, sent⟩, hop, rfl⟩ := map_eq_ok.1 h
    obtain ⟨_, x, v, hsend, _, rfl⟩ := World.withdraw_ok hop
    exact (hE.transfer hsend hsender.ne_vault).2.2
  | contributeSponsor r units =>
    obtain ⟨_, x₁, x₂, wrapped, gs, hpay, hwrap, rfl⟩ := World.contributeSponsor_ok h
    exact (Vault.wrapUnderlying_lawful hE hwrap).2.2.trans (hE.safeTransferFrom hpay).2
  | harvestStrategyYield =>
    obtain ⟨⟨w₁, n⟩, hop, rfl⟩ := map_eq_ok.1 h
    obtain ⟨a, x₁, recovered, hh, ⟨_, rfl⟩ | ⟨x₂, wrapped, v, hwrap, _, rfl⟩⟩ :=
      World.harvestStrategyYield_ok hop
    · exact (Adapter.harvest_ok hE hh).2.2
    · exact (Vault.wrapUnderlying_lawful hE hwrap).2.2.trans (Adapter.harvest_ok hE hh).2.2
  | setStrategyPaused paused =>
    obtain rfl := World.setStrategyPaused_ok h
    rfl
  | emergencyUnwindStrategy =>
    obtain ⟨a, x₁, recovered, shortfall, x₂, v, gs, hexit, _, _, hwrap, _, rfl⟩ :=
      World.emergencyUnwindStrategy_ok h
    have hr₁ := (Adapter.emergencyExit_ok hE hexit).2.2.2
    rcases hwrap with ⟨_, rfl⟩ | ⟨wrapped, hwrap⟩
    · exact hr₁
    · exact (Vault.wrapUnderlying_lawful hE hwrap).2.2.trans hr₁
  | closeRound | finalizeAggregate | generateRandomCandidate | finalizeCandidateValidity
  | finalizeSelectionReconciliation =>
    obtain ⟨v, _, rfl⟩ := World.onVault_eq_ok.1 h
    rfl
  | materializeMyRoundWeight r =>
    simp only [exec, World.onVault_eq_ok, map_eq_ok, Prod.exists] at h
    obtain ⟨v, _, rfl⟩ := h
    rfl
  | setAutoSavePreference preference =>
    simp only [exec, World.onVault_eq_ok, ok_eq_ok] at h
    obtain ⟨v, _, rfl⟩ := h
    rfl
  | processSelection r n =>
    obtain ⟨_, v₁, processed, v₂, e, _, _, _, _, rfl⟩ := World.processSelection_ok h
    rfl
  | processAllocation r n =>
    obtain ⟨_, _, v₁, v₂, processed, v₃, e, _, _, _, _, _, rfl⟩ := World.processAllocation_ok h
    rfl
  | finalizeSettlement r =>
    obtain ⟨e, _, rfl⟩ := World.settle_ok (World.finalizeSettlement_ok h).2
    rfl
  | recoverFailedReconciliation r =>
    obtain ⟨_, v, _, hsettle⟩ := World.recoverFailedReconciliation_ok h
    obtain ⟨e, _, rfl⟩ := World.settle_ok hsettle
    rfl
  | settleEmptyRound r =>
    obtain ⟨_, v, _, hsettle⟩ := World.settleEmptyRound_ok h
    obtain ⟨e, _, rfl⟩ := World.settle_ok hsettle
    rfl
  | withdrawWinnings input =>
    obtain ⟨⟨w₁, sent⟩, hop, rfl⟩ := map_eq_ok.1 h
    obtain ⟨x, gs, hsend, rfl⟩ := World.withdrawWinnings_ok hop
    exact (hE.transfer hsend hsender.ne_vault).2.2
  | claimBondRefund | withdrawSettlementRewards =>
    obtain ⟨e, _, rfl⟩ := World.onEscrow_eq_ok.1 h
    rfl
  | setPaused paused =>
    obtain ⟨a, _, rfl⟩ := map_eq_ok.1 h
    rfl
  | acceptBondRegistration | onConfidentialTransferReceived | creditProgress | finalizeRound
  | deployAssets | withdrawPrincipal | harvest | emergencyExit => cases hres
  | _ => cases hc

/-- With nothing in transition, an epoch that does not wait for an unwrap is sound. -/
theorem EpochSound.of_epochTo {epoch : StrategyEpoch Nat} {transit : Nat}
    (h : w.vault.EpochTo epoch transit w'.vault) (ht : transit = 0)
    (hstate : epoch.state ≠ .unwrapPending) : w'.EpochSound O cfg := by
  have hepoch : w'.activeEpoch = epoch := by
    rw [activeEpoch, h.strategyEpochs, Function.update_self]
  constructor
  · rw [hepoch, if_neg hstate, h.principalInTransition, ht]
  · rw [hepoch]
    exact fun h => absurd h hstate

/-- The active epoch has its amount burned at the wrapper. -/
theorem EpochSound.of_request {epoch : StrategyEpoch Nat} {transit : Nat}
    (h : w.vault.EpochTo epoch transit w'.vault) (hstate : epoch.state = .unwrapPending)
    (ht : transit = epoch.amount)
    (hreq : O.unwrapRequest w'.ext epoch.unwrapRequestId = .outstanding cfg.vault epoch.amount) :
    w'.EpochSound O cfg := by
  have hepoch : w'.activeEpoch = epoch := by
    rw [activeEpoch, h.strategyEpochs, Function.update_self]
  constructor
  · rw [hepoch, if_pos hstate, h.principalInTransition, ht]
  · rw [hepoch]
    exact fun _ => .inl hreq

/-- An epoch that does not wait for an unwrap has nothing in transition. -/
theorem EpochSound.transit_zero (h : w.EpochSound O cfg)
    (hstate : w.activeEpoch.state ≠ .unwrapPending) : w.vault.principalInTransition = 0 := by
  rw [h.in_transit, if_neg hstate]

/-- What leaves transition in full leaves nothing behind. -/
theorem transit_cleared {n : Nat} (hn : n ≤ MAX_POOL_BASE_UNITS) {transit : Nat}
    (h : n = transit) : Fhe.plain.sub64 transit (Fhe.plain.asEuint64 n) = 0 := by
  have hcap := Vault.cap_lt
  subst h
  rw [Fhe.plain_asEuint64 (by omega), Fhe.plain_sub64 (by omega) (Nat.le_refl n), Nat.sub_self]

include hE in
/-- Every call keeps the active epoch and the principal in transition in step. -/
theorem exec_epochSound (hsender : cfg.External sender) (hB : w.Booked O cfg E)
    {c : Call Nat Nat Bool} (h : exec Fhe.plain E cfg sender w c = .ok w') :
    w'.EpochSound O cfg := by
  have hpending : ∀ {s : StrategyEpochState}, w.activeEpoch.state = s → s ≠ .unwrapPending →
      w.vault.principalInTransition = 0 :=
    fun hs hne => hB.epoch.transit_zero (hs ▸ hne)
  by_cases hmoves : c.movesEpoch = false
  · refine hB.epoch.congr (exec_sameEpochs hsender hmoves h) fun _ => .inl ?_
    rw [exec_sameRequests hE hsender hmoves h]
  cases c with
  | openStrategyEpoch kind =>
    obtain ⟨⟨w₁, id⟩, hop, rfl⟩ := map_eq_ok.1 h
    obtain ⟨hstate, epoch, haging, hto⟩ := openStrategyEpoch_epochTo hop
    exact .of_epochTo hto (hB.epoch.transit_zero hstate) (by rw [haging]; nofun)
  | requestStrategyAmount id =>
    obtain ⟨hstate, ⟨n, req, hn, hunwrap, hto⟩ | ⟨d, hto⟩⟩ := requestStrategyAmount_epochTo h
    · have hle : n ≤ w.vault.liquidPrincipal := hn ▸ excess_le hB.kept
      obtain ⟨hreq, _⟩ := unwrap_liquid hE hB.kept hle hunwrap
      have htotal : w.vault.totalPrincipal ≤ MAX_POOL_BASE_UNITS := hB.kept.total_le
      have hsplit : w.vault.totalPrincipal = w.vault.liquidPrincipal +
        w.vault.deployedPrincipal + w.vault.principalInTransition + w.vault.strategyShortfall :=
          hB.kept.total_split
      have hcap := Vault.cap_lt
      refine .of_request hto rfl ?_ hreq
      rw [hpending hstate nofun, Fhe.plain_add64 (by omega), Nat.zero_add]
    · exact .of_epochTo hto (hpending hstate nofun) nofun
  | finalizeStrategyDeployment id n proof =>
    obtain ⟨hstate, hn, ⟨x, hx⟩, hto⟩ := finalizeStrategyDeployment_epochTo h
    obtain ⟨htransit, _⟩ := finalizeUnwrap_inTransit hE hB.epoch hstate hx
    exact .of_epochTo hto (transit_cleared hn htransit) nofun
  | finalizeStrategyReplenishment id cl proof =>
    obtain ⟨hstate, epoch, hdone, hto⟩ := finalizeStrategyReplenishment_epochTo h
    exact .of_epochTo hto (hpending hstate nofun) (by rw [hdone]; nofun)
  | cancelAgingStrategyEpoch id =>
    obtain ⟨hstate, epoch, hdone, hto⟩ := cancelAgingStrategyEpoch_epochTo h
    exact .of_epochTo hto (hpending hstate nofun) (by rw [hdone]; nofun)
  | cancelExpiredStrategyEpoch id n proof =>
    rcases cancelExpiredStrategyEpoch_epochTo h with ⟨hstate, hto⟩ | ⟨hstate, hn, ⟨x, hx⟩, hto⟩
    · exact .of_epochTo hto (hpending hstate nofun) nofun
    · obtain ⟨htransit, _⟩ := finalizeUnwrap_inTransit hE hB.epoch hstate hx
      exact .of_epochTo hto (transit_cleared hn htransit) nofun
  | _ => exact absurd rfl hmoves

end World

end

end Leopold
