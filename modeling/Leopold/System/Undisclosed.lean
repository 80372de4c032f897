import Leopold.Vault.Terms
import Leopold.System.Disclosure

/-!
# What nobody may decrypt

Over terms the forms of the slots tell what an account may decrypt from what it may not.  In every
run no account is ever granted, and nobody makes public, a candidate, a ticket, who won, a running
sum of the selection, the prize a round holds back or a total of the ledger, as far as these are
not trivial encryptions.
-/

namespace Leopold

open Lib

/-- A handle that was never written, or that encrypts a number everybody knows. -/
inductive Handle.Constant : Handle Term64 Term128 TermBool → Prop
  | null64 : Constant (.uint64 .null)
  | null128 : Constant (.uint128 .null)
  | nullBool : Constant (.bool .null)
  | trivial64 (n : Nat) : Constant (.uint64 (.trivial n))
  | trivial128 (n : Nat) : Constant (.uint128 (.trivial n))

/-- The forms of the handles that a step discloses. -/
inductive Handle.Disclosed : Handle Term64 Term128 TermBool → Prop
  | own {t : Term64} (h : t.Own) : Disclosed (.uint64 t)
  | sent (id : Nat) : Disclosed (.uint64 (.fresh id))
  | amount {t : Term64} (h : t.Amount) : Disclosed (.uint64 t)
  | weight (a b : Term128) : Disclosed (.uint128 (.sub a b))
  | aggregate {t : Term128} (h : t.Accrual) : Disclosed (.uint128 t)
  | validity {t : TermBool} (h : t.Validity) : Disclosed (.bool t)
  | reconciled {t : TermBool} (h : t.Reconciled) : Disclosed (.bool t)

/-- The handle of an entry of the access list. -/
def Grant.handle {E64 E128 EBool : Type} : Grant E64 E128 EBool → Handle E64 E128 EBool
  | .allow h _ => h
  | .makePubliclyDecryptable h => h

/-- The handles of the vault that are for nobody else. -/
inductive Vault.Secret (v : Vault Term64 Term128 TermBool) :
    Handle Term64 Term128 TermBool → Prop
  | winnerPredicate (r : Nat) (a : Address) : Secret v (.bool (v.winnerPredicate r a))
  | candidate (r : Nat) : Secret v (.uint128 (v.rounds r).candidate)
  | acceptedTicket (r : Nat) : Secret v (.uint128 (v.rounds r).acceptedTicket)
  | selectionCumulative (r : Nat) : Secret v (.uint128 (v.rounds r).selectionCumulative)
  | encryptedWinnerCount (r : Nat) : Secret v (.uint64 (v.rounds r).encryptedWinnerCount)
  | roundPrize (r : Nat) : Secret v (.uint64 (v.rounds r).reservedPrize)
  | totalPrincipal : Secret v (.uint64 v.totalPrincipal)
  | liquidPrincipal : Secret v (.uint64 v.liquidPrincipal)
  | deployedPrincipal : Secret v (.uint64 v.deployedPrincipal)
  | principalInTransition : Secret v (.uint64 v.principalInTransition)
  | strategyShortfall : Secret v (.uint64 v.strategyShortfall)
  | liquidPrizeAssets : Secret v (.uint64 v.liquidPrizeAssets)
  | realizedSurplus : Secret v (.uint64 v.realizedSurplus)
  | reservedPrize : Secret v (.uint64 v.reservedPrize)
  | winningsLiability : Secret v (.uint64 v.winningsLiability)
  | uncommittedYield : Secret v (.uint64 v.uncommittedYield)

/-! ## Forms that only meet in constants -/

theorem Term64.Total.constant {t : Term64} (ht : t.Total)
    (h : Handle.Disclosed (.uint64 t)) : Handle.Constant (.uint64 t) := by
  obtain ⟨n, hbase⟩ := ht
  cases h with
  | own h =>
    rw [h.base_eq] at hbase
    cases hbase
  | sent id => cases hbase
  | amount h =>
    cases h with
    | null => exact .null64
    | select => cases hbase

theorem Term64.Count.constant {t : Term64} (ht : t.Count)
    (h : Handle.Disclosed (.uint64 t)) : Handle.Constant (.uint64 t) := by
  cases ht with
  | null => exact .null64
  | zero => exact .trivial64 _
  | add =>
    cases h with
    | own h => cases h
    | amount h => cases h

theorem Term64.Reserve.constant {t : Term64} (ht : t.Reserve)
    (h : Handle.Disclosed (.uint64 t)) : Handle.Constant (.uint64 t) := by
  cases ht with
  | null => exact .null64
  | zero => exact .trivial64 _
  | pooled hpool =>
    obtain ⟨n, hbase⟩ := hpool
    cases h with
    | own h => cases h <;> cases hbase
    | amount h => cases h
  | awarded =>
    cases h with
    | own h => cases h
    | amount h => cases h

theorem Term128.Random.constant {t : Term128} (ht : t.Random)
    (h : Handle.Disclosed (.uint128 t)) : Handle.Constant (.uint128 t) := by
  cases ht with
  | null => exact .null128
  | random =>
    cases h with
    | aggregate h => cases h

theorem Term128.Ticket.constant {t : Term128} (ht : t.Ticket)
    (h : Handle.Disclosed (.uint128 t)) : Handle.Constant (.uint128 t) := by
  cases ht with
  | null => exact .null128
  | rem =>
    cases h with
    | aggregate h => cases h

theorem Term128.Interval.constant {t : Term128} (ht : t.Interval)
    (h : Handle.Disclosed (.uint128 t)) : Handle.Constant (.uint128 t) := by
  cases ht with
  | null => exact .null128
  | zero => exact .trivial128 _
  | add =>
    cases h with
    | aggregate h => cases h

theorem TermBool.Winner.constant {t : TermBool} (ht : t.Winner)
    (h : Handle.Disclosed (.bool t)) : Handle.Constant (.bool t) := by
  cases ht with
  | null => exact .nullBool
  | and =>
    cases h with
    | validity h => cases h
    | reconciled h => cases h

theorem Vault.Shaped.secret_constant {v : Vault Term64 Term128 TermBool} (hv : v.Shaped)
    {h : Handle Term64 Term128 TermBool} (hs : v.Secret h) (hd : h.Disclosed) : h.Constant := by
  cases hs with
  | winnerPredicate r a => exact (hv.winnerPredicate r a).constant hd
  | candidate r => exact (hv.rounds r).candidate.constant hd
  | acceptedTicket r => exact (hv.rounds r).acceptedTicket.constant hd
  | selectionCumulative r => exact (hv.rounds r).selectionCumulative.constant hd
  | encryptedWinnerCount r => exact (hv.rounds r).encryptedWinnerCount.constant hd
  | roundPrize r => exact (hv.rounds r).reservedPrize.constant hd
  | totalPrincipal => exact hv.totalPrincipal.constant hd
  | liquidPrincipal => exact hv.liquidPrincipal.constant hd
  | deployedPrincipal => exact hv.deployedPrincipal.constant hd
  | principalInTransition => exact hv.principalInTransition.constant hd
  | strategyShortfall => exact hv.strategyShortfall.constant hd
  | liquidPrizeAssets => exact hv.liquidPrizeAssets.constant hd
  | realizedSurplus => exact hv.realizedSurplus.constant hd
  | reservedPrize => exact hv.reservedPrize.constant hd
  | winningsLiability => exact hv.winningsLiability.constant hd
  | uncommittedYield => exact hv.uncommittedYield.constant hd

/-! ## Runs over terms -/

variable {X : Type} {checks : Checks} {E : Externals Term64 TermBool X} {cfg : Config}

/-- A transfer answers a handle of its own. -/
def Externals.Fresh (E : Externals Term64 TermBool X) : Prop :=
  ∀ x sender recipient amount x' sent,
    E.confidentialTransfer x sender recipient amount = some (x', sent) → ∃ id, sent = .fresh id

/-- A candidate is what the coprocessor draws. -/
def Label.Drawn : Label Term64 Term128 TermBool X → Prop
  | .call _ (.generateRandomCandidate _ candidate) => ∃ id, candidate = .random id
  | _ => True

namespace World

variable {w w' : World Term64 Term128 TermBool X} {sender : Address}

theorem settle_shaped {r passes : Nat} (hv : w.vault.Shaped)
    (h : settle cfg r passes w = .ok w') : w'.vault.Shaped := by
  obtain ⟨e, _, rfl⟩ := settle_ok h
  exact hv.setRound { hv.rounds r with }

theorem processSelection_shaped {r n : Nat} (hv : w.vault.Shaped)
    (h : processSelection (Fhe.terms checks) cfg sender r n w = .ok w') : w'.vault.Shaped := by
  obtain ⟨_, v₁, processed, v₂, e, hstart, _, hloop, _, rfl⟩ := processSelection_ok h
  have hlist := (Vault.forParticipants_ok (fun _ _ _ hselect =>
    congrFun (Vault.selectParticipant_participants hselect) r) hloop).2
  have hv₂ : v₂.Shaped := Vault.forList_invariant (I := fun _ u => u.Shaped)
    (fun _ _ _ _ hu hselect => hu.selectParticipant hselect) hlist (hv.startSelection hstart)
  refine Vault.Shaped.requestReconciliation (hv₂.setRound ?_)
  exact { hv₂.rounds r with }

theorem processAllocation_shaped {r n : Nat} (hv : w.vault.Shaped)
    (hshape : w.vault.Shape (Fhe.terms checks))
    (h : processAllocation (Fhe.terms checks) cfg sender r n w = .ok w') : w'.vault.Shaped := by
  obtain ⟨_, _, v₁, v₂, processed, v₃, e, hstart, hacc, _, hloop, _, rfl⟩ := processAllocation_ok h
  obtain ⟨hstate, rfl⟩ := Vault.startAllocation_ok hstart
  have hactive : r ≠ w.vault.activeRoundId := by
    rintro rfl
    rw [hshape.active_open] at hstate
    exact hstate.elim nofun nofun
  have hv₂ : v₂.Shaped := by
    refine Vault.Shaped.accrueEligible (hv.setRound (r := r) ?_) hacc
    exact { hv.rounds r with }
  have hactive₂ : v₂.activeRoundId = w.vault.activeRoundId := by
    obtain ⟨_, gs, rfl⟩ := Vault.accrueEligible_ok hacc
    rfl
  have hlist := (Vault.forParticipants_ok (fun _ _ _ hallocate =>
    congrFun (Vault.allocateParticipant_participants hallocate) r) hloop).2
  obtain ⟨hv₃, -⟩ : v₃.Shaped ∧ v₃.activeRoundId = w.vault.activeRoundId := by
    refine Vault.forList_invariant
      (I := fun _ u => u.Shaped ∧ u.activeRoundId = w.vault.activeRoundId) ?_ hlist
      ⟨hv₂, hactive₂⟩
    rintro a _ u u' ⟨hu, hua⟩ hallocate
    have hr : r ≠ u.activeRoundId := hua ▸ hactive
    refine ⟨hu.allocateParticipant hr hallocate, ?_⟩
    obtain ⟨_, _, _, _, _, gs, _, _, _, _, rfl⟩ := Vault.allocateParticipant_ok hr hallocate
    exact hua
  rw [Vault.finishAllocation_eq]
  refine Vault.Shaped.setRound (hv₃.setRound ?_) ?_
  · exact { hv₃.rounds r with }
  · rw [Vault.setRound_rounds_self]
    exact { hv₃.rounds r with }

theorem requestStrategyAmount_shaped {id : Nat} (hv : w.vault.Shaped)
    (h : requestStrategyAmount (Fhe.terms checks) E cfg id w = .ok w') : w'.vault.Shaped := by
  simp only [requestStrategyAmount, seq_eq_ok] at h
  obtain ⟨epoch, hepoch, _, _, h⟩ := h
  obtain ⟨_, _, _, _, rfl⟩ := Vault.strategyEpoch_ok hepoch
  split_ifs at h
  · simp only [requestDeployment, seq_eq_ok, Prod.exists, pure_eq_ok, ok_eq_ok] at h
    obtain ⟨_, _, x, requestId, _, rfl⟩ := h
    refine Vault.Shaped.grant (Vault.Shaped.setEpoch ?_ .select) _
    exact { hv with
      liquidPrincipal := hv.liquidPrincipal.sub
      principalInTransition := hv.principalInTransition.add }
  · simp only [requestReplenishment, seq_eq_ok, pure_eq_ok, ok_eq_ok] at h
    obtain ⟨_, _, rfl⟩ := h
    exact Vault.Shaped.grant (hv.setEpoch .select) _

theorem emergencyUnwindStrategy_shaped (hv : w.vault.Shaped)
    (h : emergencyUnwindStrategy (Fhe.terms checks) E cfg w = .ok w') : w'.vault.Shaped := by
  obtain ⟨a, x₁, recovered, shortfall, x₂, v, gs, _, _, _, _, hsurplus, rfl⟩ :=
    emergencyUnwindStrategy_ok h
  have hunwound : ∀ units,
      (unwoundPrincipal (Fhe.terms checks) units w.vault).Shaped := fun units =>
    { hv with liquidPrincipal := hv.liquidPrincipal.add }
  have hv' : v.Shaped := by
    rcases hsurplus with ⟨_, rfl⟩ | ⟨_, hsurplus⟩
    · exact hunwound _
    · exact (hunwound _).realizeSurplus hsurplus
  exact { hv' with
    deployedPrincipal := Term64.total_trivial 0
    strategyShortfall := hv'.strategyShortfall.add }

/-- **Step lemma.**  A call keeps the forms. -/
theorem exec_shaped (hE : E.Fresh) (hB : w.Bonded (Fhe.terms checks) cfg)
    (hsender : cfg.External sender) {c : Call Term64 Term128 TermBool} (hv : w.vault.Shaped)
    (hdrawn : (Label.call sender c : Label _ _ _ X).Drawn)
    (h : exec (Fhe.terms checks) E cfg sender w c = .ok w') : w'.vault.Shaped := by
  cases c with
  | registerForRound value r =>
    obtain ⟨e, v, _, hop, rfl⟩ := registerForRound_ok h
    exact hv.acceptBondRegistration hop
  | deposit n d =>
    obtain ⟨x₁, sent, v, accepted, x₂, _, hop, _, rfl⟩ := deposit_ok h
    exact hv.onConfidentialTransferReceived hop
  | withdraw input =>
    obtain ⟨⟨w₁, sent⟩, hop, rfl⟩ := map_eq_ok.1 h
    obtain ⟨_, x, v, hsent, hrecord, rfl⟩ := withdraw_ok hop
    obtain ⟨id, rfl⟩ := hE _ _ _ _ _ _ hsent
    exact hv.recordWithdrawal hrecord
  | contributeSponsor r units =>
    obtain ⟨_, x₁, x₂, wrapped, gs, _, _, rfl⟩ := contributeSponsor_ok h
    exact { hv with liquidPrizeAssets := hv.liquidPrizeAssets.add }
  | openStrategyEpoch kind =>
    obtain ⟨⟨w₁, id⟩, hop, rfl⟩ := map_eq_ok.1 h
    simp only [openStrategyEpoch, seq_eq_ok, pure_eq_ok, ok_eq_ok, Prod.mk.injEq] at hop
    obtain ⟨_, _, _, _, _, _, _, _, epochId, _, _, _, rfl, _⟩ := hop
    exact { hv with strategyEpochs := hv.update_epoch (hv.strategyEpochs epochId) }
  | requestStrategyAmount id => exact requestStrategyAmount_shaped hv h
  | finalizeStrategyDeployment id n proof =>
    obtain ⟨_, _, _, x₁, x₂, a, x₃, x₄, gs, _, _, _, _, rfl⟩ := finalizeStrategyDeployment_ok h
    refine Vault.Shaped.grant (Vault.Shaped.setEpoch ?_ ?_) gs
    · exact { hv with
        principalInTransition := hv.principalInTransition.sub
        deployedPrincipal := hv.deployedPrincipal.add }
    · exact hv.strategyEpochs id
  | finalizeStrategyReplenishment id c proof =>
    obtain ⟨_, _, n, _, _, a, x₁, x₂, wrapped, gs, _, _, rfl⟩ :=
      finalizeStrategyReplenishment_ok h
    refine Vault.Shaped.grant (Vault.Shaped.setEpoch ?_ ?_) gs
    · exact { hv with
        deployedPrincipal := hv.deployedPrincipal.sub
        liquidPrincipal := hv.liquidPrincipal.add }
    · exact hv.strategyEpochs id
  | harvestStrategyYield =>
    obtain ⟨⟨w₁, n⟩, hop, rfl⟩ := map_eq_ok.1 h
    obtain ⟨a, x₁, recovered, _, hcases⟩ := harvestStrategyYield_ok hop
    rcases hcases with ⟨_, rfl⟩ | ⟨x₂, wrapped, v, _, hsurplus, rfl⟩
    · exact hv
    · exact hv.realizeSurplus hsurplus
  | setStrategyPaused paused =>
    obtain rfl := setStrategyPaused_ok h
    exact hv
  | emergencyUnwindStrategy => exact emergencyUnwindStrategy_shaped hv h
  | cancelAgingStrategyEpoch id =>
    obtain ⟨_, _, rfl⟩ := cancelAgingStrategyEpoch_ok h
    exact hv.setEpoch (hv.strategyEpochs id)
  | cancelExpiredStrategyEpoch id n proof =>
    obtain ⟨_, hcases⟩ := cancelExpiredStrategyEpoch_ok h
    rcases hcases with ⟨_, rfl⟩ | ⟨_, _, x₁, x₂, wrapped, gs, _, _, rfl⟩
    · exact hv.setEpoch (hv.strategyEpochs id)
    · refine Vault.Shaped.grant (Vault.Shaped.setEpoch ?_ ?_) gs
      · exact { hv with
          principalInTransition := hv.principalInTransition.sub
          liquidPrincipal := hv.liquidPrincipal.add }
      · exact hv.strategyEpochs id
  | closeRound =>
    obtain ⟨v, hop, rfl⟩ := onVault_eq_ok.1 h
    exact hv.closeRound hop
  | finalizeAggregate r c proof =>
    obtain ⟨v, hop, rfl⟩ := onVault_eq_ok.1 h
    exact hv.finalizeAggregate hop
  | generateRandomCandidate r candidate =>
    obtain ⟨v, hop, rfl⟩ := onVault_eq_ok.1 h
    obtain ⟨id, rfl⟩ := hdrawn
    exact hv.generateRandomCandidate hop
  | finalizeCandidateValidity r c proof =>
    obtain ⟨v, hop, rfl⟩ := onVault_eq_ok.1 h
    exact hv.finalizeCandidateValidity hop
  | processSelection r n => exact processSelection_shaped hv h
  | finalizeSelectionReconciliation r c proof =>
    obtain ⟨v, hop, rfl⟩ := onVault_eq_ok.1 h
    exact hv.finalizeSelectionReconciliation hop
  | processAllocation r n => exact processAllocation_shaped hv hB.shape h
  | finalizeSettlement r => exact settle_shaped hv (finalizeSettlement_ok h).2
  | recoverFailedReconciliation r =>
    obtain ⟨_, v, hroll, hsettle⟩ := recoverFailedReconciliation_ok h
    exact settle_shaped (hv.rollPrizeForward hroll) hsettle
  | settleEmptyRound r =>
    obtain ⟨_, v, hroll, hsettle⟩ := settleEmptyRound_ok h
    exact settle_shaped (hv.rollPrizeForward hroll) hsettle
  | withdrawWinnings input =>
    obtain ⟨⟨w₁, sent⟩, hop, rfl⟩ := map_eq_ok.1 h
    obtain ⟨x, gs, hsent, rfl⟩ := withdrawWinnings_ok hop
    obtain ⟨id, rfl⟩ := hE _ _ _ _ _ _ hsent
    exact { hv with
      winnings := Vault.Shaped.own_update (.paid (hv.winnings sender)) hv.winnings
      winningsLiability := hv.winningsLiability.sub
      liquidPrizeAssets := hv.liquidPrizeAssets.sub }
  | materializeMyRoundWeight r =>
    simp only [exec, onVault_eq_ok, map_eq_ok, Prod.exists] at h
    obtain ⟨_, ⟨v, weight, hop, rfl⟩, rfl⟩ := h
    obtain ⟨gs, rfl⟩ := Vault.materializeMyRoundWeight_ok hop
    exact hv.grant gs
  | setAutoSavePreference preference =>
    simp only [exec, onVault_eq_ok, ok_eq_ok] at h
    obtain ⟨_, rfl, rfl⟩ := h
    exact { hv with }
  | claimBondRefund r accepts =>
    obtain ⟨e, _, rfl⟩ := onEscrow_eq_ok.1 h
    exact hv
  | withdrawSettlementRewards accepts =>
    obtain ⟨e, _, rfl⟩ := onEscrow_eq_ok.1 h
    exact hv
  | setPaused paused =>
    obtain ⟨a, _, rfl⟩ := map_eq_ok.1 h
    exact hv
  | acceptBondRegistration | onConfidentialTransferReceived | creditProgress | finalizeRound
  | deployAssets | withdrawPrincipal | harvest | emergencyExit =>
    exact absurd h (exec_reserved hsender rfl)

theorem construct_shaped {nativeBalance now : Nat} {x : X}
    (h : construct (Fhe.terms checks) E cfg nativeBalance now x = .ok w) : w.vault.Shaped := by
  obtain ⟨_, _, _, gs, rfl⟩ := construct_ok h
  have hunset : (Round.unset (Fhe.terms checks)).Shaped := by
    constructor <;> constructor
  have hzero : (Term64.trivial 0).Total := Term64.total_trivial 0
  refine Vault.Shaped.grant (Vault.Shaped.setRound ?_ ?_) gs
  · exact {
      rounds := fun _ => hunset
      principal := fun _ => .null
      winnings := fun _ => .null
      winnerPredicate := fun _ _ => .null
      totalPrincipal := hzero
      liquidPrincipal := hzero
      deployedPrincipal := hzero
      principalInTransition := hzero
      strategyShortfall := hzero
      liquidPrizeAssets := hzero
      realizedSurplus := hzero
      reservedPrize := hzero
      winningsLiability := hzero
      uncommittedYield := hzero
      strategyEpochs := fun _ => .null }
  · exact { hunset with eligibleCumulative := .zero }

/-- What a step discloses has one of the forms. -/
theorem Discloses.disclosed (hE : E.Fresh) {l : Label Term64 Term128 TermBool X}
    {g : Grant Term64 Term128 TermBool} (hv : w'.vault.Shaped)
    (h : Discloses (Fhe.terms checks) E cfg w w' l g) : g.handle.Disclosed := by
  cases h with
  | deposit => exact .own (hv.principal _)
  | withdraw => exact .own (hv.principal _)
  | withdrawWinnings => exact .own (hv.winnings _)
  | sentPrincipal hop =>
    obtain ⟨_, x, v, hsent, _, _⟩ := withdraw_ok hop
    obtain ⟨id, rfl⟩ := hE _ _ _ _ _ _ hsent
    exact .sent id
  | sentWinnings hop =>
    obtain ⟨x, gs, hsent, _⟩ := withdrawWinnings_ok hop
    obtain ⟨id, rfl⟩ := hE _ _ _ _ _ _ hsent
    exact .sent id
  | allocation _ hg =>
    rcases List.mem_cons.1 hg with rfl | hg
    · exact .own (hv.principal _)
    · rw [List.mem_singleton.1 hg]
      exact .own (hv.winnings _)
  | weight hop =>
    simp only [Vault.materializeMyRoundWeight, seq_eq_ok, pure_eq_ok, ok_eq_ok,
      Prod.mk.injEq] at hop
    obtain ⟨_, _, _, _, _, _, _, _, _, rfl⟩ := hop
    exact .weight _ _
  | aggregateTwab => exact .aggregate (hv.rounds _).aggregateTwab
  | candidateValid => exact .validity (hv.rounds _).candidateValid
  | reconciliationValid => exact .reconciled (hv.rounds _).reconciliationValid
  | amount _ => exact .amount (hv.strategyEpochs _)

/-- Over terms, what others than the vault may decrypt has one of the forms. -/
theorem reachable_shaped (hE : E.Fresh)
    (h : (system (Fhe.terms checks) E cfg).ReachableVia (fun _ l _ => l.Drawn) w) :
    w.vault.Shaped ∧ ∀ g ∈ w.vault.acl, (∃ h, g = cfg.allowThis h) ∨ g.handle.Disclosed := by
  refine TransitionSystem.ReachableVia.invariant (I := fun w => w.vault.Shaped ∧
    ∀ g ∈ w.vault.acl, (∃ h, g = cfg.allowThis h) ∨ g.handle.Disclosed) ?_ ?_ h
  · rintro w ⟨nativeBalance, now, x, hinit⟩
    exact ⟨construct_shaped hinit, fun g hg => .inl ((construct_grants hinit).1 g hg)⟩
  · rintro w l w' hw ⟨hv, hacl⟩ hstep hdrawn
    have hB := reachable_bonded hw.reachable
    have hv' : w'.vault.Shaped := by
      cases l with
      | call sender c => exact exec_shaped hE hB hstep.1 hv hdrawn hstep.2
      | tick now =>
        obtain ⟨_, rfl⟩ := hstep
        exact hv
      | thirdParty ext =>
        obtain ⟨_, rfl⟩ := hstep
        exact hv
      | forceNative amount =>
        obtain rfl := hstep
        exact hv
    obtain ⟨gs, hgrants, hdiscloses⟩ := step_grants hB hstep
    refine ⟨hv', fun g hg => ?_⟩
    rcases hgrants.added g hg with hg | hthis | hg
    · exact hacl g hg
    · exact .inl hthis
    · exact .inr ((hdiscloses g hg).disclosed hE hv')

/-- **Secrets stay with the vault.**  A handle that is a secret in some reachable state is in no
reachable state granted to another account or made public, unless it is a constant. -/
theorem secrets_undisclosed (hE : E.Fresh)
    (h : (system (Fhe.terms checks) E cfg).ReachableVia (fun _ l _ => l.Drawn) w)
    (h' : (system (Fhe.terms checks) E cfg).ReachableVia (fun _ l _ => l.Drawn) w')
    {g : Grant Term64 Term128 TermBool} (hg : g ∈ w'.vault.acl)
    (hsecret : w.vault.Secret g.handle) (hconstant : ¬ g.handle.Constant) :
    ∃ handle, g = cfg.allowThis handle :=
  ((reachable_shaped hE h').2 g hg).resolve_right fun hd =>
    hconstant ((reachable_shaped hE h).1.secret_constant hsecret hd)

end World

namespace Demo

/-- The third-party contracts over terms: every amount that is sent has a handle of its own. -/
def termExternals : Externals Term64 TermBool Nat where
  underlying := token
  rate := 1
  decimals := 6
  confidentialTransfer x _ _ _ := some (x + 1, .fresh x)
  transferAndCallSend x _ _ _ := some (x + 1, .fresh x)
  transferAndCallRefund x _ _ _ _ := some x
  wrap x _ _ _ := some (x + 1, .fresh x)
  unwrap x _ _ _ _ := some (x + 1, x)
  finalizeUnwrap x _ _ _ := some x
  underlyingBalanceOf _ _ := 0
  safeTransferFrom x _ _ _ _ := some x
  safeTransfer x _ _ _ := some x
  forceApprove x _ _ _ := some x
  cometBaseToken _ := token
  cometBaseScale _ := 1000000
  cometIsSupplyPaused _ := false
  cometIsWithdrawPaused _ := false
  cometBalanceOf _ _ := 0
  cometUserPrincipal _ _ := 0
  cometSupply x _ _ := some x
  cometWithdraw x _ _ := some x
  thirdParty x x' := x ≤ x'

theorem termExternals_fresh : termExternals.Fresh := by
  intro x sender recipient amount x' sent h
  cases h
  exact ⟨x, rfl⟩

/-- The checks accept a proof that is signed. -/
def termChecks : Checks where
  isInitialized _ := true
  checkSignatures64 _ _ proof := proof.signed
  checkSignatures128 _ _ proof := proof.signed
  checkSignaturesBool _ _ proof := proof.signed

/-- The deployment, and then alice saves. -/
def termSavings : Except Revert (World Term64 Term128 TermBool Nat) := do
  let w ← World.construct (Fhe.terms termChecks) termExternals Demo.cfg 0 100 0
  exec (Fhe.terms termChecks) termExternals Demo.cfg alice w (.deposit .null 0)

end Demo

namespace World

/-- After alice saved, the total is a sum, which only the vault may use. -/
theorem secrets_undisclosed_savings : ∃ w, Demo.termSavings = .ok w ∧ ∃ t u : Term64,
    w.vault.totalPrincipal = .add t u ∧
    .allow (.uint64 (.add t u)) Demo.cfg.vault ∈ w.vault.acl ∧
    ∃ handle : Handle Term64 Term128 TermBool,
      .allow (.uint64 (.add t u)) Demo.cfg.vault = Demo.cfg.allowThis handle := by
  have hends : ∃ w : World Term64 Term128 TermBool Nat, Demo.termSavings = .ok w ∧
      ∃ t u : Term64, w.vault.totalPrincipal = .add t u := ⟨_, rfl, _, _, rfl⟩
  obtain ⟨w, hw, t, u, htotal⟩ := hends
  obtain ⟨w₀, hw₀, hdeposit⟩ := seq_eq_ok.1 hw
  have hreach : (system (Fhe.terms Demo.termChecks) Demo.termExternals Demo.cfg).ReachableVia
      (fun _ l _ => l.Drawn) w :=
    .step (l := .call Demo.alice _) (.init ⟨0, 100, 0, hw₀⟩) ⟨by decide, hdeposit⟩ trivial
  have hg : .allow (.uint64 (.add t u)) Demo.cfg.vault ∈ w.vault.acl := by
    rcases (storage_covered hreach.reachable).totalPrincipal with hunset | hg
    · rw [htotal] at hunset
      cases hunset
    · rwa [htotal] at hg
  have hsecret : w.vault.Secret (.uint64 (.add t u)) := htotal ▸ .totalPrincipal
  obtain ⟨handle, hhandle⟩ :=
    secrets_undisclosed Demo.termExternals_fresh hreach hreach hg hsecret fun h => by cases h
  exact ⟨w, hw, t, u, htotal, hg, handle, hhandle⟩

end World

end Leopold
