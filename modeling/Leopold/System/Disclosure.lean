import Leopold.Vault.Rights
import Leopold.System.Bonds
import Leopold.System.Scripts

/-!
# Who may decrypt what

Entries of the access list are never taken back, so a handle that is granted to the wrong account
stays readable for it.  `Discloses` lists what a step may let others than the vault decrypt; every
entry that a run leaves behind is one of these.  The other way round the vault may use every
handle of its storage, and an account can always decrypt its own balance and winnings.
-/

namespace Leopold

open Lib

variable {E64 E128 EBool X : Type} {fhe : Fhe E64 E128 EBool} {E : Externals E64 EBool X}
  {cfg : Config}

namespace World

variable (fhe E cfg) in
/-- The rights that a step from `w` to `w'` may give to others than the vault. -/
inductive Discloses (w w' : World E64 E128 EBool X) :
    Label E64 E128 EBool X → Grant E64 E128 EBool → Prop
  /-- Its new balance to the sender of a deposit or of a withdrawal. -/
  | deposit {sender : Address} {amount : E64} {dataLength : Nat} :
      Discloses w w' (.call sender (.deposit amount dataLength))
        (.allow (.uint64 (w'.vault.principal sender)) sender)
  | withdraw {sender : Address} {input : EncryptedInput E64} :
      Discloses w w' (.call sender (.withdraw input))
        (.allow (.uint64 (w'.vault.principal sender)) sender)
  | withdrawWinnings {sender : Address} {input : EncryptedInput E64} :
      Discloses w w' (.call sender (.withdrawWinnings input))
        (.allow (.uint64 (w'.vault.winnings sender)) sender)
  /-- What it was sent to the sender of a withdrawal. -/
  | sentPrincipal {sender : Address} {input : EncryptedInput E64} {sent : E64}
      (h : withdraw fhe E cfg sender input w = .ok (w', sent)) :
      Discloses w w' (.call sender (.withdraw input)) (.allow (.uint64 sent) sender)
  | sentWinnings {sender : Address} {input : EncryptedInput E64} {sent : E64}
      (h : withdrawWinnings fhe E cfg sender input w = .ok (w', sent)) :
      Discloses w w' (.call sender (.withdrawWinnings input)) (.allow (.uint64 sent) sender)
  /-- Its new balance and winnings to a participant, whether it won or not. -/
  | allocation {sender a : Address} {roundId maxParticipants : Nat} {g : Grant E64 E128 EBool}
      (ha : a ∈ w.vault.roundParticipants roundId) (hg : g ∈ w'.vault.ownGrants a) :
      Discloses w w' (.call sender (.processAllocation roundId maxParticipants)) g
  /-- Its own weight of a closed round to a participant. -/
  | weight {sender : Address} {roundId : Nat} {weight : E128}
      (h : w.vault.materializeMyRoundWeight fhe cfg sender roundId = .ok (w'.vault, weight)) :
      Discloses w w' (.call sender (.materializeMyRoundWeight roundId))
        (.allow (.uint128 weight) sender)
  /-- The aggregate of the round that is closed to everybody. -/
  | aggregateTwab {sender : Address} :
      Discloses w w' (.call sender .closeRound) (.makePubliclyDecryptable
        (.uint128 (w'.vault.rounds w.vault.activeRoundId).aggregateTwab))
  | candidateValid {sender : Address} {roundId : Nat} {candidate : E128} :
      Discloses w w' (.call sender (.generateRandomCandidate roundId candidate))
        (.makePubliclyDecryptable (.bool (w'.vault.rounds roundId).candidateValid))
  | reconciliationValid {sender : Address} {roundId maxParticipants : Nat} :
      Discloses w w' (.call sender (.processSelection roundId maxParticipants))
        (.makePubliclyDecryptable (.bool (w'.vault.rounds roundId).reconciliationValid))
  /-- The amount of a strategy epoch that brings principal back. -/
  | amount {sender : Address} {epochId : Nat}
      (hkind : (w.vault.strategyEpochs epochId).kind ≠ .deploy) :
      Discloses w w' (.call sender (.requestStrategyAmount epochId))
        (.makePubliclyDecryptable (.uint64 (w'.vault.strategyEpochs epochId).amount))

variable {w w' : World E64 E128 EBool X} {sender : Address}

/-- The entries of a call: they cover what it writes, and those that are not to the vault are
justified. -/
def Grants (fhe : Fhe E64 E128 EBool) (E : Externals E64 EBool X) (cfg : Config)
    (w : World E64 E128 EBool X) (l : Label E64 E128 EBool X) (w' : World E64 E128 EBool X) :
    Prop :=
  ∃ gs, Vault.Grants cfg gs w.vault w'.vault ∧ ∀ g ∈ gs, Discloses fhe E cfg w w' l g

variable {l : Label E64 E128 EBool X}

theorem Grants.of_vault (h : Vault.Grants cfg [] w.vault w'.vault) : Grants fhe E cfg w l w' :=
  ⟨[], h, fun _ hg => absurd hg List.not_mem_nil⟩

theorem Grants.of_eq (h : w'.vault = w.vault) : Grants fhe E cfg w l w' :=
  .of_vault (h ▸ .refl _)

theorem Grants.one {g : Grant E64 E128 EBool} (h : Vault.Grants cfg [g] w.vault w'.vault)
    (hg : Discloses fhe E cfg w w' l g) : Grants fhe E cfg w l w' :=
  ⟨[g], h, List.forall_mem_singleton.2 hg⟩

theorem Grants.two {g g' : Grant E64 E128 EBool}
    (h : Vault.Grants cfg [g, g'] w.vault w'.vault) (hg : Discloses fhe E cfg w w' l g)
    (hg' : Discloses fhe E cfg w w' l g') : Grants fhe E cfg w l w' :=
  ⟨[g, g'], h, List.forall_mem_cons.2 ⟨hg, List.forall_mem_singleton.2 hg'⟩⟩

/-! ## Payments -/

theorem withdraw_grants {input : EncryptedInput E64} {sent : E64}
    (h : withdraw fhe E cfg sender input w = .ok (w', sent)) :
    Grants fhe E cfg w (.call sender (.withdraw input)) w' := by
  have hop := h
  obtain ⟨_, x, v, _, hv, rfl⟩ := withdraw_ok h
  exact .two (Vault.recordWithdrawal_grants hv) .withdraw (.sentPrincipal hop)

theorem withdrawWinnings_grants {input : EncryptedInput E64} {sent : E64}
    (h : withdrawWinnings fhe E cfg sender input w = .ok (w', sent)) :
    Grants fhe E cfg w (.call sender (.withdrawWinnings input)) w' := by
  have hop := h
  simp only [withdrawWinnings, seq_eq_ok, Prod.exists, pure_eq_ok, ok_eq_ok,
    Prod.mk.injEq] at h
  obtain ⟨_, _, x, sent', _, rfl, rfl⟩ := h
  refine .two (Vault.Grants.write _ rfl ?_ ?_) .withdrawWinnings (.sentWinnings hop)
  · simp only [List.forall_mem_cons, List.not_mem_nil, false_imp_iff, implies_true, and_true]
    exact ⟨.inl ⟨_, rfl⟩, .inr List.mem_cons_self, .inl ⟨_, rfl⟩, .inl ⟨_, rfl⟩,
      .inr (List.mem_cons_of_mem _ List.mem_cons_self)⟩
  · intro may hmay hv
    simp only [List.forall_mem_cons] at hmay
    obtain ⟨h1, h2, h3, h4, -⟩ := hmay
    rw [Function.update_self] at h1 h2
    exact { hv with
      winnings := Vault.Covered.update_own h1 h2 hv.winnings
      winningsLiability := h3
      liquidPrizeAssets := h4 }

theorem contributeSponsor_grants {r units : Nat}
    (h : contributeSponsor fhe E cfg sender r units w = .ok w') : Grants fhe E cfg w l w' := by
  simp only [contributeSponsor, seq_eq_ok, Prod.exists, pure_eq_ok, ok_eq_ok] at h
  obtain ⟨_, _, _, _, _, _, _, _, _, _, x₁, _, x₂, wrapped, _, _, _, rfl⟩ := h
  refine .of_vault (Vault.Grants.write_this [.uint64 _, .uint64 _] rfl fun hmay hv => ?_)
  simp only [List.forall_mem_cons, Function.update_self] at hmay
  exact { hv with
    sponsoredPrize := Vault.Covered.update hmay.1 hv.sponsoredPrize
    liquidPrizeAssets := hmay.2.1 }

/-! ## The settlement passes -/

theorem processSelection_grants {r n : Nat} (h : processSelection fhe cfg sender r n w = .ok w') :
    Grants fhe E cfg w (.call sender (.processSelection r n)) w' := by
  obtain ⟨_, v₁, processed, v₂, e, hstart, _, hloop, _, rfl⟩ := processSelection_ok h
  have hlist := (Vault.forParticipants_ok (fun _ _ _ hselect =>
    congrFun (Vault.selectParticipant_participants hselect) r) hloop).2
  refine .one (Vault.Grants.trans ?_ (Vault.requestReconciliation_grants _)) .reconciliationValid
  refine ((Vault.startSelection_grants hstart).trans (Vault.forList_select_grants hlist)).trans ?_
  exact Vault.Grants.setRound fun h => { h with }

theorem processAllocation_grants {r n : Nat} (hnodup : (w.vault.roundParticipants r).Nodup)
    (h : processAllocation fhe cfg sender r n w = .ok w') :
    Grants fhe E cfg w (.call sender (.processAllocation r n)) w' := by
  obtain ⟨_, _, v₁, v₂, processed, v₃, e, hstart, hacc, _, hloop, _, rfl⟩ := processAllocation_ok h
  obtain ⟨_, rfl⟩ := Vault.startAllocation_ok hstart
  have hlist := (Vault.forParticipants_ok (fun _ _ _ hallocate =>
    congrFun (Vault.allocateParticipant_participants hallocate) r) hloop).2
  have hparticipants : v₂.roundParticipants = w.vault.roundParticipants :=
    (Vault.accrueEligible_sameProgress hacc).participants
  have hvisited := (List.take_sublist processed _).nodup
    ((List.drop_sublist (v₂.rounds r).allocationCursor _).nodup hnodup)
  rw [← hparticipants] at hvisited
  obtain ⟨hgrants, -⟩ := Vault.forList_allocate_grants hvisited hlist
  rw [Vault.finishAllocation_eq]
  refine ⟨_, Vault.Grants.trans (Vault.Grants.trans (Vault.Grants.weaken ?_) hgrants)
    (Vault.Grants.weaken ?_), fun g hg => ?_⟩
  · refine Vault.Grants.trans ?_ (Vault.accrueEligible_grants hacc)
    exact Vault.Grants.setRound fun h => { h with }
  · refine Vault.Grants.trans (Vault.Grants.setRound ?_) (Vault.Grants.setRound ?_)
    all_goals exact fun h => { h with }
  · obtain ⟨a, ha, hg⟩ := List.mem_flatMap.1 hg
    refine .allocation (hparticipants ▸ List.mem_of_mem_drop (List.mem_of_mem_take ha)) hg

theorem settle_grants {r passes : Nat} (h : settle cfg r passes w = .ok w') :
    Vault.Grants cfg [] w.vault w'.vault := by
  obtain ⟨e, _, rfl⟩ := settle_ok h
  exact Vault.Grants.setRound fun h => { h with }

/-! ## Strategy epochs -/

theorem requestStrategyAmount_grants {id : Nat}
    (h : requestStrategyAmount fhe E cfg id w = .ok w') :
    Grants fhe E cfg w (.call sender (.requestStrategyAmount id)) w' := by
  simp only [requestStrategyAmount, seq_eq_ok] at h
  obtain ⟨epoch, hepoch, _, _, h⟩ := h
  obtain ⟨_, _, _, _, rfl⟩ := Vault.strategyEpoch_ok hepoch
  split_ifs at h with hkind
  · simp only [requestDeployment, seq_eq_ok, Prod.exists, pure_eq_ok, ok_eq_ok] at h
    obtain ⟨_, _, x, requestId, _, rfl⟩ := h
    refine .of_vault (Vault.Grants.write_this [.uint64 _, .uint64 _, .uint64 _] rfl ?_)
    intro may hmay hv
    simp only [List.forall_mem_cons] at hmay
    exact Vault.Covered.setEpoch { hv with
      liquidPrincipal := hmay.2.1
      principalInTransition := hmay.2.2.1 } hmay.1
  · simp only [requestReplenishment, seq_eq_ok, pure_eq_ok, ok_eq_ok] at h
    obtain ⟨_, _, rfl⟩ := h
    refine .one (Vault.Grants.write _ rfl ?_ ?_) (.amount hkind)
    · simp only [List.forall_mem_cons, List.not_mem_nil, false_imp_iff, implies_true, and_true]
      refine ⟨.inl ⟨_, rfl⟩, .inr (List.mem_singleton.2 ?_), .inl ⟨_, rfl⟩, .inl ⟨_, rfl⟩⟩
      simp only [Vault.grant, Vault.setEpoch, Function.update_self]
    · intro may hmay hv
      simp only [List.forall_mem_cons] at hmay
      refine Vault.Covered.grant (hv.setEpoch ?_) _
      exact hmay.1

theorem finalizeStrategyDeployment_grants {id n : Nat} {proof : DecryptionProof}
    (h : finalizeStrategyDeployment fhe E cfg id n proof w = .ok w') :
    Vault.Grants cfg [] w.vault w'.vault := by
  simp only [finalizeStrategyDeployment, seq_eq_ok, Prod.exists, pure_eq_ok, ok_eq_ok] at h
  obtain ⟨epoch, hepoch, _, _, _, _, _, _, _, _, a, _, _, _, x, _, _, _, rfl⟩ := h
  obtain ⟨_, _, _, _, rfl⟩ := Vault.strategyEpoch_ok hepoch
  refine Vault.Grants.write_this [.uint64 _, .uint64 _] rfl fun hmay hv => ?_
  simp only [List.forall_mem_cons] at hmay
  exact Vault.Covered.setEpoch { hv with
    principalInTransition := hmay.1
    deployedPrincipal := hmay.2.1 } (hv.strategyEpochs id)

theorem finalizeStrategyReplenishment_grants {id : Nat} {c : Cleartexts} {proof : DecryptionProof}
    (h : finalizeStrategyReplenishment fhe E cfg id c proof w = .ok w') :
    Vault.Grants cfg [] w.vault w'.vault := by
  simp only [finalizeStrategyReplenishment, seq_eq_ok, Prod.exists, pure_eq_ok, ok_eq_ok] at h
  obtain ⟨epoch, hepoch, _, _, _, _, _, _, _, _, _, _, _, _, a, _, _, _, _, _, x, wrapped, _, rfl⟩ := h
  obtain ⟨_, _, _, _, rfl⟩ := Vault.strategyEpoch_ok hepoch
  refine Vault.Grants.write_this [.uint64 _, .uint64 _] rfl fun hmay hv => ?_
  simp only [List.forall_mem_cons] at hmay
  exact Vault.Covered.setEpoch { hv with
    deployedPrincipal := hmay.1
    liquidPrincipal := hmay.2.1 } (hv.strategyEpochs id)

theorem harvestStrategyYield_grants {harvested : Nat}
    (h : harvestStrategyYield fhe E cfg w = .ok (w', harvested)) :
    Vault.Grants cfg [] w.vault w'.vault := by
  obtain ⟨a, x₁, recovered, _, h⟩ := harvestStrategyYield_ok h
  rcases h with ⟨_, rfl⟩ | ⟨x₂, wrapped, v, _, hv, rfl⟩
  · exact .refl _
  · exact Vault.realizeSurplus_grants hv

/-- The surplus of an unwound strategy, if there is one. -/
theorem realizeSurplus_grants {surplus : E64} {units : Nat} (p : Prop) [Decidable p]
    {v v' : Vault E64 E128 EBool}
    (h : (if p then realizeSurplus fhe cfg surplus units v else .ok v) = .ok v') :
    Vault.Grants cfg [] v v' ∧ v'.liquidPrincipal = v.liquidPrincipal := by
  split_ifs at h
  · refine ⟨Vault.realizeSurplus_grants h, ?_⟩
    obtain ⟨_, _, rfl⟩ := Vault.realizeSurplus_ok h
    rfl
  · exact ok_eq_ok.1 h ▸ ⟨.refl v, rfl⟩

theorem emergencyUnwindStrategy_grants (h : emergencyUnwindStrategy fhe E cfg w = .ok w') :
    Vault.Grants cfg [] w.vault w'.vault := by
  simp only [emergencyUnwindStrategy, seq_eq_ok, Prod.exists, pure_eq_ok, ok_eq_ok] at h
  obtain ⟨_, _, _, _, a, _, recovered, shortfall, _, _, _, x, _, v, hsurplus, rfl⟩ := h
  obtain ⟨hgrants, hliquid⟩ := realizeSurplus_grants _ hsurplus
  refine Vault.Grants.around _ hgrants rfl rfl ?_ ?_ ?_
  · simp only [List.forall_mem_cons, List.not_mem_nil, false_imp_iff, implies_true, and_true]
    exact ⟨.inl ⟨_, rfl⟩, .inl ⟨_, rfl⟩, .inl ⟨_, rfl⟩⟩
  · intro may hmay hw
    exact { hw with liquidPrincipal := hliquid ▸ hmay _ List.mem_cons_self }
  · intro may hmay hv
    simp only [List.forall_mem_cons] at hmay
    exact { hv with
      deployedPrincipal := hmay.2.1
      strategyShortfall := hmay.2.2.1 }

theorem cancelExpiredStrategyEpoch_grants {id n : Nat} {proof : DecryptionProof}
    (h : cancelExpiredStrategyEpoch fhe E cfg id n proof w = .ok w') :
    Vault.Grants cfg [] w.vault w'.vault := by
  simp only [cancelExpiredStrategyEpoch, seq_eq_ok] at h
  obtain ⟨_, _, _, _, _, _, h⟩ := h
  split_ifs at h with hstate
  · rw [pure_eq_ok, ok_eq_ok] at h
    subst h
    exact Vault.Grants.unwritten rfl fun hv => hv.setEpoch (hv.strategyEpochs id)
  · simp only [seq_eq_ok, Prod.exists, pure_eq_ok, ok_eq_ok] at h
    obtain ⟨_, _, _, _, _, _, x, wrapped, _, rfl⟩ := h
    refine Vault.Grants.write_this [.uint64 _, .uint64 _] rfl fun hmay hv => ?_
    simp only [List.forall_mem_cons] at hmay
    exact Vault.Covered.setEpoch { hv with
      principalInTransition := hmay.1
      liquidPrincipal := hmay.2.1 } (hv.strategyEpochs id)

/-! ## Runs -/

/-- **Step lemma.**  The entries of every call are justified and cover what it writes. -/
theorem exec_grants (hB : w.Bonded fhe cfg) (hsender : cfg.External sender)
    {c : Call E64 E128 EBool} (h : exec fhe E cfg sender w c = .ok w') :
    Grants fhe E cfg w (.call sender c) w' := by
  cases c with
  | registerForRound value r =>
    obtain ⟨e, v, _, hv, rfl⟩ := registerForRound_ok h
    exact .of_vault (Vault.acceptBondRegistration_grants hv)
  | deposit n d =>
    obtain ⟨x₁, sent, v, accepted, x₂, _, hv, _, rfl⟩ := deposit_ok h
    exact .one (Vault.onConfidentialTransferReceived_grants hv) .deposit
  | withdraw input =>
    obtain ⟨⟨w₁, sent⟩, hop, rfl⟩ := map_eq_ok.1 h
    exact withdraw_grants hop
  | contributeSponsor r units => exact contributeSponsor_grants h
  | openStrategyEpoch kind =>
    obtain ⟨⟨w₁, id⟩, hop, rfl⟩ := map_eq_ok.1 h
    simp only [openStrategyEpoch, seq_eq_ok, pure_eq_ok, ok_eq_ok, Prod.mk.injEq] at hop
    obtain ⟨_, _, _, _, _, _, _, _, epochId, _, _, _, rfl, _⟩ := hop
    exact .of_vault (Vault.Grants.unwritten rfl fun hv => { hv with
      strategyEpochs := hv.update_epoch (hv.strategyEpochs epochId) })
  | requestStrategyAmount id => exact requestStrategyAmount_grants h
  | finalizeStrategyDeployment id n proof =>
    exact .of_vault (finalizeStrategyDeployment_grants h)
  | finalizeStrategyReplenishment id c proof =>
    exact .of_vault (finalizeStrategyReplenishment_grants h)
  | harvestStrategyYield =>
    obtain ⟨⟨w₁, n⟩, hop, rfl⟩ := map_eq_ok.1 h
    exact .of_vault (harvestStrategyYield_grants hop)
  | setStrategyPaused paused =>
    obtain rfl := setStrategyPaused_ok h
    exact .of_eq rfl
  | emergencyUnwindStrategy => exact .of_vault (emergencyUnwindStrategy_grants h)
  | cancelAgingStrategyEpoch id =>
    obtain ⟨_, _, rfl⟩ := cancelAgingStrategyEpoch_ok h
    exact .of_vault (Vault.Grants.unwritten rfl fun hv => hv.setEpoch (hv.strategyEpochs id))
  | cancelExpiredStrategyEpoch id n proof =>
    exact .of_vault (cancelExpiredStrategyEpoch_grants h)
  | closeRound =>
    obtain ⟨v, hv, rfl⟩ := onVault_eq_ok.1 h
    exact .one (Vault.closeRound_grants hv) .aggregateTwab
  | finalizeAggregate r c proof =>
    obtain ⟨v, hv, rfl⟩ := onVault_eq_ok.1 h
    exact .of_vault (Vault.finalizeAggregate_grants hv)
  | generateRandomCandidate r candidate =>
    obtain ⟨v, hv, rfl⟩ := onVault_eq_ok.1 h
    exact .one (Vault.generateRandomCandidate_grants hv) .candidateValid
  | finalizeCandidateValidity r c proof =>
    obtain ⟨v, hv, rfl⟩ := onVault_eq_ok.1 h
    exact .of_vault (Vault.finalizeCandidateValidity_grants hv)
  | processSelection r n => exact processSelection_grants h
  | finalizeSelectionReconciliation r c proof =>
    obtain ⟨v, hv, rfl⟩ := onVault_eq_ok.1 h
    exact .of_vault (Vault.finalizeSelectionReconciliation_grants hv)
  | processAllocation r n => exact processAllocation_grants (hB.settling r).nodup h
  | finalizeSettlement r => exact .of_vault (settle_grants (finalizeSettlement_ok h).2)
  | recoverFailedReconciliation r =>
    obtain ⟨_, v, hv, hsettle⟩ := recoverFailedReconciliation_ok h
    exact .of_vault ((Vault.rollPrizeForward_grants hv).trans (settle_grants hsettle))
  | settleEmptyRound r =>
    obtain ⟨_, v, hv, hsettle⟩ := settleEmptyRound_ok h
    exact .of_vault ((Vault.rollPrizeForward_grants hv).trans (settle_grants hsettle))
  | withdrawWinnings input =>
    obtain ⟨⟨w₁, sent⟩, hop, rfl⟩ := map_eq_ok.1 h
    exact withdrawWinnings_grants hop
  | materializeMyRoundWeight r =>
    simp only [exec, onVault_eq_ok, map_eq_ok, Prod.exists] at h
    obtain ⟨_, ⟨v, weight, hop, rfl⟩, rfl⟩ := h
    exact .one (Vault.materializeMyRoundWeight_grants hop) (.weight hop)
  | setAutoSavePreference preference =>
    simp only [exec, onVault_eq_ok, ok_eq_ok] at h
    obtain ⟨_, rfl, rfl⟩ := h
    exact .of_vault (Vault.Grants.unwritten rfl fun hv => { hv with })
  | claimBondRefund r accepts =>
    obtain ⟨e, _, rfl⟩ := onEscrow_eq_ok.1 h
    exact .of_eq rfl
  | withdrawSettlementRewards accepts =>
    obtain ⟨e, _, rfl⟩ := onEscrow_eq_ok.1 h
    exact .of_eq rfl
  | setPaused paused =>
    obtain ⟨a, _, rfl⟩ := map_eq_ok.1 h
    exact .of_eq rfl
  | acceptBondRegistration | onConfidentialTransferReceived | creditProgress | finalizeRound
  | deployAssets | withdrawPrincipal | harvest | emergencyExit =>
    exact absurd h (exec_reserved hsender rfl)

theorem step_grants (hB : w.Bonded fhe cfg) {l : Label E64 E128 EBool X}
    (h : Step fhe E cfg w l w') : Grants fhe E cfg w l w' := by
  cases l with
  | call sender c => exact exec_grants hB h.1 h.2
  | tick now =>
    obtain ⟨_, rfl⟩ := h
    exact .of_eq rfl
  | thirdParty ext =>
    obtain ⟨_, rfl⟩ := h
    exact .of_eq rfl
  | forceNative amount =>
    obtain rfl := h
    exact .of_eq rfl

/-- The constructor grants the vault what it writes, and nobody else anything. -/
theorem construct_grants {nativeBalance now : Nat} {x : X}
    (h : construct fhe E cfg nativeBalance now x = .ok w) :
    (∀ g ∈ w.vault.acl, ∃ h, g = cfg.allowThis h) ∧
      w.vault.Covered cfg (w.vault.May fhe) := by
  simp only [construct, seq_eq_ok, pure_eq_ok, ok_eq_ok] at h
  obtain ⟨_, _, a, _, e, _, v, hv, rfl⟩ := h
  have hgrants : Vault.Grants cfg [] _ v := Vault.initializeRound_grants hv
  have hzero : ∀ g ∈ (Vault.zeroLedger fhe cfg).acl, ∃ h, g = cfg.allowThis h :=
    List.forall_mem_cons.2 ⟨⟨_, rfl⟩, List.forall_mem_singleton.2 ⟨_, rfl⟩⟩
  refine ⟨fun g hg => ?_, ?_⟩
  · rcases hgrants.added g hg with hg | h | hg
    · exact hzero g hg
    · exact h
    · exact absurd hg List.not_mem_nil
  · have hzero : v.May fhe cfg.vault (.uint64 (fhe.asEuint64 0)) :=
      .inr (hgrants.kept List.mem_cons_self)
    have hunset : (Round.unset fhe).Covered (v.May fhe cfg.vault) := by
      constructor <;> exact .inl rfl
    exact hgrants.covered (v.within_may fhe) {
      rounds := fun _ => hunset
      observations := fun _ _ ho => absurd ho List.not_mem_nil
      principal := fun _ => ⟨.inl rfl, .inl rfl⟩
      winnings := fun _ => ⟨.inl rfl, .inl rfl⟩
      winnerPredicate := fun _ _ => .inl rfl
      totalPrincipal := hzero
      liquidPrincipal := hzero
      deployedPrincipal := hzero
      principalInTransition := hzero
      strategyShortfall := hzero
      liquidPrizeAssets := hzero
      realizedSurplus := hzero
      reservedPrize := hzero
      winningsLiability := hzero
      sponsoredPrize := fun _ => .inl rfl
      uncommittedYield := hzero
      strategyEpochs := fun _ => .inl rfl }

/-- **Decryption rights.**  Whatever others than the vault can decrypt after a run, they were
allowed to by a step of that run that discloses it. -/
theorem rights_disclosed {w₀ : World E64 E128 EBool X}
    {steps : List (TransitionSystem.Taken (World E64 E128 EBool X) (Label E64 E128 EBool X))}
    (hinit : (system fhe E cfg).init w₀) (h : (system fhe E cfg).Trace w₀ steps w)
    {g : Grant E64 E128 EBool} (hg : g ∈ w.vault.acl)
    (hother : ∀ handle, g ≠ cfg.allowThis handle) :
    ∃ taken ∈ steps, Discloses fhe E cfg taken.source taken.target taken.label g := by
  induction h with
  | nil =>
    obtain ⟨nativeBalance, now, x, hinit⟩ := hinit
    obtain ⟨handle, rfl⟩ := (construct_grants hinit).1 g hg
    exact absurd rfl (hother handle)
  | @snoc steps u w l hrun hstep ih =>
    have hu := hrun.reachable (.of_init hinit)
    obtain ⟨gs, hgrants, hdiscloses⟩ := step_grants (reachable_bonded hu) hstep
    rcases hgrants.added g hg with hg | ⟨handle, rfl⟩ | hg
    · obtain ⟨taken, htaken, hd⟩ := ih hg
      exact ⟨taken, List.mem_append_left _ htaken, hd⟩
    · exact absurd rfl (hother handle)
    · exact ⟨⟨u, l, w⟩, List.mem_append_right _ List.mem_cons_self, hdiscloses g hg⟩

deriving instance DecidableEq for Handle

deriving instance DecidableEq for Grant

/-- In the demo the aggregate of the closed round is public. -/
theorem rights_disclosed_script : ∃ w w₀ steps, Demo.Ends w ∧
    (system Fhe.plain Demo.externals Demo.cfg).Trace w₀ steps w ∧
    .makePubliclyDecryptable (.uint128 8192) ∈ w.vault.acl ∧
    ∃ taken ∈ steps, Discloses Fhe.plain Demo.externals Demo.cfg taken.source taken.target
      taken.label (.makePubliclyDecryptable (.uint128 8192)) := by
  have hends : endsWith (fun w => decide (.makePubliclyDecryptable (.uint128 8192) ∈ w.vault.acl))
      (outcome Demo.cfg Demo.token 100 Demo.chain Demo.script) = true := by decide +kernel
  obtain ⟨w, hw, hg⟩ := exists_of_endsWith hends
  have hg := of_decide_eq_true hg
  obtain ⟨w₀, steps, hinit, hsteps⟩ := outcome_trace hw
  exact ⟨w, w₀, steps, hw, hsteps, hg, rights_disclosed hinit hsteps hg fun _ h => by cases h⟩

/-- **The vault may use what it stores**, and every account may decrypt its own balance and
winnings. -/
theorem storage_covered (h : (system fhe E cfg).Reachable w) :
    w.vault.Covered cfg (w.vault.May fhe) := by
  refine TransitionSystem.Reachable.invariant
    (I := fun w => w.vault.Covered cfg (w.vault.May fhe)) ?_ ?_ h
  · rintro w ⟨nativeBalance, now, x, hinit⟩
    exact (construct_grants hinit).2
  · intro w l w' hw hv hstep
    obtain ⟨gs, hgrants, -⟩ := step_grants (reachable_bonded hw) hstep
    exact hgrants.covered (w'.vault.within_may fhe)
      (hv.mono fun _ _ => Or.imp_right (hgrants.kept ·))

/-- The storage at the end of the demo. -/
theorem storage_covered_script : ∃ w, Demo.Ends w ∧
    w.vault.Covered Demo.cfg (w.vault.May Fhe.plain) := by
  obtain ⟨w, hw, _⟩ := Demo.ends_allocated
  exact ⟨w, hw, storage_covered hw.reachable⟩

end World

end Leopold
