import Leopold.Vault.Erasure
import Leopold.Vault.Inversion
import Leopold.System.Calls

/-!
# The public part of the system

The third-party contracts have a public part too: what they answer and whether they revert does not
depend on encrypted amounts, but for the answer to the finalization of an unwrap request, which
checks its cleartext.  A call then changes the public part of the joint state as it does over the
erased handles.
-/

namespace Leopold

open Lib

variable {E64 E128 EBool X Y : Type}

/-- The contracts `S` over `Y` are the public part of the contracts `E`, where `pub` is the public
part of their state; of the finalization of unwrap requests nothing is said. -/
structure Externals.Shadows (E : Externals E64 EBool X) (S : Externals Unit Unit Y)
    (pub : X → Y) : Prop where
  underlying : S.underlying = E.underlying
  rate : S.rate = E.rate
  decimals : S.decimals = E.decimals
  confidentialTransfer : ∀ x holder recipient amount,
    (E.confidentialTransfer x holder recipient amount).map (fun r => (pub r.1, ())) =
      S.confidentialTransfer (pub x) holder recipient ()
  transferAndCallSend : ∀ x holder receiver amount,
    (E.transferAndCallSend x holder receiver amount).map (fun r => (pub r.1, ())) =
      S.transferAndCallSend (pub x) holder receiver ()
  transferAndCallRefund : ∀ x receiver holder sent accepted,
    (E.transferAndCallRefund x receiver holder sent accepted).map pub =
      S.transferAndCallRefund (pub x) receiver holder () ()
  wrap : ∀ x caller recipient amount,
    (E.wrap x caller recipient amount).map (fun r => (pub r.1, ())) =
      S.wrap (pub x) caller recipient amount
  unwrap : ∀ x caller holder recipient amount,
    (E.unwrap x caller holder recipient amount).map (fun r => (pub r.1, 0)) =
      S.unwrap (pub x) caller holder recipient ()
  underlyingBalanceOf : ∀ x a, S.underlyingBalanceOf (pub x) a = E.underlyingBalanceOf x a
  safeTransferFrom : ∀ x spender holder recipient amount,
    (E.safeTransferFrom x spender holder recipient amount).map pub =
      S.safeTransferFrom (pub x) spender holder recipient amount
  safeTransfer : ∀ x holder recipient amount,
    (E.safeTransfer x holder recipient amount).map pub =
      S.safeTransfer (pub x) holder recipient amount
  forceApprove : ∀ x owner spender amount,
    (E.forceApprove x owner spender amount).map pub = S.forceApprove (pub x) owner spender amount
  cometBaseToken : ∀ x, S.cometBaseToken (pub x) = E.cometBaseToken x
  cometBaseScale : ∀ x, S.cometBaseScale (pub x) = E.cometBaseScale x
  cometIsSupplyPaused : ∀ x, S.cometIsSupplyPaused (pub x) = E.cometIsSupplyPaused x
  cometIsWithdrawPaused : ∀ x, S.cometIsWithdrawPaused (pub x) = E.cometIsWithdrawPaused x
  cometBalanceOf : ∀ x a, S.cometBalanceOf (pub x) a = E.cometBalanceOf x a
  cometUserPrincipal : ∀ x a, S.cometUserPrincipal (pub x) a = E.cometUserPrincipal x a
  cometSupply : ∀ x caller amount,
    (E.cometSupply x caller amount).map pub = S.cometSupply (pub x) caller amount
  cometWithdraw : ∀ x caller amount,
    (E.cometWithdraw x caller amount).map pub = S.cometWithdraw (pub x) caller amount

variable {fhe : Fhe E64 E128 EBool} {E : Externals E64 EBool X} {S : Externals Unit Unit Y}
  {pub : X → Y} {cfg : Config} {accepts : Bool} {w : World E64 E128 EBool X} {x : X}
  {sender : Address}

/-! ### The adapter -/

namespace Adapter

variable {a : Adapter} {amount : Nat}

theorem managedAssets_shadow (h : E.Shadows S pub) :
    managedAssets S cfg (pub x) = managedAssets E cfg x := h.cometBalanceOf x _

theorem currentShortfall_shadow (h : E.Shadows S pub) :
    a.currentShortfall S cfg (pub x) = a.currentShortfall E cfg x := by
  unfold currentShortfall
  rw [managedAssets_shadow h]

theorem positionIntegrity_shadow (h : E.Shadows S pub) :
    a.positionIntegrity S cfg (pub x) = a.positionIntegrity E cfg x := by
  unfold positionIntegrity
  rw [h.cometUserPrincipal]

theorem marketIntegrity_shadow (h : E.Shadows S pub) :
    marketIntegrity S (pub x) = marketIntegrity E x := by
  unfold marketIntegrity
  rw [h.cometBaseToken, h.underlying, h.cometBaseScale]

theorem snapshotPrincipal_shadow (h : E.Shadows S pub) :
    a.snapshotPrincipal S cfg (pub x) = a.snapshotPrincipal E cfg x := by
  unfold snapshotPrincipal
  rw [h.cometUserPrincipal]

theorem withdraw_shadow (h : E.Shadows S pub) :
    (withdraw E cfg amount x).map (fun r => (pub r.1, r.2)) = withdraw S cfg amount (pub x) := by
  unfold withdraw
  rw [h.underlyingBalanceOf]
  refine map_bind_image (orRevert_map.trans (congrArg _ (h.cometWithdraw ..))) fun x => ?_
  rw [h.underlyingBalanceOf]
  refine map_bind_eq fun recovered _ => ?_
  exact map_bind_image (orRevert_map.trans (congrArg _ (h.safeTransfer ..))) fun x => rfl

theorem construct_shadow (h : E.Shadows S pub) : construct S cfg (pub x) = construct E cfg x := by
  unfold construct
  rw [h.underlying, h.cometBaseToken, h.cometBaseScale]

theorem deployAssets_shadow (h : E.Shadows S pub) :
    (a.deployAssets E cfg sender amount x).map (fun r => (r.1, pub r.2.1, r.2.2)) =
      a.deployAssets S cfg sender amount (pub x) := by
  unfold deployAssets
  rw [marketIntegrity_shadow h, h.cometIsSupplyPaused, positionIntegrity_shadow h,
    currentShortfall_shadow h, h.underlyingBalanceOf]
  refine map_bind_eq fun _ _ => map_bind_eq fun _ _ => map_bind_eq fun _ _ => map_bind_eq fun _ _ =>
    map_bind_eq fun _ _ => map_bind_eq fun _ _ => map_ite (fun _ => rfl) fun _ => ?_
  refine map_bind_image (orRevert_map.trans (congrArg _ (h.safeTransferFrom ..))) fun x => ?_
  rw [h.underlyingBalanceOf]
  refine map_bind_eq fun received _ => ?_
  refine map_bind_image (orRevert_map.trans (congrArg _ (h.forceApprove ..))) fun x => ?_
  refine map_bind_image (orRevert_map.trans (congrArg _ (h.cometSupply ..))) fun x => ?_
  refine map_bind_image (orRevert_map.trans (congrArg _ (h.forceApprove ..))) fun x => ?_
  refine map_bind_eq fun basis _ => ?_
  rw [snapshotPrincipal_shadow h]
  rfl

theorem withdrawPrincipal_shadow (h : E.Shadows S pub) :
    (a.withdrawPrincipal E cfg sender amount x).map (fun r => (r.1, pub r.2.1, r.2.2)) =
      a.withdrawPrincipal S cfg sender amount (pub x) := by
  unfold withdrawPrincipal
  rw [marketIntegrity_shadow h, h.cometIsWithdrawPaused, positionIntegrity_shadow h,
    managedAssets_shadow h]
  refine map_bind_eq fun _ _ => map_bind_eq fun _ _ => map_bind_eq fun _ _ => map_bind_eq fun _ _ =>
    map_bind_eq fun _ _ => map_bind_image (withdraw_shadow h) fun r => map_bind_eq fun basis _ => ?_
  rw [snapshotPrincipal_shadow h]
  rfl

theorem harvest_shadow (h : E.Shadows S pub) :
    (a.harvest E cfg sender x).map (fun r => (r.1, pub r.2.1, r.2.2)) =
      a.harvest S cfg sender (pub x) := by
  unfold harvest
  rw [marketIntegrity_shadow h, positionIntegrity_shadow h, managedAssets_shadow h]
  refine map_bind_eq fun _ _ => map_bind_eq fun _ _ => map_bind_eq fun _ _ => map_bind_eq fun _ _ =>
    map_ite (fun _ => rfl) fun _ => map_bind_image (withdraw_shadow h) fun r => ?_
  dsimp only
  rw [snapshotPrincipal_shadow h]
  rfl

theorem emergencyExit_shadow (h : E.Shadows S pub) :
    (a.emergencyExit E cfg sender x).map (fun r => (r.1, pub r.2.1, r.2.2)) =
      a.emergencyExit S cfg sender (pub x) := by
  unfold emergencyExit
  rw [managedAssets_shadow h]
  refine map_bind_eq fun _ _ => map_bind_eq fun _ _ => ?_
  refine map_bind_image (map_ite (fun _ => rfl) fun _ => withdraw_shadow h) fun r => ?_
  dsimp only
  rw [snapshotPrincipal_shadow h]
  rfl

end Adapter

/-! ### The joint steps -/

def EncryptedInput.erase (input : EncryptedInput E64) : EncryptedInput Unit := ⟨(), input.verified⟩

theorem EncryptedInput.fromExternal_erase {input : EncryptedInput E64} :
    input.fromExternal.map (fun _ => ()) = input.erase.fromExternal :=
  map_bind_eq fun _ _ => rfl

theorem Vault.constructorChecks_shadow (h : E.Shadows S pub) :
    Vault.constructorChecks S cfg = Vault.constructorChecks E cfg := by
  unfold Vault.constructorChecks
  rw [h.underlying, h.rate, h.decimals]

theorem Vault.wrapUnderlying_shadow (h : E.Shadows S pub) {amount : Nat} :
    (Vault.wrapUnderlying E cfg amount x).map (fun r => (pub r.1, ())) =
      Vault.wrapUnderlying S cfg amount (pub x) := by
  refine map_bind_image (orRevert_map.trans (congrArg _ (h.forceApprove ..))) fun x => ?_
  refine map_bind_image (orRevert_map.trans (congrArg _ (h.wrap ..))) fun r => ?_
  exact map_bind_image (orRevert_map.trans (congrArg _ (h.forceApprove ..))) fun x => rfl

namespace World

def erase (pub : X → Y) (w : World E64 E128 EBool X) : World Unit Unit Unit Y where
  vault := w.vault.erase
  escrow := w.escrow
  adapter := w.adapter
  ext := pub w.ext
  now := w.now

theorem construct_erase (h : E.Shadows S pub) {nativeBalance now : Nat} :
    (construct fhe E cfg nativeBalance now x).map (erase pub) =
      construct (.erased accepts) S cfg nativeBalance now (pub x) := by
  unfold construct
  rw [Vault.constructorChecks_shadow h, Adapter.construct_shadow h]
  exact map_bind_eq fun _ _ => map_bind_eq fun _ _ => map_bind_eq fun _ _ =>
    map_bind_image Vault.initializeRound_erase fun _ => rfl

theorem registerForRound_erase {value roundId : Nat} :
    (registerForRound fhe cfg sender value roundId w).map (erase pub) =
      registerForRound (.erased accepts) cfg sender value roundId (w.erase pub) :=
  map_bind_eq fun _ _ => map_bind_image Vault.acceptBondRegistration_erase fun _ => rfl

theorem deposit_erase (h : E.Shadows S pub) {amount : E64} {dataLength : Nat} :
    (deposit fhe E cfg sender amount dataLength w).map (erase pub) =
      deposit (.erased accepts) S cfg sender () dataLength (w.erase pub) := by
  refine map_bind_image (orRevert_map.trans (congrArg _ (h.transferAndCallSend ..))) fun r => ?_
  refine map_bind_image Vault.onConfidentialTransferReceived_erase fun v => ?_
  exact map_bind_image (orRevert_map.trans (congrArg _ (h.transferAndCallRefund ..))) fun x => rfl

theorem withdraw_erase (h : E.Shadows S pub) {input : EncryptedInput E64} :
    (withdraw fhe E cfg sender input w).map (fun r => (r.1.erase pub, ())) =
      withdraw (.erased accepts) S cfg sender input.erase (w.erase pub) := by
  refine map_bind_eq fun _ _ => map_bind_image EncryptedInput.fromExternal_erase fun requested => ?_
  refine map_bind_image (orRevert_map.trans (congrArg _ (h.confidentialTransfer ..))) fun r => ?_
  exact map_bind_image Vault.recordWithdrawal_erase fun v => rfl

theorem contributeSponsor_erase (h : E.Shadows S pub) {roundId units : Nat} :
    (contributeSponsor fhe E cfg sender roundId units w).map (erase pub) =
      contributeSponsor (.erased accepts) S cfg sender roundId units (w.erase pub) := by
  unfold contributeSponsor
  rw [h.rate]
  refine map_bind_eq fun _ _ => map_bind_eq fun _ _ => map_bind_eq fun _ _ => map_bind_eq fun _ _ =>
    map_bind_eq fun underlyingAmount _ => ?_
  refine map_bind_image (orRevert_map.trans (congrArg _ (h.safeTransferFrom ..))) fun x => ?_
  refine map_bind_image (Vault.wrapUnderlying_shadow h) fun r => ?_
  refine map_bind_eq fun publicSponsored _ => congrArg Except.ok ?_
  unfold erase
  rw [Vault.erase_grant]
  rfl

theorem withdrawWinnings_erase (h : E.Shadows S pub) {input : EncryptedInput E64} :
    (withdrawWinnings fhe E cfg sender input w).map (fun r => (r.1.erase pub, ())) =
      withdrawWinnings (.erased accepts) S cfg sender input.erase (w.erase pub) := by
  refine map_bind_image EncryptedInput.fromExternal_erase fun requested => ?_
  refine map_bind_image (orRevert_map.trans (congrArg _ (h.confidentialTransfer ..))) fun r => ?_
  refine congrArg Except.ok (Prod.ext ?_ rfl)
  dsimp only [erase]
  rw [Vault.erase_grant]
  rfl

theorem processSelection_erase {roundId maxParticipants : Nat} :
    (processSelection fhe cfg sender roundId maxParticipants w).map (erase pub) =
      processSelection (.erased accepts) cfg sender roundId maxParticipants (w.erase pub) := by
  refine map_bind_eq fun _ _ => map_bind_image Vault.startSelection_erase fun v =>
    map_bind_eq fun processed _ => map_bind_image
      (Vault.forParticipants_erase (by exact fun _ _ => Vault.selectParticipant_erase)) fun v => map_bind_eq fun e _ =>
        congrArg Except.ok ?_
  unfold erase
  rw [Vault.requestReconciliation_erase, Vault.erase_setRound]
  rfl

theorem processAllocation_erase {roundId maxParticipants : Nat} :
    (processAllocation fhe cfg sender roundId maxParticipants w).map (erase pub) =
      processAllocation (.erased accepts) cfg sender roundId maxParticipants (w.erase pub) := by
  refine map_bind_eq fun _ _ => map_bind_eq fun _ _ =>
    map_bind_image Vault.startAllocation_erase fun v =>
    map_bind_image Vault.accrueEligible_erase fun v =>
    map_bind_eq fun processed _ => map_bind_image
      (Vault.forParticipants_erase (by exact fun _ _ => Vault.allocateParticipant_erase)) fun v => map_bind_eq fun e _ =>
        congrArg Except.ok ?_
  unfold erase
  rw [Vault.finishAllocation_erase, Vault.erase_setRound]
  rfl

theorem settle_erase {roundId completedPasses : Nat} :
    (settle cfg roundId completedPasses w).map (erase pub) =
      settle cfg roundId completedPasses (w.erase pub) := by
  refine map_bind_eq fun e _ => congrArg Except.ok ?_
  unfold erase
  rw [Vault.erase_setRound]
  rfl

theorem finalizeSettlement_erase {roundId : Nat} :
    (finalizeSettlement cfg roundId w).map (erase pub) =
      finalizeSettlement cfg roundId (w.erase pub) :=
  map_bind_eq fun _ _ => settle_erase

theorem recoverFailedReconciliation_erase {roundId : Nat} :
    (recoverFailedReconciliation fhe cfg roundId w).map (erase pub) =
      recoverFailedReconciliation (.erased accepts) cfg roundId (w.erase pub) :=
  map_bind_eq fun _ _ => map_bind_image Vault.rollPrizeForward_erase fun _ => settle_erase

theorem settleEmptyRound_erase {roundId : Nat} :
    (settleEmptyRound fhe cfg roundId w).map (erase pub) =
      settleEmptyRound (.erased accepts) cfg roundId (w.erase pub) :=
  map_bind_eq fun _ _ => map_bind_image Vault.rollPrizeForward_erase fun _ => settle_erase

/-! ### The strategy epochs -/

theorem openStrategyEpoch_erase {kind : StrategyEpochKind} :
    (openStrategyEpoch cfg kind w).map (fun r => (r.1.erase pub, r.2)) =
      openStrategyEpoch cfg kind (w.erase pub) := by
  refine map_bind_eq fun _ _ => map_bind_eq fun _ _ => map_bind_eq fun _ _ => map_bind_eq fun _ _ =>
    map_bind_eq fun epochId _ => map_bind_eq fun _ _ => congrArg Except.ok (Prod.ext ?_ rfl)
  simp only [erase, Vault.erase, Vault.setEpoch, Vault.erase_updateEpoch]
  rfl

theorem requestDeployment_erase (h : E.Shadows S pub) {epochId : Nat}
    {epoch : StrategyEpoch E64} :
    (requestDeployment fhe E cfg epochId epoch w).map (erase pub) =
      requestDeployment (.erased accepts) S cfg epochId epoch.erase (w.erase pub) := by
  refine map_bind_eq fun _ _ => map_bind_image (orRevert_map.trans (congrArg _ (h.unwrap ..)))
    fun r => congrArg Except.ok ?_
  dsimp only [erase]
  rw [Vault.erase_grant, Vault.erase_setEpoch]
  rfl

theorem requestReplenishment_erase {epochId : Nat} {epoch : StrategyEpoch E64} {rate : Nat} :
    (requestReplenishment fhe cfg epochId epoch rate w).map (erase pub) =
      requestReplenishment (.erased accepts) cfg epochId epoch.erase rate (w.erase pub) := by
  refine map_bind_eq fun _ _ => congrArg Except.ok ?_
  dsimp only [erase]
  rw [Vault.erase_grant, Vault.erase_setEpoch]
  rfl

theorem requestStrategyAmount_erase (h : E.Shadows S pub) {epochId : Nat} :
    (requestStrategyAmount fhe E cfg epochId w).map (erase pub) =
      requestStrategyAmount (.erased accepts) S cfg epochId (w.erase pub) := by
  unfold requestStrategyAmount
  rw [h.rate]
  exact map_bind_image Vault.strategyEpoch_erase fun epoch => map_bind_eq fun _ _ =>
    map_ite (fun _ => requestDeployment_erase h) fun _ => requestReplenishment_erase

/-- The answer to the finalization of the unwrap request is given. -/
theorem finalizeStrategyDeployment_erase (h : E.Shadows S pub) {epochId clearAmount : Nat}
    {proof : DecryptionProof}
    (hfinalize : (E.finalizeUnwrap w.ext (w.vault.strategyEpochs epochId).unwrapRequestId
      clearAmount proof).map pub = S.finalizeUnwrap (pub w.ext) 0 clearAmount proof) :
    (finalizeStrategyDeployment fhe E cfg epochId clearAmount proof w).map (erase pub) =
      finalizeStrategyDeployment (.erased accepts) S cfg epochId clearAmount proof
        (w.erase pub) := by
  unfold finalizeStrategyDeployment
  rw [h.rate]
  refine map_bind_image_of_ok Vault.strategyEpoch_erase fun epoch hepoch => ?_
  obtain ⟨_, _, _, _, rfl⟩ := Vault.strategyEpoch_ok hepoch
  refine map_bind_eq fun _ _ => map_bind_image (orRevert_map.trans (congrArg _ hfinalize))
    fun x => map_bind_eq fun underlyingAmount _ => ?_
  refine map_bind_image (orRevert_map.trans (congrArg _ (h.forceApprove ..))) fun x => ?_
  refine map_bind_image (Adapter.deployAssets_shadow h) fun r => ?_
  refine map_bind_image (orRevert_map.trans (congrArg _ (h.forceApprove ..))) fun x => ?_
  refine map_bind_eq fun _ _ => congrArg Except.ok ?_
  dsimp only [erase]
  rw [Vault.erase_grant, Vault.erase_setEpoch]
  rfl

/-- The answer to the check of the amount is given. -/
theorem finalizeStrategyReplenishment_erase (h : E.Shadows S pub) {epochId : Nat}
    {cleartexts : Cleartexts} {proof : DecryptionProof}
    (haccepts : fhe.checkSignatures64 (w.vault.strategyEpochs epochId).amount cleartexts.word
      proof = accepts) :
    (finalizeStrategyReplenishment fhe E cfg epochId cleartexts proof w).map (erase pub) =
      finalizeStrategyReplenishment (.erased accepts) S cfg epochId cleartexts proof
        (w.erase pub) := by
  unfold finalizeStrategyReplenishment
  rw [h.rate]
  refine map_bind_image_of_ok Vault.strategyEpoch_erase fun epoch hepoch => ?_
  obtain ⟨_, _, _, _, rfl⟩ := Vault.strategyEpoch_ok hepoch
  refine map_bind_eq fun _ _ => map_bind_eq fun decoded hdecoded => map_bind_eq fun _ _ =>
    map_bind_eq fun underlyingAmount _ => map_bind_eq fun _ _ => ?_
  rw [decodeUint256_word hdecoded, haccepts]
  refine map_bind_eq fun _ _ => map_bind_image (Adapter.withdrawPrincipal_shadow h) fun r => ?_
  refine map_bind_eq fun _ _ => map_bind_image (Vault.wrapUnderlying_shadow h) fun r =>
    congrArg Except.ok ?_
  dsimp only [erase]
  rw [Vault.erase_grant, Vault.erase_setEpoch]
  rfl

theorem realizeSurplus_erase {surplus : E64} {units : Nat} {v : Vault E64 E128 EBool} :
    (realizeSurplus fhe cfg surplus units v).map Vault.erase =
      realizeSurplus (.erased accepts) cfg () units v.erase :=
  map_bind_eq fun _ _ => congrArg Except.ok Vault.erase_grant

theorem harvestStrategyYield_erase (h : E.Shadows S pub) :
    (harvestStrategyYield fhe E cfg w).map (fun r => (r.1.erase pub, r.2)) =
      harvestStrategyYield (.erased accepts) S cfg (w.erase pub) := by
  unfold harvestStrategyYield
  rw [h.rate]
  refine map_bind_eq fun _ _ => map_bind_image (Adapter.harvest_shadow h) fun r => ?_
  refine map_ite (fun _ => rfl) fun _ => map_bind_eq fun _ _ => ?_
  refine map_bind_image (Vault.wrapUnderlying_shadow h) fun r => ?_
  exact map_bind_image realizeSurplus_erase fun v => rfl

theorem setStrategyPaused_erase {paused : Bool} :
    (setStrategyPaused cfg sender paused w).map (erase pub) =
      setStrategyPaused cfg sender paused (w.erase pub) :=
  map_bind_eq fun _ _ => map_bind_eq fun _ _ => map_bind_eq fun _ _ => rfl

theorem emergencyUnwindStrategy_erase (h : E.Shadows S pub) :
    (emergencyUnwindStrategy fhe E cfg w).map (erase pub) =
      emergencyUnwindStrategy (.erased accepts) S cfg (w.erase pub) := by
  unfold emergencyUnwindStrategy
  rw [h.rate]
  refine map_bind_eq fun _ _ => map_bind_eq fun _ _ =>
    map_bind_image (Adapter.emergencyExit_shadow h) fun r => map_bind_eq fun _ _ => ?_
  refine map_bind_image (f := pub) (map_ite (fun _ => ?_) fun _ => rfl) fun x => ?_
  · rw [← Vault.wrapUnderlying_shadow h]
    cases Vault.wrapUnderlying E cfg _ _ <;> rfl
  refine map_bind_image (map_ite (fun _ => realizeSurplus_erase) fun _ => rfl) fun v =>
    congrArg Except.ok ?_
  dsimp only [erase]
  rw [Vault.erase_grant]
  rfl

theorem cancelAgingStrategyEpoch_erase {epochId : Nat} :
    (cancelAgingStrategyEpoch cfg epochId w).map (erase pub) =
      cancelAgingStrategyEpoch cfg epochId (w.erase pub) := by
  refine map_bind_image Vault.strategyEpoch_erase fun epoch => congrArg Except.ok ?_
  dsimp only [erase]
  rw [Vault.erase_setEpoch]
  rfl

/-- The answer to the finalization of the unwrap request is given. -/
theorem cancelExpiredStrategyEpoch_erase (h : E.Shadows S pub) {epochId clearAmount : Nat}
    {proof : DecryptionProof}
    (hfinalize : (E.finalizeUnwrap w.ext (w.vault.strategyEpochs epochId).unwrapRequestId
      clearAmount proof).map pub = S.finalizeUnwrap (pub w.ext) 0 clearAmount proof) :
    (cancelExpiredStrategyEpoch fhe E cfg epochId clearAmount proof w).map (erase pub) =
      cancelExpiredStrategyEpoch (.erased accepts) S cfg epochId clearAmount proof
        (w.erase pub) := by
  unfold cancelExpiredStrategyEpoch
  rw [h.rate]
  refine map_bind_eq fun _ _ => map_bind_eq fun _ _ => map_bind_eq fun _ _ =>
    map_ite (fun _ => congrArg Except.ok ?_) fun _ => map_bind_eq fun _ _ => ?_
  · dsimp only [erase]
    rw [Vault.erase_setEpoch]
    rfl
  refine map_bind_image (orRevert_map.trans (congrArg _ hfinalize)) fun x =>
    map_bind_eq fun underlyingAmount _ => map_bind_image (Vault.wrapUnderlying_shadow h) fun r =>
      congrArg Except.ok ?_
  dsimp only [erase]
  rw [Vault.erase_grant, Vault.erase_setEpoch]
  rfl

/-! ### Calls of one contract -/

theorem onVault_erase {f : Vault E64 E128 EBool → Except Revert (Vault E64 E128 EBool)}
    {f' : Vault Unit Unit Unit → Except Revert (Vault Unit Unit Unit)}
    (hf : (f w.vault).map Vault.erase = f' w.vault.erase) :
    (onVault f w).map (erase pub) = onVault f' (w.erase pub) :=
  map_bind_image hf fun _ => rfl

theorem onEscrow_erase {f : Escrow → Except Revert Escrow} :
    (onEscrow f w).map (erase pub) = onEscrow f (w.erase pub) :=
  map_bind_eq fun _ _ => rfl

theorem onAdapter_erase {α : Type} {f : Adapter → X → Except Revert (Adapter × X × α)}
    {f' : Adapter → Y → Except Revert (Adapter × Y × α)}
    (hf : (f w.adapter w.ext).map (fun r => (r.1, pub r.2.1, r.2.2)) = f' w.adapter (pub w.ext)) :
    (onAdapter f w).map (erase pub) = onAdapter f' (w.erase pub) :=
  map_bind_image hf fun _ => rfl

end World

end Leopold
