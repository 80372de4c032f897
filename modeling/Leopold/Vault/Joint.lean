import Leopold.Vault.Operations

/-!
# The calls that involve several contracts

The entry points that move tokens or report to the escrow, as steps on the joint state.  The
vault calls the escrow and the adapter under its own address.
-/

namespace Leopold

open Lib

variable {E64 E128 EBool X : Type} (fhe : Fhe E64 E128 EBool) (E : Externals E64 EBool X)
  (cfg : Config)

namespace World

/-- The deployment: the vault's constructor creates the adapter, when a market is configured, and
the escrow, whose address may already hold `nativeBalance`. -/
def construct (nativeBalance now : Nat) (x : X) : Except Revert (World E64 E128 EBool X) := do
  Vault.constructorChecks E cfg
  let a ← (if cfg.hasStrategy then Adapter.construct E cfg x else .ok Adapter.initial)
  let e ← Escrow.construct cfg nativeBalance
  let v ← Vault.initializeRound fhe cfg 1 cfg.firstRoundOpensAt (Vault.zeroLedger fhe cfg)
  return { vault := v, escrow := e, adapter := a, ext := x, now := now }

variable {E} in
/-- `LeopoldSettlementBondEscrow.registerForRound`, with the registration it makes the vault
accept. -/
def registerForRound (sender : Address) (value roundId : Nat) (w : World E64 E128 EBool X) :
    Except Revert (World E64 E128 EBool X) := do
  let e ← w.escrow.registerForRound cfg sender value roundId
  let v ← w.vault.acceptBondRegistration fhe cfg cfg.escrow roundId sender w.now
  return { w with escrow := e, vault := v }

/-- `confidentialTransferAndCall` of the asset by `holder` to the vault: the debit, the callback
and the return of what the callback does not accept. -/
def deposit (holder : Address) (amount : E64) (dataLength : Nat) (w : World E64 E128 EBool X) :
    Except Revert (World E64 E128 EBool X) := do
  let (x, sent) ← orRevert .external (E.transferAndCallSend w.ext holder cfg.vault amount)
  let (v, accepted) ←
    w.vault.onConfidentialTransferReceived fhe cfg cfg.asset holder sent dataLength w.now
  let x ← orRevert .external (E.transferAndCallRefund x cfg.vault holder sent accepted)
  return { w with vault := v, ext := x }

/-- Answers the amount sent. -/
def withdraw (sender : Address) (input : EncryptedInput E64) (w : World E64 E128 EBool X) :
    Except Revert (World E64 E128 EBool X × E64) := do
  let v := w.vault
  revertIf (v.isActiveRoundOpen w.now = false) (.vault .roundNotOpen)
  let requested ← input.fromExternal
  let withinUserBalance := fhe.le64 requested (v.principal sender)
  let withinLiquidPrincipal := fhe.le64 requested v.liquidPrincipal
  let eligible := fhe.select64 (fhe.and withinUserBalance withinLiquidPrincipal) requested
    (fhe.asEuint64 0)
  let (x, sent) ← orRevert .external (E.confidentialTransfer w.ext cfg.vault sender eligible)
  let v ← v.recordWithdrawal fhe cfg sender sent w.now
  return ({ w with vault := v, ext := x }, sent)

def contributeSponsor (sender : Address) (roundId units : Nat) (w : World E64 E128 EBool X) :
    Except Revert (World E64 E128 EBool X) := do
  let v := w.vault
  revertIf (v.isActiveRoundOpen w.now = false) (.vault .roundNotOpen)
  v.requireSponsorRound roundId
  revertIf (units = 0) (.vault .invalidSponsorAmount)
  let previous := v.publicSponsoredPrize roundId
  revertIf (previous + units > MAX_POOL_BASE_UNITS) (.vault .invalidSponsorAmount)
  let underlyingAmount ← Vault.mul units E.rate
  let x ← orRevert .external
    (E.safeTransferFrom w.ext cfg.vault sender cfg.vault underlyingAmount)
  let (x, wrapped) ← Vault.wrapUnderlying E cfg underlyingAmount x
  let publicSponsored ← Vault.add 64 previous units
  let v := { v with
    sponsoredPrize := Function.update v.sponsoredPrize roundId
      (fhe.add64 (v.sponsoredPrize roundId) wrapped)
    liquidPrizeAssets := fhe.add64 v.liquidPrizeAssets wrapped
    publicSponsoredPrize := Function.update v.publicSponsoredPrize roundId publicSponsored }
  return { w with
    ext := x
    vault := v.grant [cfg.allowThis (.uint64 (v.sponsoredPrize roundId)),
      cfg.allowThis (.uint64 v.liquidPrizeAssets)] }

/-- Answers the amount sent. -/
def withdrawWinnings (sender : Address) (input : EncryptedInput E64)
    (w : World E64 E128 EBool X) : Except Revert (World E64 E128 EBool X × E64) := do
  let v := w.vault
  let requested ← input.fromExternal
  let entitled := fhe.le64 requested (v.winnings sender)
  let liquid := fhe.le64 requested v.liquidPrizeAssets
  let eligible := fhe.select64 (fhe.and entitled liquid) requested (fhe.asEuint64 0)
  let (x, sent) ← orRevert .external (E.confidentialTransfer w.ext cfg.vault sender eligible)
  let v := { v with
    winnings := Function.update v.winnings sender (fhe.sub64 (v.winnings sender) sent)
    winningsLiability := fhe.sub64 v.winningsLiability sent
    liquidPrizeAssets := fhe.sub64 v.liquidPrizeAssets sent }
  return ({ w with
    ext := x
    vault := v.grant [cfg.allowThis (.uint64 (v.winnings sender)),
      .allow (.uint64 (v.winnings sender)) sender, cfg.allowThis (.uint64 v.winningsLiability),
      cfg.allowThis (.uint64 v.liquidPrizeAssets), .allow (.uint64 sent) sender] }, sent)

/-! ## The settlement passes -/

/-- How many participants a pass processes: the loop from `cursor` to
`min(cursor + maxParticipants, snapshot)`. -/
def chunk (cursor maxParticipants snapshot : Nat) : Except Revert Nat := do
  let endCursor ← Vault.add 256 cursor maxParticipants
  return (if endCursor > snapshot then snapshot else endCursor) - cursor

variable {E} in
def processSelection (sender : Address) (roundId maxParticipants : Nat)
    (w : World E64 E128 EBool X) : Except Revert (World E64 E128 EBool X) := do
  revertIf (maxParticipants = 0 ∨ maxParticipants > MAX_SELECTION_CHUNK)
    (.vault .invalidChunkSize)
  let v ← w.vault.startSelection fhe cfg roundId
  let cursor := (v.rounds roundId).selectionCursor
  let processed ← chunk cursor maxParticipants (v.rounds roundId).participantCountSnapshot
  let v ← Vault.forParticipants (Vault.selectParticipant fhe cfg roundId) roundId cursor
    processed v
  let v := v.setRound roundId { v.rounds roundId with selectionCursor := cursor + processed }
  let e ← w.escrow.creditProgress cfg cfg.vault roundId 1 processed sender
  return { w with vault := v.requestReconciliation fhe cfg roundId, escrow := e }

variable {E} in
def processAllocation (sender : Address) (roundId maxParticipants : Nat)
    (w : World E64 E128 EBool X) : Except Revert (World E64 E128 EBool X) := do
  revertIf (maxParticipants = 0 ∨ maxParticipants > MAX_ALLOCATION_CHUNK)
    (.vault .invalidChunkSize)
  revertIf (w.vault.isActiveRoundOpen w.now = false) (.vault .roundNotOpen)
  let v ← w.vault.startAllocation roundId
  let v ← v.accrueEligible fhe cfg v.activeRoundId (uint64 w.now)
  let cursor := (v.rounds roundId).allocationCursor
  let processed ← chunk cursor maxParticipants (v.rounds roundId).participantCountSnapshot
  let v ← Vault.forParticipants (Vault.allocateParticipant fhe cfg roundId w.now) roundId cursor
    processed v
  let v := v.setRound roundId { v.rounds roundId with allocationCursor := cursor + processed }
  let e ← w.escrow.creditProgress cfg cfg.vault roundId 2 processed sender
  return { w with vault := v.finishAllocation roundId, escrow := e }

variable {fhe E} in
/-- The round becomes settled and its bonds are released for `completedPasses` passes. -/
def settle (roundId completedPasses : Nat) (w : World E64 E128 EBool X) :
    Except Revert (World E64 E128 EBool X) := do
  let v := w.vault.setRound roundId { w.vault.rounds roundId with state := .settled }
  let e ← w.escrow.finalizeRound cfg cfg.vault roundId completedPasses
  return { w with vault := v, escrow := e }

variable {fhe E} in
def finalizeSettlement (roundId : Nat) (w : World E64 E128 EBool X) :
    Except Revert (World E64 E128 EBool X) := do
  w.vault.requireState roundId .winningsAllocated
  settle cfg roundId 2 w

variable {E} in
def recoverFailedReconciliation (roundId : Nat) (w : World E64 E128 EBool X) :
    Except Revert (World E64 E128 EBool X) := do
  revertIf ((w.vault.rounds roundId).state ≠ .reconciliationFailed) (.vault .settlementNotReady)
  let v ← w.vault.rollPrizeForward fhe cfg roundId
  settle cfg roundId 1 { w with vault := v }

variable {E} in
def settleEmptyRound (roundId : Nat) (w : World E64 E128 EBool X) :
    Except Revert (World E64 E128 EBool X) := do
  w.vault.requireState roundId .empty
  let v ← w.vault.rollPrizeForward fhe cfg roundId
  settle cfg roundId 0 { w with vault := v }

variable {fhe E} in
/-- A step of the vault alone. -/
def onVault (f : Vault E64 E128 EBool → Except Revert (Vault E64 E128 EBool))
    (w : World E64 E128 EBool X) : Except Revert (World E64 E128 EBool X) := do
  let v ← f w.vault
  return { w with vault := v }

variable {fhe E} in
/-- A step of the escrow alone. -/
def onEscrow (f : Escrow → Except Revert Escrow) (w : World E64 E128 EBool X) :
    Except Revert (World E64 E128 EBool X) := do
  let e ← f w.escrow
  return { w with escrow := e }

end World

end Leopold
