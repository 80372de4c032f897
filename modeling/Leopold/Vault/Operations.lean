import Leopold.Vault.Strategy

/-!
# The entry points of `LeopoldVault`

Registration, deposits and withdrawals, sponsoring, the settlement of a round and the payment of
winnings, in the order of the source.  A call runs as one step on the joint state of the vault,
the escrow, the adapter and the third-party contracts: the entry points that hand control to a
token are guarded against reentrancy, and the escrow pays only after its ledgers are updated.
-/

namespace Leopold

open Lib

variable {E64 E128 EBool X : Type} (fhe : Fhe E64 E128 EBool) (E : Externals E64 EBool X)
  (cfg : Config)

/-- An encrypted input of a transaction with the proof that binds it to its sender. -/
structure EncryptedInput (E64 : Type) where
  handle : E64
  verified : Bool

/-- `FHE.fromExternal`. -/
def EncryptedInput.fromExternal (input : EncryptedInput E64) : Except Revert E64 := do
  revertIf (input.verified = false) .external
  return input.handle

namespace Vault

/-! ## Construction -/

/-- The checks of the constructor before it deploys the adapter and the escrow. -/
def constructorChecks : Except Revert Unit := do
  revertIf (cfg.asset = 0) (.vault .invalidAddress)
  revertIf (cfg.vaultId = 0 ∨ cfg.vaultId > 4 ∨ cfg.vaultName = 0 ∨ cfg.roundDuration = 0 ∨
      cfg.roundDuration > MAX_ROUND_DURATION ∨ cfg.firstRoundOpensAt = 0)
    (.vault .invalidConfiguration)
  revertIf (E.underlying = 0 ∨ E.rate = 0 ∨ E.decimals ≠ 6) (.vault .invalidConfiguration)
  if cfg.compoundComet = 0 then
    revertIf (cfg.strategyGuardian ≠ 0 ∨ cfg.minimumStrategyEpochAge ≠ 0)
      (.vault .invalidConfiguration)
  else
    revertIf (cfg.strategyGuardian = 0 ∨ cfg.minimumStrategyEpochAge = 0)
      (.vault .invalidConfiguration)

/-- The storage the constructor writes before it opens the first round. -/
def zeroLedger : Vault E64 E128 EBool :=
  let zero64 := fhe.asEuint64 0
  { unset fhe with
    totalPrincipal := zero64
    liquidPrincipal := zero64
    deployedPrincipal := zero64
    principalInTransition := zero64
    strategyShortfall := zero64
    liquidPrizeAssets := zero64
    realizedSurplus := zero64
    reservedPrize := zero64
    winningsLiability := zero64
    uncommittedYield := zero64
    activeRoundId := 1
    acl := [cfg.allowThis (.uint64 zero64), cfg.allowThis (.uint128 (fhe.asEuint128 0))] }

/-! ## Registration, deposits and withdrawals -/

def acceptBondRegistration (sender : Address) (roundId : Nat) (account : Address) (now : Nat)
    (v : Vault E64 E128 EBool) : Except Revert (Vault E64 E128 EBool) := do
  revertIf (sender ≠ cfg.escrow) (.vault .unauthorizedBondEscrow)
  revertIf (account = 0 ∨ roundId ≠ v.activeRoundId) (.vault .invalidRound)
  revertIf (v.isActiveRoundOpen now = false) (.vault .roundNotOpen)
  revertIf (v.eligibilityStart roundId account ≠ 0) (.vault .participantAlreadyRegistered)
  let v := { v with
    eligibilityStart := Function.update v.eligibilityStart roundId
      (Function.update (v.eligibilityStart roundId) account (uint64 now))
    roundParticipants := Function.update v.roundParticipants roundId
      (v.roundParticipants roundId ++ [account]) }
  let v ← accrueEligible fhe cfg roundId (uint64 now) v
  let principal :=
    if fhe.isInitialized (v.principal account) then v.principal account else fhe.asEuint64 0
  let round := v.rounds roundId
  let eligibleBalance := fhe.add64 round.eligibleBalance principal
  return (v.setRound roundId { round with eligibleBalance := eligibleBalance }).grant
    [cfg.allowThis (.uint64 eligibleBalance)]

/-- Answers whether the transfer is accepted. -/
def onConfidentialTransferReceived (sender holder : Address) (amount : E64) (dataLength now : Nat)
    (v : Vault E64 E128 EBool) : Except Revert (Vault E64 E128 EBool × EBool) := do
  revertIf (sender ≠ cfg.asset) (.vault .unauthorizedAsset)
  revertIf (dataLength ≠ 0) (.vault .invalidCallbackData)
  revertIf (v.isActiveRoundOpen now = false) (.vault .roundNotOpen)
  let remainingCapacity := fhe.sub64 (fhe.asEuint64 MAX_POOL_BASE_UNITS) v.totalPrincipal
  let withinCap := fhe.le64 amount remainingCapacity
  let positive := fhe.gt64 amount (fhe.asEuint64 0)
  let accepted := fhe.and withinCap positive
  let acceptedAmount := fhe.select64 accepted amount (fhe.asEuint64 0)
  let newUserBalance := fhe.add64 (v.principal holder) acceptedAmount
  let v ← checkpointUser fhe cfg holder newUserBalance (uint64 now) v
  let v := { v with
    principal := Function.update v.principal holder newUserBalance
    totalPrincipal := fhe.add64 v.totalPrincipal acceptedAmount
    liquidPrincipal := fhe.add64 v.liquidPrincipal acceptedAmount }
  let v ← changeEligible fhe cfg holder (fhe.add64 · acceptedAmount) (uint64 now) v
  return (v.persistPrincipalState cfg holder, accepted)

/-- The part of `withdraw` after the transfer: the amount sent leaves the ledger. -/
def recordWithdrawal (sender : Address) (sent : E64) (now : Nat) (v : Vault E64 E128 EBool) :
    Except Revert (Vault E64 E128 EBool) := do
  let newUserBalance := fhe.sub64 (v.principal sender) sent
  let v ← checkpointUser fhe cfg sender newUserBalance (uint64 now) v
  let v := { v with
    principal := Function.update v.principal sender newUserBalance
    totalPrincipal := fhe.sub64 v.totalPrincipal sent
    liquidPrincipal := fhe.sub64 v.liquidPrincipal sent }
  let v ← changeEligible fhe cfg sender (fhe.sub64 · sent) (uint64 now) v
  return (v.persistPrincipalState cfg sender).grant [.allow (.uint64 sent) sender]

/-- The guard of `contributeSponsor` on its round. -/
def requireSponsorRound (roundId : Nat) (v : Vault E64 E128 EBool) :
    Except Revert Unit :=
  if roundId ≠ v.activeRoundId then do
    let nextRoundId ← add 256 v.activeRoundId 1
    revertIf (roundId ≠ nextRoundId) (.vault .invalidSponsorRound)
  else .ok ()

/-! ## The steps of a draw -/

/-- The guard `if (round.state != expected) revert InvalidRoundState(round.state, expected)`. -/
def requireState (roundId : Nat) (expected : RoundState) (v : Vault E64 E128 EBool) :
    Except Revert Unit :=
  revertIf ((v.rounds roundId).state ≠ expected)
    (.vault (.invalidRoundState (v.rounds roundId).state expected))

def closeRound (now : Nat) (v : Vault E64 E128 EBool) :
    Except Revert (Vault E64 E128 EBool) := do
  let closingRoundId := v.activeRoundId
  v.requireState closingRoundId .open
  revertIf (now < (v.rounds closingRoundId).closesAt) (.vault .roundStillOpen)
  let v ← accrueEligible fhe cfg closingRoundId (v.rounds closingRoundId).closesAt v
  let round := v.rounds closingRoundId
  let aggregate := round.eligibleCumulative
  let publicPrize ← add 64 (v.publicSponsoredPrize closingRoundId) v.publicUncommittedYield
  let roundReservedPrize := fhe.add64 (v.sponsoredPrize closingRoundId) v.uncommittedYield
  let v := { v with
    reservedPrize := fhe.add64 v.reservedPrize roundReservedPrize
    realizedSurplus := fhe.sub64 v.realizedSurplus v.uncommittedYield
    uncommittedYield := fhe.asEuint64 0
    publicUncommittedYield := 0 }
  let v := v.setRound closingRoundId { round with
    aggregateTwab := aggregate
    publicPrize := publicPrize
    reservedPrize := roundReservedPrize
    participantCountSnapshot := (v.roundParticipants closingRoundId).length
    state := .aggregatePending }
  let v := v.grant [cfg.allowThis (.uint128 aggregate), cfg.allowThis (.uint64 roundReservedPrize),
    cfg.allowThis (.uint64 v.reservedPrize), cfg.allowThis (.uint64 v.realizedSurplus),
    cfg.allowThis (.uint64 v.uncommittedYield), .makePubliclyDecryptable (.uint128 aggregate)]
  let nextRoundId ← add 256 closingRoundId 1
  initializeRound fhe cfg nextRoundId round.closesAt { v with activeRoundId := nextRoundId }

def finalizeAggregate (roundId : Nat) (cleartexts : Cleartexts) (proof : DecryptionProof)
    (v : Vault E64 E128 EBool) : Except Revert (Vault E64 E128 EBool) := do
  v.requireState roundId .aggregatePending
  revertIf (cleartexts.length ≠ 32) (.vault .invalidCleartextEncoding)
  let clearValue ← cleartexts.decodeUint256
  revertIf (clearValue > MAX_AGGREGATE_TWAB) (.vault .aggregateOutOfDomain)
  let round := v.rounds roundId
  revertIf (fhe.checkSignatures128 round.aggregateTwab clearValue proof = false) .external
  return v.setRound roundId { round with
    publicAggregateTwab := clearValue
    state := if clearValue = 0 then .empty else .aggregateFinalized }

/-- The acceptance of the ticket of a round. -/
def acceptTicket (roundId : Nat) (round : Round E64 E128 EBool) (candidate : E128)
    (v : Vault E64 E128 EBool) : Vault E64 E128 EBool :=
  let ticket := fhe.rem128 candidate (fhe.asEuint128 round.publicAggregateTwab)
  (v.setRound roundId { round with acceptedTicket := ticket, state := .ticketAccepted }).grant
    [cfg.allowThis (.uint128 ticket)]

/-- `candidate` is what `FHE.randEuint128()` answers. -/
def generateRandomCandidate (roundId : Nat) (candidate : E128) (v : Vault E64 E128 EBool) :
    Except Revert (Vault E64 E128 EBool) := do
  let round := v.rounds roundId
  revertIf (round.state ≠ .aggregateFinalized ∧ round.state ≠ .candidateRejected)
    (.vault (.invalidRoundState round.state .aggregateFinalized))
  let totalWeight := round.publicAggregateTwab
  revertIf (totalWeight = 0 ∨ totalWeight > MAX_AGGREGATE_TWAB) (.vault .aggregateOutOfDomain)
  let round := { round with candidate := candidate }
  let attempt ← add 32 (v.candidateAttempts roundId) 1
  let v := ({ v with
      candidateAttempts := Function.update v.candidateAttempts roundId attempt }).grant
    [cfg.allowThis (.uint128 candidate)]
  let domain := 2 ^ 128
  let limit := (domain / totalWeight) * totalWeight
  if limit = domain then
    return v.acceptTicket fhe cfg roundId round candidate
  else
    let valid := fhe.lt128 candidate (fhe.asEuint128 limit)
    return (v.setRound roundId { round with
        candidateValid := valid, state := .candidateValidityPending }).grant
      [cfg.allowThis (.bool valid), .makePubliclyDecryptable (.bool valid)]

variable {cfg} in
/-- `_checkBooleanProof`. -/
def checkBooleanProof (handle : EBool) (cleartexts : Cleartexts) (proof : DecryptionProof) :
    Except Revert Bool := do
  let clearValue ← cleartexts.decodeBool
  revertIf (fhe.checkSignaturesBool handle clearValue proof = false) .external
  return clearValue

def finalizeCandidateValidity (roundId : Nat) (cleartexts : Cleartexts) (proof : DecryptionProof)
    (v : Vault E64 E128 EBool) : Except Revert (Vault E64 E128 EBool) := do
  let round := v.rounds roundId
  revertIf (round.state ≠ .candidateValidityPending) (.vault .candidateNotPending)
  revertIf (cleartexts.length ≠ 32) (.vault .invalidCleartextEncoding)
  let valid ← checkBooleanProof fhe round.candidateValid cleartexts proof
  if valid = false then
    return v.setRound roundId { round with state := .candidateRejected }
  else
    return v.acceptTicket fhe cfg roundId round round.candidate

/-- The state in which `processSelection` enters its loop. -/
def startSelection (roundId : Nat) (v : Vault E64 E128 EBool) :
    Except Revert (Vault E64 E128 EBool) :=
  let round := v.rounds roundId
  if round.state = .ticketAccepted then
    let zero128 := fhe.asEuint128 0
    let zero64 := fhe.asEuint64 0
    .ok ((v.setRound roundId { round with
        state := .winnerProcessing
        selectionCumulative := zero128
        encryptedWinnerCount := zero64 }).grant
      [cfg.allowThis (.uint128 zero128), cfg.allowThis (.uint64 zero64)])
  else do
    revertIf (round.state ≠ .winnerProcessing)
      (.vault (.invalidRoundState round.state .winnerProcessing))
    return v

/-- The end of `processSelection`: a complete traversal requests its reconciliation. -/
def requestReconciliation (roundId : Nat) (v : Vault E64 E128 EBool) : Vault E64 E128 EBool :=
  let round := v.rounds roundId
  if round.selectionCursor = round.participantCountSnapshot then
    let cumulativeMatches :=
      fhe.eq128 round.selectionCumulative (fhe.asEuint128 round.publicAggregateTwab)
    let exactlyOne := fhe.eq64 round.encryptedWinnerCount (fhe.asEuint64 1)
    let reconciled := fhe.and cumulativeMatches exactlyOne
    (v.setRound roundId { round with
        reconciliationValid := reconciled, state := .reconciliationPending }).grant
      [cfg.allowThis (.bool reconciled), .makePubliclyDecryptable (.bool reconciled)]
  else v

variable {cfg} in
def finalizeSelectionReconciliation (roundId : Nat) (cleartexts : Cleartexts)
    (proof : DecryptionProof) (v : Vault E64 E128 EBool) :
    Except Revert (Vault E64 E128 EBool) := do
  let round := v.rounds roundId
  revertIf (round.state ≠ .reconciliationPending) (.vault .reconciliationNotPending)
  revertIf (cleartexts.length ≠ 32) (.vault .invalidCleartextEncoding)
  let valid ← checkBooleanProof fhe round.reconciliationValid cleartexts proof
  if valid = false then
    return v.setRound roundId { round with state := .reconciliationFailed }
  else
    return v.setRound roundId { round with state := .readyToAllocate }

variable {fhe cfg} in
/-- The state in which `processAllocation` accrues and enters its loop. -/
def startAllocation (roundId : Nat) (v : Vault E64 E128 EBool) :
    Except Revert (Vault E64 E128 EBool) :=
  let round := v.rounds roundId
  if round.state = .readyToAllocate then
    .ok (v.setRound roundId { round with state := .allocationProcessing })
  else do
    revertIf (round.state ≠ .allocationProcessing) (.vault .settlementNotReady)
    return v

variable {fhe cfg} in
/-- The end of `processAllocation`. -/
def finishAllocation (roundId : Nat) (v : Vault E64 E128 EBool) : Vault E64 E128 EBool :=
  let round := v.rounds roundId
  if round.allocationCursor = round.participantCountSnapshot then
    v.setRound roundId { round with state := .winningsAllocated }
  else v

/-- Answers the encrypted weight. -/
def materializeMyRoundWeight (sender : Address) (roundId : Nat) (v : Vault E64 E128 EBool) :
    Except Revert (Vault E64 E128 EBool × E128) := do
  let round := v.rounds roundId
  revertIf (round.state = .uninitialized ∨ round.state = .open) (.vault .weightUnavailable)
  let startTimestamp := v.eligibilityStart roundId sender
  revertIf (startTimestamp = 0) (.vault .participantNotRegistered)
  let start ← cumulativeAt fhe sender startTimestamp v
  let fin ← cumulativeAt fhe sender round.closesAt v
  let weight := fhe.sub128 fin start
  return (v.grant [cfg.allowThis (.uint128 weight), .allow (.uint128 weight) sender], weight)

variable {fhe cfg} in
def setAutoSavePreference (sender : Address) (preference : AutoSavePreference) (now : Nat)
    (v : Vault E64 E128 EBool) : Vault E64 E128 EBool :=
  let observations := v.preferenceObservations sender
  let written :=
    match observations.getLast? with
    | some previous =>
      if previous.timestamp = uint64 now then
        observations.dropLast ++ [⟨previous.timestamp, preference⟩]
      else observations ++ [⟨uint64 now, preference⟩]
    | none => observations ++ [⟨uint64 now, preference⟩]
  { v with
    autoSavePreference := Function.update v.autoSavePreference sender preference
    preferenceObservations := Function.update v.preferenceObservations sender written }

end Vault

end Leopold
