import Leopold.Vault.Joint
import Leopold.Lib.Transition

/-!
# The system of the contracts

A `Call` is a transaction of an outside account to one entry point of the three contracts;
`exec` runs it.  The system also lets time pass, lets other accounts use the third-party
contracts, and lets native currency be forced into the escrow.
-/

namespace Leopold

open Lib

variable {E64 E128 EBool X : Type}

/-- The entry points with their arguments; `candidate` is the random value the coprocessor draws
and `accepts` whether the recipient of a payment takes it. -/
inductive Call (E64 E128 EBool : Type)
  | registerForRound (value roundId : Nat)
  | acceptBondRegistration (roundId : Nat) (account : Address)
  | deposit (amount : E64) (dataLength : Nat)
  | onConfidentialTransferReceived (holder : Address) (amount : E64) (dataLength : Nat)
  | withdraw (input : EncryptedInput E64)
  | contributeSponsor (roundId units : Nat)
  | openStrategyEpoch (kind : StrategyEpochKind)
  | requestStrategyAmount (epochId : Nat)
  | finalizeStrategyDeployment (epochId clearAmount : Nat) (proof : DecryptionProof)
  | finalizeStrategyReplenishment (epochId : Nat) (cleartexts : Cleartexts)
      (proof : DecryptionProof)
  | harvestStrategyYield
  | setStrategyPaused (paused : Bool)
  | emergencyUnwindStrategy
  | cancelAgingStrategyEpoch (epochId : Nat)
  | cancelExpiredStrategyEpoch (epochId clearAmount : Nat) (proof : DecryptionProof)
  | closeRound
  | finalizeAggregate (roundId : Nat) (cleartexts : Cleartexts) (proof : DecryptionProof)
  | generateRandomCandidate (roundId : Nat) (candidate : E128)
  | finalizeCandidateValidity (roundId : Nat) (cleartexts : Cleartexts) (proof : DecryptionProof)
  | processSelection (roundId maxParticipants : Nat)
  | finalizeSelectionReconciliation (roundId : Nat) (cleartexts : Cleartexts)
      (proof : DecryptionProof)
  | processAllocation (roundId maxParticipants : Nat)
  | finalizeSettlement (roundId : Nat)
  | recoverFailedReconciliation (roundId : Nat)
  | settleEmptyRound (roundId : Nat)
  | withdrawWinnings (input : EncryptedInput E64)
  | materializeMyRoundWeight (roundId : Nat)
  | setAutoSavePreference (preference : AutoSavePreference)
  | creditProgress (roundId pass participants : Nat) (progressor : Address)
  | finalizeRound (roundId completedPasses : Nat)
  | claimBondRefund (roundId : Nat) (accepts : Bool)
  | withdrawSettlementRewards (accepts : Bool)
  | deployAssets (amount : Nat)
  | withdrawPrincipal (amount : Nat)
  | harvest
  | setPaused (paused : Bool)
  | emergencyExit

variable (fhe : Fhe E64 E128 EBool) (E : Externals E64 EBool X) (cfg : Config)

variable {fhe} in
/-- A direct call of the adapter. -/
def World.onAdapter {α : Type} (f : Adapter → X → Except Revert (Adapter × X × α))
    (w : World E64 E128 EBool X) : Except Revert (World E64 E128 EBool X) := do
  let (a, x, _) ← f w.adapter w.ext
  return { w with adapter := a, ext := x }

open World in
/-- Run a call of `sender`. -/
def exec (sender : Address) (w : World E64 E128 EBool X) :
    Call E64 E128 EBool → Except Revert (World E64 E128 EBool X)
  | .registerForRound value roundId => registerForRound fhe cfg sender value roundId w
  | .acceptBondRegistration roundId account =>
    onVault (Vault.acceptBondRegistration fhe cfg sender roundId account w.now) w
  | .deposit amount dataLength => deposit fhe E cfg sender amount dataLength w
  | .onConfidentialTransferReceived holder amount dataLength =>
    onVault (fun v => (v.onConfidentialTransferReceived fhe cfg sender holder amount dataLength
      w.now).map Prod.fst) w
  | .withdraw input => (withdraw fhe E cfg sender input w).map Prod.fst
  | .contributeSponsor roundId units => contributeSponsor fhe E cfg sender roundId units w
  | .openStrategyEpoch kind => (openStrategyEpoch cfg kind w).map Prod.fst
  | .requestStrategyAmount epochId => requestStrategyAmount fhe E cfg epochId w
  | .finalizeStrategyDeployment epochId clearAmount proof =>
    finalizeStrategyDeployment fhe E cfg epochId clearAmount proof w
  | .finalizeStrategyReplenishment epochId cleartexts proof =>
    finalizeStrategyReplenishment fhe E cfg epochId cleartexts proof w
  | .harvestStrategyYield => (harvestStrategyYield fhe E cfg w).map Prod.fst
  | .setStrategyPaused paused => setStrategyPaused cfg sender paused w
  | .emergencyUnwindStrategy => emergencyUnwindStrategy fhe E cfg w
  | .cancelAgingStrategyEpoch epochId => cancelAgingStrategyEpoch cfg epochId w
  | .cancelExpiredStrategyEpoch epochId clearAmount proof =>
    cancelExpiredStrategyEpoch fhe E cfg epochId clearAmount proof w
  | .closeRound => onVault (Vault.closeRound fhe cfg w.now) w
  | .finalizeAggregate roundId cleartexts proof =>
    onVault (Vault.finalizeAggregate fhe roundId cleartexts proof) w
  | .generateRandomCandidate roundId candidate =>
    onVault (Vault.generateRandomCandidate fhe cfg roundId candidate) w
  | .finalizeCandidateValidity roundId cleartexts proof =>
    onVault (Vault.finalizeCandidateValidity fhe cfg roundId cleartexts proof) w
  | .processSelection roundId maxParticipants =>
    processSelection fhe cfg sender roundId maxParticipants w
  | .finalizeSelectionReconciliation roundId cleartexts proof =>
    onVault (Vault.finalizeSelectionReconciliation fhe roundId cleartexts proof) w
  | .processAllocation roundId maxParticipants =>
    processAllocation fhe cfg sender roundId maxParticipants w
  | .finalizeSettlement roundId => finalizeSettlement cfg roundId w
  | .recoverFailedReconciliation roundId => recoverFailedReconciliation fhe cfg roundId w
  | .settleEmptyRound roundId => settleEmptyRound fhe cfg roundId w
  | .withdrawWinnings input => (withdrawWinnings fhe E cfg sender input w).map Prod.fst
  | .materializeMyRoundWeight roundId =>
    onVault (fun v => (v.materializeMyRoundWeight fhe cfg sender roundId).map Prod.fst) w
  | .setAutoSavePreference preference =>
    onVault (fun v => .ok (v.setAutoSavePreference sender preference w.now)) w
  | .creditProgress roundId pass participants progressor =>
    onEscrow (Escrow.creditProgress cfg sender roundId pass participants progressor) w
  | .finalizeRound roundId completedPasses =>
    onEscrow (Escrow.finalizeRound cfg sender roundId completedPasses) w
  | .claimBondRefund roundId accepts => onEscrow (Escrow.claimBondRefund sender roundId accepts) w
  | .withdrawSettlementRewards accepts =>
    onEscrow (Escrow.withdrawSettlementRewards sender accepts) w
  | .deployAssets amount => onAdapter (Adapter.deployAssets E cfg sender amount) w
  | .withdrawPrincipal amount => onAdapter (Adapter.withdrawPrincipal E cfg sender amount) w
  | .harvest => onAdapter (Adapter.harvest E cfg sender) w
  | .setPaused paused => (w.adapter.setPaused cfg sender paused).map ({ w with adapter := · })
  | .emergencyExit => onAdapter (Adapter.emergencyExit E cfg sender) w

/-- What happens in one step of the system. -/
inductive Label (E64 E128 EBool X : Type)
  | call (sender : Address) (call : Call E64 E128 EBool)
  | tick (now : Nat)
  | thirdParty (ext : X)
  | forceNative (amount : Nat)

/-- One step: a successful call of an outside account, time that does not run backwards, a
transaction of other accounts at the third-party contracts, or native currency forced into the
escrow. -/
def Step (w : World E64 E128 EBool X) : Label E64 E128 EBool X → World E64 E128 EBool X → Prop
  | .call sender call, w' => cfg.External sender ∧ exec fhe E cfg sender w call = .ok w'
  | .tick now, w' => w.now ≤ now ∧ w' = { w with now := now }
  | .thirdParty ext, w' => E.thirdParty w.ext ext ∧ w' = { w with ext := ext }
  | .forceNative amount, w' =>
    w' = { w with escrow :=
      { w.escrow with nativeBalance := w.escrow.nativeBalance + amount } }

/-- The runs of a deployment. -/
def system : TransitionSystem (World E64 E128 EBool X) (Label E64 E128 EBool X) where
  init w := ∃ nativeBalance now x, World.construct fhe E cfg nativeBalance now x = .ok w
  step := Step fhe E cfg

end Leopold
