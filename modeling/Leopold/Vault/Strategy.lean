import Leopold.Vault.Accounting

/-!
# The strategy epochs of `LeopoldVault`

An epoch ages, derives its encrypted amount, and either deploys principal to the adapter, brings
principal back, or is cancelled.  Events are left out; what the compiler checks while it builds
their arguments is kept.
-/

namespace Leopold

open Lib

variable {E64 E128 EBool X : Type} (fhe : Fhe E64 E128 EBool) (E : Externals E64 EBool X)
  (cfg : Config)

namespace World

variable {fhe E} in
/-- Answers the identifier of the epoch. -/
def openStrategyEpoch (kind : StrategyEpochKind) (w : World E64 E128 EBool X) :
    Except Revert (World E64 E128 EBool X × Nat) := do
  Vault.requireStrategy cfg
  revertIf (kind = .none) (.vault .invalidStrategyEpoch)
  revertIf (w.adapter.paused = true) (.vault .strategyPaused)
  let v := w.vault
  let current := v.strategyEpochs v.activeStrategyEpochId
  revertIf (current.state ≠ .none ∧ current.state ≠ .completed ∧ current.state ≠ .cancelled)
    (.vault .strategyEpochPending)
  let epochId ← Vault.add 256 v.activeStrategyEpochId 1
  let epoch := { v.strategyEpochs epochId with
    kind := kind, state := .aging, openedAt := uint64 w.now }
  -- the `eligibleAt` of the event is a checked sum
  let _ ← Vault.add 64 (uint64 w.now) cfg.minimumStrategyEpochAge
  return ({ w with vault := { v.setEpoch epochId epoch with activeStrategyEpochId := epochId } },
    epochId)

/-- The liquidity target, `LIQUIDITY_BUFFER_BPS` of the total principal. -/
def liquidityTarget (v : Vault E64 E128 EBool) : E64 :=
  fhe.div64 (fhe.mul64 v.totalPrincipal (fhe.asEuint64 LIQUIDITY_BUFFER_BPS)) (fhe.asEuint64 BPS)

/-- The `DEPLOY` branch of `requestStrategyAmount`: the excess over the target leaves the liquid
principal and is burned at the wrapper. -/
def requestDeployment (epochId : Nat) (epoch : StrategyEpoch E64) (w : World E64 E128 EBool X) :
    Except Revert (World E64 E128 EBool X) := do
  revertIf (w.adapter.paused = true) (.vault .strategyPaused)
  let v := w.vault
  let target := liquidityTarget fhe v
  let hasExcess := fhe.gt64 v.liquidPrincipal target
  let excess := fhe.select64 hasExcess (fhe.sub64 v.liquidPrincipal target) (fhe.asEuint64 0)
  let v := { v with
    liquidPrincipal := fhe.sub64 v.liquidPrincipal excess
    principalInTransition := fhe.add64 v.principalInTransition excess }
  let (x, requestId) ← orRevert .external (E.unwrap w.ext cfg.vault cfg.vault cfg.vault excess)
  let v := v.setEpoch epochId { epoch with
    amount := excess, unwrapRequestId := requestId, state := .unwrapPending }
  return { w with
    ext := x
    vault := v.grant [cfg.allowThis (.uint64 excess), cfg.allowThis (.uint64 v.liquidPrincipal),
      cfg.allowThis (.uint64 v.principalInTransition)] }

variable {E} in
/-- The `REPLENISH` branch of `requestStrategyAmount`: the deficit under the target, capped by
the basis of the adapter, becomes publicly decryptable. -/
def requestReplenishment (epochId : Nat) (epoch : StrategyEpoch E64) (rate : Nat)
    (w : World E64 E128 EBool X) : Except Revert (World E64 E128 EBool X) := do
  let v := w.vault
  let target := liquidityTarget fhe v
  let belowTarget := fhe.lt64 v.liquidPrincipal target
  let deficit := fhe.select64 belowTarget (fhe.sub64 target v.liquidPrincipal) (fhe.asEuint64 0)
  let publicBasis := w.adapter.deployedPrincipalBasis / rate
  revertIf (publicBasis > 2 ^ 64 - 1) (.vault .strategyAmountOutOfDomain)
  let withinBasis := fhe.le64 deficit (fhe.asEuint64 (uint64 publicBasis))
  let deficit := fhe.select64 withinBasis deficit (fhe.asEuint64 (uint64 publicBasis))
  let v := v.setEpoch epochId { epoch with amount := deficit, state := .amountPending }
  return { w with vault := v.grant [cfg.allowThis (.uint64 deficit),
    .makePubliclyDecryptable (.uint64 deficit), cfg.allowThis (.uint64 v.liquidPrincipal),
    cfg.allowThis (.uint64 v.principalInTransition)] }

def requestStrategyAmount (epochId : Nat) (w : World E64 E128 EBool X) :
    Except Revert (World E64 E128 EBool X) := do
  let epoch ← w.vault.strategyEpoch cfg epochId .aging
  revertIf (w.now < epoch.openedAt + cfg.minimumStrategyEpochAge) (.vault .strategyEpochNotReady)
  if epoch.kind = .deploy then requestDeployment fhe E cfg epochId epoch w
  else requestReplenishment fhe cfg epochId epoch E.rate w

def finalizeStrategyDeployment (epochId clearAmount : Nat) (proof : DecryptionProof)
    (w : World E64 E128 EBool X) : Except Revert (World E64 E128 EBool X) := do
  let epoch ← w.vault.strategyEpoch cfg epochId .unwrapPending
  revertIf (epoch.kind ≠ .deploy ∨ clearAmount > MAX_POOL_BASE_UNITS)
    (.vault .strategyAmountOutOfDomain)
  let x ← orRevert .external (E.finalizeUnwrap w.ext epoch.unwrapRequestId clearAmount proof)
  let underlyingAmount ← Vault.mul clearAmount E.rate
  let x ← orRevert .external (E.forceApprove x cfg.vault cfg.adapter underlyingAmount)
  let (a, x, deployed) ← w.adapter.deployAssets E cfg cfg.vault underlyingAmount x
  let x ← orRevert .external (E.forceApprove x cfg.vault cfg.adapter 0)
  revertIf (deployed ≠ underlyingAmount) (.vault .strategyAmountOutOfDomain)
  let v := w.vault
  let encryptedAmount := fhe.asEuint64 clearAmount
  let v := { v with
    principalInTransition := fhe.sub64 v.principalInTransition encryptedAmount
    deployedPrincipal := fhe.add64 v.deployedPrincipal encryptedAmount }
  let v := v.setEpoch epochId { epoch with publicAmount := clearAmount, state := .completed }
  return { w with
    adapter := a
    ext := x
    vault := v.grant [cfg.allowThis (.uint64 v.principalInTransition),
      cfg.allowThis (.uint64 v.deployedPrincipal)] }

def finalizeStrategyReplenishment (epochId : Nat) (cleartexts : Cleartexts)
    (proof : DecryptionProof) (w : World E64 E128 EBool X) :
    Except Revert (World E64 E128 EBool X) := do
  let epoch ← w.vault.strategyEpoch cfg epochId .amountPending
  revertIf (epoch.kind ≠ .replenish ∨ cleartexts.length ≠ 32) (.vault .invalidStrategyEpoch)
  let decoded ← cleartexts.decodeUint256
  revertIf (decoded > MAX_POOL_BASE_UNITS) (.vault .strategyAmountOutOfDomain)
  let underlyingAmount ← Vault.mul decoded E.rate
  revertIf (underlyingAmount > w.adapter.deployedPrincipalBasis)
    (.vault .strategyAmountOutOfDomain)
  revertIf (fhe.checkSignatures64 epoch.amount decoded proof = false) .external
  let clearAmount := uint64 decoded
  let (a, x, recovered) ← w.adapter.withdrawPrincipal E cfg cfg.vault underlyingAmount w.ext
  revertIf (recovered ≠ underlyingAmount) (.vault .strategyAmountOutOfDomain)
  let (x, wrapped) ← Vault.wrapUnderlying E cfg recovered x
  let v := w.vault
  let v := { v with
    deployedPrincipal := fhe.sub64 v.deployedPrincipal (fhe.asEuint64 clearAmount)
    liquidPrincipal := fhe.add64 v.liquidPrincipal wrapped }
  let v := v.setEpoch epochId { epoch with publicAmount := clearAmount, state := .completed }
  return { w with
    adapter := a
    ext := x
    vault := v.grant [cfg.allowThis (.uint64 v.deployedPrincipal),
      cfg.allowThis (.uint64 v.liquidPrincipal)] }

variable {E} in
/-- Surplus that enters the prize ledger: the cells of the uncommitted yield follow. -/
def realizeSurplus (surplus : E64) (units : Nat) (v : Vault E64 E128 EBool) :
    Except Revert (Vault E64 E128 EBool) := do
  let publicUncommittedYield ← Vault.add 64 v.publicUncommittedYield units
  let v := { v with
    uncommittedYield := fhe.add64 v.uncommittedYield surplus
    realizedSurplus := fhe.add64 v.realizedSurplus surplus
    liquidPrizeAssets := fhe.add64 v.liquidPrizeAssets surplus
    publicUncommittedYield := publicUncommittedYield }
  return v.grant [cfg.allowThis (.uint64 v.uncommittedYield),
    cfg.allowThis (.uint64 v.realizedSurplus), cfg.allowThis (.uint64 v.liquidPrizeAssets)]

/-- Answers the amount harvested. -/
def harvestStrategyYield (w : World E64 E128 EBool X) :
    Except Revert (World E64 E128 EBool X × Nat) := do
  Vault.requireStrategy cfg
  let (a, x, recovered) ← w.adapter.harvest E cfg cfg.vault w.ext
  if recovered = 0 then return ({ w with adapter := a, ext := x }, 0) else
  let confidentialUnits := recovered / E.rate
  revertIf (confidentialUnits > 2 ^ 64 - 1 ∨ recovered % E.rate ≠ 0)
    (.vault .strategyAmountOutOfDomain)
  let (x, wrapped) ← Vault.wrapUnderlying E cfg recovered x
  let harvested := uint64 confidentialUnits
  let v ← realizeSurplus fhe cfg wrapped harvested w.vault
  return ({ w with adapter := a, ext := x, vault := v }, harvested)

variable {E} in
def setStrategyPaused (sender : Address) (paused : Bool) (w : World E64 E128 EBool X) :
    Except Revert (World E64 E128 EBool X) := do
  Vault.requireStrategy cfg
  revertIf (sender ≠ cfg.strategyGuardian) (.vault .invalidAddress)
  let a ← w.adapter.setPaused cfg cfg.vault paused
  return { w with adapter := a }

def emergencyUnwindStrategy (w : World E64 E128 EBool X) :
    Except Revert (World E64 E128 EBool X) := do
  Vault.requireStrategy cfg
  revertIf (w.adapter.paused = false) (.vault .strategyPaused)
  let basisBefore := w.adapter.deployedPrincipalBasis
  let (a, x, recovered, shortfall) ← w.adapter.emergencyExit E cfg cfg.vault w.ext
  revertIf (recovered % E.rate ≠ 0 ∨ shortfall % E.rate ≠ 0) (.vault .strategyAmountOutOfDomain)
  let shortfallUnits := uint64 (shortfall / E.rate)
  let x ← (if recovered ≠ 0 then (Vault.wrapUnderlying E cfg recovered x).map Prod.fst
    else .ok x)
  let principalRecovered := if recovered < basisBefore then recovered else basisBefore
  let surplusRecovered := recovered - principalRecovered
  let v := w.vault
  let principalUnits := fhe.asEuint64 (uint64 (principalRecovered / E.rate))
  let v := { v with liquidPrincipal := fhe.add64 v.liquidPrincipal principalUnits }
  let surplusUnits := uint64 (surplusRecovered / E.rate)
  let v ← (if surplusRecovered ≠ 0 then
      realizeSurplus fhe cfg (fhe.asEuint64 surplusUnits) surplusUnits v
    else .ok v)
  let v := { v with
    deployedPrincipal := fhe.asEuint64 0
    strategyShortfall := fhe.add64 v.strategyShortfall (fhe.asEuint64 shortfallUnits) }
  return { w with
    adapter := a
    ext := x
    vault := v.grant [cfg.allowThis (.uint64 v.liquidPrincipal),
      cfg.allowThis (.uint64 v.deployedPrincipal), cfg.allowThis (.uint64 v.strategyShortfall)] }

variable {E} in
def cancelAgingStrategyEpoch (epochId : Nat) (w : World E64 E128 EBool X) :
    Except Revert (World E64 E128 EBool X) := do
  let epoch ← w.vault.strategyEpoch cfg epochId .aging
  return { w with vault := w.vault.setEpoch epochId { epoch with state := .cancelled } }

def cancelExpiredStrategyEpoch (epochId clearAmount : Nat) (proof : DecryptionProof)
    (w : World E64 E128 EBool X) : Except Revert (World E64 E128 EBool X) := do
  Vault.requireStrategy cfg
  let v := w.vault
  revertIf (epochId = 0 ∨ epochId ≠ v.activeStrategyEpochId) (.vault .invalidStrategyEpoch)
  let epoch := v.strategyEpochs epochId
  revertIf (w.now < epoch.openedAt + cfg.minimumStrategyEpochAge + STRATEGY_PROOF_DEADLINE)
    (.vault .strategyEpochNotReady)
  if epoch.state = .amountPending then
    return { w with vault := v.setEpoch epochId { epoch with state := .cancelled } }
  else
  revertIf (epoch.state ≠ .unwrapPending ∨ clearAmount > MAX_POOL_BASE_UNITS)
    (.vault .invalidStrategyEpoch)
  let x ← orRevert .external (E.finalizeUnwrap w.ext epoch.unwrapRequestId clearAmount proof)
  let underlyingAmount ← Vault.mul clearAmount E.rate
  let (x, wrapped) ← Vault.wrapUnderlying E cfg underlyingAmount x
  let v := { v with
    principalInTransition := fhe.sub64 v.principalInTransition (fhe.asEuint64 clearAmount)
    liquidPrincipal := fhe.add64 v.liquidPrincipal wrapped }
  let v := v.setEpoch epochId { epoch with state := .cancelled }
  return { w with
    ext := x
    vault := v.grant [cfg.allowThis (.uint64 v.principalInTransition),
      cfg.allowThis (.uint64 v.liquidPrincipal)] }

end World

end Leopold
