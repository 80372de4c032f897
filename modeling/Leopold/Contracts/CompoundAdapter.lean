import Leopold.Contracts.Config
import Leopold.Contracts.Externals

/-!
# `LeopoldCompoundAdapter`

The adapter keeps the principal basis it deployed to the Compound market, the signed principal
it last saw there, and the pause flag.  Its entry points act on its own state and on the state
of the third-party contracts.
-/

namespace Leopold

open Lib

structure Adapter where
  deployedPrincipalBasis : Nat
  expectedCometPrincipal : Int
  paused : Bool

namespace Adapter

def COMET_ROUNDING_TOLERANCE : Nat := 1

/-- The state the constructor leaves. -/
def initial : Adapter := ⟨0, 0, false⟩

variable {E64 EBool X : Type} (E : Externals E64 EBool X) (cfg : Config)

/-- The checks of the constructor. -/
def construct (x : X) : Except Revert Adapter := do
  revertIf (E.underlying = 0 ∨ cfg.compoundComet = 0 ∨ cfg.strategyGuardian = 0)
    (.adapter .invalidConfiguration)
  revertIf (E.cometBaseToken x ≠ E.underlying ∨ E.cometBaseScale x ≠ 1000000)
    (.adapter .invalidConfiguration)
  return initial

def managedAssets (x : X) : Nat := E.cometBalanceOf x cfg.adapter

def currentShortfall (a : Adapter) (x : X) : Nat :=
  if a.deployedPrincipalBasis > managedAssets E cfg x then
    a.deployedPrincipalBasis - managedAssets E cfg x
  else 0

def positionIntegrity (a : Adapter) (x : X) : Bool :=
  E.cometUserPrincipal x cfg.adapter == a.expectedCometPrincipal

def marketIntegrity (x : X) : Bool :=
  E.cometBaseToken x == E.underlying && E.cometBaseScale x == 1000000

/-- `_withdraw`: the amount recovered is forwarded to the vault. -/
def withdraw (amount : Nat) (x : X) : Except Revert (X × Nat) := do
  let beforeBalance := E.underlyingBalanceOf x cfg.adapter
  let x ← orRevert .external (E.cometWithdraw x cfg.adapter amount)
  let recovered ← checkedSub (.panic .adapter .underflow)
    (E.underlyingBalanceOf x cfg.adapter) beforeBalance
  let x ← orRevert .external (E.safeTransfer x cfg.adapter cfg.vault recovered)
  return (x, recovered)

/-- `_snapshotPrincipal`. -/
def snapshotPrincipal (a : Adapter) (x : X) : Adapter :=
  { a with expectedCometPrincipal := E.cometUserPrincipal x cfg.adapter }

def deployAssets (sender : Address) (amount : Nat) (a : Adapter) (x : X) :
    Except Revert (Adapter × X × Nat) := do
  revertIf (sender ≠ cfg.vault) (.adapter .unauthorized)
  revertIf (a.paused = true) (.adapter .strategyPaused)
  revertIf (marketIntegrity E x = false) (.adapter .invalidConfiguration)
  revertIf (E.cometIsSupplyPaused x = true) (.adapter .compoundPaused)
  revertIf (positionIntegrity E cfg a x = false) (.adapter .unexpectedPositionMutation)
  revertIf (currentShortfall E cfg a x > COMET_ROUNDING_TOLERANCE)
    (.adapter .insufficientManagedAssets)
  if amount = 0 then return (a, x, 0) else
  let beforeBalance := E.underlyingBalanceOf x cfg.adapter
  let x ← orRevert .external (E.safeTransferFrom x cfg.adapter cfg.vault cfg.adapter amount)
  let received ← checkedSub (.panic .adapter .underflow)
    (E.underlyingBalanceOf x cfg.adapter) beforeBalance
  let x ← orRevert .external (E.forceApprove x cfg.adapter cfg.compoundComet received)
  let x ← orRevert .external (E.cometSupply x cfg.adapter received)
  let x ← orRevert .external (E.forceApprove x cfg.adapter cfg.compoundComet 0)
  let basis ← checkedAdd 256 (.panic .adapter .overflow) a.deployedPrincipalBasis received
  return (snapshotPrincipal E cfg { a with deployedPrincipalBasis := basis } x, x, received)

def withdrawPrincipal (sender : Address) (amount : Nat) (a : Adapter) (x : X) :
    Except Revert (Adapter × X × Nat) := do
  revertIf (sender ≠ cfg.vault) (.adapter .unauthorized)
  revertIf (marketIntegrity E x = false) (.adapter .invalidConfiguration)
  revertIf (E.cometIsWithdrawPaused x = true) (.adapter .compoundPaused)
  revertIf (positionIntegrity E cfg a x = false) (.adapter .unexpectedPositionMutation)
  revertIf (amount > a.deployedPrincipalBasis ∨ amount > managedAssets E cfg x)
    (.adapter .insufficientManagedAssets)
  let (x, recovered) ← withdraw E cfg amount x
  let basis ← checkedSub (.panic .adapter .underflow) a.deployedPrincipalBasis amount
  return (snapshotPrincipal E cfg { a with deployedPrincipalBasis := basis } x, x, recovered)

def harvest (sender : Address) (a : Adapter) (x : X) : Except Revert (Adapter × X × Nat) := do
  revertIf (sender ≠ cfg.vault) (.adapter .unauthorized)
  revertIf (a.paused = true) (.adapter .strategyPaused)
  revertIf (marketIntegrity E x = false) (.adapter .invalidConfiguration)
  revertIf (positionIntegrity E cfg a x = false) (.adapter .unexpectedPositionMutation)
  let managed := managedAssets E cfg x
  if managed ≤ a.deployedPrincipalBasis then return (a, x, 0) else
  let (x, realizedSurplus) ← withdraw E cfg (managed - a.deployedPrincipalBasis) x
  return (snapshotPrincipal E cfg a x, x, realizedSurplus)

def setPaused (sender : Address) (paused : Bool) (a : Adapter) : Except Revert Adapter := do
  revertIf (sender ≠ cfg.vault ∧ sender ≠ cfg.strategyGuardian) (.adapter .unauthorized)
  return { a with paused := paused }

/-- Answers the amount recovered and the shortfall. -/
def emergencyExit (sender : Address) (a : Adapter) (x : X) :
    Except Revert (Adapter × X × Nat × Nat) := do
  revertIf (sender ≠ cfg.vault) (.adapter .unauthorized)
  revertIf (a.paused = false) (.adapter .strategyPaused)
  let basis := a.deployedPrincipalBasis
  let managed := managedAssets E cfg x
  let (x, recovered) ←
    (if managed = 0 ∧ a.expectedCometPrincipal = 0 then .ok (x, 0)
      else withdraw E cfg (2 ^ 256 - 1) x)
  let shortfall := if basis > recovered then basis - recovered else 0
  return (snapshotPrincipal E cfg { a with deployedPrincipalBasis := 0 } x, x, recovered, shortfall)

end Adapter

end Leopold
