import Leopold.Contracts.Config
import Mathlib.Logic.Function.Basic

/-!
# `LeopoldSettlementBondEscrow`

The escrow of one vault: the bonds of the registered accounts, the rewards credited for the
settlement passes and the refunds due after a round is finalized.  Every sum is checked 256-bit
arithmetic; the native balance of the contract is part of the state.

A payment hands control to its recipient only after the ledgers are updated, so what a recipient
does inside the payment is a later step of the run.
-/

namespace Leopold

open Lib

/-- `RoundLedger`. -/
structure RoundLedger where
  registered : Nat
  selectionProcessed : Nat
  allocationProcessed : Nat
  deposited : Nat
  rewardsAccrued : Nat
  refundsAccrued : Nat
  refundPerParticipant : Nat
  finalized : Bool

def RoundLedger.zero : RoundLedger := ⟨0, 0, 0, 0, 0, 0, 0, false⟩

structure Escrow where
  rounds : Nat → RoundLedger
  isRegistered : Nat → Address → Bool
  refundClaimed : Nat → Address → Bool
  settlementRewardCredit : Address → Nat
  totalDeposited : Nat
  totalUnresolvedLiability : Nat
  totalRewardLiability : Nat
  totalRefundLiability : Nat
  totalRewardsWithdrawn : Nat
  totalRefundsWithdrawn : Nat
  /-- `address(this).balance`. -/
  nativeBalance : Nat

namespace Escrow

def initial : Escrow where
  rounds _ := RoundLedger.zero
  isRegistered _ _ := false
  refundClaimed _ _ := false
  settlementRewardCredit _ := 0
  totalDeposited := 0
  totalUnresolvedLiability := 0
  totalRewardLiability := 0
  totalRefundLiability := 0
  totalRewardsWithdrawn := 0
  totalRefundsWithdrawn := 0
  nativeBalance := 0

abbrev add (a b : Nat) : Except Revert Nat := checkedAdd 256 (.panic .escrow .overflow) a b
abbrev sub (a b : Nat) : Except Revert Nat := checkedSub (.panic .escrow .underflow) a b
abbrev mul (a b : Nat) : Except Revert Nat := checkedMul 256 (.panic .escrow .overflow) a b

variable (cfg : Config)

/-- The checks of the constructor.  Its address may already hold native currency. -/
def construct (nativeBalance : Nat) : Except Revert Escrow := do
  revertIf (cfg.vault = 0 ∨ cfg.settlementRewardPerParticipantPass = 0 ∨
      cfg.settlementRewardPerParticipantPass > (2 ^ 256 - 1) / 2 ∨
      cfg.settlementBondAmount ≤ cfg.settlementRewardPerParticipantPass * 2)
    (.escrow .invalidConfiguration)
  return { initial with nativeBalance := nativeBalance }

/-- `registerForRound` up to its call of the vault's `acceptBondRegistration`. -/
def registerForRound (sender : Address) (value roundId : Nat) (e : Escrow) :
    Except Revert Escrow := do
  revertIf (value ≠ cfg.settlementBondAmount) (.escrow .invalidBondAmount)
  revertIf (e.isRegistered roundId sender = true) (.escrow .alreadyRegistered)
  let round := e.rounds roundId
  let registered ← add round.registered 1
  let deposited ← add round.deposited value
  let totalDeposited ← add e.totalDeposited value
  let totalUnresolvedLiability ← add e.totalUnresolvedLiability value
  return { e with
    isRegistered := Function.update e.isRegistered roundId
      (Function.update (e.isRegistered roundId) sender true)
    rounds := Function.update e.rounds roundId
      { round with registered := registered, deposited := deposited }
    totalDeposited := totalDeposited
    totalUnresolvedLiability := totalUnresolvedLiability
    nativeBalance := e.nativeBalance + value }

/-- The progress a pass records on the ledger of a round. -/
def recordPass (pass participants : Nat) (round : RoundLedger) : Except Revert RoundLedger :=
  if pass = 1 then do
    let processed ← add round.selectionProcessed participants
    revertIf (processed > round.registered) (.escrow .invalidProgress)
    return { round with selectionProcessed := processed }
  else if pass = 2 then do
    let processed ← add round.allocationProcessed participants
    revertIf (processed > round.registered) (.escrow .invalidProgress)
    return { round with allocationProcessed := processed }
  else .error (.escrow .invalidProgress)

def creditProgress (sender : Address) (roundId pass participants : Nat) (progressor : Address)
    (e : Escrow) : Except Revert Escrow := do
  revertIf (sender ≠ cfg.vault) (.escrow .unauthorizedVault)
  revertIf (participants = 0 ∨ progressor = 0) (.escrow .invalidProgress)
  let round := e.rounds roundId
  revertIf (round.finalized = true) (.escrow .invalidProgress)
  let round ← recordPass pass participants round
  let reward ← mul participants cfg.settlementRewardPerParticipantPass
  let rewardsAccrued ← add round.rewardsAccrued reward
  let totalUnresolvedLiability ← sub e.totalUnresolvedLiability reward
  let totalRewardLiability ← add e.totalRewardLiability reward
  let credit ← add (e.settlementRewardCredit progressor) reward
  return { e with
    rounds := Function.update e.rounds roundId { round with rewardsAccrued := rewardsAccrued }
    totalUnresolvedLiability := totalUnresolvedLiability
    totalRewardLiability := totalRewardLiability
    settlementRewardCredit := Function.update e.settlementRewardCredit progressor credit }

/-- The refund of one participant after `completedPasses` passes, when the ledger of the round
shows exactly these passes complete. -/
def refundFor (completedPasses : Nat) (round : RoundLedger) : Except Revert Nat :=
  if completedPasses = 0 then do
    revertIf (round.selectionProcessed ≠ 0 ∨ round.allocationProcessed ≠ 0)
      (.escrow .invalidRoundFinalization)
    return cfg.settlementBondAmount
  else if completedPasses = 1 then do
    revertIf (round.registered = 0 ∨ round.selectionProcessed ≠ round.registered ∨
        round.allocationProcessed ≠ 0) (.escrow .invalidRoundFinalization)
    sub cfg.settlementBondAmount cfg.settlementRewardPerParticipantPass
  else do
    revertIf (round.registered = 0 ∨ round.selectionProcessed ≠ round.registered ∨
        round.allocationProcessed ≠ round.registered) (.escrow .invalidRoundFinalization)
    return cfg.refundPerCompletedParticipant

def finalizeRound (sender : Address) (roundId completedPasses : Nat) (e : Escrow) :
    Except Revert Escrow := do
  revertIf (sender ≠ cfg.vault) (.escrow .unauthorizedVault)
  let round := e.rounds roundId
  revertIf (round.finalized = true ∨ completedPasses > 2) (.escrow .invalidRoundFinalization)
  let refundPerParticipant ← refundFor cfg completedPasses round
  let refunds ← mul round.registered refundPerParticipant
  revertIf (e.totalUnresolvedLiability < refunds) (.escrow .invalidRoundFinalization)
  let totalUnresolvedLiability ← sub e.totalUnresolvedLiability refunds
  let totalRefundLiability ← add e.totalRefundLiability refunds
  return { e with
    rounds := Function.update e.rounds roundId { round with
      refundsAccrued := refunds
      refundPerParticipant := refundPerParticipant
      finalized := true }
    totalUnresolvedLiability := totalUnresolvedLiability
    totalRefundLiability := totalRefundLiability }

/-- The payment of native currency to `sender`, who takes it or makes the call fail. -/
def pay (amount : Nat) (accepts : Bool) (e : Escrow) : Except Revert Escrow := do
  revertIf (e.nativeBalance < amount ∨ accepts = false) (.escrow .nativeTransferFailed)
  return { e with nativeBalance := e.nativeBalance - amount }

def claimBondRefund (sender : Address) (roundId : Nat) (accepts : Bool) (e : Escrow) :
    Except Revert Escrow := do
  let round := e.rounds roundId
  revertIf (round.finalized = false ∨ e.isRegistered roundId sender = false ∨
      e.refundClaimed roundId sender = true) (.escrow .refundUnavailable)
  let amount := round.refundPerParticipant
  let totalRefundLiability ← sub e.totalRefundLiability amount
  let totalRefundsWithdrawn ← add e.totalRefundsWithdrawn amount
  pay amount accepts { e with
    refundClaimed := Function.update e.refundClaimed roundId
      (Function.update (e.refundClaimed roundId) sender true)
    totalRefundLiability := totalRefundLiability
    totalRefundsWithdrawn := totalRefundsWithdrawn }

def withdrawSettlementRewards (sender : Address) (accepts : Bool) (e : Escrow) :
    Except Revert Escrow := do
  let amount := e.settlementRewardCredit sender
  revertIf (amount = 0) (.escrow .nothingToWithdraw)
  let totalRewardLiability ← sub e.totalRewardLiability amount
  let totalRewardsWithdrawn ← add e.totalRewardsWithdrawn amount
  pay amount accepts { e with
    settlementRewardCredit := Function.update e.settlementRewardCredit sender 0
    totalRewardLiability := totalRewardLiability
    totalRewardsWithdrawn := totalRewardsWithdrawn }

def accountedLiability (e : Escrow) : Nat :=
  e.totalUnresolvedLiability + e.totalRewardLiability + e.totalRefundLiability

end Escrow

end Leopold
