import Mathlib.Algebra.Order.BigOperators.Group.Finset
import Mathlib.Tactic.Ring

/-!
# Lifecycle actions of the keeper

The vocabulary the keeper's planner, engine and journal share.
-/

namespace Leopold.Keeper

inductive LifecycleActionKind
  | registerAutoEntry
  | pruneAutoEntry
  | closeRound
  | finalizeAggregate
  | settleEmptyRound
  | generateRandomCandidate
  | finalizeCandidateValidity
  | processSelection
  | finalizeReconciliation
  | recoverFailedReconciliation
  | processAllocation
  | finalizeSettlement
  deriving DecidableEq, Repr

namespace LifecycleActionKind

/-- The actions that carry a cursor. -/
def isCursorAction : LifecycleActionKind → Bool
  | .processSelection | .processAllocation => true
  | _ => false

/-- The actions that carry an account. -/
def isAccountAction : LifecycleActionKind → Bool
  | .registerAutoEntry | .pruneAutoEntry => true
  | _ => false

/-- The name of the kind, as it stands in action keys. -/
def name : LifecycleActionKind → String
  | .registerAutoEntry => "register-auto-entry"
  | .pruneAutoEntry => "prune-auto-entry"
  | .closeRound => "close-round"
  | .finalizeAggregate => "finalize-aggregate"
  | .settleEmptyRound => "settle-empty-round"
  | .generateRandomCandidate => "generate-random-candidate"
  | .finalizeCandidateValidity => "finalize-candidate-validity"
  | .processSelection => "process-selection"
  | .finalizeReconciliation => "finalize-reconciliation"
  | .recoverFailedReconciliation => "recover-failed-reconciliation"
  | .processAllocation => "process-allocation"
  | .finalizeSettlement => "finalize-settlement"

end LifecycleActionKind

def SEPOLIA_CHAIN_ID : Nat := 11155111

def SELECTION_CHUNK_SIZE : Nat := 4

def ALLOCATION_CHUNK_SIZE : Nat := 4

inductive RoundState
  | uninitialized
  | «open»
  | aggregatePending
  | aggregateFinalized
  | empty
  | candidateValidityPending
  | candidateRejected
  | ticketAccepted
  | winnerProcessing
  | winningsAllocated
  | settled
  | reconciliationPending
  | reconciliationFailed
  | readyToAllocate
  | allocationProcessing
  deriving DecidableEq, Repr

structure VaultConfig where
  id : Nat
  name : String
  address : String
  bondEscrow : String
  automaticEntry : Bool
  deriving DecidableEq, Repr

structure RoundSnapshot where
  roundId : Nat
  opensAt : Nat
  closesAt : Nat
  state : RoundState
  publicAggregateTwab : Nat
  publicPrize : Nat
  participantCount : Nat
  selectionCursor : Nat
  allocationCursor : Nat
  candidateValidityHandle : Option String
  deriving DecidableEq, Repr

structure AutoEntryCandidate where
  account : String
  enabled : Bool
  /-- The wallet has already scheduled enablement at a later round. -/
  prospectivelyEnabled : Option Bool
  availableCredit : Nat
  registered : Bool
  deriving DecidableEq, Repr

structure VaultSnapshot where
  vault : VaultConfig
  activeRoundId : Nat
  bondAmount : Nat
  autoEntryCandidates : List AutoEntryCandidate
  rounds : List RoundSnapshot
  deriving DecidableEq, Repr

structure ProtocolSnapshot where
  chainId : Nat
  blockNumber : Nat
  blockHash : String
  blockTimestamp : Nat
  vaults : List VaultSnapshot
  deriving DecidableEq, Repr

structure SnapshotReadHint where
  vaultAddress : String
  account : Option String
  roundId : Option Nat
  deriving DecidableEq, Repr

structure LifecycleAction where
  key : String
  kind : LifecycleActionKind
  vault : VaultConfig
  roundId : Nat
  cursor : Option Nat
  account : Option String
  deriving DecidableEq, Repr

structure SignedLifecycleTransaction where
  action : LifecycleAction
  hash : String
  nonce : Nat
  serialized : String
  calldataHash : String
  maximumCostWei : Nat
  deriving DecidableEq, Repr

structure ReceiptView where
  blockHash : String
  blockNumber : Nat
  /-- One for success and zero for a revert. -/
  status : Nat
  confirmations : Nat
  deriving DecidableEq, Repr

end Leopold.Keeper
