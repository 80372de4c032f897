import Leopold.Lib.Checked
import Mathlib.Data.Fintype.Basic

/-!
# Addresses, enumerations and errors of the contracts

The enumerations are those of `LeopoldVault.sol`; the errors are those of the three contracts
of the repository, tagged with the contract that reverts.  A failed checked operation of the
compiler (overflow, underflow, index out of bounds) is a `panic` of the contract it happens in.
-/

namespace Leopold

/-- A 160-bit account address. -/
abbrev Address := Fin (2 ^ 160)

instance neZero_addresses : NeZero (2 ^ 160 : Nat) := ⟨by decide⟩

/-- `uint64(x)` of a wider unsigned integer. -/
def uint64 (x : Nat) : Nat := x % 2 ^ 64

inductive VaultType
  | daily | weekly | monthly | boost
  deriving DecidableEq, Repr

inductive RoundState
  | uninitialized | open | aggregatePending | aggregateFinalized | empty
  | candidateValidityPending | candidateRejected | ticketAccepted | winnerProcessing
  | winningsAllocated | settled | reconciliationPending | reconciliationFailed
  | readyToAllocate | allocationProcessing
  deriving DecidableEq, Repr

inductive AutoSavePreference
  | keepAvailable | autoSave
  deriving DecidableEq, Repr

inductive StrategyEpochKind
  | none | deploy | replenish
  deriving DecidableEq, Repr

inductive StrategyEpochState
  | none | aging | amountPending | unwrapPending | completed | cancelled
  deriving DecidableEq, Repr

/-- The errors of `LeopoldVault`. -/
inductive VaultError
  | invalidAddress
  | invalidConfiguration
  | invalidRound
  | invalidRoundState (actual expected : RoundState)
  | roundStillOpen
  | roundNotOpen
  | unauthorizedBondEscrow
  | participantAlreadyRegistered
  | participantNotRegistered
  | unauthorizedAsset
  | invalidCallbackData
  | invalidSponsorRound
  | invalidSponsorAmount
  | aggregateOutOfDomain
  | invalidCleartextEncoding
  | candidateNotPending
  | weightUnavailable
  | invalidChunkSize
  | reconciliationNotPending
  | settlementNotReady
  | strategyDisabled
  | strategyPaused
  | strategyEpochPending
  | strategyEpochNotReady
  | invalidStrategyEpoch
  | strategyAmountOutOfDomain
  deriving DecidableEq, Repr

/-- The errors of `LeopoldSettlementBondEscrow`. -/
inductive EscrowError
  | unauthorizedVault
  | invalidConfiguration
  | invalidBondAmount
  | alreadyRegistered
  | invalidProgress
  | invalidRoundFinalization
  | refundUnavailable
  | nothingToWithdraw
  | nativeTransferFailed
  | directNativeTransferRejected
  deriving DecidableEq, Repr

/-- The errors of `LeopoldCompoundAdapter`. -/
inductive AdapterError
  | unauthorized
  | invalidConfiguration
  | strategyPaused
  | compoundPaused
  | insufficientManagedAssets
  | unexpectedPositionMutation
  deriving DecidableEq, Repr

inductive Panic
  | overflow | underflow | outOfBounds
  deriving DecidableEq, Repr

inductive Contract
  | vault | escrow | adapter
  deriving DecidableEq, Repr

/-- Why a transaction reverts. -/
inductive Revert
  | vault (e : VaultError)
  | escrow (e : EscrowError)
  | adapter (e : AdapterError)
  | panic (c : Contract) (p : Panic)
  /-- A third-party contract reverted, or the FHE verifier rejected a decryption proof. -/
  | external
  /-- `abi.decode` met calldata that does not encode the expected type. -/
  | abiDecode
  deriving DecidableEq, Repr

/-- The revert was raised by the escrow. -/
def Revert.ofEscrow : Revert → Bool
  | .escrow _ => true
  | .panic .escrow _ => true
  | _ => false

/-- The bytes of a decryption proof, reduced to whether the key management service signed the
handle and the cleartexts it is submitted with. -/
structure DecryptionProof where
  signed : Bool
  deriving DecidableEq, Repr

/-- A `bytes calldata abiEncodedCleartexts`: its length and the first word `abi.decode` reads. -/
structure Cleartexts where
  length : Nat
  word : Nat
  deriving DecidableEq, Repr

/-- `abi.encode` of one word. -/
def Cleartexts.encode (word : Nat) : Cleartexts := ⟨32, word⟩

/-- `abi.decode(cleartexts, (uint256))`. -/
def Cleartexts.decodeUint256 (c : Cleartexts) : Except Revert Nat := do
  Lib.revertIf (c.length < 32) .abiDecode
  return c.word

/-- `abi.decode(cleartexts, (bool))`. -/
def Cleartexts.decodeBool (c : Cleartexts) : Except Revert Bool := do
  Lib.revertIf (c.length < 32 ∨ 1 < c.word) .abiDecode
  return c.word == 1

end Leopold
