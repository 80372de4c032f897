import Leopold.Contracts.Fhe
import Leopold.Contracts.Config
import Leopold.Contracts.CompoundAdapter
import Leopold.Contracts.SettlementBondEscrow

/-!
# The state of `LeopoldVault`

The storage of the vault over any encrypted types, its initial value, and the joint state of the
vault with its escrow, its adapter, the third-party contracts and the block timestamp.
-/

namespace Leopold

structure StrategyEpoch (E64 : Type) where
  kind : StrategyEpochKind
  state : StrategyEpochState
  openedAt : Nat
  amount : E64
  unwrapRequestId : RequestId
  publicAmount : Nat

structure Observation (E64 E128 : Type) where
  timestamp : Nat
  balance : E64
  cumulative : E128

structure PreferenceObservation where
  timestamp : Nat
  preference : AutoSavePreference
  deriving DecidableEq, Repr

structure Round (E64 E128 EBool : Type) where
  opensAt : Nat
  closesAt : Nat
  state : RoundState
  aggregateTwab : E128
  publicAggregateTwab : Nat
  publicPrize : Nat
  candidate : E128
  candidateValid : EBool
  acceptedTicket : E128
  participantCountSnapshot : Nat
  selectionCursor : Nat
  allocationCursor : Nat
  reservedPrize : E64
  selectionCumulative : E128
  encryptedWinnerCount : E64
  reconciliationValid : EBool
  eligibleBalance : E64
  eligibleCumulative : E128
  eligibleTimestamp : Nat

structure Vault (E64 E128 EBool : Type) where
  activeRoundId : Nat
  rounds : Nat → Round E64 E128 EBool
  roundParticipants : Nat → List Address
  eligibilityStart : Nat → Address → Nat
  observations : Address → List (Observation E64 E128)
  principal : Address → E64
  winnings : Address → E64
  autoSavePreference : Address → AutoSavePreference
  preferenceObservations : Address → List PreferenceObservation
  winnerPredicate : Nat → Address → EBool
  totalPrincipal : E64
  liquidPrincipal : E64
  deployedPrincipal : E64
  principalInTransition : E64
  strategyShortfall : E64
  liquidPrizeAssets : E64
  realizedSurplus : E64
  reservedPrize : E64
  winningsLiability : E64
  sponsoredPrize : Nat → E64
  publicSponsoredPrize : Nat → Nat
  uncommittedYield : E64
  publicUncommittedYield : Nat
  activeStrategyEpochId : Nat
  strategyEpochs : Nat → StrategyEpoch E64
  candidateAttempts : Nat → Nat
  /-- The persistent grants and decryptability flags the vault has set, oldest first. -/
  acl : List (Grant E64 E128 EBool)

/-- The vault, its escrow, its adapter, the third-party contracts and `block.timestamp`. -/
structure World (E64 E128 EBool X : Type) where
  vault : Vault E64 E128 EBool
  escrow : Escrow
  adapter : Adapter
  ext : X
  now : Nat

/-- The state of the vault with every handle read as its plaintext. -/
abbrev PlainVault := Vault Nat Nat Bool

abbrev PlainRound := Round Nat Nat Bool

abbrev PlainWorld (X : Type) := World Nat Nat Bool X

variable {E64 E128 EBool : Type} (fhe : Fhe E64 E128 EBool)

/-- A storage slot of `_strategyEpochs` that was never written. -/
def StrategyEpoch.unset : StrategyEpoch E64 := ⟨.none, .none, 0, fhe.null64, 0, 0⟩

/-- A storage slot of `_rounds` that was never written. -/
def Round.unset : Round E64 E128 EBool where
  opensAt := 0
  closesAt := 0
  state := .uninitialized
  aggregateTwab := fhe.null128
  publicAggregateTwab := 0
  publicPrize := 0
  candidate := fhe.null128
  candidateValid := fhe.nullBool
  acceptedTicket := fhe.null128
  participantCountSnapshot := 0
  selectionCursor := 0
  allocationCursor := 0
  reservedPrize := fhe.null64
  selectionCumulative := fhe.null128
  encryptedWinnerCount := fhe.null64
  reconciliationValid := fhe.nullBool
  eligibleBalance := fhe.null64
  eligibleCumulative := fhe.null128
  eligibleTimestamp := 0

namespace Vault

/-- The storage of the vault before its constructor runs. -/
def unset : Vault E64 E128 EBool where
  activeRoundId := 0
  rounds _ := Round.unset fhe
  roundParticipants _ := []
  eligibilityStart _ _ := 0
  observations _ := []
  principal _ := fhe.null64
  winnings _ := fhe.null64
  autoSavePreference _ := .keepAvailable
  preferenceObservations _ := []
  winnerPredicate _ _ := fhe.nullBool
  totalPrincipal := fhe.null64
  liquidPrincipal := fhe.null64
  deployedPrincipal := fhe.null64
  principalInTransition := fhe.null64
  strategyShortfall := fhe.null64
  liquidPrizeAssets := fhe.null64
  realizedSurplus := fhe.null64
  reservedPrize := fhe.null64
  winningsLiability := fhe.null64
  sponsoredPrize _ := fhe.null64
  publicSponsoredPrize _ := 0
  uncommittedYield := fhe.null64
  publicUncommittedYield := 0
  activeStrategyEpochId := 0
  strategyEpochs _ := StrategyEpoch.unset fhe
  candidateAttempts _ := 0
  acl := []

/-- A write to one round. -/
def setRound (v : Vault E64 E128 EBool) (roundId : Nat) (round : Round E64 E128 EBool) :
    Vault E64 E128 EBool :=
  { v with rounds := Function.update v.rounds roundId round }

/-- A write to one strategy epoch. -/
def setEpoch (v : Vault E64 E128 EBool) (epochId : Nat) (epoch : StrategyEpoch E64) :
    Vault E64 E128 EBool :=
  { v with strategyEpochs := Function.update v.strategyEpochs epochId epoch }

/-- Entries added to the access list. -/
def grant (v : Vault E64 E128 EBool) (grants : List (Grant E64 E128 EBool)) :
    Vault E64 E128 EBool :=
  { v with acl := v.acl ++ grants }

end Vault

/-- `FHE.allowThis(h)`. -/
def Config.allowThis (cfg : Config) (h : Handle E64 E128 EBool) : Grant E64 E128 EBool :=
  .allow h cfg.vault

end Leopold
