import Leopold.Spikes.PrefixTree

/-!
# The historical moment tree

`LeopoldHistoricalMomentTreeSpike2`: the segment tree whose nodes keep a balance and the sum of the
signed changes, each times its timestamp.  A round fixes the total between two times and a ticket;
the private result of an account is a session that collects the weights of the smaller slots, a
few steps at a time.
-/

namespace Leopold

open Lib

inductive MomentTreeError
  | unauthorized
  | invalidDepth
  | invalidSlot
  | duplicateRegistration
  | invalidRound
  | invalidProof
  | invalidPrize
  | invalidSession
  | invalidSteps
  | panic (p : Panic)
  /-- An input proof or a decryption proof was rejected. -/
  | external
  deriving DecidableEq, Repr

namespace MomentTree

structure Observation (E64 E128 : Type) where
  timestamp : Nat
  balance : E64
  moment : E128

structure ClosedRound (E64 E128 : Type) where
  opensAt : Nat
  closesAt : Nat
  totalPending : Bool
  selectionFinal : Bool
  publicAggregateTwab : Nat
  publicPrize : Nat
  aggregateTwab : E128
  acceptedTicket : E128
  encryptedPrize : E64
  encryptedReserve : E64

inductive SessionPhase
  | none
  | prefixes
  | ready
  | autoSavePending
  | complete
  deriving DecidableEq, Repr

structure ResultSession (E64 E128 : Type) where
  binding : Nat
  slot : Nat
  cursor : Nat
  phase : SessionPhase
  prefixWeight : E128
  payout : E64
  autoSaveCredit : E64

/-- What `_sessionBinding` hashes. -/
structure SessionBinding (E128 : Type) where
  tree : Address
  vault : Address
  roundId : Nat
  account : Address
  slot : Nat
  opensAt : Nat
  closesAt : Nat
  publicAggregateTwab : Nat
  publicPrize : Nat
  acceptedTicket : E128

/-- The immutables of a tree, its address, and the hash of the chain. -/
structure Config (E128 : Type) where
  self : Address
  vault : Address
  depth : TreeDepth
  keccak256 : SessionBinding E128 → Nat

def construct {E128 : Type} (self vault : Address) (depth : Nat)
    (keccak256 : SessionBinding E128 → Nat) : Except MomentTreeError (Config E128) :=
  if vault = 0 then .error .unauthorized
  else if h : depth = 0 ∨ 32 < depth then .error .invalidDepth
  else .ok ⟨self, vault, ⟨depth, by omega, by omega⟩, keccak256⟩

end MomentTree

/-- The storage of the contract. -/
structure MomentTree (E64 E128 : Type) where
  slotOf : Address → Nat
  isRegistered : Address → Bool
  accountAt : Nat → Address
  nodeObservations : Nat → List (MomentTree.Observation E64 E128)
  preferenceObservations : Address → List PreferenceObservation
  rounds : Nat → MomentTree.ClosedRound E64 E128
  sessions : Nat → Address → MomentTree.ResultSession E64 E128
  winnings : Address → E64
  principal : Address → E64
  availablePrize : Nat
  irrevocablyAllocatedPrize : Nat

namespace MomentTree

section

variable {E64 E128 EBool : Type} (fhe : Fhe E64 E128 EBool) (cfg : Config E128)

/-- A tree that was just deployed. -/
def deployed : MomentTree E64 E128 where
  slotOf _ := 0
  isRegistered _ := false
  accountAt _ := 0
  nodeObservations _ := []
  preferenceObservations _ := []
  rounds _ := ⟨0, 0, false, false, 0, 0, fhe.null128, fhe.null128, fhe.null64, fhe.null64⟩
  sessions _ _ := ⟨0, 0, 0, .none, fhe.null128, fhe.null64, fhe.null64⟩
  winnings _ := fhe.null64
  principal _ := fhe.null64
  availablePrize := 0
  irrevocablyAllocatedPrize := 0

/-! ### Nodes -/

/-- `_updateNode`. -/
def updateNode (delta : E64) (deltaMoment : E128) (increase : Bool) (timestamp : Nat)
    (observations : List (Observation E64 E128)) : List (Observation E64 E128) :=
  let previousBalance := (observations.getLast?.map (·.balance)).getD (fhe.asEuint64 0)
  let previousMoment := (observations.getLast?.map (·.moment)).getD (fhe.asEuint128 0)
  let balance :=
    if increase then fhe.add64 previousBalance delta else fhe.sub64 previousBalance delta
  let moment :=
    if increase then fhe.add128 previousMoment deltaMoment
    else fhe.sub128 previousMoment deltaMoment
  if observations.getLast?.any (·.timestamp = timestamp) then
    observations.dropLast ++ [⟨timestamp, balance, moment⟩]
  else observations ++ [⟨timestamp, balance, moment⟩]

/-- The loop of `_updateBalancePath`. -/
def updateNodes (delta : E64) (deltaMoment : E128) (increase : Bool) (timestamp : Nat) :
    List Nat → (Nat → List (Observation E64 E128)) → Nat → List (Observation E64 E128)
  | [], nodes => nodes
  | node :: rest, nodes =>
    updateNodes delta deltaMoment increase timestamp rest
      (Function.update nodes node
        (updateNode fhe delta deltaMoment increase timestamp (nodes node)))

/-- `_updateBalancePath`, for the slot of the account. -/
def updateBalancePath (depth : TreeDepth) (slot : Nat) (delta : E64) (increase : Bool)
    (timestamp : Nat) (nodes : Nat → List (Observation E64 E128)) :
    Nat → List (Observation E64 E128) :=
  let deltaMoment := fhe.mul128 (fhe.widen delta) (fhe.asEuint128 timestamp)
  updateNodes fhe delta deltaMoment increase timestamp (nodePath (depth.leaf slot)) nodes

/-- `_cumulativeAt`. -/
def cumulativeAt (timestamp : Nat) (observations : List (Observation E64 E128)) :
    Except Panic E128 :=
  match observations[0]? with
  | none => .ok (fhe.asEuint128 0)
  | some first =>
    if timestamp < first.timestamp then .ok (fhe.asEuint128 0) else
    match observations[searchAt Observation.timestamp observations timestamp]? with
    | none => .error .outOfBounds
    | some observation => .ok
      (fhe.sub128 (fhe.mul128 (fhe.widen observation.balance) (fhe.asEuint128 timestamp))
        observation.moment)

/-- `_nodeWeight`. -/
def nodeWeight (start fin : Nat) (observations : List (Observation E64 E128)) :
    Except Panic E128 := do
  let cumulativeEnd ← cumulativeAt fhe fin observations
  let cumulativeStart ← cumulativeAt fhe start observations
  return fhe.sub128 cumulativeEnd cumulativeStart

/-- A panic of the contract. -/
def panics {α : Type} : Except Panic α → Except MomentTreeError α
  | .ok a => .ok a
  | .error p => .error (.panic p)

/-! ### The vault's functions -/

def onlyVault (sender : Address) : Except MomentTreeError Unit :=
  revertIf (sender ≠ cfg.vault) .unauthorized

def register (sender account : Address) (slot : Nat) (s : MomentTree E64 E128) :
    Except MomentTreeError (MomentTree E64 E128) := do
  onlyVault cfg sender
  revertIf (account = 0 ∨ cfg.depth.capacity ≤ slot) .invalidSlot
  revertIf (s.isRegistered account ∨ s.accountAt slot ≠ 0) .duplicateRegistration
  return { s with
    isRegistered := Function.update s.isRegistered account true
    slotOf := Function.update s.slotOf account slot
    accountAt := Function.update s.accountAt slot account }

/-- The nodes after `_updateBalancePath` of an account. -/
def changeBalance (account : Address) (delta : E64) (increase : Bool) (timestamp : Nat)
    (s : MomentTree E64 E128) : MomentTree E64 E128 :=
  { s with
    nodeObservations :=
      updateBalancePath fhe cfg.depth (s.slotOf account) delta increase timestamp
        s.nodeObservations }

/-- `updateBalance`; there is no delta when the input proof is rejected. -/
def updateBalance (sender account : Address) (encryptedDelta : Option E64) (increase : Bool)
    (now : Nat) (s : MomentTree E64 E128) : Except MomentTreeError (MomentTree E64 E128) := do
  onlyVault cfg sender
  revertIf (s.isRegistered account = false) .invalidSlot
  let delta ← orRevert .external encryptedDelta
  return s.changeBalance fhe cfg account delta increase (uint64 now)

def updateBalanceFromVault (sender account : Address) (delta : E64) (isSenderAllowed : Bool)
    (increase : Bool) (now : Nat) (s : MomentTree E64 E128) :
    Except MomentTreeError (MomentTree E64 E128) := do
  onlyVault cfg sender
  revertIf (s.isRegistered account = false ∨ isSenderAllowed = false) .invalidProof
  return s.changeBalance fhe cfg account delta increase (uint64 now)

def setAutoSavePreference (sender account : Address) (preference : AutoSavePreference) (now : Nat)
    (s : MomentTree E64 E128) : Except MomentTreeError (MomentTree E64 E128) := do
  onlyVault cfg sender
  let observations := s.preferenceObservations account
  let timestamp := uint64 now
  let observations :=
    if observations.getLast?.any (·.timestamp = timestamp) then
      observations.dropLast ++ [⟨timestamp, preference⟩]
    else observations ++ [⟨timestamp, preference⟩]
  return { s with
    preferenceObservations := Function.update s.preferenceObservations account observations }

def fundPrize (sender : Address) (amount : Nat) (s : MomentTree E64 E128) :
    Except MomentTreeError (MomentTree E64 E128) := do
  onlyVault cfg sender
  let availablePrize ← checkedAdd 256 (.panic .overflow) s.availablePrize amount
  return { s with availablePrize }

/-- A round is changed. -/
def setRound (roundId : Nat) (round : ClosedRound E64 E128) (s : MomentTree E64 E128) :
    MomentTree E64 E128 :=
  { s with rounds := Function.update s.rounds roundId round }

/-- A session is changed. -/
def setSession (roundId : Nat) (account : Address) (session : ResultSession E64 E128)
    (s : MomentTree E64 E128) : MomentTree E64 E128 :=
  { s with
    sessions := Function.update s.sessions roundId
      (Function.update (s.sessions roundId) account session) }

def requestRoundTotal (sender : Address) (roundId opensAt closesAt prize now : Nat)
    (s : MomentTree E64 E128) : Except MomentTreeError (MomentTree E64 E128) := do
  onlyVault cfg sender
  let round := s.rounds roundId
  revertIf (roundId = 0 ∨ closesAt ≤ opensAt ∨ now < closesAt ∨ round.totalPending = true ∨
    round.selectionFinal = true) .invalidRound
  revertIf (prize = 0 ∨ s.availablePrize < prize) .invalidPrize
  let availablePrize ← checkedSub (.panic .underflow) s.availablePrize prize
  let irrevocablyAllocatedPrize ←
    checkedAdd 256 (.panic .overflow) s.irrevocablyAllocatedPrize prize
  let aggregateTwab ← panics (nodeWeight fhe opensAt closesAt (s.nodeObservations 1))
  return { s with availablePrize, irrevocablyAllocatedPrize }.setRound roundId { round with
    opensAt
    closesAt
    publicPrize := prize
    aggregateTwab
    totalPending := true }

/-- `_finalizeRoundSelection`; there is no cleartext when it has not 32 bytes. -/
def finalizeSelection (roundId clearAggregateTwab : Nat) (aggregateCleartexts : Option Nat)
    (aggregateProof : DecryptionProof) (acceptedTicket : E128) (s : MomentTree E64 E128) :
    Except MomentTreeError (MomentTree E64 E128) := do
  let round := s.rounds roundId
  revertIf (round.totalPending = false ∨ round.selectionFinal = true ∨ clearAggregateTwab = 0)
    .invalidRound
  revertIf (aggregateCleartexts ≠ some clearAggregateTwab) .invalidProof
  revertIf (fhe.checkSignatures128 round.aggregateTwab clearAggregateTwab aggregateProof = false)
    .external
  let encryptedPrize := fhe.asEuint64 round.publicPrize
  return s.setRound roundId { round with
    publicAggregateTwab := clearAggregateTwab
    acceptedTicket
    encryptedPrize
    encryptedReserve := encryptedPrize
    selectionFinal := true }

/-- `finalizeRoundSelection`; there is no ticket when its input proof is rejected. -/
def finalizeRoundSelection (sender : Address) (roundId clearAggregateTwab : Nat)
    (aggregateCleartexts : Option Nat) (aggregateProof : DecryptionProof)
    (encryptedTicket : Option E128) (s : MomentTree E64 E128) :
    Except MomentTreeError (MomentTree E64 E128) := do
  onlyVault cfg sender
  let acceptedTicket ← orRevert .external encryptedTicket
  s.finalizeSelection fhe roundId clearAggregateTwab aggregateCleartexts aggregateProof
    acceptedTicket

def finalizeRoundSelectionFromVault (sender : Address) (roundId clearAggregateTwab : Nat)
    (aggregateCleartexts : Option Nat) (aggregateProof : DecryptionProof) (acceptedTicket : E128)
    (isSenderAllowed : Bool) (s : MomentTree E64 E128) :
    Except MomentTreeError (MomentTree E64 E128) := do
  onlyVault cfg sender
  revertIf (isSenderAllowed = false) .invalidProof
  s.finalizeSelection fhe roundId clearAggregateTwab aggregateCleartexts aggregateProof
    acceptedTicket

/-! ### Private results -/

/-- `_sessionBinding`. -/
def sessionBinding (roundId : Nat) (account : Address) (slot : Nat)
    (round : ClosedRound E64 E128) : Nat :=
  cfg.keccak256 {
    tree := cfg.self
    vault := cfg.vault
    roundId
    account
    slot
    opensAt := round.opensAt
    closesAt := round.closesAt
    publicAggregateTwab := round.publicAggregateTwab
    publicPrize := round.publicPrize
    acceptedTicket := round.acceptedTicket }

/-- `_requireSessionBinding`. -/
def requireSessionBinding (roundId : Nat) (account : Address) (expected : SessionPhase)
    (s : MomentTree E64 E128) : Except MomentTreeError Unit :=
  let round := s.rounds roundId
  let session := s.sessions roundId account
  revertIf (round.selectionFinal = false ∨ session.phase ≠ expected ∨
    session.slot ≠ s.slotOf account ∨
    session.binding ≠ sessionBinding cfg roundId account session.slot round) .invalidSession

def startPrivateResult (sender : Address) (roundId : Nat) (s : MomentTree E64 E128) :
    Except MomentTreeError (MomentTree E64 E128) := do
  let round := s.rounds roundId
  revertIf (round.selectionFinal = false ∨ s.isRegistered sender = false) .invalidRound
  let session := s.sessions roundId sender
  revertIf (session.phase ≠ .none) .invalidSession
  let slot := s.slotOf sender
  return s.setSession roundId sender { session with
    slot
    cursor := cfg.depth.leaf slot
    phase := .prefixes
    prefixWeight := fhe.asEuint128 0
    binding := sessionBinding cfg roundId sender slot round }

/-- The loop of `advancePrivateResult`, for the steps that are left. -/
def advance (opensAt closesAt : Nat) (nodes : Nat → List (Observation E64 E128)) :
    (steps cursor : Nat) → E128 → Except Panic (Nat × E128)
  | 0, cursor, prefixWeight => .ok (cursor, prefixWeight)
  | steps + 1, cursor, prefixWeight =>
    if 1 < cursor then
      if cursor % 2 = 1 then do
        let weight ← nodeWeight fhe opensAt closesAt (nodes (cursor - 1))
        advance opensAt closesAt nodes steps (cursor / 2) (fhe.add128 prefixWeight weight)
      else advance opensAt closesAt nodes steps (cursor / 2) prefixWeight
    else .ok (cursor, prefixWeight)

def advancePrivateResult (roundId : Nat) (account : Address) (maxSteps : Nat)
    (s : MomentTree E64 E128) : Except MomentTreeError (MomentTree E64 E128) := do
  revertIf (maxSteps = 0 ∨ 4 < maxSteps) .invalidSteps
  requireSessionBinding cfg roundId account .prefixes s
  let round := s.rounds roundId
  let session := s.sessions roundId account
  let (cursor, prefixWeight) ← panics
    (advance fhe round.opensAt round.closesAt s.nodeObservations maxSteps session.cursor
      session.prefixWeight)
  return s.setSession roundId account { session with
    cursor
    prefixWeight
    phase := if cursor = 1 then .ready else session.phase }

/-- `_preferenceAt`. -/
def preferenceAt (timestamp : Nat) (observations : List PreferenceObservation) :
    Except Panic AutoSavePreference :=
  match observations[0]? with
  | none => .ok .keepAvailable
  | some first =>
    if timestamp ≤ first.timestamp then .ok .keepAvailable else
    let low := bisect
      (fun middle => (observations[middle]?).any fun o => decide (o.timestamp < timestamp))
      observations.length 0 observations.length
    match observations[low]? with
    | none => .error .outOfBounds
    | some observation => .ok observation.preference

def finalizePrivateResult (roundId : Nat) (account : Address) (s : MomentTree E64 E128) :
    Except MomentTreeError (MomentTree E64 E128) := do
  requireSessionBinding cfg roundId account .ready s
  let round := s.rounds roundId
  let session := s.sessions roundId account
  let weight ← panics (nodeWeight fhe round.opensAt round.closesAt
    (s.nodeObservations (cfg.depth.leaf session.slot)))
  let upper := fhe.add128 session.prefixWeight weight
  let winner := fhe.and (fhe.ge128 round.acceptedTicket session.prefixWeight)
    (fhe.lt128 round.acceptedTicket upper)
  let zero := fhe.asEuint64 0
  let payout := fhe.select64 winner round.encryptedPrize zero
  let preference ← panics (preferenceAt round.closesAt (s.preferenceObservations account))
  let wantsAutoSave := fhe.asEbool (preference = .autoSave)
  let saved := fhe.select64 (fhe.and winner wantsAutoSave) round.encryptedPrize zero
  let kept := fhe.sub64 payout saved
  let s := { s with
    winnings := Function.update s.winnings account (fhe.add64 (s.winnings account) kept) }
  let s := s.setRound roundId { round with
    encryptedReserve := fhe.sub64 round.encryptedReserve payout }
  return s.setSession roundId account { session with
    payout
    autoSaveCredit := saved
    phase := .autoSavePending }

def finalizeAutoSave (roundId : Nat) (account : Address) (now : Nat) (s : MomentTree E64 E128) :
    Except MomentTreeError (MomentTree E64 E128) := do
  requireSessionBinding cfg roundId account .autoSavePending s
  let session := s.sessions roundId account
  let saved := session.autoSaveCredit
  let s := s.changeBalance fhe cfg account saved true (uint64 now)
  let s := { s with
    principal := Function.update s.principal account (fhe.add64 (s.principal account) saved) }
  return s.setSession roundId account { session with phase := .complete }

end

end MomentTree

end Leopold
