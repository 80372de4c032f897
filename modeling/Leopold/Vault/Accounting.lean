import Leopold.Vault.State
import Leopold.Lib.Bisect

/-!
# The private functions of `LeopoldVault`

Balance checkpoints and their time-weighted sums, the accrual of the open round, the allocation
of a prize to one participant and the helpers the entry points share.
-/

namespace Leopold

open Lib

variable {E64 E128 EBool X : Type} (fhe : Fhe E64 E128 EBool) (E : Externals E64 EBool X)
  (cfg : Config)

namespace Vault

/-- Checked subtraction of timestamps. -/
abbrev sub (a b : Nat) : Except Revert Nat := checkedSub (.panic .vault .underflow) a b

/-- Checked addition of unsigned integers of `bits` bits. -/
abbrev add (bits a b : Nat) : Except Revert Nat := checkedAdd bits (.panic .vault .overflow) a b

/-- Checked multiplication of 256-bit integers. -/
abbrev mul (a b : Nat) : Except Revert Nat := checkedMul 256 (.panic .vault .overflow) a b

variable {fhe} in
/-- `_requireStrategy`. -/
def requireStrategy : Except Revert Unit :=
  revertIf (cfg.hasStrategy = false) (.vault .strategyDisabled)

/-- `_initializeRound`. -/
def initializeRound (roundId opensAt : Nat) (v : Vault E64 E128 EBool) :
    Except Revert (Vault E64 E128 EBool) := do
  let closesAt ← add 64 opensAt cfg.roundDuration
  let round := { v.rounds roundId with
    opensAt := opensAt
    closesAt := closesAt
    state := .open
    eligibleBalance := fhe.asEuint64 0
    eligibleCumulative := fhe.asEuint128 0
    eligibleTimestamp := opensAt }
  return (v.setRound roundId round).grant
    [cfg.allowThis (.uint64 round.eligibleBalance), cfg.allowThis (.uint128 round.eligibleCumulative)]

/-- `_isActiveRoundOpen` at `block.timestamp = now`. -/
def isActiveRoundOpen (now : Nat) (v : Vault E64 E128 EBool) : Bool :=
  let round := v.rounds v.activeRoundId
  round.state == .open && decide (round.opensAt ≤ now) && decide (now < round.closesAt)

/-- `_accrueEligible` of a round. -/
def accrueEligible (roundId timestamp : Nat) (v : Vault E64 E128 EBool) :
    Except Revert (Vault E64 E128 EBool) := do
  let round := v.rounds roundId
  let elapsed ← sub timestamp round.eligibleTimestamp
  if elapsed = 0 then return v else
  let eligibleCumulative := fhe.add128 round.eligibleCumulative
    (fhe.mul128 (fhe.widen round.eligibleBalance) (fhe.asEuint128 elapsed))
  return (v.setRound roundId { round with
      eligibleCumulative := eligibleCumulative
      eligibleTimestamp := timestamp }).grant [cfg.allowThis (.uint128 eligibleCumulative)]

/-- The observations of an account after `_checkpointUser`, and the cumulative it wrote. -/
def record (newBalance : E64) (timestamp : Nat) (observations : List (Observation E64 E128)) :
    Except Revert (List (Observation E64 E128) × E128) :=
  match observations.getLast? with
  | none =>
    .ok (observations ++ [⟨timestamp, newBalance, fhe.asEuint128 0⟩], fhe.asEuint128 0)
  | some previous => do
    let elapsed ← sub timestamp previous.timestamp
    if elapsed = 0 then
      return (observations.dropLast ++ [⟨previous.timestamp, newBalance, previous.cumulative⟩],
        previous.cumulative)
    else
      let cumulative := fhe.add128 previous.cumulative
        (fhe.mul128 (fhe.widen previous.balance) (fhe.asEuint128 elapsed))
      return (observations ++ [⟨timestamp, newBalance, cumulative⟩], cumulative)

/-- `_checkpointUser`. -/
def checkpointUser (account : Address) (newBalance : E64) (timestamp : Nat)
    (v : Vault E64 E128 EBool) : Except Revert (Vault E64 E128 EBool) := do
  let (observations, cumulative) ← record fhe newBalance timestamp (v.observations account)
  return ({ v with
      observations := Function.update v.observations account observations }).grant
    [cfg.allowThis (.uint64 newBalance), cfg.allowThis (.uint128 cumulative)]

/-- `_cumulativeAt`. -/
def cumulativeAt (account : Address) (timestamp : Nat) (v : Vault E64 E128 EBool) :
    Except Revert E128 :=
  let observations := v.observations account
  match observations[0]? with
  | none => .ok (fhe.asEuint128 0)
  | some first =>
    if timestamp < first.timestamp then .ok (fhe.asEuint128 0) else
    let low := bisect
      (fun middle => (observations[middle]?).any fun o => decide (o.timestamp ≤ timestamp))
      observations.length 0 observations.length
    match observations[low]? with
    | none => .error (.panic .vault .outOfBounds)
    | some observation => do
      let elapsed ← sub timestamp observation.timestamp
      if elapsed = 0 then return observation.cumulative else
      return fhe.add128 observation.cumulative
        (fhe.mul128 (fhe.widen observation.balance) (fhe.asEuint128 elapsed))

/-- `_roundWeight`. -/
def roundWeight (roundId : Nat) (account : Address) (v : Vault E64 E128 EBool) :
    Except Revert E128 := do
  let fin ← cumulativeAt fhe account (v.rounds roundId).closesAt v
  let start ← cumulativeAt fhe account (v.eligibilityStart roundId account) v
  return fhe.sub128 fin start

variable {fhe} in
/-- `_preferenceAt`. -/
def preferenceAt (account : Address) (timestamp : Nat) (v : Vault E64 E128 EBool) :
    Except Revert AutoSavePreference :=
  let observations := v.preferenceObservations account
  match observations[0]? with
  | none => .ok .keepAvailable
  | some first =>
    if timestamp ≤ first.timestamp then .ok .keepAvailable else
    let low := bisect
      (fun middle => (observations[middle]?).any fun o => decide (o.timestamp < timestamp))
      observations.length 0 observations.length
    match observations[low]? with
    | none => .error (.panic .vault .outOfBounds)
    | some observation => .ok observation.preference

/-- The balance of a registered account changed by `amount`: the accrual of its round is brought
to `timestamp` and the eligible balance follows the change, here `change` of the old balance. -/
def changeEligible (account : Address) (change : E64 → E64) (timestamp : Nat)
    (v : Vault E64 E128 EBool) : Except Revert (Vault E64 E128 EBool) :=
  if v.eligibilityStart v.activeRoundId account ≠ 0 then do
    let v ← accrueEligible fhe cfg v.activeRoundId timestamp v
    let round := v.rounds v.activeRoundId
    let eligibleBalance := change round.eligibleBalance
    return (v.setRound v.activeRoundId { round with eligibleBalance := eligibleBalance }).grant
      [cfg.allowThis (.uint64 eligibleBalance)]
  else .ok v

variable {fhe} in
/-- `_persistPrincipalState`. -/
def persistPrincipalState (account : Address) (v : Vault E64 E128 EBool) :
    Vault E64 E128 EBool :=
  v.grant [cfg.allowThis (.uint64 (v.principal account)),
    .allow (.uint64 (v.principal account)) account,
    cfg.allowThis (.uint64 v.totalPrincipal), cfg.allowThis (.uint64 v.liquidPrincipal)]

/-- The bookings of `_allocateParticipant` after the checkpoint: of `prize`, the part `autoSaved`
becomes principal and the rest becomes winnings. -/
def bookAllocation (roundId : Nat) (participant : Address) (prize autoSaved : E64)
    (v : Vault E64 E128 EBool) : Vault E64 E128 EBool :=
  let kept := fhe.sub64 prize autoSaved
  let v := { v with
    principal := Function.update v.principal participant
      (fhe.add64 (v.principal participant) autoSaved)
    winnings := Function.update v.winnings participant (fhe.add64 (v.winnings participant) kept)
    totalPrincipal := fhe.add64 v.totalPrincipal autoSaved
    liquidPrincipal := fhe.add64 v.liquidPrincipal autoSaved }
  -- the accrual of the active round is already at `block.timestamp`, only its balance changes
  let v :=
    if v.eligibilityStart v.activeRoundId participant ≠ 0 then
      let activeRound := v.rounds v.activeRoundId
      let eligibleBalance := fhe.add64 activeRound.eligibleBalance autoSaved
      (v.setRound v.activeRoundId { activeRound with eligibleBalance := eligibleBalance }).grant
        [cfg.allowThis (.uint64 eligibleBalance)]
    else v
  let v := { v with
    winningsLiability := fhe.add64 v.winningsLiability kept
    liquidPrizeAssets := fhe.sub64 v.liquidPrizeAssets autoSaved
    reservedPrize := fhe.sub64 v.reservedPrize prize }
  let round := v.rounds roundId
  let v := v.setRound roundId { round with reservedPrize := fhe.sub64 round.reservedPrize prize }
  v.grant
    [cfg.allowThis (.uint64 (v.principal participant)),
      .allow (.uint64 (v.principal participant)) participant,
      cfg.allowThis (.uint64 (v.winnings participant)),
      .allow (.uint64 (v.winnings participant)) participant,
      cfg.allowThis (.uint64 v.totalPrincipal), cfg.allowThis (.uint64 v.liquidPrincipal),
      cfg.allowThis (.uint64 v.winningsLiability), cfg.allowThis (.uint64 v.liquidPrizeAssets),
      cfg.allowThis (.uint64 v.reservedPrize),
      cfg.allowThis (.uint64 (v.rounds roundId).reservedPrize)]

/-- `_allocateParticipant` at `block.timestamp = now`. -/
def allocateParticipant (roundId now : Nat) (participant : Address) (v : Vault E64 E128 EBool) :
    Except Revert (Vault E64 E128 EBool) := do
  let round := v.rounds roundId
  let winner := v.winnerPredicate roundId participant
  let preference ← v.preferenceAt participant round.closesAt
  let wantsAutoSave := fhe.asEbool (preference == .autoSave)
  let zero := fhe.asEuint64 0
  let prize := fhe.select64 winner round.reservedPrize zero
  let autoFits := fhe.le64 prize
    (fhe.sub64 (fhe.asEuint64 MAX_POOL_BASE_UNITS) v.totalPrincipal)
  let autoSaveWinner := fhe.and (fhe.and winner wantsAutoSave) autoFits
  let autoSaved := fhe.select64 autoSaveWinner round.reservedPrize zero
  let newPrincipal := fhe.add64 (v.principal participant) autoSaved
  let v ← checkpointUser fhe cfg participant newPrincipal (uint64 now) v
  return v.bookAllocation fhe cfg roundId participant prize autoSaved

/-- The body of the `processSelection` loop for one participant. -/
def selectParticipant (roundId : Nat) (participant : Address) (v : Vault E64 E128 EBool) :
    Except Revert (Vault E64 E128 EBool) := do
  let round := v.rounds roundId
  let weight ← roundWeight fhe roundId participant v
  let intervalEnd := fhe.add128 round.selectionCumulative weight
  let atOrAfterStart := fhe.ge128 round.acceptedTicket round.selectionCumulative
  let beforeEnd := fhe.lt128 round.acceptedTicket intervalEnd
  let positiveWeight := fhe.gt128 weight (fhe.asEuint128 0)
  let isWinner := fhe.and (fhe.and atOrAfterStart beforeEnd) positiveWeight
  let encryptedWinnerCount := fhe.add64 round.encryptedWinnerCount (fhe.ofEbool isWinner)
  let v := { v with
    winnerPredicate := Function.update v.winnerPredicate roundId
      (Function.update (v.winnerPredicate roundId) participant isWinner) }
  let v := v.setRound roundId { round with
    selectionCumulative := intervalEnd
    encryptedWinnerCount := encryptedWinnerCount }
  return v.grant [cfg.allowThis (.bool isWinner), cfg.allowThis (.uint128 intervalEnd),
    cfg.allowThis (.uint64 encryptedWinnerCount)]

variable {fhe cfg} in
/-- The loop of a settlement pass: `count` participants of the round from `cursor` on. -/
def forParticipants (body : Address → Vault E64 E128 EBool → Except Revert (Vault E64 E128 EBool))
    (roundId : Nat) : (cursor count : Nat) → Vault E64 E128 EBool →
      Except Revert (Vault E64 E128 EBool)
  | _, 0, v => .ok v
  | cursor, count + 1, v => do
    let participant ← orRevert (.panic .vault .outOfBounds) (v.roundParticipants roundId)[cursor]?
    let v ← body participant v
    forParticipants body roundId (cursor + 1) count v

/-- `_wrapUnderlying`. -/
def wrapUnderlying (amount : Nat) (x : X) : Except Revert (X × E64) := do
  let x ← orRevert .external (E.forceApprove x cfg.vault cfg.asset amount)
  let (x, wrapped) ← orRevert .external (E.wrap x cfg.vault cfg.vault amount)
  let x ← orRevert .external (E.forceApprove x cfg.vault cfg.asset 0)
  return (x, wrapped)

/-- `_rollPrizeForward`. -/
def rollPrizeForward (roundId : Nat) (v : Vault E64 E128 EBool) :
    Except Revert (Vault E64 E128 EBool) := do
  let round := v.rounds roundId
  let destination := v.activeRoundId
  let sponsored := fhe.add64 (v.sponsoredPrize destination) round.reservedPrize
  let reservedPrize := fhe.sub64 v.reservedPrize round.reservedPrize
  let publicSponsored ← add 64 (v.publicSponsoredPrize destination) round.publicPrize
  let v := { v with
    sponsoredPrize := Function.update v.sponsoredPrize destination sponsored
    reservedPrize := reservedPrize
    publicSponsoredPrize := Function.update v.publicSponsoredPrize destination publicSponsored }
  return (v.setRound roundId { round with reservedPrize := fhe.asEuint64 0 }).grant
    [cfg.allowThis (.uint64 sponsored), cfg.allowThis (.uint64 reservedPrize),
      cfg.allowThis (.uint64 (fhe.asEuint64 0))]

/-- `_strategyEpoch`: the active epoch, in the expected state. -/
def strategyEpoch (epochId : Nat) (expected : StrategyEpochState) (v : Vault E64 E128 EBool) :
    Except Revert (StrategyEpoch E64) := do
  requireStrategy cfg
  revertIf (epochId = 0 ∨ epochId ≠ v.activeStrategyEpochId) (.vault .invalidStrategyEpoch)
  revertIf ((v.strategyEpochs epochId).state ≠ expected) (.vault .strategyEpochNotReady)
  return v.strategyEpochs epochId

end Vault

end Leopold
