import Leopold.Vault.Operations

/-!
# The public part of `LeopoldVault`

Without its handles the storage of the vault is that of a vault over unit types.  `Fhe.erased` has
nothing to compute on such handles, and answers each check of a decryption proof as it is told.
Each function of the vault keeps to this: what it does to the public part, and whether it reverts,
is what it does over the erased handles.
-/

namespace Leopold

open Lib

variable {E64 E128 EBool : Type}

/-- No plaintexts and no handles; `accepts` is the answer of every check of a proof. -/
def Fhe.erased (accepts : Bool) : Fhe Unit Unit Unit where
  null64 := ()
  null128 := ()
  nullBool := ()
  isInitialized _ := true
  asEuint64 _ := ()
  asEuint128 _ := ()
  asEbool _ := ()
  widen _ := ()
  ofEbool _ := ()
  add64 _ _ := ()
  sub64 _ _ := ()
  mul64 _ _ := ()
  div64 _ _ := ()
  le64 _ _ := ()
  lt64 _ _ := ()
  gt64 _ _ := ()
  eq64 _ _ := ()
  select64 _ _ _ := ()
  add128 _ _ := ()
  sub128 _ _ := ()
  mul128 _ _ := ()
  rem128 _ _ := ()
  ge128 _ _ := ()
  lt128 _ _ := ()
  gt128 _ _ := ()
  eq128 _ _ := ()
  and _ _ := ()
  checkSignatures64 _ _ _ := accepts
  checkSignatures128 _ _ _ := accepts
  checkSignaturesBool _ _ _ := accepts

def Handle.erase : Handle E64 E128 EBool → Handle Unit Unit Unit
  | .uint64 _ => .uint64 ()
  | .uint128 _ => .uint128 ()
  | .bool _ => .bool ()

/-- Which kind of handle is granted to whom. -/
def Grant.erase : Grant E64 E128 EBool → Grant Unit Unit Unit
  | .allow h account => .allow h.erase account
  | .makePubliclyDecryptable h => .makePubliclyDecryptable h.erase

def Round.erase (round : Round E64 E128 EBool) : Round Unit Unit Unit where
  opensAt := round.opensAt
  closesAt := round.closesAt
  state := round.state
  aggregateTwab := ()
  publicAggregateTwab := round.publicAggregateTwab
  publicPrize := round.publicPrize
  candidate := ()
  candidateValid := ()
  acceptedTicket := ()
  participantCountSnapshot := round.participantCountSnapshot
  selectionCursor := round.selectionCursor
  allocationCursor := round.allocationCursor
  reservedPrize := ()
  selectionCumulative := ()
  encryptedWinnerCount := ()
  reconciliationValid := ()
  eligibleBalance := ()
  eligibleCumulative := ()
  eligibleTimestamp := round.eligibleTimestamp

/-- The identifier of the unwrap request is a handle as well. -/
def StrategyEpoch.erase (epoch : StrategyEpoch E64) : StrategyEpoch Unit where
  kind := epoch.kind
  state := epoch.state
  openedAt := epoch.openedAt
  amount := ()
  unwrapRequestId := 0
  publicAmount := epoch.publicAmount

def Observation.erase (observation : Observation E64 E128) : Observation Unit Unit :=
  ⟨observation.timestamp, (), ()⟩

/-- What `decodeUint256` answers. -/
theorem decodeUint256_word {c : Cleartexts} {n : Nat} (h : c.decodeUint256 = .ok n) :
    n = c.word := by
  obtain ⟨_, -, h⟩ := seq_eq_ok.1 h
  exact (Except.ok.inj h).symm

theorem decodeBool_word {c : Cleartexts} {b : Bool} (h : c.decodeBool = .ok b) :
    b = (c.word == 1) := by
  obtain ⟨_, -, h⟩ := seq_eq_ok.1 h
  exact (Except.ok.inj h).symm

namespace Vault

def erase (v : Vault E64 E128 EBool) : Vault Unit Unit Unit where
  activeRoundId := v.activeRoundId
  rounds := fun roundId => (v.rounds roundId).erase
  roundParticipants := v.roundParticipants
  eligibilityStart := v.eligibilityStart
  observations := fun account => (v.observations account).map Observation.erase
  principal _ := ()
  winnings _ := ()
  autoSavePreference := v.autoSavePreference
  preferenceObservations := v.preferenceObservations
  winnerPredicate _ _ := ()
  totalPrincipal := ()
  liquidPrincipal := ()
  deployedPrincipal := ()
  principalInTransition := ()
  strategyShortfall := ()
  liquidPrizeAssets := ()
  realizedSurplus := ()
  reservedPrize := ()
  winningsLiability := ()
  sponsoredPrize _ := ()
  publicSponsoredPrize := v.publicSponsoredPrize
  uncommittedYield := ()
  publicUncommittedYield := v.publicUncommittedYield
  activeStrategyEpochId := v.activeStrategyEpochId
  strategyEpochs := fun epochId => (v.strategyEpochs epochId).erase
  candidateAttempts := v.candidateAttempts
  acl := v.acl.map Grant.erase

variable {v : Vault E64 E128 EBool} {fhe : Fhe E64 E128 EBool} {cfg : Config} {accepts : Bool}

theorem erase_update {rounds : Nat → Round E64 E128 EBool} {roundId : Nat}
    {round : Round E64 E128 EBool} :
    (fun i => (Function.update rounds roundId round i).erase) =
      Function.update (fun i => (rounds i).erase) roundId round.erase :=
  Function.comp_update Round.erase rounds roundId round

theorem erase_setRound {roundId : Nat} {round : Round E64 E128 EBool} :
    (v.setRound roundId round).erase = v.erase.setRound roundId round.erase := by
  simp only [erase, setRound, erase_update]

theorem erase_updateEpoch {epochs : Nat → StrategyEpoch E64} {epochId : Nat}
    {epoch : StrategyEpoch E64} :
    (fun i => (Function.update epochs epochId epoch i).erase) =
      Function.update (fun i => (epochs i).erase) epochId epoch.erase :=
  Function.comp_update StrategyEpoch.erase epochs epochId epoch

theorem erase_setEpoch {epochId : Nat} {epoch : StrategyEpoch E64} :
    (v.setEpoch epochId epoch).erase = v.erase.setEpoch epochId epoch.erase := by
  simp only [erase, setEpoch, erase_updateEpoch]

theorem erase_grant {grants : List (Grant E64 E128 EBool)} :
    (v.grant grants).erase = v.erase.grant (grants.map Grant.erase) := by
  simp only [erase, grant, List.map_append]

theorem erase_observations {account : Address} {observations : List (Observation E64 E128)} :
    ({ v with observations := Function.update v.observations account observations }).erase =
      { v.erase with observations :=
          Function.update v.erase.observations account (observations.map .erase) } := by
  have : (fun a => (Function.update v.observations account observations a).map Observation.erase) =
      Function.update (fun a => (v.observations a).map Observation.erase) account
        (observations.map .erase) :=
    Function.comp_update (List.map Observation.erase) v.observations account observations
  simp only [erase, this]

/-! ### The private functions -/

theorem initializeRound_erase {roundId opensAt : Nat} :
    (initializeRound fhe cfg roundId opensAt v).map erase =
      initializeRound (.erased accepts) cfg roundId opensAt v.erase := by
  refine map_bind_eq fun closesAt _ => congrArg Except.ok ?_
  rw [erase_grant, erase_setRound]
  rfl

theorem accrueEligible_erase {roundId timestamp : Nat} :
    (accrueEligible fhe cfg roundId timestamp v).map erase =
      accrueEligible (.erased accepts) cfg roundId timestamp v.erase := by
  refine map_bind_eq fun elapsed _ => map_ite (fun _ => rfl) fun _ => congrArg Except.ok ?_
  rw [erase_grant, erase_setRound]
  rfl

theorem record_erase (accepts : Bool) {newBalance : E64} {timestamp : Nat}
    {observations : List (Observation E64 E128)} :
    (record fhe newBalance timestamp observations).map (fun r => (r.1.map Observation.erase, ())) =
      record (.erased accepts) () timestamp (observations.map .erase) := by
  unfold record
  rw [List.getLast?_map]
  cases observations.getLast? with
  | none => exact congrArg Except.ok (by simp [Observation.erase, Fhe.erased])
  | some previous =>
    refine map_bind_eq fun elapsed _ => map_ite (fun _ => ?_) fun _ => ?_
    · exact congrArg Except.ok (by simp [Observation.erase, List.map_dropLast])
    · exact congrArg Except.ok (by simp [Observation.erase])

theorem checkpointUser_erase {account : Address} {newBalance : E64} {timestamp : Nat} :
    (checkpointUser fhe cfg account newBalance timestamp v).map erase =
      checkpointUser (.erased accepts) cfg account () timestamp v.erase := by
  refine map_bind_image (record_erase accepts) fun r => congrArg Except.ok ?_
  rw [erase_grant, erase_observations]
  rfl

theorem cumulativeAt_erase {account : Address} {timestamp : Nat} :
    (cumulativeAt fhe account timestamp v).map (fun _ => ()) =
      cumulativeAt (.erased accepts) account timestamp v.erase := by
  have hget (i : Nat) : (v.erase.observations account)[i]? =
      (v.observations account)[i]?.map Observation.erase := List.getElem?_map
  have hlow : (fun middle : Nat => ((v.erase.observations account)[middle]?).any
        fun o : Observation Unit Unit => decide (o.timestamp ≤ timestamp)) =
      fun middle : Nat => ((v.observations account)[middle]?).any
        fun o : Observation E64 E128 => decide (o.timestamp ≤ timestamp) := by
    funext middle
    rw [hget, Option.any_map]
    rfl
  have hlength : (v.erase.observations account).length = (v.observations account).length :=
    List.length_map _
  unfold cumulativeAt
  dsimp only
  rw [hlow, hlength, hget]
  cases (v.observations account)[0]? with
  | none => rfl
  | some first =>
    refine map_ite (fun _ => rfl) fun _ => ?_
    rw [hget]
    cases (v.observations account)[bisect _ _ 0 _]? with
    | none => rfl
    | some observation => exact map_bind_eq fun elapsed _ => map_ite (fun _ => rfl) fun _ => rfl

theorem roundWeight_erase {roundId : Nat} {account : Address} :
    (roundWeight fhe roundId account v).map (fun _ => ()) =
      roundWeight (.erased accepts) roundId account v.erase :=
  map_bind_image cumulativeAt_erase fun _ => map_bind_image cumulativeAt_erase fun _ => rfl

theorem changeEligible_erase {account : Address} {change : E64 → E64} {timestamp : Nat} :
    (changeEligible fhe cfg account change timestamp v).map erase =
      changeEligible (.erased accepts) cfg account id timestamp v.erase := by
  refine map_ite (fun _ => ?_) fun _ => rfl
  refine map_bind_image accrueEligible_erase fun v => congrArg Except.ok ?_
  rw [erase_grant, erase_setRound]
  rfl

theorem persistPrincipalState_erase {account : Address} :
    (v.persistPrincipalState cfg account).erase = v.erase.persistPrincipalState cfg account :=
  erase_grant

theorem bookAllocation_erase {roundId : Nat} {participant : Address} {prize autoSaved : E64} :
    (v.bookAllocation fhe cfg roundId participant prize autoSaved).erase =
      v.erase.bookAllocation (.erased accepts) cfg roundId participant () () := by
  by_cases h : v.eligibilityStart v.activeRoundId participant ≠ 0
  · have h' : v.erase.eligibilityStart v.erase.activeRoundId participant ≠ 0 := h
    have hactive : Function.update v.erase.rounds v.erase.activeRoundId {
          v.erase.rounds v.erase.activeRoundId with
          eligibleBalance := (Fhe.erased accepts).add64
            (v.erase.rounds v.erase.activeRoundId).eligibleBalance () } =
        fun i => (Function.update v.rounds v.activeRoundId {
          v.rounds v.activeRoundId with
          eligibleBalance := fhe.add64 (v.rounds v.activeRoundId).eligibleBalance autoSaved }
            i).erase := by
      rw [erase_update]
      rfl
    simp only [bookAllocation, if_pos h, if_pos h', setRound, grant, hactive]
    generalize Function.update v.rounds v.activeRoundId _ = rounds
    simp only [erase, erase_update, List.map_append]
    rfl
  · have h' : ¬ v.erase.eligibilityStart v.erase.activeRoundId participant ≠ 0 := h
    simp only [bookAllocation, if_neg h, if_neg h']
    simp only [erase, setRound, grant, erase_update, List.map_append]
    rfl

theorem allocateParticipant_erase {roundId now : Nat} {participant : Address} :
    (allocateParticipant fhe cfg roundId now participant v).map erase =
      allocateParticipant (.erased accepts) cfg roundId now participant v.erase := by
  refine map_bind_eq fun preference _ => ?_
  exact map_bind_image checkpointUser_erase fun v => congrArg Except.ok bookAllocation_erase

theorem selectParticipant_erase {roundId : Nat} {participant : Address} :
    (selectParticipant fhe cfg roundId participant v).map erase =
      selectParticipant (.erased accepts) cfg roundId participant v.erase := by
  refine map_bind_image roundWeight_erase fun weight => congrArg Except.ok ?_
  rw [erase_grant, erase_setRound]
  rfl

theorem forParticipants_erase
    {body : Address → Vault E64 E128 EBool → Except Revert (Vault E64 E128 EBool)}
    {body' : Address → Vault Unit Unit Unit → Except Revert (Vault Unit Unit Unit)}
    (hbody : ∀ participant v, (body participant v).map erase = body' participant v.erase)
    {roundId cursor count : Nat} :
    (forParticipants body roundId cursor count v).map erase =
      forParticipants body' roundId cursor count v.erase := by
  induction count generalizing cursor v with
  | zero => rfl
  | succ count ih =>
    exact map_bind_eq fun participant _ => map_bind_image (hbody participant v) fun v => ih

theorem rollPrizeForward_erase {roundId : Nat} :
    (rollPrizeForward fhe cfg roundId v).map erase =
      rollPrizeForward (.erased accepts) cfg roundId v.erase := by
  refine map_bind_eq fun publicSponsored _ => congrArg Except.ok ?_
  rw [erase_grant, erase_setRound]
  rfl

theorem strategyEpoch_erase {epochId : Nat} {expected : StrategyEpochState} :
    (v.strategyEpoch cfg epochId expected).map StrategyEpoch.erase =
      v.erase.strategyEpoch cfg epochId expected :=
  map_bind_eq fun _ _ => map_bind_eq fun _ _ => map_bind_eq fun _ _ => rfl

/-! ### The entry points -/

theorem acceptBondRegistration_erase {sender : Address} {roundId : Nat} {account : Address}
    {now : Nat} :
    (acceptBondRegistration fhe cfg sender roundId account now v).map erase =
      acceptBondRegistration (.erased accepts) cfg sender roundId account now v.erase := by
  refine map_bind_eq fun _ _ => map_bind_eq fun _ _ => map_bind_eq fun _ _ =>
    map_bind_eq fun _ _ => map_bind_image accrueEligible_erase fun v => congrArg Except.ok ?_
  rw [erase_grant, erase_setRound]
  rfl

theorem onConfidentialTransferReceived_erase {sender holder : Address} {amount : E64}
    {dataLength now : Nat} :
    (onConfidentialTransferReceived fhe cfg sender holder amount dataLength now v).map
        (fun r => (r.1.erase, ())) =
      onConfidentialTransferReceived (.erased accepts) cfg sender holder () dataLength now
        v.erase := by
  refine map_bind_eq fun _ _ => map_bind_eq fun _ _ => map_bind_eq fun _ _ =>
    map_bind_image checkpointUser_erase fun v => map_bind_image changeEligible_erase fun v =>
      congrArg Except.ok (Prod.ext persistPrincipalState_erase rfl)

theorem recordWithdrawal_erase {sender : Address} {sent : E64} {now : Nat} :
    (recordWithdrawal fhe cfg sender sent now v).map erase =
      recordWithdrawal (.erased accepts) cfg sender () now v.erase := by
  refine map_bind_image checkpointUser_erase fun v => map_bind_image changeEligible_erase fun v =>
    congrArg Except.ok ?_
  rw [erase_grant, persistPrincipalState_erase]
  rfl

theorem closeRound_erase {now : Nat} :
    (closeRound fhe cfg now v).map erase = closeRound (.erased accepts) cfg now v.erase := by
  refine map_bind_eq fun _ _ => map_bind_eq fun _ _ => map_bind_image accrueEligible_erase fun v =>
    map_bind_eq fun publicPrize _ => map_bind_eq fun nextRoundId _ => ?_
  refine initializeRound_erase.trans (congrArg (initializeRound _ cfg _ _) ?_)
  simp only [erase, setRound, grant, erase_update, List.map_append]
  rfl

/-- The answer to the check of the aggregate is given. -/
theorem finalizeAggregate_erase {roundId : Nat} {cleartexts : Cleartexts} {proof : DecryptionProof}
    (haccepts : fhe.checkSignatures128 (v.rounds roundId).aggregateTwab cleartexts.word proof =
      accepts) :
    (finalizeAggregate fhe roundId cleartexts proof v).map erase =
      finalizeAggregate (.erased accepts) roundId cleartexts proof v.erase := by
  refine map_bind_eq fun _ _ => map_bind_eq fun _ _ => map_bind_eq fun clearValue hclear =>
    map_bind_eq fun _ _ => ?_
  dsimp only
  rw [decodeUint256_word hclear, haccepts]
  refine map_bind_eq fun _ _ => congrArg Except.ok ?_
  rw [erase_setRound]
  rfl

theorem acceptTicket_erase {roundId : Nat} {round : Round E64 E128 EBool} {candidate : E128} :
    (v.acceptTicket fhe cfg roundId round candidate).erase =
      v.erase.acceptTicket (.erased accepts) cfg roundId round.erase () := by
  unfold acceptTicket
  rw [erase_grant, erase_setRound]
  rfl

theorem generateRandomCandidate_erase {roundId : Nat} {candidate : E128} :
    (generateRandomCandidate fhe cfg roundId candidate v).map erase =
      generateRandomCandidate (.erased accepts) cfg roundId () v.erase := by
  refine map_bind_eq fun _ _ => map_bind_eq fun _ _ => map_bind_eq fun attempt _ =>
    map_ite (fun _ => congrArg Except.ok ?_) fun _ => congrArg Except.ok ?_
  · rw [acceptTicket_erase, erase_grant]
    rfl
  · rw [erase_grant, erase_setRound, erase_grant]
    rfl

theorem checkBooleanProof_erase {handle : EBool} {cleartexts : Cleartexts}
    {proof : DecryptionProof}
    (haccepts : fhe.checkSignaturesBool handle (cleartexts.word == 1) proof = accepts) :
    checkBooleanProof fhe handle cleartexts proof =
      checkBooleanProof (.erased accepts) () cleartexts proof := by
  unfold checkBooleanProof
  rcases hclear : cleartexts.decodeBool with e | clearValue
  · rfl
  · rw [bind_ok, bind_ok, decodeBool_word hclear, haccepts]
    rfl

theorem finalizeCandidateValidity_erase {roundId : Nat} {cleartexts : Cleartexts}
    {proof : DecryptionProof}
    (haccepts : fhe.checkSignaturesBool (v.rounds roundId).candidateValid (cleartexts.word == 1)
      proof = accepts) :
    (finalizeCandidateValidity fhe cfg roundId cleartexts proof v).map erase =
      finalizeCandidateValidity (.erased accepts) cfg roundId cleartexts proof v.erase := by
  refine map_bind_eq fun _ _ => map_bind_eq fun _ _ => ?_
  rw [checkBooleanProof_erase haccepts]
  refine map_bind_eq fun valid _ => map_ite (fun _ => congrArg Except.ok ?_) fun _ =>
    congrArg Except.ok acceptTicket_erase
  rw [erase_setRound]
  rfl

theorem startSelection_erase {roundId : Nat} :
    (startSelection fhe cfg roundId v).map erase =
      startSelection (.erased accepts) cfg roundId v.erase := by
  refine map_ite (fun _ => congrArg Except.ok ?_) fun _ => map_bind_eq fun _ _ => rfl
  rw [erase_grant, erase_setRound]
  rfl

theorem requestReconciliation_erase {roundId : Nat} :
    (v.requestReconciliation fhe cfg roundId).erase =
      v.erase.requestReconciliation (.erased accepts) cfg roundId := by
  unfold requestReconciliation
  dsimp only
  split_ifs with hcursor hcursor' hcursor'
  · rw [erase_grant, erase_setRound]
    rfl
  · exact absurd hcursor hcursor'
  · exact absurd hcursor' hcursor
  · rfl

theorem finalizeSelectionReconciliation_erase {roundId : Nat} {cleartexts : Cleartexts}
    {proof : DecryptionProof}
    (haccepts : fhe.checkSignaturesBool (v.rounds roundId).reconciliationValid
      (cleartexts.word == 1) proof = accepts) :
    (finalizeSelectionReconciliation fhe roundId cleartexts proof v).map erase =
      finalizeSelectionReconciliation (.erased accepts) roundId cleartexts proof v.erase := by
  refine map_bind_eq fun _ _ => map_bind_eq fun _ _ => ?_
  rw [checkBooleanProof_erase haccepts]
  refine map_bind_eq fun valid _ => map_ite (fun _ => congrArg Except.ok ?_) fun _ =>
    congrArg Except.ok ?_
  · rw [erase_setRound]
    rfl
  · rw [erase_setRound]
    rfl

theorem startAllocation_erase {roundId : Nat} :
    (startAllocation roundId v).map erase = startAllocation roundId v.erase := by
  refine map_ite (fun _ => congrArg Except.ok ?_) fun _ => map_bind_eq fun _ _ => rfl
  rw [erase_setRound]
  rfl

theorem finishAllocation_erase {roundId : Nat} :
    (v.finishAllocation roundId).erase = v.erase.finishAllocation roundId := by
  unfold finishAllocation
  dsimp only
  split_ifs with hcursor hcursor' hcursor'
  · rw [erase_setRound]
    rfl
  · exact absurd hcursor hcursor'
  · exact absurd hcursor' hcursor
  · rfl

theorem materializeMyRoundWeight_erase {sender : Address} {roundId : Nat} :
    (materializeMyRoundWeight fhe cfg sender roundId v).map (fun r => (r.1.erase, ())) =
      materializeMyRoundWeight (.erased accepts) cfg sender roundId v.erase := by
  refine map_bind_eq fun _ _ => map_bind_eq fun _ _ => map_bind_image cumulativeAt_erase fun _ =>
    map_bind_image cumulativeAt_erase fun _ => congrArg Except.ok (Prod.ext erase_grant rfl)

end Vault

end Leopold
