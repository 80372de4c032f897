import Leopold.System.Shape
import Leopold.Lib.Lottery

/-!
# What a call does to a round

A round moves through its life one call at a time.  `RoundStep` lists everything a call can do to
one round, with the guards that allow it; `exec_roundStep` says that nothing else happens.  The
selection loop is a `Tally` of the participants it visits.
-/

namespace Leopold

open Lib

section

variable {E64 E128 EBool X : Type} (fhe : Fhe E64 E128 EBool) {E : Externals E64 EBool X}
  {cfg : Config}

/-! ## The tally of a selection -/

/-- What the selection of a round has accumulated. -/
@[ext] structure Tally (E64 E128 EBool : Type) where
  cumulative : E128
  winners : E64
  predicate : Address → EBool

namespace Tally

/-- Whether a participant of weight `weight` holds the ticket. -/
def isWinner (ticket weight : E128) (t : Tally E64 E128 EBool) : EBool :=
  fhe.and (fhe.and (fhe.ge128 ticket t.cumulative)
    (fhe.lt128 ticket (fhe.add128 t.cumulative weight))) (fhe.gt128 weight (fhe.asEuint128 0))

/-- One participant is visited. -/
def visit (ticket : E128) (weight : Address → E128) (t : Tally E64 E128 EBool) (a : Address) :
    Tally E64 E128 EBool where
  cumulative := fhe.add128 t.cumulative (weight a)
  winners := fhe.add64 t.winners (fhe.ofEbool (t.isWinner fhe ticket (weight a)))
  predicate := Function.update t.predicate a (t.isWinner fhe ticket (weight a))

/-- The participants of a chunk are visited in order. -/
def run (ticket : E128) (weight : Address → E128) (as : List Address)
    (t : Tally E64 E128 EBool) : Tally E64 E128 EBool :=
  as.foldl (visit fhe ticket weight) t

end Tally

namespace Vault

/-- What the selection of round `r` has accumulated. -/
def tally (r : Nat) (v : Vault E64 E128 EBool) : Tally E64 E128 EBool :=
  ⟨(v.rounds r).selectionCumulative, (v.rounds r).encryptedWinnerCount, v.winnerPredicate r⟩

/-- The tally with which a chunk of round `r` starts. -/
def startTally (r : Nat) (v : Vault E64 E128 EBool) : Tally E64 E128 EBool :=
  if (v.rounds r).state = .ticketAccepted then
    ⟨fhe.asEuint128 0, fhe.asEuint64 0, v.winnerPredicate r⟩
  else v.tally r

/-- The vault with another tally of round `r`. -/
def withTally (r : Nat) (t : Tally E64 E128 EBool) (v : Vault E64 E128 EBool) :
    Vault E64 E128 EBool :=
  { v with winnerPredicate := Function.update v.winnerPredicate r t.predicate }.setRound r
    { v.rounds r with
      selectionCumulative := t.cumulative
      encryptedWinnerCount := t.winners }

/-- The weight of an account as the encrypted arithmetic computes it. -/
def weightOf (r : Nat) (v : Vault E64 E128 EBool) (a : Address) : E128 :=
  (roundWeight fhe r a v).toOption.getD (fhe.asEuint128 0)

variable {fhe} {v v' : Vault E64 E128 EBool} {r : Nat} {a : Address}

theorem weightOf_eq {weight : E128} (h : roundWeight fhe r a v = .ok weight) :
    weightOf fhe r v a = weight := by
  rw [weightOf, h]
  rfl

/-- The weight only reads the history, the registration and the close. -/
theorem roundWeight_congr (hobs : v'.observations = v.observations)
    (hstart : v'.eligibilityStart = v.eligibilityStart)
    (hcloses : (v'.rounds r).closesAt = (v.rounds r).closesAt) :
    roundWeight fhe r a v' = roundWeight fhe r a v := by
  have hcum : ∀ t, cumulativeAt fhe a t v' = cumulativeAt fhe a t v := by
    intro t
    rw [cumulativeAt, cumulativeAt, hobs]
  rw [roundWeight, roundWeight, hcum, hcum, hcloses, hstart]

theorem withTally_rounds_self (t : Tally E64 E128 EBool) :
    (v.withTally r t).rounds r = { v.rounds r with
      selectionCumulative := t.cumulative
      encryptedWinnerCount := t.winners } := setRound_rounds_self _ _

theorem withTally_withTally (t t' : Tally E64 E128 EBool) :
    (v.withTally r t).withTally r t' = v.withTally r t' := by
  simp only [withTally, setRound, Function.update_self, Function.update_idem]

theorem tally_withTally (t : Tally E64 E128 EBool) : (v.withTally r t).tally r = t := by
  rw [tally, withTally_rounds_self]
  exact Tally.ext rfl rfl (Function.update_self _ _ _)

theorem withTally_self (v : Vault E64 E128 EBool) (r : Nat) : v.withTally r (v.tally r) = v := by
  simp only [withTally, tally, Function.update_eq_self]
  exact setRound_self v r

/-- One pass of the selection body visits one participant. -/
theorem selectParticipant_tally (h : selectParticipant fhe cfg r a v = .ok v') :
    ∃ gs, roundWeight fhe r a v = .ok (weightOf fhe r v a) ∧
      v' = (v.withTally r ((v.tally r).visit fhe (v.rounds r).acceptedTicket
        (weightOf fhe r v) a)).grant gs := by
  obtain ⟨weight, gs, hweight, rfl⟩ := selectParticipant_ok h
  have hw := weightOf_eq hweight
  refine ⟨gs, hw ▸ hweight, ?_⟩
  simp only [withTally, tally, Tally.visit, Tally.isWinner, hw]

/-- The loop of a selection chunk. -/
theorem forList_select {as : List Address} (h : forList (selectParticipant fhe cfg r) as v = .ok v') :
    ∃ gs, (∀ a ∈ as, roundWeight fhe r a v = .ok (weightOf fhe r v a)) ∧
      v' = (v.withTally r ((v.tally r).run fhe (v.rounds r).acceptedTicket
        (weightOf fhe r v) as)).grant gs := by
  induction as generalizing v with
  | nil =>
    simp only [forList, ok_eq_ok] at h
    refine ⟨[], List.forall_mem_nil _, ?_⟩
    rw [grant_nil, Tally.run, List.foldl_nil, withTally_self, h]
  | cons a as ih =>
    simp only [forList, seq_eq_ok] at h
    obtain ⟨v₁, hbody, h⟩ := h
    obtain ⟨gs, hweight, rfl⟩ := selectParticipant_tally hbody
    obtain ⟨gs', hweights, rfl⟩ := ih h
    generalize ht : (v.tally r).visit fhe _ _ a = t at hweights h ⊢
    -- the rest of the loop sees the same weights and the same ticket
    have hround : ((v.withTally r t).grant gs).rounds r = (v.withTally r t).rounds r := rfl
    have hsame : ∀ b, roundWeight fhe r b ((v.withTally r t).grant gs) =
        roundWeight fhe r b v := by
      intro b
      refine roundWeight_congr rfl rfl ?_
      rw [hround, withTally_rounds_self]
    have hweightOf : weightOf fhe r ((v.withTally r t).grant gs) = weightOf fhe r v := by
      funext b
      rw [weightOf, weightOf, hsame]
    rw [hweightOf] at hweights
    refine ⟨gs ++ gs', ?_, ?_⟩
    · intro b hb
      rcases List.mem_cons.1 hb with rfl | hb
      · exact hweight
      · rw [← hsame]
        exact hweights b hb
    · have htally : ((v.withTally r t).grant gs).tally r = t := tally_withTally t
      have hticket : (((v.withTally r t).grant gs).rounds r).acceptedTicket =
          (v.rounds r).acceptedTicket := by
        rw [hround, withTally_rounds_self]
      have hcollapse : ∀ t', ((v.withTally r t).grant gs).withTally r t' =
          (v.withTally r t').grant gs := by
        intro t'
        rw [← withTally_withTally (v := v) t t']
        rfl
      rw [hweightOf, htally, hticket, Tally.run, Tally.run, List.foldl_cons, ht, ← grant_grant,
        hcollapse]

variable (cfg) in
/-- A chunk of the selection whose weights can be computed is not reverted. -/
theorem forParticipants_select_isOk {cursor count : Nat}
    (hlength : cursor + count ≤ (v.roundParticipants r).length)
    (hweight : ∀ a ∈ v.roundParticipants r, ∃ w, roundWeight fhe r a v = .ok w) :
    ∃ v', forParticipants (selectParticipant fhe cfg r) r cursor count v = .ok v' := by
  induction count generalizing cursor v with
  | zero => exact ⟨v, rfl⟩
  | succ count ih =>
    have hlt : cursor < (v.roundParticipants r).length := by omega
    obtain ⟨weight, hw⟩ := hweight _ (List.getElem_mem hlt)
    obtain ⟨v₁, hbody⟩ : ∃ v₁, selectParticipant fhe cfg r (v.roundParticipants r)[cursor] v =
        .ok v₁ := ⟨_, by rw [selectParticipant, hw]; rfl⟩
    obtain ⟨gs, _, hv₁⟩ := selectParticipant_tally hbody
    have hparts : v₁.roundParticipants r = v.roundParticipants r := by rw [hv₁]; rfl
    have hsame : ∀ b, roundWeight fhe r b v₁ = roundWeight fhe r b v := by
      intro b
      rw [hv₁]
      refine roundWeight_congr rfl rfl ?_
      rw [grant_rounds, withTally_rounds_self]
    obtain ⟨v', hv'⟩ := ih (v := v₁) (by rw [hparts]; omega : cursor + 1 + count ≤ _)
      (by rw [hparts]; exact fun b hb => hsame b ▸ hweight b hb)
    refine ⟨v', ?_⟩
    rw [forParticipants, List.getElem?_eq_getElem hlt]
    exact seq_eq_ok.2 ⟨_, rfl, seq_eq_ok.2 ⟨v₁, hbody, hv'⟩⟩

end Vault

/-! ## The moves of a round -/

/-- A round moves on without a loop over its participants. -/
inductive Round.Moves (round : Round E64 E128 EBool) : Round E64 E128 EBool → Prop
  /-- The aggregate is decrypted. -/
  | aggregate {n : Nat} {proof : DecryptionProof} (hs : round.state = .aggregatePending)
      (hn : n ≤ MAX_AGGREGATE_TWAB)
      (hproof : fhe.checkSignatures128 round.aggregateTwab n proof = true) :
    Moves round { round with
      publicAggregateTwab := n
      state := if n = 0 then .empty else .aggregateFinalized }
  /-- A candidate of a domain that the weight divides is the ticket at once. -/
  | take {candidate : E128}
      (hs : round.state = .aggregateFinalized ∨ round.state = .candidateRejected)
      (hpos : round.publicAggregateTwab ≠ 0)
      (hle : round.publicAggregateTwab ≤ MAX_AGGREGATE_TWAB)
      (hlimit : 2 ^ 128 / round.publicAggregateTwab * round.publicAggregateTwab = 2 ^ 128) :
    Moves round { round with
      candidate := candidate
      acceptedTicket := fhe.rem128 candidate (fhe.asEuint128 round.publicAggregateTwab)
      state := .ticketAccepted }
  /-- A candidate waits for the decryption of its validity. -/
  | propose {candidate : E128}
      (hs : round.state = .aggregateFinalized ∨ round.state = .candidateRejected)
      (hpos : round.publicAggregateTwab ≠ 0)
      (hle : round.publicAggregateTwab ≤ MAX_AGGREGATE_TWAB)
      (hlimit : 2 ^ 128 / round.publicAggregateTwab * round.publicAggregateTwab ≠ 2 ^ 128) :
    Moves round { round with
      candidate := candidate
      candidateValid := fhe.lt128 candidate
        (fhe.asEuint128 (2 ^ 128 / round.publicAggregateTwab * round.publicAggregateTwab))
      state := .candidateValidityPending }
  | accept {proof : DecryptionProof} (hs : round.state = .candidateValidityPending)
      (hproof : fhe.checkSignaturesBool round.candidateValid true proof = true) :
    Moves round { round with
      acceptedTicket := fhe.rem128 round.candidate (fhe.asEuint128 round.publicAggregateTwab)
      state := .ticketAccepted }
  | reject {proof : DecryptionProof} (hs : round.state = .candidateValidityPending)
      (hproof : fhe.checkSignaturesBool round.candidateValid false proof = true) :
    Moves round { round with state := .candidateRejected }
  | reconcile {valid : Bool} {proof : DecryptionProof} (hs : round.state = .reconciliationPending)
      (hproof : fhe.checkSignaturesBool round.reconciliationValid valid proof = true) :
    Moves round { round with state := if valid then .readyToAllocate else .reconciliationFailed }
  | settle (hs : round.state = .winningsAllocated) : Moves round { round with state := .settled }
  /-- The prize of a round without a winner rolls forward and the round is settled. -/
  | rollForward (hs : round.state = .empty ∨ round.state = .reconciliationFailed) :
    Moves round { round with
      reservedPrize := fhe.asEuint64 0
      state := .settled }

namespace Vault

/-- The round after `processed` participants were selected from its cursor on. -/
def selectedRound (r processed : Nat) (t : Tally E64 E128 EBool) (v : Vault E64 E128 EBool) :
    Round E64 E128 EBool :=
  let round := { v.rounds r with
    state := .winnerProcessing
    selectionCumulative := t.cumulative
    encryptedWinnerCount := t.winners
    selectionCursor := (v.rounds r).selectionCursor + processed }
  if round.selectionCursor = round.participantCountSnapshot then { round with
    reconciliationValid := fhe.and
      (fhe.eq128 t.cumulative (fhe.asEuint128 round.publicAggregateTwab))
      (fhe.eq64 t.winners (fhe.asEuint64 1))
    state := .reconciliationPending }
  else round

/-- What one call did to round `r`. -/
inductive RoundStep (cfg : Config) (r : Nat) (v v' : Vault E64 E128 EBool) : Prop
  | same (hround : v'.rounds r = v.rounds r)
      (hparticipants : v'.roundParticipants r = v.roundParticipants r)
      (hpredicate : v'.winnerPredicate r = v.winnerPredicate r)
      (hactive : v'.activeRoundId = v.activeRoundId ∨
        (v'.activeRoundId = v.activeRoundId + 1 ∧ r ≠ v.activeRoundId ∧
          r ≠ v.activeRoundId + 1))
  /-- The open round accrues; somebody may have registered. -/
  | accrue {balance : E64} {cumulative : E128} {timestamp : Nat} {joined : List Address}
      (hr : r = v.activeRoundId) (htime : timestamp < (v.rounds r).closesAt)
      (hround : v'.rounds r = { v.rounds r with
        eligibleBalance := balance
        eligibleCumulative := cumulative
        eligibleTimestamp := timestamp })
      (hparticipants : v'.roundParticipants r = v.roundParticipants r ++ joined)
      (hpredicate : v'.winnerPredicate r = v.winnerPredicate r)
      (hactive : v'.activeRoundId = v.activeRoundId)
  | close (hr : r = v.activeRoundId) (hround : v'.rounds r = closedRound fhe v)
      (hparticipants : v'.roundParticipants r = v.roundParticipants r)
      (hpredicate : v'.winnerPredicate r = v.winnerPredicate r)
      (hactive : v'.activeRoundId = v.activeRoundId + 1)
  | opened (hr : r = v.activeRoundId + 1) (hround : v'.rounds r = openedRound fhe cfg v)
      (hparticipants : v'.roundParticipants r = v.roundParticipants r)
      (hpredicate : v'.winnerPredicate r = v.winnerPredicate r)
      (hactive : v'.activeRoundId = v.activeRoundId + 1)
  | move (hround : (v.rounds r).Moves fhe (v'.rounds r))
      (hparticipants : v'.roundParticipants r = v.roundParticipants r)
      (hpredicate : v'.winnerPredicate r = v.winnerPredicate r)
      (hactive : v'.activeRoundId = v.activeRoundId)
  /-- A chunk of the selection. -/
  | select {processed : Nat} {t : Tally E64 E128 EBool}
      (hs : (v.rounds r).state = .ticketAccepted ∨ (v.rounds r).state = .winnerProcessing)
      (hpos : (v.rounds r).selectionCursor < (v.rounds r).participantCountSnapshot → 0 < processed)
      (hle : (v.rounds r).selectionCursor ≤ (v.rounds r).participantCountSnapshot →
        (v.rounds r).selectionCursor + processed ≤ (v.rounds r).participantCountSnapshot)
      (hweight : ∀ a ∈ ((v.roundParticipants r).drop (v.rounds r).selectionCursor).take processed,
        roundWeight fhe r a v = .ok (weightOf fhe r v a))
      (ht : t = (v.startTally fhe r).run fhe (v.rounds r).acceptedTicket (weightOf fhe r v)
        (((v.roundParticipants r).drop (v.rounds r).selectionCursor).take processed))
      (hround : v'.rounds r = selectedRound fhe r processed t v)
      (hparticipants : v'.roundParticipants r = v.roundParticipants r)
      (hpredicate : v'.winnerPredicate r = t.predicate)
      (hactive : v'.activeRoundId = v.activeRoundId)
  /-- A chunk of the allocation. -/
  | allocate {processed : Nat} {reserved : E64}
      (hs : (v.rounds r).state = .readyToAllocate ∨ (v.rounds r).state = .allocationProcessing)
      (hpos : (v.rounds r).allocationCursor < (v.rounds r).participantCountSnapshot →
        0 < processed)
      (hle : (v.rounds r).allocationCursor ≤ (v.rounds r).participantCountSnapshot →
        (v.rounds r).allocationCursor + processed ≤ (v.rounds r).participantCountSnapshot)
      (hround : v'.rounds r = { v.rounds r with
        state :=
          if (v.rounds r).allocationCursor + processed = (v.rounds r).participantCountSnapshot
          then .winningsAllocated else .allocationProcessing
        allocationCursor := (v.rounds r).allocationCursor + processed
        reservedPrize := reserved })
      (hparticipants : v'.roundParticipants r = v.roundParticipants r)
      (hpredicate : v'.winnerPredicate r = v.winnerPredicate r)
      (hactive : v'.activeRoundId = v.activeRoundId)

variable {fhe} {v v' u : Vault E64 E128 EBool} {r s : Nat} {a : Address}

/-- The two vaults agree on the rounds and what belongs to them. -/
structure SameRounds (v u : Vault E64 E128 EBool) : Prop where
  activeRoundId : u.activeRoundId = v.activeRoundId
  rounds : u.rounds = v.rounds
  roundParticipants : u.roundParticipants = v.roundParticipants
  winnerPredicate : u.winnerPredicate = v.winnerPredicate

theorem SameRounds.refl (v : Vault E64 E128 EBool) : v.SameRounds v := ⟨rfl, rfl, rfl, rfl⟩

theorem SameRounds.step (h : v.SameRounds u) (r : Nat) : RoundStep fhe cfg r v u :=
  .same (congrFun h.rounds r) (congrFun h.roundParticipants r) (congrFun h.winnerPredicate r)
    (.inl h.activeRoundId)

/-- A write to one round is a step of that round and leaves the others alone. -/
theorem SameRounds.setRound (h : v.SameRounds u) {round : Round E64 E128 EBool}
    (hself : ∀ v', v'.rounds s = round → v'.roundParticipants s = v.roundParticipants s →
      v'.winnerPredicate s = v.winnerPredicate s → v'.activeRoundId = v.activeRoundId →
      RoundStep fhe cfg s v v') (gs : List (Grant E64 E128 EBool)) (r : Nat) :
    RoundStep fhe cfg r v ((u.setRound s round).grant gs) := by
  by_cases hr : r = s
  · subst hr
    exact hself _ (setRound_rounds_self r round) (congrFun h.roundParticipants r)
      (congrFun h.winnerPredicate r) h.activeRoundId
  · refine .same ?_ (congrFun h.roundParticipants r) (congrFun h.winnerPredicate r)
      (.inl h.activeRoundId)
    exact (setRound_rounds_of_ne hr round).trans (congrFun h.rounds r)

theorem SameRounds.move (h : v.SameRounds u) {round : Round E64 E128 EBool}
    (hmove : (v.rounds s).Moves fhe round) (gs : List (Grant E64 E128 EBool)) (r : Nat) :
    RoundStep fhe cfg r v ((u.setRound s round).grant gs) :=
  h.setRound (fun _ h1 h2 h3 h4 => .move (h1 ▸ hmove) h2 h3 h4) gs r

theorem checkpointUser_sameRounds {b : E64} {t : Nat}
    (h : checkpointUser fhe cfg a b t v = .ok v') : v.SameRounds v' := by
  obtain ⟨obs, cum, gs, _, rfl⟩ := checkpointUser_ok h
  exact ⟨rfl, rfl, rfl, rfl⟩

/-- While a round is open its close is ahead of the present. -/
theorem uint64_lt_closesAt {now : Nat} (h : v.isActiveRoundOpen now = true) :
    uint64 now < (v.rounds v.activeRoundId).closesAt :=
  (Nat.mod_le now _).trans_lt (isActiveRoundOpen_iff.1 h).2.2

/-- A change of a balance is an accrual of the open round. -/
theorem SameRounds.changeEligible {f : E64 → E64} {t : Nat} (h : v.SameRounds u)
    (ht : t < (v.rounds v.activeRoundId).closesAt)
    (hop : Vault.changeEligible fhe cfg a f t u = .ok v') (gs : List (Grant E64 E128 EBool))
    (r : Nat) : RoundStep fhe cfg r v (v'.grant gs) := by
  rcases changeEligible_ok hop with ⟨_, rfl⟩ | ⟨_, _, gs', rfl⟩
  · exact SameRounds.step (u := v'.grant gs) ⟨h.1, h.2, h.3, h.4⟩ r
  · rw [grant_grant]
    refine h.setRound (fun v' h1 h2 h3 h4 => ?_) _ r
    rw [h.rounds] at h1
    exact .accrue h.activeRoundId (h.activeRoundId.symm ▸ ht) h1 (h2.trans (List.append_nil _).symm) h3 h4

/-! ## The loop of an allocation -/

/-- What the allocation of round `r` may change of the rounds. -/
structure Allocating (r : Nat) (v u : Vault E64 E128 EBool) : Prop where
  activeRoundId : u.activeRoundId = v.activeRoundId
  roundParticipants : u.roundParticipants = v.roundParticipants
  winnerPredicate : u.winnerPredicate = v.winnerPredicate
  eligibilityStart : u.eligibilityStart = v.eligibilityStart
  other : ∀ s, s ≠ r → s ≠ v.activeRoundId → u.rounds s = v.rounds s
  active : ∃ balance cumulative timestamp, timestamp < (v.rounds v.activeRoundId).closesAt ∧
    u.rounds v.activeRoundId = { v.rounds v.activeRoundId with
      eligibleBalance := balance
      eligibleCumulative := cumulative
      eligibleTimestamp := timestamp }
  round : ∃ reserved, u.rounds r = { v.rounds r with
    state := .allocationProcessing
    reservedPrize := reserved }

theorem Allocating.start {t : Nat} (hr : r ≠ v.activeRoundId)
    (ht : t < (v.rounds v.activeRoundId).closesAt)
    (h : accrueEligible fhe cfg (v.setRound r { v.rounds r with
      state := .allocationProcessing }).activeRoundId t (v.setRound r { v.rounds r with
        state := .allocationProcessing }) = .ok v') : v.Allocating r v' := by
  obtain ⟨_, gs, rfl⟩ := accrueEligible_ok h
  refine ⟨rfl, rfl, rfl, rfl, fun s hs hsa => ?_, ?_, ?_⟩
  · exact (setRound_rounds_of_ne hsa _).trans (setRound_rounds_of_ne hs _)
  · have hself : (v.setRound r { v.rounds r with state := .allocationProcessing }).rounds
        v.activeRoundId = v.rounds v.activeRoundId := setRound_rounds_of_ne hr.symm _
    refine ⟨(v.rounds v.activeRoundId).eligibleBalance, accruedCumulative fhe
      (v.rounds v.activeRoundId) t, t, ht, (setRound_rounds_self _ _).trans ?_⟩
    exact (congrArg (fun round => accrued fhe round t) hself)
  · exact ⟨(v.rounds r).reservedPrize,
      (setRound_rounds_of_ne hr _).trans (setRound_rounds_self _ _)⟩

theorem Allocating.allocate {now : Nat} (h : v.Allocating r u) (hr : r ≠ v.activeRoundId)
    (hop : allocateParticipant fhe cfg r now a u = .ok v') : v.Allocating r v' := by
  obtain ⟨hactive, hparts, hpred, hstart, hother, ⟨b, c, t, ht, hround⟩, p, hself⟩ := h
  rw [← hactive] at hr
  obtain ⟨_, prize, autoSaved, obs, cum, gs, _, _, _, _, rfl⟩ := allocateParticipant_ok hr hop
  refine ⟨hactive, hparts, hpred, hstart, fun s hs hsa => ?_, ?_, ?_⟩
  · rw [← hother s hs hsa]
    rw [← hactive] at hsa
    exact (setRound_rounds_of_ne hs _).trans (setRound_rounds_of_ne hsa _)
  · rw [← hactive]
    rw [← hactive] at hround
    refine ⟨if u.eligibilityStart u.activeRoundId a ≠ 0 then
        fhe.add64 (u.rounds u.activeRoundId).eligibleBalance autoSaved
      else (u.rounds u.activeRoundId).eligibleBalance, c, t, hactive ▸ ht,
      ((setRound_rounds_of_ne hr.symm _).trans (setRound_rounds_self _ _)).trans ?_⟩
    rw [hround]
  · refine ⟨fhe.sub64 (u.rounds r).reservedPrize prize, (setRound_rounds_self _ _).trans ?_⟩
    rw [hself]

variable (fhe cfg) in
/-- The request of a reconciliation only writes to its round. -/
theorem requestReconciliation_frame (s : Nat) (v : Vault E64 E128 EBool) :
    (v.requestReconciliation fhe cfg s).roundParticipants = v.roundParticipants ∧
      (v.requestReconciliation fhe cfg s).winnerPredicate = v.winnerPredicate ∧
      (v.requestReconciliation fhe cfg s).activeRoundId = v.activeRoundId ∧
      ∀ r, r ≠ s → (v.requestReconciliation fhe cfg s).rounds r = v.rounds r := by
  rcases requestReconciliation_eq fhe cfg s v with ⟨_, gs, heq⟩ | ⟨_, heq⟩
  · rw [heq]
    exact ⟨rfl, rfl, rfl, fun r hr => setRound_rounds_of_ne hr _⟩
  · rw [heq]
    exact ⟨rfl, rfl, rfl, fun _ _ => rfl⟩

end Vault

namespace World

variable {fhe} {w w' : World E64 E128 EBool X} {sender : Address}

theorem closeRound_roundStep {now : Nat} {v v' : Vault E64 E128 EBool}
    (h : v.closeRound fhe cfg now = .ok v') (r : Nat) : Vault.RoundStep fhe cfg r v v' := by
  obtain ⟨_, _, _, _, gs, rfl⟩ := Vault.closeRound_ok h
  have hne : v.activeRoundId ≠ v.activeRoundId + 1 := Nat.ne_of_lt (Nat.lt_succ_self _)
  by_cases hnext : r = v.activeRoundId + 1
  · subst hnext
    refine .opened rfl (Vault.setRound_rounds_self _ _) ?_ ?_ ?_ <;> rfl
  · by_cases hr : r = v.activeRoundId
    · subst hr
      refine .close rfl
        ((Vault.setRound_rounds_of_ne hne _).trans (Vault.setRound_rounds_self _ _)) ?_ ?_ ?_ <;>
        rfl
    · refine .same ((Vault.setRound_rounds_of_ne hnext _).trans (Vault.setRound_rounds_of_ne hr _))
        ?_ ?_ (.inr ⟨?_, hr, hnext⟩) <;> rfl

theorem processSelection_roundStep {s n : Nat}
    (h : processSelection fhe cfg sender s n w = .ok w') (r : Nat) :
    Vault.RoundStep fhe cfg r w.vault w'.vault := by
  obtain ⟨hn, v₁, processed, v₂, e, hstart, hchunk, hloop, _, rfl⟩ := processSelection_ok h
  -- the tally starts again with the first chunk
  obtain ⟨gs₁, hs, hv₁⟩ : ∃ gs, ((w.vault.rounds s).state = .ticketAccepted ∨
      (w.vault.rounds s).state = .winnerProcessing) ∧
      v₁ = ((w.vault.withTally s (w.vault.startTally fhe s)).setRound s
        { (w.vault.withTally s (w.vault.startTally fhe s)).rounds s with
          state := .winnerProcessing }).grant gs := by
    rcases Vault.startSelection_ok hstart with ⟨hs, gs, rfl⟩ | ⟨hs, rfl⟩
    · refine ⟨gs, .inl hs, ?_⟩
      simp only [Vault.startTally, if_pos hs, Vault.withTally, Function.update_eq_self,
        Vault.setRound, Function.update_self, Function.update_idem]
    · have hne : (w.vault.rounds s).state ≠ .ticketAccepted := by rw [hs]; rintro ⟨⟩
      refine ⟨[], .inr hs, ?_⟩
      have hself : { w.vault.rounds s with state := .winnerProcessing } = w.vault.rounds s := by
        rw [← hs]
      rw [Vault.startTally, if_neg hne, Vault.withTally_self, hself, Vault.setRound_self,
        Vault.grant_nil]
  have hround₁ : v₁.rounds s = { w.vault.rounds s with
      state := .winnerProcessing
      selectionCumulative := (w.vault.startTally fhe s).cumulative
      encryptedWinnerCount := (w.vault.startTally fhe s).winners } := by
    rw [hv₁, Vault.grant_rounds, Vault.setRound_rounds_self, Vault.withTally_rounds_self]
  have htally : v₁.tally s = w.vault.startTally fhe s := by
    rw [Vault.tally, hround₁, hv₁]
    exact Tally.ext rfl rfl (Function.update_self _ _ _)
  have hparts₁ : v₁.roundParticipants = w.vault.roundParticipants := by rw [hv₁]; rfl
  have hobs₁ : v₁.observations = w.vault.observations := by rw [hv₁]; rfl
  have helig₁ : v₁.eligibilityStart = w.vault.eligibilityStart := by rw [hv₁]; rfl
  have hactive₁ : v₁.activeRoundId = w.vault.activeRoundId := by rw [hv₁]; rfl
  have hother₁ : ∀ t, t ≠ s → v₁.rounds t = w.vault.rounds t ∧
      v₁.winnerPredicate t = w.vault.winnerPredicate t := by
    intro t ht
    rw [hv₁]
    exact ⟨(Vault.setRound_rounds_of_ne ht _).trans (Vault.setRound_rounds_of_ne ht _),
      Function.update_of_ne ht _ _⟩
  clear hv₁ hstart
  obtain ⟨_, hrun⟩ := Vault.forParticipants_ok
    (fun a u u' hu => congrFun (Vault.selectParticipant_participants hu) s) hloop
  obtain ⟨gs₂, hweights, rfl⟩ := Vault.forList_select hrun
  have hsame : ∀ a, Vault.roundWeight fhe s a v₁ = Vault.roundWeight fhe s a w.vault :=
    fun a => Vault.roundWeight_congr hobs₁ helig₁ (by rw [hround₁])
  have hweightOf : Vault.weightOf fhe s v₁ = Vault.weightOf fhe s w.vault := by
    funext a
    rw [Vault.weightOf, Vault.weightOf, hsame]
  obtain ⟨_, hle, hpos⟩ := chunk_ok hchunk
  rw [htally, hweightOf, hround₁, hparts₁]
  rw [hround₁, hparts₁] at hweights
  rw [hround₁] at hle hpos
  simp only at hle hpos hweights ⊢
  generalize ht : Tally.run fhe _ _ _ _ = t
  have hround : ((v₁.withTally s t).grant gs₂).rounds s = { w.vault.rounds s with
      state := .winnerProcessing
      selectionCumulative := t.cumulative
      encryptedWinnerCount := t.winners } := by
    rw [Vault.grant_rounds, Vault.withTally_rounds_self, hround₁]
  obtain ⟨hparts, hpred, hact, hrest⟩ := Vault.requestReconciliation_frame fhe cfg
    s (Vault.setRound ((v₁.withTally s t).grant gs₂) s
      { ((v₁.withTally s t).grant gs₂).rounds s with
        selectionCursor := (w.vault.rounds s).selectionCursor + processed })
  by_cases hr : r = s
  · subst hr
    refine .select hs (fun hlt => hpos hlt (Nat.pos_of_ne_zero hn)) hle (fun a ha => ?_) ht.symm
      ?_ ?_ ?_ ?_
    · rw [← hsame, ← hweightOf]
      exact hweights a ha
    · rcases Vault.requestReconciliation_eq fhe cfg r
          (Vault.setRound ((v₁.withTally r t).grant gs₂) r
            { ((v₁.withTally r t).grant gs₂).rounds r with
              selectionCursor := (w.vault.rounds r).selectionCursor + processed })
        with ⟨hend, gs, heq⟩ | ⟨hend, heq⟩
      · rw [heq, Vault.grant_rounds, Vault.setRound_rounds_self]
        rw [Vault.setRound_rounds_self, hround] at hend ⊢
        exact (if_pos hend).symm
      · rw [heq]
        rw [Vault.setRound_rounds_self, hround] at hend ⊢
        exact (if_neg hend).symm
    · exact (congrFun hparts r).trans (congrFun hparts₁ r)
    · exact (congrFun hpred r).trans (Function.update_self _ _ _)
    · exact hact.trans hactive₁
  · refine .same ?_ ?_ ?_ (.inl ?_)
    · refine (hrest r hr).trans ((Vault.setRound_rounds_of_ne hr _).trans ?_)
      exact (Vault.setRound_rounds_of_ne hr _).trans (hother₁ r hr).1
    · exact (congrFun hparts r).trans (congrFun hparts₁ r)
    · exact (congrFun hpred r).trans ((Function.update_of_ne hr _ _).trans (hother₁ r hr).2)
    · exact hact.trans hactive₁

/-- What `processAllocation` may change of the rounds. -/
theorem processAllocation_allocating {s processed : Nat} {v v₂ v₃ : Vault E64 E128 EBool}
    (hs : s ≠ v.activeRoundId) (hnow : uint64 w.now < (v.rounds v.activeRoundId).closesAt)
    (hacc : Vault.accrueEligible fhe cfg (v.setRound s { v.rounds s with
      state := .allocationProcessing }).activeRoundId (uint64 w.now) (v.setRound s { v.rounds s with
        state := .allocationProcessing }) = .ok v₂)
    (hloop : Vault.forParticipants (Vault.allocateParticipant fhe cfg s w.now) s
      (v₂.rounds s).allocationCursor processed v₂ = .ok v₃) : v.Allocating s v₃ :=
  Vault.forList_invariant
    (I := fun _ u => v.Allocating s u) (fun _ _ _ _ hu hstep => hu.allocate hs hstep)
    (Vault.forParticipants_ok
      (fun _ _ _ hu => congrFun (Vault.allocateParticipant_participants hu) s) hloop).2
    (Vault.Allocating.start hs hnow hacc)

theorem processAllocation_roundStep {s n : Nat} (hs : s ≠ w.vault.activeRoundId)
    (h : processAllocation fhe cfg sender s n w = .ok w') (r : Nat) :
    Vault.RoundStep fhe cfg r w.vault w'.vault := by
  obtain ⟨hn, hactive, v₁, v₂, processed, v₃, e, hstart, hacc, hchunk, hloop, _, rfl⟩ :=
    processAllocation_ok h
  obtain ⟨hstate, rfl⟩ := Vault.startAllocation_ok hstart
  have hnow := Vault.uint64_lt_closesAt hactive
  have h₂ := Vault.Allocating.start hs hnow hacc
  have h₃ := processAllocation_allocating (w := w) hs hnow hacc hloop
  obtain ⟨_, hround₂⟩ := h₂.round
  obtain ⟨hactive, hparts, hpred, _, hother, ⟨b, c, t, ht, hopen⟩, p, hround⟩ := h₃
  obtain ⟨_, hle, hpos⟩ := chunk_ok hchunk
  rw [hround₂] at hle hpos
  simp only [hround₂, Vault.finishAllocation_eq, Vault.setRound_rounds_self, hround]
  by_cases hr : r = s
  · subst hr
    exact .allocate hstate (fun hlt => hpos hlt (Nat.pos_of_ne_zero hn)) hle
      (Vault.setRound_rounds_self _ _) (congrFun hparts r) (congrFun hpred r) hactive
  · have hkeep : ∀ round round' : Round E64 E128 EBool,
        ((v₃.setRound s round).setRound s round').rounds r = v₃.rounds r := fun _ _ =>
      (Vault.setRound_rounds_of_ne hr _).trans (Vault.setRound_rounds_of_ne hr _)
    by_cases hra : r = w.vault.activeRoundId
    · subst hra
      exact .accrue rfl ht ((hkeep _ _).trans hopen)
        ((congrFun hparts _).trans (List.append_nil _).symm) (congrFun hpred _) hactive
    · exact .same ((hkeep _ _).trans (hother r hr hra)) (congrFun hparts r) (congrFun hpred r)
        (.inl hactive)

/-- The prize of a round rolls forward and the round is settled in one call. -/
theorem rollPrizeForward_settle {s passes : Nat} {v : Vault E64 E128 EBool}
    (hs : (w.vault.rounds s).state = .empty ∨ (w.vault.rounds s).state = .reconciliationFailed)
    (hroll : w.vault.rollPrizeForward fhe cfg s = .ok v)
    (h : settle cfg s passes { w with vault := v } = .ok w') (r : Nat) :
    Vault.RoundStep fhe cfg r w.vault w'.vault := by
  obtain ⟨_, gs, rfl⟩ := Vault.rollPrizeForward_ok hroll
  obtain ⟨e, _, rfl⟩ := settle_ok h
  have hcollapse : ∀ (u : Vault E64 E128 EBool) (round : Round E64 E128 EBool),
      ((u.setRound s round).grant gs).setRound s
        { ((u.setRound s round).grant gs).rounds s with state := .settled } =
          (u.setRound s { round with state := .settled }).grant gs := by
    intro u round
    rw [Vault.grant_rounds, Vault.setRound_rounds_self]
    simp only [Vault.setRound, Vault.grant, Function.update_idem]
  simp only [hcollapse]
  refine Vault.SameRounds.move ?_ (.rollForward hs) gs r
  exact ⟨rfl, rfl, rfl, rfl⟩

/-- **Step lemma.**  A call does to each round one of the things a `RoundStep` lists. -/
theorem exec_roundStep (hsender : cfg.External sender) (hshape : w.vault.Shape fhe)
    {c : Call E64 E128 EBool} (h : exec fhe E cfg sender w c = .ok w') (r : Nat) :
    Vault.RoundStep fhe cfg r w.vault w'.vault := by
  by_cases hdraws : c.draws = false
  · have hsame := (exec_idle hsender hdraws h).vault
    exact Vault.SameRounds.step ⟨hsame.activeRoundId, hsame.rounds, hsame.roundParticipants,
      hsame.winnerPredicate⟩ r
  cases c with
  | registerForRound value s =>
    obtain ⟨e, v, _, hv, rfl⟩ := registerForRound_ok h
    obtain ⟨_, _, rfl, hopen, _, _, gs, rfl⟩ := Vault.acceptBondRegistration_ok hv
    by_cases hr : r = w.vault.activeRoundId
    · subst hr
      refine .accrue rfl (Vault.uint64_lt_closesAt hopen) (Vault.setRound_rounds_self _ _) (Function.update_self _ _ _) ?_ ?_ <;> rfl
    · refine .same (Vault.setRound_rounds_of_ne hr _) (Function.update_of_ne hr _ _) ?_ (.inl ?_) <;>
        rfl
  | deposit n d =>
    obtain ⟨x₁, sent, v, accepted, x₂, _, hv, _, rfl⟩ := deposit_ok h
    obtain ⟨_, hopen, _, v₁, v₂, gs, hcheck, hchange, rfl⟩ :=
      Vault.onConfidentialTransferReceived_ok hv
    have hsame := Vault.checkpointUser_sameRounds hcheck
    refine Vault.SameRounds.changeEligible ?_ (Vault.uint64_lt_closesAt hopen) hchange gs r
    exact ⟨hsame.1, hsame.2, hsame.3, hsame.4⟩
  | withdraw input =>
    obtain ⟨⟨w₁, sent⟩, hop, rfl⟩ := map_eq_ok.1 h
    obtain ⟨hopen, x, v, _, hv, rfl⟩ := withdraw_ok hop
    obtain ⟨v₁, v₂, gs, hcheck, hchange, rfl⟩ := Vault.recordWithdrawal_ok hv
    have hsame := Vault.checkpointUser_sameRounds hcheck
    refine Vault.SameRounds.changeEligible ?_ (Vault.uint64_lt_closesAt hopen) hchange gs r
    exact ⟨hsame.1, hsame.2, hsame.3, hsame.4⟩
  | closeRound =>
    obtain ⟨v, hv, rfl⟩ := onVault_eq_ok.1 h
    exact closeRound_roundStep hv r
  | finalizeAggregate s c proof =>
    obtain ⟨v, hv, rfl⟩ := onVault_eq_ok.1 h
    obtain ⟨hs, n, hn, hproof, rfl⟩ := Vault.finalizeAggregate_ok hv
    rw [← Vault.grant_nil (w.vault.setRound s _)]
    exact (Vault.SameRounds.refl w.vault).move (.aggregate hs hn hproof) [] r
  | generateRandomCandidate s candidate =>
    obtain ⟨v, hv, rfl⟩ := onVault_eq_ok.1 h
    obtain ⟨hs, hpos, hle, round, attempts, gs, rfl, hround⟩ := Vault.generateRandomCandidate_ok hv
    refine Vault.SameRounds.move ?_ ?_ gs r
    · exact ⟨rfl, rfl, rfl, rfl⟩
    · rcases hround with ⟨hlimit, rfl⟩ | ⟨hlimit, rfl⟩
      · exact .take hs hpos hle hlimit
      · exact .propose hs hpos hle hlimit
  | finalizeCandidateValidity s c proof =>
    obtain ⟨v, hv, rfl⟩ := onVault_eq_ok.1 h
    obtain ⟨hs, valid, gs, hproof, rfl⟩ := Vault.finalizeCandidateValidity_ok hv
    refine (Vault.SameRounds.refl w.vault).move ?_ gs r
    cases valid with
    | false => exact .reject hs hproof
    | true => exact .accept hs hproof
  | processSelection s n => exact processSelection_roundStep h r
  | finalizeSelectionReconciliation s c proof =>
    obtain ⟨v, hv, rfl⟩ := onVault_eq_ok.1 h
    obtain ⟨hs, valid, hproof, rfl⟩ := Vault.finalizeSelectionReconciliation_ok hv
    rw [← Vault.grant_nil (w.vault.setRound s _)]
    exact (Vault.SameRounds.refl w.vault).move (.reconcile hs hproof) [] r
  | processAllocation s n =>
    refine processAllocation_roundStep ?_ h r
    obtain ⟨_, _, v₁, _, _, _, _, hstart, _⟩ := processAllocation_ok h
    rintro rfl
    have hstate := (Vault.startAllocation_ok hstart).1
    rw [hshape.active_open] at hstate
    rcases hstate with h | h <;> nomatch h
  | finalizeSettlement s =>
    obtain ⟨hs, hsettle⟩ := finalizeSettlement_ok h
    obtain ⟨e, _, rfl⟩ := settle_ok hsettle
    simp only
    rw [← Vault.grant_nil (w.vault.setRound s _)]
    exact (Vault.SameRounds.refl w.vault).move (.settle hs) [] r
  | recoverFailedReconciliation s =>
    obtain ⟨hs, v, hroll, hsettle⟩ := recoverFailedReconciliation_ok h
    exact rollPrizeForward_settle (.inr hs) hroll hsettle r
  | settleEmptyRound s =>
    obtain ⟨hs, v, hroll, hsettle⟩ := settleEmptyRound_ok h
    exact rollPrizeForward_settle (.inl hs) hroll hsettle r
  | _ => exact absurd rfl hdraws

end World

end

end Leopold
