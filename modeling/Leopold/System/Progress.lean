import Leopold.System.Lifecycle
import Leopold.System.Preferences
import Leopold.System.Prizes
import Leopold.System.Uniform
import Leopold.System.Settlement
import Leopold.System.Widths

/-!
# The call a closed round asks for

`Round.remaining` counts the calls a closed round needs until it is settled.  No call of anybody
raises the count, but one that draws a candidate that is rejected; and in every reachable state
the call that the state of a round asks for is accepted from any account.
-/

namespace Leopold

open Lib

/-- How many calls settle the round, at most: the passes visit a participant at a time and the
next candidate is accepted. -/
def Round.remaining (round : PlainRound) : Nat :=
  let n := round.participantCountSnapshot
  match round.state with
  | .uninitialized | .open | .settled => 0
  | .empty | .reconciliationFailed | .winningsAllocated => 1
  | .readyToAllocate | .allocationProcessing => 1 + (n - round.allocationCursor)
  | .reconciliationPending => 2 + n
  | .ticketAccepted | .winnerProcessing => 2 + n + (n - round.selectionCursor)
  | .candidateValidityPending => if round.candidateValid then 3 + 2 * n else 5 + 2 * n
  | .aggregateFinalized | .candidateRejected => 4 + 2 * n
  | .aggregatePending => 5 + 2 * n

/-- The round waits for a candidate. -/
def RoundState.awaitsCandidate (s : RoundState) : Prop :=
  s = .aggregateFinalized ∨ s = .candidateRejected

/-- The candidate that waits for its validity will be rejected. -/
def Round.Rejecting (round : PlainRound) : Prop :=
  round.state = .candidateValidityPending ∧ round.candidateValid = false

namespace Round

variable {round round' : PlainRound}

/-- Only a settled round, among those that are closed, needs no call. -/
theorem settled_of_remaining (hopen : round.state ≠ .open) (hset : round.state ≠ .uninitialized)
    (h : round.remaining = 0) : round.state = .settled := by
  unfold remaining at h
  cases hs : round.state <;> rw [hs] at h hopen hset <;> simp only at h ⊢
  case «open» => exact absurd rfl hopen
  case uninitialized => exact absurd rfl hset
  case candidateValidityPending => split_ifs at h <;> omega
  all_goals omega

/-- **Step lemma.**  A move of a round needs one call less, unless it proposes a candidate that
will be rejected: that has to be found out by one call more. -/
theorem Moves.remaining_lt (h : round.Moves Fhe.plain round') :
    round'.remaining < round.remaining ∨ (round.state.awaitsCandidate ∧ round'.Rejecting ∧
      round'.remaining = round.remaining + 1) := by
  cases h with
  | @aggregate n _ hs =>
    refine .inl ?_
    unfold remaining
    rw [hs]
    by_cases hn : n = 0
    · rw [if_pos hn]
      simp only
      omega
    · rw [if_neg hn]
      simp only
      omega
  | take hs =>
    refine .inl ?_
    unfold remaining
    rcases hs with hs | hs <;> rw [hs] <;> simp only <;> omega
  | @propose candidate hs =>
    cases hvalid : Fhe.plain.lt128 candidate (Fhe.plain.asEuint128
        (2 ^ 128 / round.publicAggregateTwab * round.publicAggregateTwab)) with
    | false =>
      refine .inr ⟨hs, ⟨rfl, rfl⟩, ?_⟩
      unfold remaining
      rcases hs with hs | hs <;> rw [hs] <;> simp only [Bool.false_eq_true, if_false] <;> omega
    | true =>
      refine .inl ?_
      unfold remaining
      rcases hs with hs | hs <;> rw [hs] <;> simp only [if_true] <;> omega
  | accept hs hproof =>
    refine .inl ?_
    have hvalid : round.candidateValid = true := (by simpa [Fhe.plain] using hproof : _ ∧ _).2
    unfold remaining
    rw [hs]
    simp only [hvalid, if_true]
    omega
  | reject hs hproof =>
    refine .inl ?_
    have hvalid : round.candidateValid = false := (by simpa [Fhe.plain] using hproof : _ ∧ _).2
    unfold remaining
    rw [hs]
    simp only [hvalid, Bool.false_eq_true, if_false]
    omega
  | @reconcile valid _ hs =>
    refine .inl ?_
    unfold remaining
    rw [hs]
    cases valid <;> simp only [Bool.false_eq_true, if_false, if_true] <;> omega
  | settle hs =>
    refine .inl ?_
    unfold remaining
    rw [hs]
    exact Nat.zero_lt_one
  | rollForward hs =>
    refine .inl ?_
    unfold remaining
    rcases hs with hs | hs <;> rw [hs] <;> exact Nat.zero_lt_one

end Round

namespace Settles

variable {E64 E128 EBool : Type} {participants : List Address} {isRegistered : Address → Bool}
  {ledger : RoundLedger} {round : Round E64 E128 EBool}

/-- A selection that has begun is not over, and neither is one that has a participant to visit. -/
theorem selecting (h : Settles participants isRegistered ledger round.progress)
    (hs : round.state = .ticketAccepted ∨ round.state = .winnerProcessing)
    (hfirst : round.state = .ticketAccepted → participants ≠ []) :
    round.participantCountSnapshot = participants.length ∧
      round.selectionCursor < participants.length := by
  have hc := h.cursors
  simp only [Round.progress] at hc
  refine ⟨h.snapshot ?_ ?_, ?_⟩
  · rw [Round.progress]
    rcases hs with hs | hs <;> rw [hs] <;> rintro ⟨⟩
  · rw [Round.progress]
    rcases hs with hs | hs <;> rw [hs] <;> rintro ⟨⟩
  · rcases hs with hs | hs
    · have hlength := List.length_pos_iff.2 (hfirst hs)
      rw [hs] at hc
      exact hc.1 ▸ hlength
    · rw [hs] at hc
      exact hc.2.1

/-- An allocation that is due is not over. -/
theorem allocating (h : Settles participants isRegistered ledger round.progress)
    (hs : round.state = .readyToAllocate ∨ round.state = .allocationProcessing) :
    round.participantCountSnapshot = participants.length ∧
      round.allocationCursor < participants.length := by
  have hc := h.cursors
  simp only [Round.progress] at hc
  refine ⟨h.snapshot ?_ ?_, ?_⟩
  · rw [Round.progress]
    rcases hs with hs | hs <;> rw [hs] <;> rintro ⟨⟩
  · rw [Round.progress]
    rcases hs with hs | hs <;> rw [hs] <;> rintro ⟨⟩
  · rcases hs with hs | hs <;> rw [hs] at hc <;> simp only [RoundState.Cursors] at hc <;> omega

end Settles

namespace Vault

variable {cfg : Config} {v v' : PlainVault} {r : Nat}

/-- **Step lemma.**  A call leaves a closed round as it is, or takes one of the calls it needs, or
draws a candidate that will be rejected. -/
theorem RoundStep.remaining (h : RoundStep Fhe.plain cfg r v v')
    {isRegistered : Address → Bool} {ledger : RoundLedger}
    (hs : Settles (v.roundParticipants r) isRegistered ledger (v.rounds r).progress)
    (hclosed : r < v.activeRoundId)
    (hfirst : (v.rounds r).state = .ticketAccepted → v.roundParticipants r ≠ []) :
    v'.rounds r = v.rounds r ∨ (v'.rounds r).remaining < (v.rounds r).remaining ∨
      ((v.rounds r).state.awaitsCandidate ∧ (v'.rounds r).Rejecting ∧
        (v'.rounds r).remaining = (v.rounds r).remaining + 1) := by
  cases h with
  | same hround => exact .inl hround
  | accrue hr => omega
  | close hr => omega
  | opened hr => omega
  | move hmove => exact .inr hmove.remaining_lt
  | @select processed t hstate hpos hle _ _ hround =>
    refine .inr (.inl ?_)
    obtain ⟨hsnapshot, hmore⟩ := hs.selecting hstate hfirst
    rw [← hsnapshot] at hmore
    have hprocessed := hpos hmore
    have hbound := hle (Nat.le_of_lt hmore)
    have hbefore : (v.rounds r).remaining = 2 + (v.rounds r).participantCountSnapshot +
        ((v.rounds r).participantCountSnapshot - (v.rounds r).selectionCursor) := by
      unfold Round.remaining
      rcases hstate with hs | hs <;> rw [hs]
    rw [hbefore, hround, selectedRound]
    split_ifs with hend
    · show 2 + (v.rounds r).participantCountSnapshot < _
      omega
    · show 2 + (v.rounds r).participantCountSnapshot + ((v.rounds r).participantCountSnapshot -
        ((v.rounds r).selectionCursor + processed)) < _
      omega
  | @allocate processed reserved hstate hpos hle hround =>
    refine .inr (.inl ?_)
    obtain ⟨hsnapshot, hmore⟩ := hs.allocating hstate
    rw [← hsnapshot] at hmore
    have hprocessed := hpos hmore
    have hbound := hle (Nat.le_of_lt hmore)
    have hbefore : (v.rounds r).remaining =
        1 + ((v.rounds r).participantCountSnapshot - (v.rounds r).allocationCursor) := by
      unfold Round.remaining
      rcases hstate with hs | hs <;> rw [hs]
    rw [hbefore, hround]
    split_ifs with hend
    · show 1 < _
      omega
    · show 1 + ((v.rounds r).participantCountSnapshot -
        ((v.rounds r).allocationCursor + processed)) < _
      omega

/-! ## The loop of an allocation -/

/-- Every account can be allocated to at time `now`. -/
structure Allocatable (now : Nat) (v : PlainVault) : Prop where
  recorded : ∀ a, ∃ b, Recorded now b (v.observations a)
  given : ∀ a, Given now (v.preferenceObservations a)

variable {now n : Nat} {a : Address}

theorem bookAllocation_histories {prize autoSaved : Nat} (v : PlainVault) :
    (v.bookAllocation Fhe.plain cfg r a prize autoSaved).observations = v.observations ∧
      (v.bookAllocation Fhe.plain cfg r a prize autoSaved).preferenceObservations =
        v.preferenceObservations := by
  simp only [bookAllocation, grant, setRound]
  by_cases hs : v.eligibilityStart v.activeRoundId a ≠ 0
  · rw [if_pos hs]
    exact ⟨rfl, rfl⟩
  · rw [if_neg hs]
    exact ⟨rfl, rfl⟩

/-- An allocation to one participant is not reverted. -/
theorem Allocatable.allocateParticipant (h : v.Allocatable now) (cfg : Config) (r : Nat)
    (a : Address) (hnow : now < 2 ^ 64) :
    ∃ v', allocateParticipant Fhe.plain cfg r now a v = .ok v' ∧ v'.Allocatable now ∧
      v'.roundParticipants = v.roundParticipants := by
  obtain ⟨b, hrecorded⟩ := h.recorded a
  have huint : uint64 now = now := Nat.mod_eq_of_lt hnow
  simp only [Vault.allocateParticipant, preferenceAt_eq (h.given a), bind_ok, huint, checkpointUser]
  generalize hbalance : Fhe.plain.add64 _ _ = balance
  have hlt : balance < 2 ^ 64 := hbalance ▸ Nat.mod_lt _ (by decide)
  obtain ⟨obs, c, hrec, hextended, _⟩ := hrecorded.record hnow hlt
  rw [hrec, bind_ok, pure_eq_ok, bind_ok, pure_eq_ok]
  generalize hu : grant _ _ = u
  have hobs : u.observations = Function.update v.observations a obs := hu ▸ rfl
  refine ⟨_, rfl, ⟨fun a' => ?_, fun a' => ?_⟩, ?_⟩
  · rw [(bookAllocation_histories u).1, hobs]
    by_cases ha : a' = a
    · subst ha
      rw [Function.update_self]
      exact ⟨balance, hextended⟩
    · rw [Function.update_of_ne ha]
      exact h.recorded a'
  · rw [(bookAllocation_histories u).2, ← hu]
    exact h.given a'
  · rw [bookAllocation_participants, ← hu]
    rfl

/-- A chunk of the allocation is not reverted. -/
theorem Allocatable.forParticipants {cursor count : Nat} (h : v.Allocatable now) (cfg : Config)
    (hnow : now < 2 ^ 64) (hlength : cursor + count ≤ (v.roundParticipants r).length) :
    ∃ v', forParticipants (Vault.allocateParticipant Fhe.plain cfg r now) r cursor count v =
      .ok v' := by
  induction count generalizing cursor v with
  | zero => exact ⟨v, rfl⟩
  | succ count ih =>
    have hlt : cursor < (v.roundParticipants r).length := by omega
    obtain ⟨v₁, hbody, h₁, hparts⟩ :=
      h.allocateParticipant cfg r (v.roundParticipants r)[cursor] hnow
    obtain ⟨v', hv'⟩ := ih (v := v₁) h₁ (by rw [hparts]; omega : cursor + 1 + count ≤ _)
    refine ⟨v', ?_⟩
    rw [Vault.forParticipants, List.getElem?_eq_getElem hlt]
    exact seq_eq_ok.2 ⟨_, rfl, seq_eq_ok.2 ⟨v₁, hbody, hv'⟩⟩

end Vault

/-! ## The calls that settle a round are accepted -/

/-- The calls that settle a closed round, with that round. -/
def Call.settles {E64 E128 EBool : Type} : Call E64 E128 EBool → Option Nat
  | .finalizeAggregate r .. | .generateRandomCandidate r _ | .finalizeCandidateValidity r ..
  | .processSelection r _ | .finalizeSelectionReconciliation r .. | .processAllocation r _
  | .finalizeSettlement r | .recoverFailedReconciliation r | .settleEmptyRound r => some r
  | _ => none

namespace World

theorem chunk_isOk {cursor n : Nat} (snapshot : Nat) (h : cursor + n < 2 ^ 256) :
    ∃ processed, chunk cursor n snapshot = .ok processed := by
  simp only [chunk, Vault.add, checkedAdd, if_pos h, bind_ok]
  exact ⟨_, rfl⟩

variable {X : Type} {E : Externals Nat Bool X} {O : Observables X} {cfg : Config}
  {w w' : PlainWorld X} {sender : Address} {r n : Nat}

/-- No round has more participants than there are addresses. -/
theorem Bonded.participants_lt (hB : w.Bonded Fhe.plain cfg) :
    (w.vault.roundParticipants r).length + MAX_SELECTION_CHUNK < 2 ^ 256 := by
  have hle := (hB.settling r).nodup.length_le_card
  rw [Fintype.card_fin] at hle
  exact (Nat.add_le_add_right hle _).trans_lt (by decide)

/-- A pass over participants after the cursor of its round is credited. -/
theorem Bonded.credit_isOk {pass processed : Nat} (hB : w.Bonded Fhe.plain cfg)
    (hsender : cfg.External sender) (hpass : pass = 1 ∨ pass = 2) (hpos : 0 < processed)
    (hopen : (w.vault.rounds r).state ≠ .settled)
    (hle : (if pass = 1 then (w.vault.rounds r).selectionCursor
      else (w.vault.rounds r).allocationCursor) + processed ≤
        (w.vault.roundParticipants r).length) :
    ∃ e, w.escrow.creditProgress cfg cfg.vault r pass processed sender = .ok e := by
  have hs := hB.settling r
  have hselection : (w.escrow.rounds r).selectionProcessed =
    (w.vault.rounds r).selectionCursor := hs.selection
  have hallocation : (w.escrow.rounds r).allocationProcessed =
    (w.vault.rounds r).allocationCursor := hs.allocation
  refine hB.sound.creditProgress_isOk hB.covers (Nat.ne_of_gt hpos) hsender.ne_zero
    (hs.not_finalized hopen) hpass ?_
  rw [hs.count, Escrow.processedIn, hselection, hallocation]
  exact hle

/-- A chunk of the selection is accepted. -/
theorem processSelection_isOk (hE : E.Lawful O cfg.vault cfg.asset)
    (h : (system Fhe.plain E cfg).Reachable w) (hsender : cfg.External sender) (hn : 0 < n)
    (hmax : n ≤ MAX_SELECTION_CHUNK) (hs : (w.vault.rounds r).state = .ticketAccepted ∨
      (w.vault.rounds r).state = .winnerProcessing) :
    ∃ w', processSelection Fhe.plain cfg sender r n w = .ok w' := by
  have hB := reachable_bonded h
  obtain ⟨_, _, hT⟩ := reachable_timed hE h
  obtain ⟨hr, hlt⟩ : 0 < r ∧ r < w.vault.activeRoundId := hB.shape.closed_of_state
    (by rcases hs with hs | hs <;> rw [hs] <;> rintro ⟨⟩)
    (by rcases hs with hs | hs <;> rw [hs] <;> rintro ⟨⟩)
  obtain ⟨hsnapshot, hmore⟩ := (hB.settling r).selecting hs (participants_of_ticket hE h)
  obtain ⟨v₁, hstart⟩ : ∃ v₁, w.vault.startSelection Fhe.plain cfg r = .ok v₁ := by
    rcases hs with hs | hs
    · exact ⟨_, if_pos hs⟩
    · refine ⟨w.vault, (if_neg (by rw [hs]; rintro ⟨⟩)).trans ?_⟩
      rw [revertIf_of_not (not_not.2 hs)]
      rfl
  obtain ⟨_, hprogress, _, hparts⟩ := startSelection_progress hstart
  have hsame := Vault.startSelection_sameTimes hstart
  simp only [Progress.ext_iff, Round.progress] at hprogress
  obtain ⟨_, hcount, hcursor, _⟩ := hprogress
  have hroom := hB.participants_lt (r := r)
  obtain ⟨processed, hchunk⟩ := chunk_isOk (v₁.rounds r).participantCountSnapshot
    (show (v₁.rounds r).selectionCursor + n < 2 ^ 256 by omega)
  obtain ⟨_, hle, hpos⟩ := chunk_ok hchunk
  rw [hcursor, hcount, hsnapshot] at hle hpos
  have hprocessed := hle (Nat.le_of_lt hmore)
  obtain ⟨v₂, hloop⟩ : ∃ v₂, Vault.forParticipants (Vault.selectParticipant Fhe.plain cfg r) r
      (v₁.rounds r).selectionCursor processed v₁ = .ok v₂ :=
    Vault.forParticipants_select_isOk cfg (by rw [hparts, hcursor]; exact hprocessed)
      (fun a ha => ⟨_, (Vault.roundWeight_congr hsame.observations hsame.eligibilityStart
        (congrArg Clock.closesAt (hsame.clock r))).trans
          (roundWeight_closed hT hr hlt (hparts ▸ ha))⟩)
  obtain ⟨e, he⟩ : ∃ e, w.escrow.creditProgress cfg cfg.vault r 1 processed sender = .ok e :=
    hB.credit_isOk hsender (.inl rfl) (hpos hmore hn)
      (by rcases hs with hs | hs <;> rw [hs] <;> rintro ⟨⟩) hprocessed
  have hguard : ¬ (n = 0 ∨ n > MAX_SELECTION_CHUNK) := by omega
  simp only [processSelection, revertIf_of_not hguard, bind_ok, hstart, hchunk, hloop, he]
  exact ⟨_, rfl⟩

/-- A chunk of the allocation is accepted while the active round is open. -/
theorem processAllocation_isOk (hE : E.Lawful O cfg.vault cfg.asset)
    (h : (system Fhe.plain E cfg).Reachable w) (hsender : cfg.External sender) (hn : 0 < n)
    (hmax : n ≤ MAX_ALLOCATION_CHUNK) (hopen : w.vault.isActiveRoundOpen w.now = true)
    (hs : (w.vault.rounds r).state = .readyToAllocate ∨
      (w.vault.rounds r).state = .allocationProcessing) :
    ∃ w', processAllocation Fhe.plain cfg sender r n w = .ok w' := by
  have hB := reachable_bonded h
  obtain ⟨_, _, hT⟩ := reachable_timed hE h
  obtain ⟨hnow, huint, _, hle, _⟩ := hT.open_bounds hopen
  have hr : w.vault.activeRoundId ≠ r := by
    rintro rfl
    rw [hB.shape.active_open] at hs
    rcases hs with hs | hs <;> cases hs
  obtain ⟨hsnapshot, hmore⟩ := (hB.settling r).allocating hs
  obtain ⟨v₁, hstart⟩ : ∃ v₁, w.vault.startAllocation r = .ok v₁ := by
    rcases hs with hs | hs
    · exact ⟨_, if_pos hs⟩
    · refine ⟨w.vault, (if_neg (by rw [hs]; rintro ⟨⟩)).trans ?_⟩
      rw [revertIf_of_not (not_not.2 hs)]
      rfl
  obtain ⟨_, hv₁⟩ := Vault.startAllocation_ok hstart
  obtain ⟨v₂, hacc⟩ : ∃ v₂, v₁.accrueEligible Fhe.plain cfg v₁.activeRoundId (uint64 w.now) =
      .ok v₂ := by
    refine Vault.accrueEligible_isOk cfg ?_
    rw [hv₁, huint]
    show ((w.vault.setRound r _).rounds w.vault.activeRoundId).eligibleTimestamp ≤ _
    rw [Vault.setRound_rounds_of_ne hr]
    exact hle
  have hprogress := (Vault.accrueEligible_sameProgress hacc).progress r
  rw [hv₁, Vault.setRound_rounds_self] at hprogress
  simp only [Progress.ext_iff, Round.progress] at hprogress
  obtain ⟨_, hcount, _, hcursor⟩ := hprogress
  obtain ⟨_, gs, hv₂⟩ := Vault.accrueEligible_ok hacc
  have hparts : v₂.roundParticipants = w.vault.roundParticipants := by rw [hv₂, hv₁]; rfl
  have hready : v₂.Allocatable w.now := by
    rw [hv₂, hv₁]
    exact ⟨fun a => ⟨_, hT.recorded a⟩, fun a => reachable_preferred h hnow a⟩
  have hroom := hB.participants_lt (r := r)
  have hchunks : MAX_ALLOCATION_CHUNK = MAX_SELECTION_CHUNK := rfl
  obtain ⟨processed, hchunk⟩ := chunk_isOk (v₂.rounds r).participantCountSnapshot
    (show (v₂.rounds r).allocationCursor + n < 2 ^ 256 by omega)
  obtain ⟨_, hbound, hpos⟩ := chunk_ok hchunk
  rw [hcursor, hcount, hsnapshot] at hbound hpos
  have hprocessed := hbound (Nat.le_of_lt hmore)
  obtain ⟨v₃, hloop⟩ := hready.forParticipants cfg hnow
    (show (v₂.rounds r).allocationCursor + processed ≤ (v₂.roundParticipants r).length by
      rw [hparts, hcursor]; exact hprocessed)
  obtain ⟨e, he⟩ : ∃ e, w.escrow.creditProgress cfg cfg.vault r 2 processed sender = .ok e :=
    hB.credit_isOk hsender (.inr rfl) (hpos hmore hn)
      (by rcases hs with hs | hs <;> rw [hs] <;> rintro ⟨⟩) hprocessed
  have hguard : ¬ (n = 0 ∨ n > MAX_ALLOCATION_CHUNK) := by omega
  have hstarted : ¬ w.vault.isActiveRoundOpen w.now = false := by rw [hopen]; rintro ⟨⟩
  simp only [processAllocation, revertIf_of_not hguard, revertIf_of_not hstarted, bind_ok, hstart,
    hacc, hchunk, hloop, he]
  exact ⟨_, rfl⟩

/-! ## The call a round asks for -/

/-- The call that the state of a round asks for, with authentic decryption proofs and full passes;
`candidate` is the random number a draw takes. -/
def settlingCall (r candidate : Nat) (w : PlainWorld X) : Option (Call Nat Nat Bool) :=
  let round := w.vault.rounds r
  match round.state with
  | .aggregatePending => some (.finalizeAggregate r (.encode round.aggregateTwab) ⟨true⟩)
  | .empty => some (.settleEmptyRound r)
  | .aggregateFinalized | .candidateRejected => some (.generateRandomCandidate r candidate)
  | .candidateValidityPending =>
    some (.finalizeCandidateValidity r (.encode round.candidateValid.toNat) ⟨true⟩)
  | .ticketAccepted | .winnerProcessing => some (.processSelection r MAX_SELECTION_CHUNK)
  | .reconciliationPending =>
    some (.finalizeSelectionReconciliation r (.encode round.reconciliationValid.toNat) ⟨true⟩)
  | .reconciliationFailed => some (.recoverFailedReconciliation r)
  | .readyToAllocate | .allocationProcessing => some (.processAllocation r MAX_ALLOCATION_CHUNK)
  | .winningsAllocated => some (.finalizeSettlement r)
  | .uninitialized | .open | .settled => none

theorem settlingCall_settles {candidate : Nat} {c : Call Nat Nat Bool}
    (h : settlingCall r candidate w = some c) : c.settles = some r := by
  simp only [settlingCall] at h
  split at h <;> cases h <;> rfl

/-- A vault with a closed round is past the opening of its active round. -/
theorem isActiveRoundOpen_of_closed (hE : E.Lawful O cfg.vault cfg.asset)
    (hw : (system Fhe.plain E cfg).Reachable w) (hpos : 0 < r) (hclosed : r < w.vault.activeRoundId)
    (hdue : w.now < (w.vault.rounds w.vault.activeRoundId).closesAt) :
    w.vault.isActiveRoundOpen w.now = true := by
  obtain ⟨_, _, hT⟩ := reachable_timed hE hw
  have hbefore : w.vault.activeRoundId - 1 + 1 = w.vault.activeRoundId := by omega
  have hopens := (reachable_scheduled hw).opens_eq (w.vault.activeRoundId - 1) (by omega) (by omega)
  have hended := (hT.closed (w.vault.activeRoundId - 1) (by omega) (by omega)).ended
  rw [hbefore] at hopens
  exact Vault.isActiveRoundOpen_iff.2
    ⟨(reachable_bonded hw).shape.active_open, hopens ▸ hended, hdue⟩

theorem generateRandomCandidate_isOk {v : PlainVault} {W candidate : Nat}
    (h : v.AwaitsCandidate r W) (hpos : 1 ≤ W) (hle : W ≤ MAX_AGGREGATE_TWAB) :
    ∃ v', v.generateRandomCandidate Fhe.plain cfg r candidate = .ok v' := by
  obtain ⟨hs, rfl, hattempts⟩ := h
  have hguard : ¬ ((v.rounds r).state ≠ .aggregateFinalized ∧
      (v.rounds r).state ≠ .candidateRejected) := fun hne => hs.elim hne.1 hne.2
  have hdomain : ¬ ((v.rounds r).publicAggregateTwab = 0 ∨
      (v.rounds r).publicAggregateTwab > MAX_AGGREGATE_TWAB) := by omega
  have hattempt : Vault.add 32 (v.candidateAttempts r) 1 = .ok (v.candidateAttempts r + 1) :=
    if_pos hattempts
  simp only [Vault.generateRandomCandidate, revertIf_of_not hguard, revertIf_of_not hdomain,
    hattempt, bind_ok]
  split_ifs
  · exact ⟨_, rfl⟩
  · exact ⟨_, rfl⟩

theorem finalizeSelectionReconciliation_isOk {v : PlainVault}
    (hs : (v.rounds r).state = .reconciliationPending) :
    ∃ v', v.finalizeSelectionReconciliation Fhe.plain r
      (.encode (v.rounds r).reconciliationValid.toNat) ⟨true⟩ = .ok v' := by
  have hproof : Vault.checkBooleanProof Fhe.plain (v.rounds r).reconciliationValid
      (.encode (v.rounds r).reconciliationValid.toNat) ⟨true⟩ =
        .ok (v.rounds r).reconciliationValid := by
    have hsigned : ¬ Fhe.plain.checkSignaturesBool (v.rounds r).reconciliationValid
        (v.rounds r).reconciliationValid ⟨true⟩ = false := by simp [Fhe.plain]
    rw [Vault.checkBooleanProof, Vault.decodeBool_encode, bind_ok, revertIf_of_not hsigned]
    rfl
  have hlength : ¬ (Cleartexts.encode (v.rounds r).reconciliationValid.toNat).length ≠ 32 :=
    not_not.2 rfl
  simp only [Vault.finalizeSelectionReconciliation, revertIf_of_not (not_not.2 hs),
    revertIf_of_not hlength, hproof, bind_ok]
  split_ifs
  · exact ⟨_, rfl⟩
  · exact ⟨_, rfl⟩

/-- **The call a closed round asks for is accepted.**  While the active round is not over, any
account can take it, whatever candidate is drawn. -/
theorem settlingCall_isOk (hE : E.Lawful O cfg.vault cfg.asset)
    (hw : (system Fhe.plain E cfg).Reachable w) (hsender : cfg.External sender)
    (hdue : w.now < (w.vault.rounds w.vault.activeRoundId).closesAt) (hpos : 0 < r)
    (hclosed : r < w.vault.activeRoundId) (hunsettled : (w.vault.rounds r).state ≠ .settled)
    (hattempts : w.vault.candidateAttempts r + 1 < 2 ^ 32) (candidate : Nat) :
    ∃ c w', settlingCall r candidate w = some c ∧ c.settles = some r ∧
      exec Fhe.plain E cfg sender w c = .ok w' := by
  have hB := reachable_bonded hw
  obtain ⟨hopen, hset⟩ := hB.shape.closed r hpos hclosed
  obtain ⟨_, hdomain, _⟩ := arithmetic_in_width hE hw
  obtain ⟨_, _, _, _, _, _, _, _, hempty, hfailed⟩ := prizes_published hE hw
  have honVault {f : PlainVault → Except Revert PlainVault} (h : ∃ v', f w.vault = .ok v') :
      ∃ w', onVault f w = .ok w' := by
    obtain ⟨v', hv'⟩ := h
    exact ⟨_, onVault_eq_ok.2 ⟨v', hv', rfl⟩⟩
  have hdraw (hs : (w.vault.rounds r).state = .aggregateFinalized ∨
      (w.vault.rounds r).state = .candidateRejected) : ∃ w',
        exec Fhe.plain E cfg sender w (.generateRandomCandidate r candidate) = .ok w' := by
    obtain ⟨hweight, hle, _⟩ := reachable_awaits hE hw hs
    exact honVault (generateRandomCandidate_isOk ⟨hs, rfl, hattempts⟩ hweight hle)
  have hselect (hs : (w.vault.rounds r).state = .ticketAccepted ∨
      (w.vault.rounds r).state = .winnerProcessing) : ∃ w',
        exec Fhe.plain E cfg sender w (.processSelection r MAX_SELECTION_CHUNK) = .ok w' :=
    processSelection_isOk hE hw hsender (by decide) (Nat.le_refl _) hs
  have hallocate (hs : (w.vault.rounds r).state = .readyToAllocate ∨
      (w.vault.rounds r).state = .allocationProcessing) : ∃ w',
        exec Fhe.plain E cfg sender w (.processAllocation r MAX_ALLOCATION_CHUNK) = .ok w' :=
    processAllocation_isOk hE hw hsender (by decide) (Nat.le_refl _)
      (isActiveRoundOpen_of_closed hE hw hpos hclosed hdue) hs
  simp only [settlingCall]
  cases hs : (w.vault.rounds r).state <;> dsimp only
  case uninitialized => exact absurd hs hset
  case «open» => exact absurd hs hopen
  case settled => exact absurd hs hunsettled
  case aggregatePending =>
    obtain ⟨w', hw'⟩ := honVault ((hdomain.2 r hpos hclosed).2 hs)
    exact ⟨_, w', rfl, rfl, hw'⟩
  case aggregateFinalized =>
    obtain ⟨w', hw'⟩ := hdraw (.inl hs)
    exact ⟨_, w', rfl, rfl, hw'⟩
  case empty =>
    obtain ⟨w', hw'⟩ := hempty r hs
    exact ⟨_, w', rfl, rfl, hw'⟩
  case candidateValidityPending =>
    obtain ⟨v', hv', _⟩ := Vault.finalizeCandidateValidity_authentic cfg hs
    obtain ⟨w', hw'⟩ := honVault ⟨v', hv'⟩
    exact ⟨_, w', rfl, rfl, hw'⟩
  case candidateRejected =>
    obtain ⟨w', hw'⟩ := hdraw (.inr hs)
    exact ⟨_, w', rfl, rfl, hw'⟩
  case ticketAccepted =>
    obtain ⟨w', hw'⟩ := hselect (.inl hs)
    exact ⟨_, w', rfl, rfl, hw'⟩
  case winnerProcessing =>
    obtain ⟨w', hw'⟩ := hselect (.inr hs)
    exact ⟨_, w', rfl, rfl, hw'⟩
  case winningsAllocated =>
    obtain ⟨w', hw'⟩ := finalizeSettlement_isOk hB hs
    refine ⟨_, w', rfl, rfl, ?_⟩
    simp only [exec, finalizeSettlement, Vault.requireState, revertIf_of_not (not_not.2 hs),
      bind_ok, hw']
  case reconciliationPending =>
    obtain ⟨w', hw'⟩ := honVault (finalizeSelectionReconciliation_isOk hs)
    exact ⟨_, w', rfl, rfl, hw'⟩
  case reconciliationFailed =>
    obtain ⟨w', hw'⟩ := hfailed r hs
    exact ⟨_, w', rfl, rfl, hw'⟩
  case readyToAllocate =>
    obtain ⟨w', hw'⟩ := hallocate (.inl hs)
    exact ⟨_, w', rfl, rfl, hw'⟩
  case allocationProcessing =>
    obtain ⟨w', hw'⟩ := hallocate (.inr hs)
    exact ⟨_, w', rfl, rfl, hw'⟩

end World

end Leopold
