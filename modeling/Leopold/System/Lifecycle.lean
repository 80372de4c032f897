import Leopold.System.Selection

/-!
# The life of a round

Exactly one round is open, each round opens where the one before it closes, and a round only ever
moves along the edges of its lifecycle.  Once its ticket is accepted, what the draw rests on never
changes again.
-/

namespace Leopold

open Lib

/-! ## The lifecycle -/

/-- The edges of the lifecycle of a round. -/
inductive RoundState.Next : RoundState → RoundState → Prop
  | opens : Next .uninitialized .open
  | closes : Next .open .aggregatePending
  | zeroAggregate : Next .aggregatePending .empty
  | nonzeroAggregate : Next .aggregatePending .aggregateFinalized
  | propose : Next .aggregateFinalized .candidateValidityPending
  | take : Next .aggregateFinalized .ticketAccepted
  | reject : Next .candidateValidityPending .candidateRejected
  | generateNext : Next .candidateRejected .candidateValidityPending
  | accept : Next .candidateValidityPending .ticketAccepted
  | select : Next .ticketAccepted .winnerProcessing
  | selected : Next .winnerProcessing .reconciliationPending
  | reconciled : Next .reconciliationPending .readyToAllocate
  | mismatched : Next .reconciliationPending .reconciliationFailed
  | recover : Next .reconciliationFailed .settled
  | allocate : Next .readyToAllocate .allocationProcessing
  | allocated : Next .allocationProcessing .winningsAllocated
  | finalize : Next .winningsAllocated .settled
  | settleEmpty : Next .empty .settled

namespace RoundState

/-- How far a state is along the lifecycle. -/
def rank : RoundState → Nat
  | .uninitialized => 0
  | .open => 1
  | .aggregatePending => 2
  | .empty | .aggregateFinalized => 3
  | .candidateValidityPending | .candidateRejected => 4
  | .ticketAccepted => 5
  | .winnerProcessing => 6
  | .reconciliationPending => 7
  | .reconciliationFailed | .readyToAllocate => 8
  | .allocationProcessing => 9
  | .winningsAllocated => 10
  | .settled => 11

/-- The states between which a draw goes back and forth. -/
def drawing (s : RoundState) : Prop := s = .candidateValidityPending ∨ s = .candidateRejected

/-- The passes of a round stay inside its participants, and allocation waits for selection. -/
theorem Cursors.le {n selection allocation : Nat} {s : RoundState}
    (h : s.Cursors n selection allocation) :
    selection ≤ n ∧ allocation ≤ n ∧ (0 < allocation → selection = n) := by
  cases s <;> simp only [Cursors] at h <;> omega

/-- A later state, or the same one, or the other one of the loop. -/
def Forward (s s' : RoundState) : Prop := s.rank < s'.rank ∨ s' = s ∨ (s.drawing ∧ s'.drawing)

variable {s s' s'' : RoundState}

theorem Next.forward (h : Next s s') : s.Forward s' := by
  cases h with
  | reject => exact .inr (.inr ⟨.inl rfl, .inr rfl⟩)
  | generateNext => exact .inr (.inr ⟨.inr rfl, .inl rfl⟩)
  | _ => exact .inl (by decide)

theorem drawing.rank_eq (h : s.drawing) : s.rank = 4 := by
  rcases h with rfl | rfl <;> rfl

theorem Forward.trans (h : s.Forward s') (h' : s'.Forward s'') : s.Forward s'' := by
  rcases h with hlt | rfl | ⟨hs, hs'⟩
  · rcases h' with hlt' | rfl | ⟨hs', hs''⟩
    · exact .inl (hlt.trans hlt')
    · exact .inl hlt
    · rw [hs'.rank_eq, ← hs''.rank_eq] at hlt
      exact .inl hlt
  · exact h'
  · rcases h' with hlt' | rfl | ⟨_, hs''⟩
    · rw [hs'.rank_eq, ← hs.rank_eq] at hlt'
      exact .inl hlt'
    · exact .inr (.inr ⟨hs, hs'⟩)
    · exact .inr (.inr ⟨hs, hs''⟩)

/-- Any number of edges leads forward. -/
theorem forward_of_edges (h : Relation.ReflTransGen Next s s') : s.Forward s' := by
  induction h with
  | refl => exact .inr (.inl rfl)
  | tail _ hnext ih => exact ih.trans hnext.forward

/-- A settled round stays settled. -/
theorem Forward.of_settled (h : settled.Forward s') : s' = .settled := by
  rcases h with hlt | heq | ⟨hdrawing, _⟩
  · cases s' <;> exact absurd hlt (by decide)
  · exact heq
  · rcases hdrawing with h | h <;> nomatch h

end RoundState

section

variable {E64 E128 EBool X : Type} {fhe : Fhe E64 E128 EBool} {E : Externals E64 EBool X}
  {cfg : Config}

/-! ## The schedule of the rounds -/

/-- The ticket of the round is accepted. -/
def Round.Decided (round : Round E64 E128 EBool) : Prop :=
  round.state = .ticketAccepted ∨ 0 < round.selectionCursor

/-- The published weight of a round that is being drawn. -/
structure Round.Weighed (round : Round E64 E128 EBool) : Prop where
  nonzero : Vault.awaitsTicket round.state = true ∨ round.Decided →
    round.publicAggregateTwab ≠ 0
  inexact : round.state.drawing →
    2 ^ 128 / round.publicAggregateTwab * round.publicAggregateTwab ≠ 2 ^ 128

namespace Round

variable {round round' : Round E64 E128 EBool} {n : Nat}

/-- A round in which no draw is going on has nothing to weigh. -/
theorem weighed_of_idle (hs : Vault.awaitsTicket round.state = false)
    (hdecided : ¬ round.Decided) : round.Weighed := by
  refine ⟨fun h => ?_, fun h => ?_⟩
  · rcases h with h | h
    · rw [hs] at h
      nomatch h
    · exact absurd h hdecided
  · rcases h with h | h <;> rw [h] at hs <;> nomatch hs

/-- The weight published stays while the round is past its draw. -/
theorem Weighed.keep (h : round.Weighed)
    (hpublic : round'.publicAggregateTwab = round.publicAggregateTwab)
    (hnonzero : Vault.awaitsTicket round'.state = true ∨ round'.Decided →
      Vault.awaitsTicket round.state = true ∨ round.Decided)
    (hdrawing : round'.state.drawing → round.state.drawing) : round'.Weighed :=
  ⟨fun hs => hpublic ▸ h.nonzero (hnonzero hs), fun hs => hpublic ▸ h.inexact (hdrawing hs)⟩

/-- A move follows the edges of the lifecycle. -/
theorem Moves.edges (h : round.Moves fhe round') (hw : round.Weighed) :
    Relation.ReflTransGen RoundState.Next round.state round'.state := by
  cases h with
  | aggregate hs =>
    rw [hs]
    dsimp only
    split_ifs
    · exact .single .zeroAggregate
    · exact .single .nonzeroAggregate
  | take hs _ _ hlimit =>
    rcases hs with hs | hs
    · rw [hs]
      exact .single .take
    · exact absurd hlimit (hw.inexact (.inr hs))
  | propose hs =>
    rcases hs with hs | hs <;> rw [hs]
    · exact .single .propose
    · exact .single .generateNext
  | accept hs =>
    rw [hs]
    exact .single .accept
  | reject hs =>
    rw [hs]
    exact .single .reject
  | @reconcile valid _ hs =>
    rw [hs]
    cases valid
    · exact .single .mismatched
    · exact .single .reconciled
  | settle hs =>
    rw [hs]
    exact .single .finalize
  | rollForward hs =>
    rcases hs with hs | hs <;> rw [hs]
    · exact .single .settleEmpty
    · exact .single .recover

theorem Moves.weighed (h : round.Moves fhe round') (hw : round.Weighed)
    (hc : round.state.Cursors n round.selectionCursor round.allocationCursor) :
    round'.Weighed := by
  cases h with
  | @aggregate clear _ hs =>
    rw [hs] at hc
    by_cases hzero : clear = 0
    · refine weighed_of_idle ?_ ?_
      · rw [if_pos hzero]
        rfl
      · rw [Decided, if_pos hzero]
        rintro (hs | hpos)
        · nomatch hs
        · exact absurd hc.1 (Nat.ne_of_gt hpos)
    · refine ⟨fun _ => hzero, ?_⟩
      rw [if_neg hzero]
      rintro (hs | hs) <;> nomatch hs
  | take hs hpos => exact ⟨fun _ => hpos, by rintro (hs | hs) <;> nomatch hs⟩
  | propose hs hpos _ hlimit => exact ⟨fun _ => hpos, fun _ => hlimit⟩
  | accept hs =>
    exact ⟨fun _ => hw.nonzero (.inl (by rw [hs]; rfl)), by rintro (hs | hs) <;> nomatch hs⟩
  | reject hs =>
    exact ⟨fun _ => hw.nonzero (.inl (by rw [hs]; rfl)), fun _ => hw.inexact (.inl hs)⟩
  | @reconcile valid _ hs =>
    refine hw.keep rfl ?_ ?_
    · rintro (h | h | h)
      · cases valid <;> nomatch h
      · cases valid <;> nomatch h
      · exact .inr (.inr h)
    · cases valid <;> rintro (hs | hs) <;> nomatch hs
  | settle hs =>
    refine hw.keep rfl ?_ (by rintro (hs | hs) <;> nomatch hs)
    rintro (h | h | h)
    · nomatch h
    · nomatch h
    · exact .inr (.inr h)
  | rollForward hs =>
    refine hw.keep rfl ?_ (by rintro (hs | hs) <;> nomatch hs)
    rintro (h | h | h)
    · nomatch h
    · nomatch h
    · exact .inr (.inr h)

/-- A move of a round whose ticket is accepted keeps the ticket and the weight it was drawn
from. -/
theorem Moves.frozen (h : round.Moves fhe round') (hd : round.Decided)
    (hc : round.state.Cursors n round.selectionCursor round.allocationCursor) :
    round'.acceptedTicket = round.acceptedTicket ∧
      round'.publicAggregateTwab = round.publicAggregateTwab ∧
      round'.selectionCursor = round.selectionCursor := by
  have hno : ∀ s, round.state = s → s ≠ .ticketAccepted →
      (s.Cursors n round.selectionCursor round.allocationCursor → round.selectionCursor = 0) →
        False := by
    rintro s rfl hne hzero
    exact hd.elim hne fun hpos => absurd (hzero hc) (Nat.ne_of_gt hpos)
  cases h with
  | aggregate hs => exact (hno _ hs nofun And.left).elim
  | take hs | propose hs =>
    rcases hs with hs | hs
    · exact (hno _ hs nofun And.left).elim
    · exact (hno _ hs nofun And.left).elim
  | accept hs => exact (hno _ hs nofun And.left).elim
  | reject hs => exact (hno _ hs nofun And.left).elim
  | reconcile | settle | rollForward => exact ⟨rfl, rfl, rfl⟩

end Round

/-- A visit of other participants leaves the predicate of an account. -/
theorem Tally.run_predicate {ticket : E128} {weight : Address → E128} {as : List Address}
    {a : Address} (ha : a ∉ as) (t : Tally E64 E128 EBool) :
    (t.run fhe ticket weight as).predicate a = t.predicate a := by
  induction as generalizing t with
  | nil => rfl
  | cons b as ih =>
    rw [List.mem_cons, not_or] at ha
    exact (ih ha.2 (t.visit fhe ticket weight b)).trans (Function.update_of_ne ha.1 _ _)

namespace Vault

/-- Every round lasts as long as configured, and opens where the one before it closes. -/
structure Scheduled (cfg : Config) (v : Vault E64 E128 EBool) : Prop where
  closes_eq : ∀ r, 0 < r → r ≤ v.activeRoundId →
    (v.rounds r).closesAt = (v.rounds r).opensAt + cfg.roundDuration
  opens_eq : ∀ r, 0 < r → r < v.activeRoundId →
    (v.rounds (r + 1)).opensAt = (v.rounds r).closesAt
  accrued_le : ∀ r, (v.rounds r).eligibleTimestamp ≤ (v.rounds r).closesAt
  weighed : ∀ r, (v.rounds r).Weighed

variable {v v' : Vault E64 E128 EBool} {r n : Nat}

/-- Every round takes at least a second. -/
theorem Scheduled.active_le (h : v.Scheduled cfg) (hduration : 0 < cfg.roundDuration) (hr : 0 < r)
    (hle : r ≤ v.activeRoundId) : r ≤ (v.rounds r).closesAt := by
  induction r with
  | zero => omega
  | succ r ih =>
    rw [h.closes_eq (r + 1) hr hle]
    rcases Nat.eq_zero_or_pos r with rfl | hpos
    · omega
    · rw [h.opens_eq r hpos hle]
      have := ih hpos (Nat.le_of_succ_le hle)
      omega

/-- A round that was opened keeps its times. -/
theorem RoundStep.times (h : RoundStep fhe cfg r v v') (hr : r ≠ v.activeRoundId + 1) :
    (v'.rounds r).opensAt = (v.rounds r).opensAt ∧
      (v'.rounds r).closesAt = (v.rounds r).closesAt := by
  cases h with
  | same hround =>
    rw [hround]
    exact ⟨rfl, rfl⟩
  | accrue _ _ hround =>
    rw [hround]
    exact ⟨rfl, rfl⟩
  | close hra hround =>
    rw [hround, hra]
    exact ⟨rfl, rfl⟩
  | opened hra => exact absurd hra hr
  | move hmove =>
    have hclock := Clock.ext_iff.1 hmove.clock
    exact ⟨hclock.1, hclock.2.1⟩
  | select _ _ _ _ _ hround =>
    rw [hround, selectedRound]
    split_ifs <;> exact ⟨rfl, rfl⟩
  | allocate _ _ _ hround =>
    rw [hround]
    exact ⟨rfl, rfl⟩

/-- A round never accrues past its close. -/
theorem RoundStep.accrued_le (h : RoundStep fhe cfg r v v')
    (hle : (v.rounds r).eligibleTimestamp ≤ (v.rounds r).closesAt) :
    (v'.rounds r).eligibleTimestamp ≤ (v'.rounds r).closesAt := by
  cases h with
  | same hround =>
    rw [hround]
    exact hle
  | accrue _ htime hround =>
    rw [hround]
    exact Nat.le_of_lt htime
  | close hr hround =>
    rw [hround]
    exact Nat.le_refl _
  | opened hr hround =>
    rw [hround]
    exact Nat.le_add_right _ _
  | move hmove =>
    have hclock := Clock.ext_iff.1 hmove.clock
    simp only [Round.clock] at hclock
    omega
  | select _ _ _ _ _ hround =>
    rw [hround, selectedRound]
    split_ifs <;> exact hle
  | allocate _ _ _ hround =>
    rw [hround]
    exact hle

/-- Either the next round was opened or no round was. -/
theorem RoundStep.next (h : RoundStep fhe cfg (v.activeRoundId + 1) v v') :
    v'.activeRoundId = v.activeRoundId ∨
      (v'.activeRoundId = v.activeRoundId + 1 ∧
        v'.rounds (v.activeRoundId + 1) = openedRound fhe cfg v) := by
  cases h with
  | same _ _ _ hactive =>
    rcases hactive with h | ⟨_, _, h⟩
    · exact .inl h
    · exact absurd rfl h
  | opened _ hround _ _ hactive => exact .inr ⟨hactive, hround⟩
  | accrue hr => omega
  | close hr => omega
  | move _ _ _ hactive => exact .inl hactive
  | select _ _ _ _ _ _ _ _ hactive => exact .inl hactive
  | allocate _ _ _ _ _ _ hactive => exact .inl hactive

theorem RoundStep.weighed (h : RoundStep fhe cfg r v v') (hshape : v.Shape fhe)
    (hw : (v.rounds r).Weighed)
    (hc : (v.rounds r).state.Cursors n (v.rounds r).selectionCursor (v.rounds r).allocationCursor) :
    (v'.rounds r).Weighed := by
  have hidle : (v.rounds r).state = .open ∨ (v.rounds r).state = .uninitialized →
      (v.rounds r).selectionCursor = 0 := by
    rintro (hs | hs) <;> rw [hs] at hc <;> exact hc.1
  cases h with
  | same hround =>
    rw [hround]
    exact hw
  | accrue _ _ hround =>
    rw [hround]
    exact hw.keep rfl id id
  | close hr hround =>
    subst hr
    rw [hround]
    refine Round.weighed_of_idle rfl ?_
    rintro (hs | hpos)
    · cases hs
    · exact absurd (hidle (.inl hshape.active_open)) (Nat.ne_of_gt hpos)
  | opened hr hround =>
    subst hr
    rw [hround]
    refine Round.weighed_of_idle rfl ?_
    have hunset := congrArg Round.state (hshape.later _ (Nat.lt_succ_self v.activeRoundId))
    rintro (hs | hpos)
    · cases hs
    · exact absurd (hidle (.inr hunset)) (Nat.ne_of_gt hpos)
  | move hmove => exact hmove.weighed hw hc
  | select hs _ _ _ _ hround =>
    have hd : (v.rounds r).Decided := by
      rcases hs with hs | hs
      · exact .inl hs
      · rw [hs] at hc
        exact .inr hc.1
    rw [hround, selectedRound]
    refine hw.keep ?_ (fun _ => .inr hd) ?_
    · split_ifs <;> rfl
    · split_ifs <;> rintro (h | h) <;> cases h
  | allocate hs _ _ hround =>
    have hd : (v.rounds r).Decided := by
      rcases hs with hs | hs <;> rw [hs] at hc <;> simp only [RoundState.Cursors] at hc <;>
        exact .inr (by omega)
    rw [hround]
    refine hw.keep rfl (fun _ => .inr hd) ?_
    split_ifs <;> rintro (h | h) <;> cases h

/-- A round moves along the edges of its lifecycle. -/
theorem RoundStep.edges (h : RoundStep fhe cfg r v v') (hshape : v.Shape fhe)
    (hw : (v.rounds r).Weighed) :
    Relation.ReflTransGen RoundState.Next (v.rounds r).state (v'.rounds r).state := by
  cases h with
  | same hround | accrue _ _ hround => rw [hround]
  | close hr hround =>
    subst hr
    rw [hround, hshape.active_open]
    exact .single .closes
  | opened hr hround =>
    subst hr
    rw [hround, hshape.later _ (Nat.lt_succ_self v.activeRoundId)]
    exact .single .opens
  | move hmove => exact hmove.edges hw
  | select hs _ _ _ _ hround =>
    have hbegin : Relation.ReflTransGen RoundState.Next (v.rounds r).state .winnerProcessing := by
      rcases hs with hs | hs <;> rw [hs]
      exact .single .select
    rw [hround, selectedRound]
    dsimp only
    split_ifs
    · exact hbegin.tail .selected
    · exact hbegin
  | allocate hs _ _ hround =>
    have hbegin : Relation.ReflTransGen RoundState.Next (v.rounds r).state
        .allocationProcessing := by
      rcases hs with hs | hs <;> rw [hs]
      exact .single .allocate
    rw [hround]
    dsimp only
    split_ifs
    · exact hbegin.tail .allocated
    · exact hbegin

/-- What the draw of `v` rests on is the same in `v'`, which may have selected more. -/
structure Frozen (r : Nat) (v v' : Vault E64 E128 EBool) : Prop where
  acceptedTicket : (v'.rounds r).acceptedTicket = (v.rounds r).acceptedTicket
  publicAggregateTwab : (v'.rounds r).publicAggregateTwab = (v.rounds r).publicAggregateTwab
  closesAt : (v'.rounds r).closesAt = (v.rounds r).closesAt
  participants : v'.roundParticipants r = v.roundParticipants r
  cursor_le : (v.rounds r).selectionCursor ≤ (v'.rounds r).selectionCursor
  predicate : ∀ a ∈ (v.roundParticipants r).take (v.rounds r).selectionCursor,
    v'.winnerPredicate r a = v.winnerPredicate r a

theorem Frozen.refl (r : Nat) (v : Vault E64 E128 EBool) : v.Frozen r v :=
  ⟨rfl, rfl, rfl, rfl, Nat.le_refl _, fun _ _ => rfl⟩

theorem Frozen.trans {u : Vault E64 E128 EBool} (h : v.Frozen r u) (h' : u.Frozen r v') :
    v.Frozen r v' := by
  refine ⟨h'.1.trans h.1, h'.2.trans h.2, h'.3.trans h.3, h'.4.trans h.4,
    h.cursor_le.trans h'.cursor_le, fun a ha => ?_⟩
  rw [h'.predicate a, h.predicate a ha]
  rw [h.participants]
  exact ((List.take_sublist_take_left h.cursor_le).mem ha :)

/-- A call freezes the round whose ticket is accepted. -/
theorem RoundStep.frozen (h : RoundStep fhe cfg r v v') (hshape : v.Shape fhe)
    (hnodup : (v.roundParticipants r).Nodup) (hd : (v.rounds r).Decided)
    (hc : (v.rounds r).state.Cursors n (v.rounds r).selectionCursor (v.rounds r).allocationCursor) :
    v.Frozen r v' := by
  -- a decided round is neither open nor yet to come
  have hidle : (v.rounds r).state ≠ .open ∧ (v.rounds r).state ≠ .uninitialized := by
    refine ⟨fun hs => ?_, fun hs => ?_⟩ <;> rw [Round.Decided, hs] at hd <;> rw [hs] at hc <;>
      exact absurd (hd.resolve_left nofun) (Nat.not_lt.2 (Nat.le_of_eq hc.1))
  have hlt := (hshape.closed_of_state hidle.1 hidle.2).2
  have htimes := h.times (by omega)
  cases h with
  | same hround hparts hpred =>
    exact ⟨by rw [hround], by rw [hround], by rw [hround], hparts, by rw [hround],
      fun a _ => congrFun hpred a⟩
  | accrue hr => omega
  | close hr => omega
  | opened hr => omega
  | move hmove hparts hpred =>
    obtain ⟨h1, h2, h3⟩ := hmove.frozen hd hc
    exact ⟨h1, h2, htimes.2, hparts, Nat.le_of_eq h3.symm, fun a _ => congrFun hpred a⟩
  | @select processed t _ _ _ _ ht hround hparts hpred =>
    refine ⟨?_, ?_, htimes.2, hparts, ?_, fun a ha => ?_⟩
    · rw [hround, selectedRound]
      split_ifs <;> rfl
    · rw [hround, selectedRound]
      split_ifs <;> rfl
    · rw [hround, selectedRound]
      split_ifs <;> exact Nat.le_add_right _ _
    · -- the chunk visits participants after the cursor
      have hnot : a ∉ ((v.roundParticipants r).drop (v.rounds r).selectionCursor).take
          processed := by
        intro hmem
        rw [← List.take_append_drop (v.rounds r).selectionCursor (v.roundParticipants r)]
          at hnodup
        exact List.disjoint_left.1 (List.nodup_append'.1 hnodup).2.2 ha (List.mem_of_mem_take hmem)
      rw [hpred, ht, Tally.run_predicate hnot, startTally]
      split_ifs <;> rfl
  | allocate _ _ _ hround hparts hpred =>
    exact ⟨by rw [hround], by rw [hround], htimes.2, hparts, by rw [hround],
      fun a _ => congrFun hpred a⟩

theorem RoundStep.decided (h : RoundStep fhe cfg r v v') (hshape : v.Shape fhe)
    (hd : (v.rounds r).Decided)
    (hcursor : (v.rounds r).selectionCursor ≤ (v'.rounds r).selectionCursor)
    (hc : (v'.rounds r).state.Cursors n (v'.rounds r).selectionCursor
      (v'.rounds r).allocationCursor) : (v'.rounds r).Decided := by
  rcases hd with hs | hpos
  · have hlt := (hshape.closed_of_state (r := r) (by rw [hs]; rintro ⟨⟩) (by rw [hs]; rintro ⟨⟩)).2
    cases h with
    | same hround =>
      rw [hround]
      exact .inl hs
    | accrue hr => omega
    | close hr => omega
    | opened hr => omega
    | move hmove =>
      generalize v'.rounds r = round at hmove
      cases hmove with
      | aggregate hs' | accept hs' | reject hs' | reconcile hs' | settle hs' =>
        rw [hs] at hs'
        cases hs'
      | take hs' | propose hs' | rollForward hs' =>
        rw [hs] at hs'
        rcases hs' with h | h <;> cases h
    | select _ _ _ _ _ hround =>
      -- the first chunk visits a participant
      have hstate : (v'.rounds r).state = .winnerProcessing ∨
          (v'.rounds r).state = .reconciliationPending := by
        rw [hround, selectedRound]
        split_ifs
        · exact .inr rfl
        · exact .inl rfl
      rcases hstate with h | h <;> rw [h] at hc <;> simp only [RoundState.Cursors] at hc <;>
        exact .inr (by omega)
    | allocate hs' =>
      rw [hs] at hs'
      rcases hs' with h | h <;> cases h
  · exact .inr (hpos.trans_le hcursor)

end Vault

/-! ## Every run -/

namespace World

variable {w w' : World E64 E128 EBool X} {sender : Address} {r : Nat}

theorem exec_scheduled (hsender : cfg.External sender) (hB : w.Bonded fhe cfg)
    (h : w.vault.Scheduled cfg) {c : Call E64 E128 EBool}
    (hop : exec fhe E cfg sender w c = .ok w') : w'.vault.Scheduled cfg := by
  have hstep : ∀ r, Vault.RoundStep fhe cfg r w.vault w'.vault :=
    fun r => exec_roundStep hsender hB.shape hop r
  have hpos := hB.shape.active_pos
  refine ⟨fun r hr hle => ?_, fun r hr hlt => ?_, fun r => (hstep r).accrued_le (h.accrued_le r),
    fun r => (hstep r).weighed hB.shape (h.weighed r) (hB.settling r).cursors⟩
  · by_cases hnext : r = w.vault.activeRoundId + 1
    · subst hnext
      rcases (hstep (w.vault.activeRoundId + 1)).next with hsame | ⟨_, hround⟩
      · omega
      · rw [hround]
        rfl
    · obtain ⟨hopens, hcloses⟩ := (hstep r).times hnext
      rw [hopens, hcloses]
      refine h.closes_eq r hr ?_
      rcases (hstep (w.vault.activeRoundId + 1)).next with hsame | ⟨hactive, _⟩ <;> omega
  · have hle : r ≤ w.vault.activeRoundId := by
      rcases (hstep (w.vault.activeRoundId + 1)).next with hsame | ⟨hactive, _⟩ <;> omega
    rw [((hstep r).times (by omega)).2]
    by_cases hlast : r = w.vault.activeRoundId
    · subst hlast
      rcases (hstep (w.vault.activeRoundId + 1)).next with hsame | ⟨_, hround⟩
      · omega
      · rw [hround]
        rfl
    · rw [((hstep (r + 1)).times (by omega)).1]
      exact h.opens_eq r hr (by omega)

theorem step_scheduled (hB : w.Bonded fhe cfg) (h : w.vault.Scheduled cfg)
    {l : Label E64 E128 EBool X} (hstep : Step fhe E cfg w l w') : w'.vault.Scheduled cfg := by
  cases l with
  | call sender c => exact exec_scheduled hstep.1 hB h hstep.2
  | tick now =>
    obtain ⟨_, rfl⟩ := hstep
    exact h
  | thirdParty ext =>
    obtain ⟨_, rfl⟩ := hstep
    exact h
  | forceNative amount =>
    obtain rfl := hstep
    exact h

theorem construct_scheduled {nativeBalance now : Nat} {x : X}
    (h : construct fhe E cfg nativeBalance now x = .ok w) : w.vault.Scheduled cfg := by
  obtain ⟨_, _, _, gs, rfl⟩ := construct_ok h
  refine ⟨fun r hr hle => ?_, fun r hr hlt => ?_, fun r => ?_, fun r => ?_⟩
  · have hle : r ≤ 1 := hle
    obtain rfl : r = 1 := by omega
    rw [Vault.grant_rounds, Vault.setRound_rounds_self]
  · have hlt : r < 1 := hlt
    omega
  · rw [Vault.grant_rounds]
    by_cases hr : r = 1
    · rw [hr, Vault.setRound_rounds_self]
      exact Nat.le_add_right _ _
    · rw [Vault.setRound_rounds_of_ne hr]
      exact Nat.le_refl 0
  · rw [Vault.grant_rounds]
    by_cases hr : r = 1
    · rw [hr, Vault.setRound_rounds_self]
      refine Round.weighed_of_idle rfl ?_
      rintro (hs | hpos)
      · nomatch hs
      · exact absurd hpos (Nat.lt_irrefl 0)
    · rw [Vault.setRound_rounds_of_ne hr]
      refine Round.weighed_of_idle rfl ?_
      rintro (hs | hpos)
      · nomatch hs
      · exact absurd hpos (Nat.lt_irrefl 0)

theorem reachable_scheduled (h : (system fhe E cfg).Reachable w) : w.vault.Scheduled cfg := by
  refine TransitionSystem.Reachable.invariant (I := fun w => w.vault.Scheduled cfg) ?_ ?_ h
  · rintro w ⟨nativeBalance, now, x, hinit⟩
    exact construct_scheduled hinit
  · exact fun w l w' hw hS hstep => step_scheduled (reachable_bonded hw) hS hstep

/-- **Step lemma.**  A step moves a round along the edges of its lifecycle. -/
theorem step_edges (hw : (system fhe E cfg).Reachable w) {l : Label E64 E128 EBool X}
    (hstep : Step fhe E cfg w l w') (r : Nat) :
    Relation.ReflTransGen RoundState.Next (w.vault.rounds r).state (w'.vault.rounds r).state := by
  cases l with
  | call sender c =>
    have hshape := (reachable_bonded hw).shape
    exact (exec_roundStep hstep.1 hshape hstep.2 r).edges hshape ((reachable_scheduled hw).weighed r)
  | tick now =>
    obtain ⟨_, rfl⟩ := hstep
    exact .refl
  | thirdParty ext =>
    obtain ⟨_, rfl⟩ := hstep
    exact .refl
  | forceNative amount =>
    obtain rfl := hstep
    exact .refl

/-- **Run lemma.**  So does a run. -/
theorem run_edges (hw : (system fhe E cfg).Reachable w) (hrun : (system fhe E cfg).Run w w')
    (r : Nat) :
    Relation.ReflTransGen RoundState.Next (w.vault.rounds r).state (w'.vault.rounds r).state :=
  (hrun.preserves (I := fun u => Relation.ReflTransGen RoundState.Next (w.vault.rounds r).state
    (u.vault.rounds r).state) hw
    (fun _ _ _ hs hu hstep _ => hu.trans (step_edges hs hstep r)) .refl).2

/-- **Step lemma.**  A step freezes a round whose ticket is accepted, and the ticket stays
accepted. -/
theorem step_frozen (hw : (system fhe E cfg).Reachable w) (hd : (w.vault.rounds r).Decided)
    {l : Label E64 E128 EBool X} (hstep : Step fhe E cfg w l w') :
    w.vault.Frozen r w'.vault ∧ (w'.vault.rounds r).Decided := by
  cases l with
  | call sender c =>
    have hB := reachable_bonded hw
    have hround := exec_roundStep hstep.1 hB.shape hstep.2 r
    have hfrozen := hround.frozen hB.shape (hB.settling r).nodup hd (hB.settling r).cursors
    exact ⟨hfrozen, hround.decided hB.shape hd hfrozen.cursor_le
      ((reachable_bonded (hw.tail (l := .call sender c) hstep)).settling r).cursors⟩
  | tick now =>
    obtain ⟨_, rfl⟩ := hstep
    exact ⟨.refl r _, hd⟩
  | thirdParty ext =>
    obtain ⟨_, rfl⟩ := hstep
    exact ⟨.refl r _, hd⟩
  | forceNative amount =>
    obtain rfl := hstep
    exact ⟨.refl r _, hd⟩

/-- **Run lemma.**  So does a run. -/
theorem run_frozen (hw : (system fhe E cfg).Reachable w) (hd : (w.vault.rounds r).Decided)
    (hrun : (system fhe E cfg).Run w w') :
    w.vault.Frozen r w'.vault ∧ (w'.vault.rounds r).Decided := by
  refine (hrun.preserves
    (I := fun u => w.vault.Frozen r u.vault ∧ (u.vault.rounds r).Decided) hw ?_
    ⟨.refl r _, hd⟩).2
  rintro u l u' hu ⟨hfrozen, hdu⟩ hstep _
  obtain ⟨hfrozen', hdu'⟩ := step_frozen hu hdu hstep
  exact ⟨hfrozen.trans hfrozen', hdu'⟩

/-- **The life of a round.**  In every reachable state exactly the active round is open and the
rounds after it are untouched, rounds follow each other without a gap, and the cursors stay in the
snapshot.  Over every run a round only follows the edges of its lifecycle, which lead forward but
for the loop of its candidates; and once its ticket is accepted, the ticket, the published weight,
the participants, the close and every predicate that is set are final. -/
theorem round_lifecycle (h : (system fhe E cfg).Reachable w) :
    (∀ r, (w.vault.rounds r).state = .open ↔ r = w.vault.activeRoundId) ∧
    (∀ r, w.vault.activeRoundId < r → (w.vault.rounds r).state = .uninitialized) ∧
    (∀ r, (w.vault.rounds r).state ≠ .uninitialized →
      (w.vault.rounds r).closesAt = (w.vault.rounds r).opensAt + cfg.roundDuration ∧
      ((w.vault.rounds (r + 1)).state ≠ .uninitialized →
        (w.vault.rounds (r + 1)).opensAt = (w.vault.rounds r).closesAt)) ∧
    (∀ r, (w.vault.rounds r).allocationCursor ≤ (w.vault.rounds r).participantCountSnapshot ∧
      (w.vault.rounds r).selectionCursor ≤ (w.vault.rounds r).participantCountSnapshot ∧
      (0 < (w.vault.rounds r).allocationCursor →
        (w.vault.rounds r).selectionCursor = (w.vault.rounds r).participantCountSnapshot)) ∧
    (∀ w', (system fhe E cfg).Run w w' → ∀ r,
      Relation.ReflTransGen RoundState.Next (w.vault.rounds r).state (w'.vault.rounds r).state ∧
      (w.vault.rounds r).state.Forward (w'.vault.rounds r).state) ∧
    (∀ r, (w.vault.rounds r).state = .ticketAccepted → ∀ w₁, (system fhe E cfg).Run w w₁ →
      (w₁.vault.rounds r).acceptedTicket = (w.vault.rounds r).acceptedTicket ∧
      (w₁.vault.rounds r).publicAggregateTwab = (w.vault.rounds r).publicAggregateTwab ∧
      (w₁.vault.rounds r).publicAggregateTwab ≠ 0 ∧
      w₁.vault.roundParticipants r = w.vault.roundParticipants r ∧
      (w₁.vault.rounds r).closesAt = (w.vault.rounds r).closesAt ∧
      ∀ w₂, (system fhe E cfg).Run w₁ w₂ →
        ∀ a ∈ (w₁.vault.roundParticipants r).take (w₁.vault.rounds r).selectionCursor,
          w₂.vault.winnerPredicate r a = w₁.vault.winnerPredicate r a) := by
  have hB := reachable_bonded h
  have hS := reachable_scheduled h
  have hunset : ∀ r, (w.vault.rounds r).state ≠ .uninitialized →
      0 < r ∧ r ≤ w.vault.activeRoundId := by
    intro r hs
    refine ⟨Nat.pos_of_ne_zero ?_, not_lt.1 fun hlt => ?_⟩
    · rintro rfl
      exact hs (congrArg Round.state hB.shape.zero)
    · exact hs (congrArg Round.state (hB.shape.later r hlt))
  refine ⟨fun r => ⟨fun hs => ?_, fun hr => hr ▸ hB.shape.active_open⟩,
    fun r hlt => congrArg Round.state (hB.shape.later r hlt), fun r hs => ?_, fun r => ?_,
    fun w' hrun r => ⟨run_edges h hrun r, RoundState.forward_of_edges (run_edges h hrun r)⟩,
    fun r hs w₁ hrun => ?_⟩
  · obtain ⟨hpos, hle⟩ := hunset r (by rw [hs]; nofun)
    exact hle.eq_or_lt.resolve_right fun hlt => (hB.shape.closed r hpos hlt).1 hs
  · obtain ⟨hpos, hle⟩ := hunset r hs
    exact ⟨hS.closes_eq r hpos hle, fun hnext =>
      hS.opens_eq r hpos (Nat.lt_of_succ_le (hunset (r + 1) hnext).2)⟩
  · have hc := (hB.settling r).cursors.le
    by_cases hidle : (w.vault.rounds r).state = .open ∨ (w.vault.rounds r).state = .uninitialized
    · have hc := (hB.settling r).cursors
      rw [Round.progress] at hc
      rcases hidle with hs | hs <;> rw [hs] at hc <;> simp only [RoundState.Cursors] at hc <;> omega
    · rw [not_or] at hidle
      have hsnapshot := (hB.settling r).snapshot hidle.1 hidle.2
      simp only [Round.progress] at hc hsnapshot
      rw [hsnapshot]
      exact ⟨hc.2.1, hc.1, hc.2.2⟩
  · obtain ⟨hfrozen, hd⟩ := run_frozen h (.inl hs) hrun
    have h₁ := hrun.reachable h
    exact ⟨hfrozen.acceptedTicket, hfrozen.publicAggregateTwab,
      ((reachable_scheduled h₁).weighed r).nonzero (.inr hd), hfrozen.participants,
      hfrozen.closesAt, fun w₂ hrun₂ => (run_frozen h₁ hd hrun₂).1.predicate⟩

/-- The rounds after the first ten steps of the script: the ticket is accepted, and stays. -/
theorem round_lifecycle_script : ∃ w,
    outcome Demo.cfg Demo.token 100 Demo.chain (Demo.script.take 10) = .ok w ∧
    (w.vault.rounds 1).state = .ticketAccepted ∧
    (∀ r, (w.vault.rounds r).state = .open ↔ r = 2) ∧
    (∀ r, 2 < r → (w.vault.rounds r).state = .uninitialized) ∧
    (w.vault.rounds 1).closesAt = (w.vault.rounds 1).opensAt + 64 ∧
    (w.vault.rounds 2).opensAt = (w.vault.rounds 1).closesAt ∧
    (∀ r, (w.vault.rounds r).allocationCursor ≤ (w.vault.rounds r).participantCountSnapshot) ∧
    ∀ w₁, (system Fhe.plain Demo.externals Demo.cfg).Run w w₁ →
      RoundState.ticketAccepted.Forward (w₁.vault.rounds 1).state ∧
      (w₁.vault.rounds 1).acceptedTicket = 5000 ∧
      (w₁.vault.rounds 1).publicAggregateTwab = 8192 ∧
      w₁.vault.roundParticipants 1 = [Demo.alice, Demo.bob] := by
  have hends : endsWith (fun w => decide ((w.vault.rounds 1).state = .ticketAccepted ∧
      w.vault.activeRoundId = 2 ∧ (w.vault.rounds 1).acceptedTicket = 5000 ∧
      (w.vault.rounds 1).publicAggregateTwab = 8192 ∧
      w.vault.roundParticipants 1 = [Demo.alice, Demo.bob]))
      (outcome Demo.cfg Demo.token 100 Demo.chain (Demo.script.take 10)) = true := by
    decide +kernel
  obtain ⟨w, hw, hcheck⟩ := exists_of_endsWith hends
  obtain ⟨hs, hactive, hticket, hweight, hparts⟩ := of_decide_eq_true hcheck
  obtain ⟨hopen, hlater, htimes, hcursors, hedges, hfinal⟩ :=
    round_lifecycle (outcome_reachable hw)
  rw [hactive] at hlater
  have hopen' : ∀ r, (w.vault.rounds r).state = .open ↔ r = 2 := hactive ▸ hopen
  obtain ⟨hcloses, hnext⟩ := htimes 1 (by rw [hs]; nofun)
  refine ⟨w, hw, hs, hopen', hlater, hcloses, hnext (by rw [(hopen' 2).2 rfl]; nofun),
    fun r => (hcursors r).1, fun w₁ hrun => ?_⟩
  obtain ⟨hticket₁, hweight₁, _, hparts₁, _⟩ := hfinal 1 hs w₁ hrun
  exact ⟨hs ▸ (hedges w₁ hrun 1).2, hticket₁.trans hticket, hweight₁.trans hweight,
    hparts₁.trans hparts⟩

/-- The round after the open one has no times yet. -/
theorem next_round_unscheduled : ∃ w,
    (system Fhe.plain Demo.externals Demo.cfg).Reachable w ∧
    (w.vault.rounds w.vault.activeRoundId).state = .open ∧
    (w.vault.rounds (w.vault.activeRoundId + 1)).opensAt ≠
      (w.vault.rounds w.vault.activeRoundId).closesAt := by
  have hends : endsWith (fun w => decide
      ((w.vault.rounds w.vault.activeRoundId).state = .open ∧
        (w.vault.rounds (w.vault.activeRoundId + 1)).opensAt ≠
          (w.vault.rounds w.vault.activeRoundId).closesAt))
      (outcome Demo.cfg Demo.token 100 Demo.chain Demo.script) = true := by decide +kernel
  obtain ⟨w, hw, hcheck⟩ := exists_of_endsWith hends
  exact ⟨w, outcome_reachable hw, of_decide_eq_true hcheck⟩

end World

end

end Leopold
