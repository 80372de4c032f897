import Leopold.Vault.Joint

/-!
# What a successful call did

One lemma for each private function of the vault and each entry point: from a call that returned,
the guards that passed and the state it left.  The proofs about runs start from these lemmas and
do not unfold the entry points again.
-/

namespace Leopold

open Lib

variable {E64 E128 EBool X : Type} {fhe : Fhe E64 E128 EBool} {E : Externals E64 EBool X}
  {cfg : Config} {v v' : Vault E64 E128 EBool} {w w' : World E64 E128 EBool X}

namespace Vault

theorem setRound_self (v : Vault E64 E128 EBool) (r : Nat) : v.setRound r (v.rounds r) = v := by
  rw [setRound, Function.update_eq_self]

theorem setRound_rounds (r : Nat) (round : Round E64 E128 EBool) :
    (v.setRound r round).rounds = Function.update v.rounds r round := rfl

@[simp] theorem setRound_rounds_self (r : Nat) (round : Round E64 E128 EBool) :
    (v.setRound r round).rounds r = round := by
  rw [setRound_rounds, Function.update_self]

theorem setRound_rounds_of_ne {r s : Nat} (h : s ≠ r) (round : Round E64 E128 EBool) :
    (v.setRound r round).rounds s = v.rounds s := by
  rw [setRound_rounds, Function.update_of_ne h]

@[simp] theorem grant_rounds (gs : List (Grant E64 E128 EBool)) : (v.grant gs).rounds = v.rounds :=
  rfl

theorem grant_nil (v : Vault E64 E128 EBool) : v.grant [] = v := by
  rw [grant, List.append_nil]

theorem grant_grant (v : Vault E64 E128 EBool) (g h : List (Grant E64 E128 EBool)) :
    (v.grant g).grant h = v.grant (g ++ h) := by
  simp only [grant, List.append_assoc]

/-- The cumulative of a round after `_accrueEligible`. -/
def accruedCumulative (fhe : Fhe E64 E128 EBool) (round : Round E64 E128 EBool)
    (timestamp : Nat) : E128 :=
  if timestamp = round.eligibleTimestamp then round.eligibleCumulative
  else fhe.add128 round.eligibleCumulative (fhe.mul128 (fhe.widen round.eligibleBalance)
    (fhe.asEuint128 (timestamp - round.eligibleTimestamp)))

/-- A round whose accrual is brought to `timestamp`. -/
def accrued (fhe : Fhe E64 E128 EBool) (round : Round E64 E128 EBool) (timestamp : Nat) :
    Round E64 E128 EBool :=
  { round with
    eligibleCumulative := accruedCumulative fhe round timestamp
    eligibleTimestamp := timestamp }

theorem initializeRound_ok {r t : Nat} (h : initializeRound fhe cfg r t v = .ok v') :
    t + cfg.roundDuration < 2 ^ 64 ∧ ∃ gs, v' = (v.setRound r { v.rounds r with
      opensAt := t
      closesAt := t + cfg.roundDuration
      state := .open
      eligibleBalance := fhe.asEuint64 0
      eligibleCumulative := fhe.asEuint128 0
      eligibleTimestamp := t }).grant gs := by
  simp only [initializeRound, seq_eq_ok, checkedAdd_eq_ok, pure_eq_ok, ok_eq_ok] at h
  obtain ⟨c, ⟨hc, rfl⟩, rfl⟩ := h
  exact ⟨hc, _, rfl⟩

theorem accrueEligible_ok {r t : Nat} (h : accrueEligible fhe cfg r t v = .ok v') :
    (v.rounds r).eligibleTimestamp ≤ t ∧
      ∃ gs, v' = (v.setRound r (accrued fhe (v.rounds r) t)).grant gs := by
  simp only [accrueEligible, seq_eq_ok, checkedSub_eq_ok] at h
  obtain ⟨elapsed, ⟨hle, rfl⟩, h⟩ := h
  refine ⟨hle, ?_⟩
  by_cases helapsed : t - (v.rounds r).eligibleTimestamp = 0
  · rw [if_pos helapsed, pure_eq_ok, ok_eq_ok] at h
    have ht : t = (v.rounds r).eligibleTimestamp := by omega
    refine ⟨[], ?_⟩
    rw [grant_nil, accrued, accruedCumulative, if_pos ht, ht, setRound_self, h]
  · rw [if_neg helapsed, pure_eq_ok, ok_eq_ok] at h
    have ht : t ≠ (v.rounds r).eligibleTimestamp := by omega
    rw [accrued, accruedCumulative, if_neg ht]
    exact ⟨_, h.symm⟩

theorem checkpointUser_ok {a : Address} {b : E64} {t : Nat}
    (h : checkpointUser fhe cfg a b t v = .ok v') :
    ∃ obs cum gs, record fhe b t (v.observations a) = .ok (obs, cum) ∧
      v' = ({ v with observations := Function.update v.observations a obs }).grant gs := by
  simp only [checkpointUser, seq_eq_ok, Prod.exists, pure_eq_ok, ok_eq_ok] at h
  obtain ⟨obs, cum, hrec, rfl⟩ := h
  exact ⟨obs, cum, _, hrec, rfl⟩

/-- The active round after `changeEligible` of a registered account. -/
theorem changeEligible_ok {a : Address} {f : E64 → E64} {t : Nat}
    (h : changeEligible fhe cfg a f t v = .ok v') :
    (v.eligibilityStart v.activeRoundId a = 0 ∧ v' = v) ∨
    (v.eligibilityStart v.activeRoundId a ≠ 0 ∧
      (v.rounds v.activeRoundId).eligibleTimestamp ≤ t ∧
      ∃ gs, v' = (v.setRound v.activeRoundId
        { accrued fhe (v.rounds v.activeRoundId) t with
          eligibleBalance := f (v.rounds v.activeRoundId).eligibleBalance }).grant gs) := by
  unfold changeEligible at h
  by_cases hs : v.eligibilityStart v.activeRoundId a ≠ 0
  · rw [if_pos hs] at h
    simp only [seq_eq_ok, pure_eq_ok, ok_eq_ok] at h
    obtain ⟨v₁, hacc, rfl⟩ := h
    obtain ⟨hle, gs, rfl⟩ := accrueEligible_ok hacc
    refine .inr ⟨hs, hle, ?_⟩
    refine ⟨gs ++ [cfg.allowThis (.uint64 (f (v.rounds v.activeRoundId).eligibleBalance))], ?_⟩
    simp only [grant, setRound, Function.update_self, Function.update_idem, accrued,
      List.append_assoc]
  · rw [if_neg hs, ok_eq_ok] at h
    exact .inl ⟨not_not.1 hs, h.symm⟩

theorem requireState_ok {r : Nat} {s : RoundState} {u : Unit}
    (h : v.requireState r s = .ok u) : (v.rounds r).state = s := by
  rw [requireState, revertIf_eq_ok] at h
  exact not_not.1 h

theorem strategyEpoch_ok {id : Nat} {s : StrategyEpochState} {e : StrategyEpoch E64}
    (h : v.strategyEpoch cfg id s = .ok e) : cfg.hasStrategy = true ∧ id ≠ 0 ∧
      id = v.activeStrategyEpochId ∧ (v.strategyEpochs id).state = s ∧
      e = v.strategyEpochs id := by
  simp only [strategyEpoch, requireStrategy, seq_eq_ok, revertIf_eq_ok, pure_eq_ok,
    ok_eq_ok] at h
  obtain ⟨_, h1, _, h2, _, h3, h4⟩ := h
  rw [not_or, not_not] at h2
  exact ⟨by simpa using h1, h2.1, h2.2, not_not.1 h3, h4.symm⟩

theorem wrapUnderlying_ok {n : Nat} {x x' : X} {wrapped : E64}
    (h : wrapUnderlying E cfg n x = .ok (x', wrapped)) :
    ∃ x₁ x₂, E.forceApprove x cfg.vault cfg.asset n = some x₁ ∧
      E.wrap x₁ cfg.vault cfg.vault n = some (x₂, wrapped) ∧
      E.forceApprove x₂ cfg.vault cfg.asset 0 = some x' := by
  simp only [wrapUnderlying, seq_eq_ok, orRevert_eq_ok, Prod.exists, pure_eq_ok, ok_eq_ok,
    Prod.mk.injEq] at h
  obtain ⟨x₁, h1, x₂, y, h2, x₃, h3, rfl, rfl⟩ := h
  exact ⟨x₁, x₂, h1, h2, h3⟩

theorem rollPrizeForward_ok {r : Nat} (h : rollPrizeForward fhe cfg r v = .ok v') :
    v.publicSponsoredPrize v.activeRoundId + (v.rounds r).publicPrize < 2 ^ 64 ∧
    ∃ gs, v' = (({ v with
        sponsoredPrize := Function.update v.sponsoredPrize v.activeRoundId
          (fhe.add64 (v.sponsoredPrize v.activeRoundId) (v.rounds r).reservedPrize)
        reservedPrize := fhe.sub64 v.reservedPrize (v.rounds r).reservedPrize
        publicSponsoredPrize := Function.update v.publicSponsoredPrize v.activeRoundId
          (v.publicSponsoredPrize v.activeRoundId + (v.rounds r).publicPrize) }).setRound r
      { v.rounds r with reservedPrize := fhe.asEuint64 0 }).grant gs := by
  simp only [rollPrizeForward, seq_eq_ok, checkedAdd_eq_ok, pure_eq_ok, ok_eq_ok] at h
  obtain ⟨_, ⟨hlt, rfl⟩, rfl⟩ := h
  exact ⟨hlt, _, rfl⟩

theorem realizeSurplus_ok {s : E64} {n : Nat}
    (h : World.realizeSurplus fhe cfg s n v = .ok v') :
    v.publicUncommittedYield + n < 2 ^ 64 ∧ ∃ gs, v' = ({ v with
      uncommittedYield := fhe.add64 v.uncommittedYield s
      realizedSurplus := fhe.add64 v.realizedSurplus s
      liquidPrizeAssets := fhe.add64 v.liquidPrizeAssets s
      publicUncommittedYield := v.publicUncommittedYield + n }).grant gs := by
  simp only [World.realizeSurplus, seq_eq_ok, checkedAdd_eq_ok, pure_eq_ok, ok_eq_ok] at h
  obtain ⟨_, ⟨hlt, rfl⟩, rfl⟩ := h
  exact ⟨hlt, _, rfl⟩

/-! ## Participants of a pass -/

/-- The loop of a pass over the list of participants it visits. -/
def forList (body : Address → Vault E64 E128 EBool → Except Revert (Vault E64 E128 EBool)) :
    List Address → Vault E64 E128 EBool → Except Revert (Vault E64 E128 EBool)
  | [], v => .ok v
  | a :: as, v => body a v >>= forList body as

/-- A loop that returns visited `count` participants from `cursor` on, provided its body does not
change the list. -/
theorem forParticipants_ok
    {body : Address → Vault E64 E128 EBool → Except Revert (Vault E64 E128 EBool)} {r : Nat}
    (hbody : ∀ a v v', body a v = .ok v' → v'.roundParticipants r = v.roundParticipants r)
    {cursor count : Nat} (h : forParticipants body r cursor count v = .ok v') :
    (count = 0 ∨ cursor + count ≤ (v.roundParticipants r).length) ∧
      forList body ((v.roundParticipants r).drop cursor |>.take count) v = .ok v' := by
  induction count generalizing cursor v with
  | zero =>
    simp only [forParticipants, ok_eq_ok] at h
    exact ⟨.inl rfl, by rw [List.take_zero, forList, h]⟩
  | succ count ih =>
    simp only [forParticipants, seq_eq_ok, orRevert_eq_ok] at h
    obtain ⟨a, ha, v₁, hb, h⟩ := h
    obtain ⟨hlt, hget⟩ := List.getElem?_eq_some_iff.1 ha
    obtain ⟨hlen, hrun⟩ := ih h
    rw [hbody _ _ _ hb] at hlen hrun
    refine ⟨.inr (by omega), ?_⟩
    rw [List.drop_eq_getElem_cons hlt, List.take_succ_cons, hget, forList, hb, bind_ok, hrun]

/-- What every pass of the body preserves, the rest of a loop preserves. -/
theorem forList_invariant_from
    {body : Address → Vault E64 E128 EBool → Except Revert (Vault E64 E128 EBool)}
    {I : List Address → Vault E64 E128 EBool → Prop}
    (hstep : ∀ a done v v', I done v → body a v = .ok v' → I (done ++ [a]) v')
    {as done : List Address} (h : forList body as v = .ok v') (hI : I done v) :
    I (done ++ as) v' := by
  induction as generalizing v done with
  | nil =>
    simp only [forList, ok_eq_ok] at h
    rw [List.append_nil, ← h]
    exact hI
  | cons a as ih =>
    simp only [forList, seq_eq_ok] at h
    obtain ⟨v₁, hb, h⟩ := h
    have := ih h (hstep a done v v₁ hI hb)
    rwa [List.append_assoc, List.singleton_append] at this

/-- **Loop rule.**  What holds before the first pass and every pass of the body preserves, the loop
ends with. -/
theorem forList_invariant
    {body : Address → Vault E64 E128 EBool → Except Revert (Vault E64 E128 EBool)}
    {I : List Address → Vault E64 E128 EBool → Prop}
    (hstep : ∀ a done v v', I done v → body a v = .ok v' → I (done ++ [a]) v')
    {as : List Address} (h : forList body as v = .ok v') (hI : I [] v) : I as v' :=
  forList_invariant_from hstep h hI

/-! ## Entry points of the vault alone -/

theorem isActiveRoundOpen_iff {now : Nat} : v.isActiveRoundOpen now = true ↔
    (v.rounds v.activeRoundId).state = .open ∧ (v.rounds v.activeRoundId).opensAt ≤ now ∧
      now < (v.rounds v.activeRoundId).closesAt := by
  simp [isActiveRoundOpen, and_assoc]

theorem acceptBondRegistration_ok {sender a : Address} {r now : Nat}
    (h : acceptBondRegistration fhe cfg sender r a now v = .ok v') :
    sender = cfg.escrow ∧ a ≠ 0 ∧ r = v.activeRoundId ∧ v.isActiveRoundOpen now = true ∧
      v.eligibilityStart r a = 0 ∧ (v.rounds r).eligibleTimestamp ≤ uint64 now ∧
      ∃ gs, v' = (({ v with
          eligibilityStart := Function.update v.eligibilityStart r
            (Function.update (v.eligibilityStart r) a (uint64 now))
          roundParticipants := Function.update v.roundParticipants r
            (v.roundParticipants r ++ [a]) }).setRound r
        { accrued fhe (v.rounds r) (uint64 now) with
          eligibleBalance := fhe.add64 (v.rounds r).eligibleBalance
            (if fhe.isInitialized (v.principal a) then v.principal a
              else fhe.asEuint64 0) }).grant gs := by
  simp only [acceptBondRegistration, seq_eq_ok, revertIf_eq_ok, pure_eq_ok, ok_eq_ok] at h
  obtain ⟨_, h1, _, h2, _, h3, _, h4, v₁, hacc, rfl⟩ := h
  obtain ⟨hle, gs, rfl⟩ := accrueEligible_ok hacc
  rw [not_or, not_not] at h2
  refine ⟨not_not.1 h1, h2.1, h2.2, by simpa using h3, not_not.1 h4, hle, ?_⟩
  simp only [grant, setRound, Function.update_self, Function.update_idem, accrued,
    List.append_assoc]
  exact ⟨_, rfl⟩

theorem onConfidentialTransferReceived_ok {sender a : Address} {n : E64} {dataLength now : Nat}
    {accepted : EBool}
    (h : onConfidentialTransferReceived fhe cfg sender a n dataLength now v =
      .ok (v', accepted)) :
    sender = cfg.asset ∧ v.isActiveRoundOpen now = true ∧
    accepted = fhe.and
      (fhe.le64 n (fhe.sub64 (fhe.asEuint64 MAX_POOL_BASE_UNITS) v.totalPrincipal))
      (fhe.gt64 n (fhe.asEuint64 0)) ∧
    ∃ v₁ v₂ gs, checkpointUser fhe cfg a
        (fhe.add64 (v.principal a) (fhe.select64 accepted n (fhe.asEuint64 0))) (uint64 now) v =
          .ok v₁ ∧
      changeEligible fhe cfg a (fhe.add64 · (fhe.select64 accepted n (fhe.asEuint64 0)))
        (uint64 now) { v₁ with
          principal := Function.update v₁.principal a
            (fhe.add64 (v.principal a) (fhe.select64 accepted n (fhe.asEuint64 0)))
          totalPrincipal :=
            fhe.add64 v₁.totalPrincipal (fhe.select64 accepted n (fhe.asEuint64 0))
          liquidPrincipal :=
            fhe.add64 v₁.liquidPrincipal (fhe.select64 accepted n (fhe.asEuint64 0)) } =
          .ok v₂ ∧ v' = v₂.grant gs := by
  simp only [onConfidentialTransferReceived, seq_eq_ok, revertIf_eq_ok, pure_eq_ok, ok_eq_ok,
    Prod.mk.injEq] at h
  obtain ⟨_, h1, _, h2, _, h3, v₁, hcheck, v₂, hchange, hv, rfl⟩ := h
  exact ⟨not_not.1 h1, by simpa using h3, rfl, v₁, v₂, _, hcheck, hchange, hv.symm⟩

theorem recordWithdrawal_ok {a : Address} {sent : E64} {now : Nat}
    (h : recordWithdrawal fhe cfg a sent now v = .ok v') :
    ∃ v₁ v₂ gs, checkpointUser fhe cfg a (fhe.sub64 (v.principal a) sent) (uint64 now) v =
        .ok v₁ ∧
      changeEligible fhe cfg a (fhe.sub64 · sent) (uint64 now) { v₁ with
        principal := Function.update v₁.principal a (fhe.sub64 (v.principal a) sent)
        totalPrincipal := fhe.sub64 v₁.totalPrincipal sent
        liquidPrincipal := fhe.sub64 v₁.liquidPrincipal sent } = .ok v₂ ∧ v' = v₂.grant gs := by
  simp only [recordWithdrawal, seq_eq_ok, pure_eq_ok, ok_eq_ok] at h
  obtain ⟨v₁, hcheck, v₂, hchange, rfl⟩ := h
  exact ⟨v₁, v₂, _, hcheck, hchange, grant_grant v₂ _ _⟩

theorem requireSponsorRound_ok {r : Nat} {u : Unit} (h : v.requireSponsorRound r = .ok u) :
    r = v.activeRoundId ∨ r = v.activeRoundId + 1 := by
  by_cases hr : r = v.activeRoundId
  · exact .inl hr
  · rw [requireSponsorRound, if_pos hr] at h
    simp only [seq_eq_ok, checkedAdd_eq_ok, revertIf_eq_ok] at h
    obtain ⟨next, ⟨_, rfl⟩, hnext⟩ := h
    exact .inr (not_not.1 hnext)

/-- The round a close leaves behind. -/
def closedRound (fhe : Fhe E64 E128 EBool) (v : Vault E64 E128 EBool) : Round E64 E128 EBool :=
  { accrued fhe (v.rounds v.activeRoundId) (v.rounds v.activeRoundId).closesAt with
    aggregateTwab := accruedCumulative fhe (v.rounds v.activeRoundId)
      (v.rounds v.activeRoundId).closesAt
    publicPrize := v.publicSponsoredPrize v.activeRoundId + v.publicUncommittedYield
    reservedPrize := fhe.add64 (v.sponsoredPrize v.activeRoundId) v.uncommittedYield
    participantCountSnapshot := (v.roundParticipants v.activeRoundId).length
    state := .aggregatePending }

/-- The round a close opens. -/
def openedRound (fhe : Fhe E64 E128 EBool) (cfg : Config) (v : Vault E64 E128 EBool) :
    Round E64 E128 EBool :=
  { v.rounds (v.activeRoundId + 1) with
    opensAt := (v.rounds v.activeRoundId).closesAt
    closesAt := (v.rounds v.activeRoundId).closesAt + cfg.roundDuration
    state := .open
    eligibleBalance := fhe.asEuint64 0
    eligibleCumulative := fhe.asEuint128 0
    eligibleTimestamp := (v.rounds v.activeRoundId).closesAt }

theorem closeRound_ok {now : Nat} (h : closeRound fhe cfg now v = .ok v') :
    (v.rounds v.activeRoundId).state = .open ∧ (v.rounds v.activeRoundId).closesAt ≤ now ∧
    (v.rounds v.activeRoundId).eligibleTimestamp ≤ (v.rounds v.activeRoundId).closesAt ∧
    (v.rounds v.activeRoundId).closesAt + cfg.roundDuration < 2 ^ 64 ∧
    ∃ gs, v' = ((({ v with
        reservedPrize := fhe.add64 v.reservedPrize
          (fhe.add64 (v.sponsoredPrize v.activeRoundId) v.uncommittedYield)
        realizedSurplus := fhe.sub64 v.realizedSurplus v.uncommittedYield
        uncommittedYield := fhe.asEuint64 0
        publicUncommittedYield := 0
        activeRoundId := v.activeRoundId + 1 }).setRound v.activeRoundId
          (closedRound fhe v)).setRound (v.activeRoundId + 1) (openedRound fhe cfg v)).grant
        gs := by
  simp only [closeRound, seq_eq_ok, revertIf_eq_ok, checkedAdd_eq_ok] at h
  obtain ⟨_, h1, _, h2, v₁, hacc, _, ⟨h3, rfl⟩, next, ⟨h4, rfl⟩, hinit⟩ := h
  obtain ⟨hle, gs, rfl⟩ := accrueEligible_ok hacc
  obtain ⟨hdur, gs', rfl⟩ := initializeRound_ok hinit
  have hne : v.activeRoundId + 1 ≠ v.activeRoundId := by omega
  simp only [grant, setRound, Function.update_self, accrued] at hdur
  refine ⟨requireState_ok h1, by omega, hle, hdur, ?_⟩
  simp only [grant, setRound, Function.update_self, Function.update_idem, accrued,
    List.append_assoc, Function.update_of_ne hne, closedRound, openedRound]
  exact ⟨_, rfl⟩

theorem finalizeAggregate_ok {r : Nat} {c : Cleartexts} {proof : DecryptionProof}
    (h : finalizeAggregate fhe r c proof v = .ok v') :
    (v.rounds r).state = .aggregatePending ∧ ∃ n ≤ MAX_AGGREGATE_TWAB,
      fhe.checkSignatures128 (v.rounds r).aggregateTwab n proof = true ∧
      v' = v.setRound r { v.rounds r with
        publicAggregateTwab := n
        state := if n = 0 then .empty else .aggregateFinalized } := by
  simp only [finalizeAggregate, seq_eq_ok, revertIf_eq_ok, pure_eq_ok, ok_eq_ok] at h
  obtain ⟨_, h1, _, _, n, _, _, h2, _, h3, rfl⟩ := h
  exact ⟨requireState_ok h1, n, not_lt.1 h2, by simpa using h3, rfl⟩

/-- A generated candidate either becomes the ticket at once or waits for its validity. -/
theorem generateRandomCandidate_ok {r : Nat} {candidate : E128}
    (h : generateRandomCandidate fhe cfg r candidate v = .ok v') :
    ((v.rounds r).state = .aggregateFinalized ∨ (v.rounds r).state = .candidateRejected) ∧
    (v.rounds r).publicAggregateTwab ≠ 0 ∧
    (v.rounds r).publicAggregateTwab ≤ MAX_AGGREGATE_TWAB ∧
    ∃ round attempts gs, v' = (({ v with candidateAttempts := attempts }).setRound r round).grant
        gs ∧
      ((2 ^ 128 / (v.rounds r).publicAggregateTwab * (v.rounds r).publicAggregateTwab = 2 ^ 128 ∧
          round = { v.rounds r with
            candidate := candidate
            acceptedTicket := fhe.rem128 candidate
              (fhe.asEuint128 (v.rounds r).publicAggregateTwab)
            state := .ticketAccepted }) ∨
        (2 ^ 128 / (v.rounds r).publicAggregateTwab * (v.rounds r).publicAggregateTwab ≠
            2 ^ 128 ∧
          round = { v.rounds r with
            candidate := candidate
            candidateValid := fhe.lt128 candidate (fhe.asEuint128
              (2 ^ 128 / (v.rounds r).publicAggregateTwab *
                (v.rounds r).publicAggregateTwab))
            state := .candidateValidityPending })) := by
  simp only [generateRandomCandidate, seq_eq_ok, revertIf_eq_ok, checkedAdd_eq_ok] at h
  obtain ⟨_, h1, _, h2, attempt, ⟨_, rfl⟩, h⟩ := h
  rw [not_or] at h2
  refine ⟨by tauto, h2.1, not_lt.1 h2.2, ?_⟩
  split_ifs at h with hlimit
  · simp only [pure_eq_ok, ok_eq_ok] at h
    subst h
    exact ⟨_, _, _, grant_grant (setRound { v with candidateAttempts := _ } r _)
      [cfg.allowThis (.uint128 candidate)] _, .inl ⟨hlimit, rfl⟩⟩
  · simp only [pure_eq_ok, ok_eq_ok] at h
    subst h
    exact ⟨_, _, _, grant_grant (setRound { v with candidateAttempts := _ } r _)
      [cfg.allowThis (.uint128 candidate)] _, .inr ⟨hlimit, rfl⟩⟩

theorem checkBooleanProof_ok {handle : EBool} {c : Cleartexts} {proof : DecryptionProof}
    {b : Bool} (h : checkBooleanProof fhe handle c proof = .ok b) :
    fhe.checkSignaturesBool handle b proof = true := by
  simp only [checkBooleanProof, seq_eq_ok, revertIf_eq_ok, pure_eq_ok, ok_eq_ok] at h
  obtain ⟨_, _, _, h, rfl⟩ := h
  simpa using h

theorem finalizeCandidateValidity_ok {r : Nat} {c : Cleartexts} {proof : DecryptionProof}
    (h : finalizeCandidateValidity fhe cfg r c proof v = .ok v') :
    (v.rounds r).state = .candidateValidityPending ∧ ∃ valid gs,
      fhe.checkSignaturesBool (v.rounds r).candidateValid valid proof = true ∧
      v' = (v.setRound r (if valid then { v.rounds r with
          acceptedTicket := fhe.rem128 (v.rounds r).candidate
            (fhe.asEuint128 (v.rounds r).publicAggregateTwab)
          state := .ticketAccepted }
        else { v.rounds r with state := .candidateRejected })).grant gs := by
  simp only [finalizeCandidateValidity, seq_eq_ok, revertIf_eq_ok] at h
  obtain ⟨_, h1, _, _, valid, hproof, h⟩ := h
  refine ⟨not_not.1 h1, valid, ?_⟩
  cases valid with
  | false =>
    rw [if_pos rfl, pure_eq_ok, ok_eq_ok] at h
    exact ⟨[], checkBooleanProof_ok hproof, by rw [grant_nil, ← h]; rfl⟩
  | true =>
    rw [if_neg (by decide), pure_eq_ok, ok_eq_ok] at h
    exact ⟨_, checkBooleanProof_ok hproof, by rw [← h]; rfl⟩

/-- The round in which `processSelection` enters its loop. -/
theorem startSelection_ok {r : Nat} (h : startSelection fhe cfg r v = .ok v') :
    ((v.rounds r).state = .ticketAccepted ∧ ∃ gs, v' = (v.setRound r { v.rounds r with
        state := .winnerProcessing
        selectionCumulative := fhe.asEuint128 0
        encryptedWinnerCount := fhe.asEuint64 0 }).grant gs) ∨
      ((v.rounds r).state = .winnerProcessing ∧ v' = v) := by
  unfold startSelection at h
  by_cases hs : (v.rounds r).state = .ticketAccepted
  · rw [if_pos hs, ok_eq_ok] at h
    exact .inl ⟨hs, _, h.symm⟩
  · rw [if_neg hs] at h
    simp only [seq_eq_ok, revertIf_eq_ok, pure_eq_ok, ok_eq_ok] at h
    obtain ⟨_, h1, rfl⟩ := h
    exact .inr ⟨not_not.1 h1, rfl⟩

theorem selectParticipant_ok {r : Nat} {a : Address}
    (h : selectParticipant fhe cfg r a v = .ok v') :
    ∃ weight gs, roundWeight fhe r a v = .ok weight ∧
      v' = (({ v with
          winnerPredicate := Function.update v.winnerPredicate r
            (Function.update (v.winnerPredicate r) a
              (fhe.and (fhe.and
                (fhe.ge128 (v.rounds r).acceptedTicket (v.rounds r).selectionCumulative)
                (fhe.lt128 (v.rounds r).acceptedTicket
                  (fhe.add128 (v.rounds r).selectionCumulative weight)))
                (fhe.gt128 weight (fhe.asEuint128 0)))) }).setRound r { v.rounds r with
          selectionCumulative := fhe.add128 (v.rounds r).selectionCumulative weight
          encryptedWinnerCount := fhe.add64 (v.rounds r).encryptedWinnerCount
            (fhe.ofEbool (fhe.and (fhe.and
                (fhe.ge128 (v.rounds r).acceptedTicket (v.rounds r).selectionCumulative)
                (fhe.lt128 (v.rounds r).acceptedTicket
                  (fhe.add128 (v.rounds r).selectionCumulative weight)))
                (fhe.gt128 weight (fhe.asEuint128 0)))) }).grant gs := by
  simp only [selectParticipant, seq_eq_ok, pure_eq_ok, ok_eq_ok] at h
  obtain ⟨weight, hw, rfl⟩ := h
  exact ⟨weight, _, hw, rfl⟩

variable (fhe cfg) in
theorem requestReconciliation_eq (r : Nat) (v : Vault E64 E128 EBool) :
    (((v.rounds r).selectionCursor = (v.rounds r).participantCountSnapshot ∧
      ∃ gs, v.requestReconciliation fhe cfg r = (v.setRound r { v.rounds r with
        reconciliationValid := fhe.and
          (fhe.eq128 (v.rounds r).selectionCumulative
            (fhe.asEuint128 (v.rounds r).publicAggregateTwab))
          (fhe.eq64 (v.rounds r).encryptedWinnerCount (fhe.asEuint64 1))
        state := .reconciliationPending }).grant gs)) ∨
    ((v.rounds r).selectionCursor ≠ (v.rounds r).participantCountSnapshot ∧
      v.requestReconciliation fhe cfg r = v) := by
  unfold requestReconciliation
  by_cases hs : (v.rounds r).selectionCursor = (v.rounds r).participantCountSnapshot
  · exact .inl ⟨hs, _, if_pos hs⟩
  · exact .inr ⟨hs, if_neg hs⟩

theorem finalizeSelectionReconciliation_ok {r : Nat} {c : Cleartexts} {proof : DecryptionProof}
    (h : finalizeSelectionReconciliation fhe r c proof v = .ok v') :
    (v.rounds r).state = .reconciliationPending ∧ ∃ valid,
      fhe.checkSignaturesBool (v.rounds r).reconciliationValid valid proof = true ∧
      v' = v.setRound r { v.rounds r with
        state := if valid then .readyToAllocate else .reconciliationFailed } := by
  simp only [finalizeSelectionReconciliation, seq_eq_ok, revertIf_eq_ok] at h
  obtain ⟨_, h1, _, _, valid, hproof, h⟩ := h
  refine ⟨not_not.1 h1, valid, checkBooleanProof_ok hproof, ?_⟩
  cases valid with
  | false =>
    rw [if_pos rfl, pure_eq_ok, ok_eq_ok] at h
    exact h.symm
  | true =>
    rw [if_neg (by decide), pure_eq_ok, ok_eq_ok] at h
    exact h.symm

theorem startAllocation_ok {r : Nat} (h : startAllocation r v = .ok v') :
    ((v.rounds r).state = .readyToAllocate ∨ (v.rounds r).state = .allocationProcessing) ∧
      v' = v.setRound r { v.rounds r with state := .allocationProcessing } := by
  unfold startAllocation at h
  by_cases hs : (v.rounds r).state = .readyToAllocate
  · rw [if_pos hs, ok_eq_ok] at h
    exact ⟨.inl hs, h.symm⟩
  · rw [if_neg hs] at h
    simp only [seq_eq_ok, revertIf_eq_ok, pure_eq_ok, ok_eq_ok] at h
    obtain ⟨_, h1, rfl⟩ := h
    have hs' := not_not.1 h1
    refine ⟨.inr hs', ?_⟩
    conv_lhs => rw [← setRound_self v r]
    rw [← hs']

theorem finishAllocation_eq (r : Nat) (v : Vault E64 E128 EBool) :
    v.finishAllocation r = v.setRound r { v.rounds r with
      state := if (v.rounds r).allocationCursor = (v.rounds r).participantCountSnapshot
        then .winningsAllocated else (v.rounds r).state } := by
  by_cases hc : (v.rounds r).allocationCursor = (v.rounds r).participantCountSnapshot
  · rw [if_pos hc]
    exact if_pos hc
  · rw [if_neg hc]
    exact (if_neg hc).trans (setRound_self v r).symm

/-- The vault after `_allocateParticipant` of a closed round books `prize`, of which `autoSaved`
becomes principal, for `a`. -/
def allocated (fhe : Fhe E64 E128 EBool) (r : Nat) (a : Address) (prize autoSaved : E64)
    (obs : List (Observation E64 E128)) (v : Vault E64 E128 EBool) : Vault E64 E128 EBool :=
  (({ v with
    observations := Function.update v.observations a obs
    principal := Function.update v.principal a (fhe.add64 (v.principal a) autoSaved)
    winnings := Function.update v.winnings a
      (fhe.add64 (v.winnings a) (fhe.sub64 prize autoSaved))
    totalPrincipal := fhe.add64 v.totalPrincipal autoSaved
    liquidPrincipal := fhe.add64 v.liquidPrincipal autoSaved
    winningsLiability := fhe.add64 v.winningsLiability (fhe.sub64 prize autoSaved)
    liquidPrizeAssets := fhe.sub64 v.liquidPrizeAssets autoSaved
    reservedPrize := fhe.sub64 v.reservedPrize prize }).setRound v.activeRoundId
      { v.rounds v.activeRoundId with
        eligibleBalance :=
          if v.eligibilityStart v.activeRoundId a ≠ 0 then
            fhe.add64 (v.rounds v.activeRoundId).eligibleBalance autoSaved
          else (v.rounds v.activeRoundId).eligibleBalance }).setRound r
    { v.rounds r with reservedPrize := fhe.sub64 (v.rounds r).reservedPrize prize }

variable (fhe cfg) in
theorem bookAllocation_eq {r : Nat} {a : Address} {prize autoSaved : E64}
    (obs : List (Observation E64 E128)) (gs : List (Grant E64 E128 EBool))
    (hr : r ≠ v.activeRoundId) : ∃ gs', bookAllocation fhe cfg r a prize autoSaved
      (grant { v with observations := Function.update v.observations a obs } gs) =
        (allocated fhe r a prize autoSaved obs v).grant gs' := by
  by_cases hs : v.eligibilityStart v.activeRoundId a ≠ 0
  · simp only [bookAllocation, grant, setRound, if_pos hs, Function.update_of_ne hr, allocated,
      List.append_assoc]
    exact ⟨_, rfl⟩
  · simp only [bookAllocation, grant, setRound, if_neg hs, Function.update_eq_self, allocated,
      List.append_assoc]
    exact ⟨_, rfl⟩

theorem bookAllocation_participants {r : Nat} {a : Address} {prize autoSaved : E64}
    (v : Vault E64 E128 EBool) :
    (v.bookAllocation fhe cfg r a prize autoSaved).roundParticipants = v.roundParticipants := by
  simp only [bookAllocation, grant, setRound]
  by_cases hs : v.eligibilityStart v.activeRoundId a ≠ 0
  · rw [if_pos hs]
  · rw [if_neg hs]

theorem allocateParticipant_ok {r now : Nat} {a : Address} (hr : r ≠ v.activeRoundId)
    (h : allocateParticipant fhe cfg r now a v = .ok v') :
    ∃ preference prize autoSaved obs cum gs,
      v.preferenceAt a (v.rounds r).closesAt = .ok preference ∧
      prize = fhe.select64 (v.winnerPredicate r a) (v.rounds r).reservedPrize
        (fhe.asEuint64 0) ∧
      autoSaved = fhe.select64 (fhe.and
          (fhe.and (v.winnerPredicate r a) (fhe.asEbool (preference == .autoSave)))
          (fhe.le64 prize (fhe.sub64 (fhe.asEuint64 MAX_POOL_BASE_UNITS) v.totalPrincipal)))
        (v.rounds r).reservedPrize (fhe.asEuint64 0) ∧
      record fhe (fhe.add64 (v.principal a) autoSaved) (uint64 now) (v.observations a) =
        .ok (obs, cum) ∧
      v' = (allocated fhe r a prize autoSaved obs v).grant gs := by
  simp only [allocateParticipant, seq_eq_ok, pure_eq_ok, ok_eq_ok] at h
  obtain ⟨preference, hpreference, v₁, hcheck, rfl⟩ := h
  obtain ⟨obs, cum, gs, hrec, rfl⟩ := checkpointUser_ok hcheck
  obtain ⟨gs', heq⟩ := bookAllocation_eq fhe cfg obs gs hr
  exact ⟨preference, _, _, obs, cum, gs', hpreference, rfl, rfl, hrec, heq⟩

theorem materializeMyRoundWeight_ok {sender : Address} {r : Nat} {weight : E128}
    (h : materializeMyRoundWeight fhe cfg sender r v = .ok (v', weight)) :
    ∃ gs, v' = v.grant gs := by
  simp only [materializeMyRoundWeight, seq_eq_ok, pure_eq_ok, ok_eq_ok, Prod.mk.injEq] at h
  obtain ⟨_, _, _, _, _, _, _, _, rfl, _⟩ := h
  exact ⟨_, rfl⟩

end Vault

end Leopold
