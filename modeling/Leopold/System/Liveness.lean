import Leopold.System.Progress

/-!
# The calls a vault needs

The calls that settle a round change that round alone, and each is one of the calls the round
needs.  `World.remaining` counts the calls a vault needs, due closures included.
-/

namespace Leopold

open Lib

/-! ## What they change -/

/-- The call draws a candidate that will be rejected. -/
def Call.rejected (v : PlainVault) : Call Nat Nat Bool → Bool
  | .generateRandomCandidate r candidate =>
    decide (2 ^ 128 / (v.rounds r).publicAggregateTwab * (v.rounds r).publicAggregateTwab ≤
      candidate)
  | _ => false

namespace Vault

variable {cfg : Config} {v v' u u' : PlainVault} {r s n : Nat}

/-- Of the rounds only `r` and the active one change, nobody joins, and at most one attempt is
counted. -/
structure OnlyRound (r : Nat) (v v' : PlainVault) : Prop where
  activeRoundId : v'.activeRoundId = v.activeRoundId
  roundParticipants : v'.roundParticipants = v.roundParticipants
  rounds : ∀ s, s ≠ r → s ≠ v.activeRoundId → v'.rounds s = v.rounds s
  attempts : ∀ s, v'.candidateAttempts s ≤ v.candidateAttempts s + 1

theorem OnlyRound.refl (r : Nat) (v : PlainVault) : v.OnlyRound r v :=
  ⟨rfl, rfl, fun _ _ _ => rfl, fun _ => Nat.le_succ _⟩

/-- A write that counts no attempt. -/
theorem OnlyRound.write (h : v.OnlyRound r u) (hactive : u'.activeRoundId = u.activeRoundId)
    (hparts : u'.roundParticipants = u.roundParticipants)
    (hrounds : ∀ s, s ≠ r → s ≠ u.activeRoundId → u'.rounds s = u.rounds s)
    (hattempts : u'.candidateAttempts = u.candidateAttempts) : v.OnlyRound r u' :=
  ⟨hactive.trans h.activeRoundId, hparts.trans h.roundParticipants,
    fun s hs hsa => (hrounds s hs (h.activeRoundId.symm ▸ hsa)).trans (h.rounds s hs hsa),
    fun s => hattempts ▸ h.attempts s⟩

theorem OnlyRound.setRound (h : v.OnlyRound r u) (round : PlainRound) :
    v.OnlyRound r (u.setRound r round) :=
  h.write rfl rfl (fun _ hs _ => setRound_rounds_of_ne hs _) rfl

theorem OnlyRound.grant (h : v.OnlyRound r u) (gs : List (Grant Nat Nat Bool)) :
    v.OnlyRound r (u.grant gs) :=
  ⟨h.activeRoundId, h.roundParticipants, h.rounds, h.attempts⟩

theorem generateRandomCandidate_only {candidate : Nat}
    (h : generateRandomCandidate Fhe.plain cfg r candidate v = .ok v') : v.OnlyRound r v' := by
  simp only [generateRandomCandidate, seq_eq_ok, checkedAdd_eq_ok] at h
  obtain ⟨_, _, _, _, attempt, ⟨_, rfl⟩, h⟩ := h
  have hcounted : ∀ s, Function.update v.candidateAttempts r (v.candidateAttempts r + 1) s ≤
      v.candidateAttempts s + 1 := by
    intro s
    by_cases hs : s = r
    · rw [hs, Function.update_self]
    · rw [Function.update_of_ne hs]
      exact Nat.le_succ _
  split_ifs at h <;> rw [pure_eq_ok, ok_eq_ok] at h <;> subst h <;>
    exact ⟨rfl, rfl, fun s hs _ => setRound_rounds_of_ne hs _, hcounted⟩

theorem startSelection_only (h : startSelection Fhe.plain cfg r v = .ok v') :
    v.OnlyRound r v' := by
  rcases startSelection_ok h with ⟨_, gs, rfl⟩ | ⟨_, rfl⟩
  · exact ((OnlyRound.refl r v).setRound _).grant gs
  · exact .refl r _

theorem OnlyRound.select {a : Address} (h : v.OnlyRound r u)
    (hstep : selectParticipant Fhe.plain cfg r a u = .ok u') : v.OnlyRound r u' := by
  obtain ⟨_, gs, _, rfl⟩ := selectParticipant_ok hstep
  exact h.write rfl rfl (fun _ hs _ => setRound_rounds_of_ne hs _) rfl

theorem OnlyRound.requestReconciliation (h : v.OnlyRound r u) :
    v.OnlyRound r (u.requestReconciliation Fhe.plain cfg r) := by
  rcases requestReconciliation_eq Fhe.plain cfg r u with ⟨_, gs, heq⟩ | ⟨_, heq⟩
  · rw [heq]
    exact (h.setRound _).grant gs
  · rw [heq]
    exact h

theorem OnlyRound.allocate {a : Address} {now : Nat} (h : v.OnlyRound r u)
    (hr : r ≠ v.activeRoundId) (hstep : allocateParticipant Fhe.plain cfg r now a u = .ok u') :
    v.OnlyRound r u' := by
  have hu : r ≠ u.activeRoundId := h.activeRoundId.symm ▸ hr
  obtain ⟨_, _, _, _, _, gs, _, _, _, _, rfl⟩ := allocateParticipant_ok hu hstep
  exact h.write rfl rfl (fun _ hs hsa => (setRound_rounds_of_ne hs _).trans
    (setRound_rounds_of_ne hsa _)) rfl

theorem rollPrizeForward_only (h : rollPrizeForward Fhe.plain cfg r v = .ok v') :
    v.OnlyRound r v' := by
  obtain ⟨_, gs, rfl⟩ := rollPrizeForward_ok h
  exact (OnlyRound.refl r v).write rfl rfl (fun _ hs _ => setRound_rounds_of_ne hs _) rfl

end Vault

namespace World

variable {X : Type} {E : Externals Nat Bool X} {O : Observables X} {cfg : Config}
  {w w' : PlainWorld X} {sender : Address} {r n : Nat} {c : Call Nat Nat Bool}

theorem settle_only {v : PlainVault} {passes : Nat} (h : v.OnlyRound r w.vault)
    (hsettle : settle cfg r passes w = .ok w') : v.OnlyRound r w'.vault := by
  obtain ⟨e, _, rfl⟩ := settle_ok hsettle
  exact h.write rfl rfl (fun _ hs _ => Vault.setRound_rounds_of_ne hs _) rfl

/-- **Frame.**  A call that settles a round leaves the other closed rounds as they are. -/
theorem exec_only (hshape : w.vault.Shape Fhe.plain) (hc : c.settles = some r)
    (h : exec Fhe.plain E cfg sender w c = .ok w') : w.vault.OnlyRound r w'.vault := by
  cases c with
  | finalizeAggregate =>
    cases hc
    obtain ⟨v, hv, rfl⟩ := onVault_eq_ok.1 h
    obtain ⟨_, _, _, _, rfl⟩ := Vault.finalizeAggregate_ok hv
    exact (Vault.OnlyRound.refl r _).setRound _
  | generateRandomCandidate =>
    cases hc
    obtain ⟨v, hv, rfl⟩ := onVault_eq_ok.1 h
    exact Vault.generateRandomCandidate_only hv
  | finalizeCandidateValidity =>
    cases hc
    obtain ⟨v, hv, rfl⟩ := onVault_eq_ok.1 h
    obtain ⟨_, _, gs, _, rfl⟩ := Vault.finalizeCandidateValidity_ok hv
    exact ((Vault.OnlyRound.refl r _).setRound _).grant gs
  | processSelection =>
    cases hc
    obtain ⟨_, v₁, _, v₂, _, hstart, _, hloop, _, rfl⟩ := processSelection_ok h
    have hrun := (Vault.forParticipants_ok
      (fun _ _ _ hu => congrFun (Vault.selectParticipant_participants hu) r) hloop).2
    have hselected : w.vault.OnlyRound r v₂ :=
      Vault.forList_invariant (I := fun _ u => w.vault.OnlyRound r u)
        (fun _ _ _ _ hu hstep => hu.select hstep) hrun (Vault.startSelection_only hstart)
    exact (hselected.setRound _).requestReconciliation
  | finalizeSelectionReconciliation =>
    cases hc
    obtain ⟨v, hv, rfl⟩ := onVault_eq_ok.1 h
    obtain ⟨_, _, _, rfl⟩ := Vault.finalizeSelectionReconciliation_ok hv
    exact (Vault.OnlyRound.refl r _).setRound _
  | processAllocation =>
    cases hc
    have hr : r ≠ w.vault.activeRoundId := (processAllocation_closed hshape h).2.ne
    obtain ⟨_, _, v₁, v₂, _, v₃, _, hstart, hacc, _, hloop, _, rfl⟩ := processAllocation_ok h
    obtain ⟨_, rfl⟩ := Vault.startAllocation_ok hstart
    obtain ⟨_, gs, rfl⟩ := Vault.accrueEligible_ok hacc
    have hrun := (Vault.forParticipants_ok
      (fun _ _ _ hu => congrFun (Vault.allocateParticipant_participants hu) r) hloop).2
    have hstarted : w.vault.OnlyRound r (w.vault.setRound r
        { w.vault.rounds r with state := .allocationProcessing }) :=
      (Vault.OnlyRound.refl r _).setRound _
    have hallocated : w.vault.OnlyRound r v₃ :=
      Vault.forList_invariant (I := fun _ u => w.vault.OnlyRound r u)
        (fun _ _ _ _ hu hstep => hu.allocate hr hstep) hrun
        (hstarted.write rfl rfl (fun _ _ hsa => Vault.setRound_rounds_of_ne hsa _) rfl)
    rw [Vault.finishAllocation_eq]
    exact (hallocated.setRound _).setRound _
  | finalizeSettlement =>
    cases hc
    exact settle_only (.refl r _) (finalizeSettlement_ok h).2
  | recoverFailedReconciliation =>
    cases hc
    obtain ⟨_, v, hroll, hsettle⟩ := recoverFailedReconciliation_ok h
    exact settle_only (Vault.rollPrizeForward_only hroll) hsettle
  | settleEmptyRound =>
    cases hc
    obtain ⟨_, v, hroll, hsettle⟩ := settleEmptyRound_ok h
    exact settle_only (Vault.rollPrizeForward_only hroll) hsettle
  | _ => cases hc

/-- The passes credit what they process, so their cursors move on. -/
theorem credit_moves {pass processed : Nat} {e : Escrow} (hB : w.Bonded Fhe.plain cfg)
    (hB' : w'.Bonded Fhe.plain cfg)
    (hcredit : w.escrow.creditProgress cfg cfg.vault r pass processed sender = .ok e)
    (hescrow : w'.escrow = e) : w'.vault.rounds r ≠ w.vault.rounds r := by
  intro hsame
  have hselection : (w.escrow.rounds r).selectionProcessed =
    (w.vault.rounds r).selectionCursor := (hB.settling r).selection
  have hallocation : (w.escrow.rounds r).allocationProcessed =
    (w.vault.rounds r).allocationCursor := (hB.settling r).allocation
  have hselection' : (w'.escrow.rounds r).selectionProcessed =
    (w'.vault.rounds r).selectionCursor := (hB'.settling r).selection
  have hallocation' : (w'.escrow.rounds r).allocationProcessed =
    (w'.vault.rounds r).allocationCursor := (hB'.settling r).allocation
  obtain ⟨_, hpos, _, hpass, _, _, rfl⟩ := Escrow.creditProgress_ok hcredit
  rw [hsame, hescrow] at hselection' hallocation'
  simp only [Function.update_self, Escrow.advanced] at hselection' hallocation'
  rcases hpass with rfl | rfl
  · rw [if_pos rfl] at hselection'
    simp only at hselection'
    omega
  · rw [if_neg (by decide)] at hallocation'
    simp only at hallocation'
    omega

/-- A call that settles a round changes it. -/
theorem exec_changes (hw : (system Fhe.plain E cfg).Reachable w) (hsender : cfg.External sender)
    (hc : c.settles = some r) (h : exec Fhe.plain E cfg sender w c = .ok w') :
    w'.vault.rounds r ≠ w.vault.rounds r := by
  have hw' : (system Fhe.plain E cfg).Reachable w' := hw.tail (l := .call sender c) ⟨hsender, h⟩
  have hne {s s' : RoundState} (hs : (w.vault.rounds r).state = s)
      (hs' : (w'.vault.rounds r).state = s') (hdiffer : s' ≠ s) :
      w'.vault.rounds r ≠ w.vault.rounds r := by
    intro hsame
    rw [← hs', ← hs, hsame] at hdiffer
    exact hdiffer rfl
  have hsettle {u : PlainWorld X} {passes : Nat} (hsettle : settle cfg r passes u = .ok w') :
      (w'.vault.rounds r).state = .settled := by
    obtain ⟨e, _, rfl⟩ := settle_ok hsettle
    exact congrArg Round.state (Vault.setRound_rounds_self r _)
  cases c with
  | finalizeAggregate =>
    cases hc
    obtain ⟨v, hv, rfl⟩ := onVault_eq_ok.1 h
    obtain ⟨hs, n, _, _, rfl⟩ := Vault.finalizeAggregate_ok hv
    refine hne hs (congrArg Round.state (Vault.setRound_rounds_self r _)) ?_
    simp only
    split_ifs <;> rintro ⟨⟩
  | generateRandomCandidate =>
    cases hc
    obtain ⟨v, hv, rfl⟩ := onVault_eq_ok.1 h
    obtain ⟨hs, _, _, round, attempts, gs, rfl, hround⟩ := Vault.generateRandomCandidate_ok hv
    have hstate : round.state = .ticketAccepted ∨ round.state = .candidateValidityPending := by
      rcases hround with ⟨_, rfl⟩ | ⟨_, rfl⟩
      · exact .inl rfl
      · exact .inr rfl
    refine hne rfl (congrArg Round.state (Vault.setRound_rounds_self r _)) ?_
    rcases hs with hs | hs <;> rcases hstate with hs' | hs' <;> rw [hs, hs'] <;> rintro ⟨⟩
  | finalizeCandidateValidity =>
    cases hc
    obtain ⟨v, hv, rfl⟩ := onVault_eq_ok.1 h
    obtain ⟨hs, valid, gs, _, rfl⟩ := Vault.finalizeCandidateValidity_ok hv
    refine hne hs (congrArg Round.state (Vault.setRound_rounds_self r _)) ?_
    cases valid <;> rintro ⟨⟩
  | processSelection =>
    cases hc
    obtain ⟨_, _, _, _, e, _, _, _, hcredit, heq⟩ := processSelection_ok h
    exact credit_moves (reachable_bonded hw) (reachable_bonded hw') hcredit (by rw [heq])
  | finalizeSelectionReconciliation =>
    cases hc
    obtain ⟨v, hv, rfl⟩ := onVault_eq_ok.1 h
    obtain ⟨hs, valid, _, rfl⟩ := Vault.finalizeSelectionReconciliation_ok hv
    refine hne hs (congrArg Round.state (Vault.setRound_rounds_self r _)) ?_
    cases valid <;> rintro ⟨⟩
  | processAllocation =>
    cases hc
    obtain ⟨_, _, _, _, _, _, e, _, _, _, _, hcredit, heq⟩ := processAllocation_ok h
    exact credit_moves (reachable_bonded hw) (reachable_bonded hw') hcredit (by rw [heq])
  | finalizeSettlement =>
    cases hc
    obtain ⟨hs, hsettled⟩ := finalizeSettlement_ok h
    exact hne hs (hsettle hsettled) (by rintro ⟨⟩)
  | recoverFailedReconciliation =>
    cases hc
    obtain ⟨hs, v, _, hsettled⟩ := recoverFailedReconciliation_ok h
    exact hne hs (hsettle hsettled) (by rintro ⟨⟩)
  | settleEmptyRound =>
    cases hc
    obtain ⟨hs, v, _, hsettled⟩ := settleEmptyRound_ok h
    exact hne hs (hsettle hsettled) (by rintro ⟨⟩)
  | _ => cases hc

/-- Only a draw makes a round that awaits a candidate wait for the validity of one. -/
theorem exec_rejecting (hc : c.settles = some r) (h : exec Fhe.plain E cfg sender w c = .ok w')
    (hs : (w.vault.rounds r).state.awaitsCandidate) (hrejecting : (w'.vault.rounds r).Rejecting) :
    c.rejected w.vault = true := by
  have hno {s : RoundState} (hs' : (w.vault.rounds r).state = s)
      (hne : s ≠ .aggregateFinalized ∧ s ≠ .candidateRejected) : c.rejected w.vault = true := by
    rw [RoundState.awaitsCandidate, hs'] at hs
    exact absurd hs (not_or.2 hne)
  cases c with
  | generateRandomCandidate _ candidate =>
    cases hc
    obtain ⟨v, hv, rfl⟩ := onVault_eq_ok.1 h
    obtain ⟨_, hpos, _, round, attempts, gs, rfl, hround⟩ := Vault.generateRandomCandidate_ok hv
    obtain ⟨hpending, hvalid⟩ : round.Rejecting := by
      have hself : (((({ w.vault with candidateAttempts := attempts }).setRound r round).grant
        gs).rounds r) = round := Vault.setRound_rounds_self r _
      rwa [hself] at hrejecting
    rcases hround with ⟨_, rfl⟩ | ⟨hinexact, rfl⟩
    · cases hpending
    · have hlimit := Nat.div_mul_le_self (2 ^ 128) (w.vault.rounds r).publicAggregateTwab
      simp only at hvalid
      rw [Fhe.plain_asEuint128 (Nat.lt_of_le_of_ne hlimit hinexact), Fhe.plain_lt128] at hvalid
      exact decide_eq_true (Nat.not_lt.1 (of_decide_eq_false hvalid))
  | finalizeAggregate =>
    cases hc
    obtain ⟨v, hv, _⟩ := onVault_eq_ok.1 h
    exact hno (Vault.finalizeAggregate_ok hv).1 ⟨by rintro ⟨⟩, by rintro ⟨⟩⟩
  | finalizeCandidateValidity =>
    cases hc
    obtain ⟨v, hv, _⟩ := onVault_eq_ok.1 h
    exact hno (Vault.finalizeCandidateValidity_ok hv).1 ⟨by rintro ⟨⟩, by rintro ⟨⟩⟩
  | processSelection =>
    cases hc
    obtain ⟨_, _, _, _, _, hstart, _⟩ := processSelection_ok h
    rcases (startSelection_progress hstart).1 with hs' | hs' <;>
      exact hno hs' ⟨by rintro ⟨⟩, by rintro ⟨⟩⟩
  | finalizeSelectionReconciliation =>
    cases hc
    obtain ⟨v, hv, _⟩ := onVault_eq_ok.1 h
    exact hno (Vault.finalizeSelectionReconciliation_ok hv).1 ⟨by rintro ⟨⟩, by rintro ⟨⟩⟩
  | processAllocation =>
    cases hc
    obtain ⟨_, _, _, _, _, _, _, hstart, _⟩ := processAllocation_ok h
    rcases (Vault.startAllocation_ok hstart).1 with hs' | hs' <;>
      exact hno hs' ⟨by rintro ⟨⟩, by rintro ⟨⟩⟩
  | finalizeSettlement =>
    cases hc
    exact hno (finalizeSettlement_ok h).1 ⟨by rintro ⟨⟩, by rintro ⟨⟩⟩
  | recoverFailedReconciliation =>
    cases hc
    exact hno (recoverFailedReconciliation_ok h).1 ⟨by rintro ⟨⟩, by rintro ⟨⟩⟩
  | settleEmptyRound =>
    cases hc
    exact hno (settleEmptyRound_ok h).1 ⟨by rintro ⟨⟩, by rintro ⟨⟩⟩
  | _ => cases hc

/-- **Step lemma.**  A call that settles a round is one of the calls the round needs, unless it
draws a candidate that will be rejected. -/
theorem exec_remaining (hE : E.Lawful O cfg.vault cfg.asset)
    (hw : (system Fhe.plain E cfg).Reachable w) (hsender : cfg.External sender)
    (hclosed : r < w.vault.activeRoundId) (hc : c.settles = some r)
    (h : exec Fhe.plain E cfg sender w c = .ok w') :
    (w'.vault.rounds r).remaining < (w.vault.rounds r).remaining ∨ c.rejected w.vault = true := by
  have hB := reachable_bonded hw
  rcases (exec_roundStep hsender hB.shape h r).remaining (hB.settling r) hclosed
    (participants_of_ticket hE hw) with hsame | hless | ⟨hs, hrejecting, _⟩
  · exact absurd hsame (exec_changes hw hsender hc h)
  · exact .inl hless
  · exact .inr (exec_rejecting hc h hs hrejecting)

end World

/-! ## The calls a vault needs -/

/-- How often the active round has to be closed until the next one closes after `now`. -/
def Vault.dueClosures (cfg : Config) (now : Nat) (v : PlainVault) : Nat :=
  let closesAt := (v.rounds v.activeRoundId).closesAt
  if closesAt ≤ now then (now - closesAt) / cfg.roundDuration + 1 else 0

/-- How many calls settle every round up to the present, at most.  A round that is closed needs
five more calls, and two for each of its participants. -/
def World.remaining {X : Type} (cfg : Config) (w : PlainWorld X) : Nat :=
  ∑ r ∈ Finset.Ico 1 w.vault.activeRoundId, (w.vault.rounds r).remaining +
    if w.vault.dueClosures cfg w.now = 0 then 0
    else 6 * w.vault.dueClosures cfg w.now +
      2 * (w.vault.roundParticipants w.vault.activeRoundId).length

namespace World

variable {X : Type} {E : Externals Nat Bool X} {O : Observables X} {cfg : Config}
  {w w' : PlainWorld X} {sender : Address} {r : Nat} {c : Call Nat Nat Bool}

variable (cfg) in
theorem dueClosures_eq_zero :
    w.vault.dueClosures cfg w.now = 0 ↔
      w.now < (w.vault.rounds w.vault.activeRoundId).closesAt := by
  simp only [Vault.dueClosures]
  split_ifs with hdue
  · exact iff_of_false id (Nat.not_lt.2 hdue)
  · exact iff_of_true rfl (Nat.not_le.1 hdue)

/-- **Step lemma.**  While no closure is due, a call that settles a round is one of those its vault
needs. -/
theorem exec_remaining_lt (hE : E.Lawful O cfg.vault cfg.asset)
    (hw : (system Fhe.plain E cfg).Reachable w) (hsender : cfg.External sender)
    (hdue : w.now < (w.vault.rounds w.vault.activeRoundId).closesAt) (hpos : 0 < r)
    (hclosed : r < w.vault.activeRoundId) (hc : c.settles = some r)
    (h : exec Fhe.plain E cfg sender w c = .ok w') :
    w'.remaining cfg < w.remaining cfg ∨ c.rejected w.vault = true := by
  have hshape := (reachable_bonded hw).shape
  have honly := exec_only hshape hc h
  have hcloses : (w'.vault.rounds w'.vault.activeRoundId).closesAt =
      (w.vault.rounds w.vault.activeRoundId).closesAt := by
    rw [honly.activeRoundId]
    exact ((exec_roundStep hsender hshape h w.vault.activeRoundId).times (by omega)).2
  have hdue' : w'.now < (w'.vault.rounds w'.vault.activeRoundId).closesAt := by
    rw [exec_now hsender h, hcloses]
    exact hdue
  refine (exec_remaining hE hw hsender hclosed hc h).imp_left fun hless => ?_
  rw [remaining, remaining, if_pos ((dueClosures_eq_zero cfg).2 hdue),
    if_pos ((dueClosures_eq_zero cfg).2 hdue'), honly.activeRoundId, Nat.add_zero, Nat.add_zero]
  refine Finset.sum_lt_sum (fun s hs => ?_) ⟨r, Finset.mem_Ico.2 ⟨hpos, hclosed⟩, hless⟩
  by_cases hsr : s = r
  · rw [hsr]
    exact Nat.le_of_lt hless
  · rw [honly.rounds s hsr (Finset.mem_Ico.1 hs).2.ne]

/-- A closure opens the next round, and one closure less is due. -/
theorem closeRound_dueClosures {v v' : PlainVault} {now : Nat} (hduration : 0 < cfg.roundDuration)
    (h : v.closeRound Fhe.plain cfg now = .ok v') :
    v'.activeRoundId = v.activeRoundId + 1 ∧
      v.dueClosures cfg now = v'.dueClosures cfg now + 1 := by
  obtain ⟨_, hdue, _, _, gs, rfl⟩ := Vault.closeRound_ok h
  generalize hv' : Vault.grant _ gs = v'
  have hid : v'.activeRoundId = v.activeRoundId + 1 := hv' ▸ rfl
  have hopened : (v'.rounds v'.activeRoundId).closesAt =
      (v.rounds v.activeRoundId).closesAt + cfg.roundDuration := by
    rw [hid, ← hv', Vault.grant_rounds, Vault.setRound_rounds_self]
    rfl
  refine ⟨hid, ?_⟩
  simp only [Vault.dueClosures, hopened, if_pos hdue]
  split_ifs with hnext
  · have hsub : now - ((v.rounds v.activeRoundId).closesAt + cfg.roundDuration) =
        now - (v.rounds v.activeRoundId).closesAt - cfg.roundDuration := by omega
    rw [hsub, Nat.div_eq_sub_div hduration
      (show cfg.roundDuration ≤ now - (v.rounds v.activeRoundId).closesAt by omega)]
  · rw [Nat.div_eq_of_lt (by omega)]

/-- **Step lemma.**  A closure that is due is one of the calls a vault needs. -/
theorem closeRound_remaining_lt (hw : (system Fhe.plain E cfg).Reachable w)
    (hduration : 0 < cfg.roundDuration)
    (h : exec Fhe.plain E cfg sender w .closeRound = .ok w') :
    w'.remaining cfg < w.remaining cfg := by
  have hshape := (reachable_bonded hw).shape
  obtain ⟨v, hv, rfl⟩ := onVault_eq_ok.1 h
  obtain ⟨hid, hcount⟩ := closeRound_dueClosures hduration hv
  obtain ⟨_, hdue, _, _, gs, rfl⟩ := Vault.closeRound_ok hv
  have hactive := hshape.active_pos
  have hparts := hshape.later_participants (w.vault.activeRoundId + 1) (Nat.lt_succ_self _)
  generalize hv' : Vault.grant _ gs = v' at hid hcount
  have hparts' : v'.roundParticipants v'.activeRoundId = [] := by
    rw [hid, ← hv']
    exact hparts
  have hclosed : (v'.rounds w.vault.activeRoundId).remaining =
      5 + 2 * (w.vault.roundParticipants w.vault.activeRoundId).length := by
    rw [← hv', Vault.grant_rounds, Vault.setRound_rounds_of_ne (Nat.ne_of_lt (Nat.lt_succ_self _)),
      Vault.setRound_rounds_self]
    rfl
  have hbefore : ∀ s ∈ Finset.Ico 1 w.vault.activeRoundId,
      (v'.rounds s).remaining = (w.vault.rounds s).remaining := by
    intro s hs
    have hlt := (Finset.mem_Ico.1 hs).2
    rw [← hv', Vault.grant_rounds, Vault.setRound_rounds_of_ne (by omega),
      Vault.setRound_rounds_of_ne (by omega)]
  have hsum : ∑ s ∈ Finset.Ico 1 v'.activeRoundId, (v'.rounds s).remaining =
      ∑ s ∈ Finset.Ico 1 w.vault.activeRoundId, (w.vault.rounds s).remaining +
        (5 + 2 * (w.vault.roundParticipants w.vault.activeRoundId).length) := by
    rw [hid, Finset.sum_Ico_succ_top hactive, Finset.sum_congr rfl hbefore, hclosed]
  simp only [remaining, hsum, hparts', List.length_nil, hcount, Nat.succ_ne_zero, if_false]
  split_ifs <;> omega

/-- A vault that needs no call has settled every closed round, and its active round is not over. -/
theorem settled_of_remaining (hw : (system Fhe.plain E cfg).Reachable w)
    (h : w.remaining cfg = 0) :
    w.now < (w.vault.rounds w.vault.activeRoundId).closesAt ∧
      ∀ r, 0 < r → r < w.vault.activeRoundId → (w.vault.rounds r).state = .settled := by
  have hshape := (reachable_bonded hw).shape
  obtain ⟨hsum, hdue⟩ := Nat.add_eq_zero_iff.1 h
  refine ⟨(dueClosures_eq_zero cfg).1 ?_, fun r hr hlt => ?_⟩
  · by_contra hne
    rw [if_neg hne] at hdue
    omega
  · exact Round.settled_of_remaining (hshape.closed r hr hlt).1 (hshape.closed r hr hlt).2
      (Finset.sum_eq_zero_iff.1 hsum r (Finset.mem_Ico.2 ⟨hr, hlt⟩))

/-- A round is closed as soon as it is over. -/
theorem closeRound_accepted (sender : Address) (hE : E.Lawful O cfg.vault cfg.asset)
    (hw : (system Fhe.plain E cfg).Reachable w) (hclock : w.now + cfg.roundDuration < 2 ^ 64)
    (hdue : (w.vault.rounds w.vault.activeRoundId).closesAt ≤ w.now) :
    ∃ w', exec Fhe.plain E cfg sender w .closeRound = .ok w' := by
  obtain ⟨_, _, _, _, _, _, _, hclose, _, _⟩ := prizes_published hE hw
  obtain ⟨v, hv⟩ := hclose hdue (by omega)
  exact ⟨_, onVault_eq_ok.2 ⟨v, hv, rfl⟩⟩

/-- The smallest candidate is never rejected. -/
theorem settlingCall_zero (hc : settlingCall r 0 w = some c)
    (h : exec Fhe.plain E cfg sender w c = .ok w') : c.rejected w.vault = false := by
  cases c with
  | generateRandomCandidate s candidate =>
    obtain ⟨hs, hcandidate⟩ : s = r ∧ candidate = 0 := by
      simp only [settlingCall] at hc
      split at hc <;> cases hc <;> exact ⟨rfl, rfl⟩
    subst hs hcandidate
    obtain ⟨v, hv, _⟩ := onVault_eq_ok.1 h
    obtain ⟨_, hpos, hle, _⟩ := Vault.generateRandomCandidate_ok hv
    have hdomain : (w.vault.rounds s).publicAggregateTwab ≤ 2 ^ 128 := hle.trans (by decide)
    have hfits := Nat.div_pos hdomain (Nat.pos_of_ne_zero hpos)
    exact decide_eq_false (Nat.not_le.2 (Nat.mul_pos hfits (Nat.pos_of_ne_zero hpos)))
  | _ => rfl

end World

/-- Alice and bob register, alice saves, and their round is over. -/
def Demo.overdueScript : List Event :=
  [.call alice (.registerForRound 10 1), .call bob (.registerForRound 10 1),
    .call alice (.deposit 63 0), .tick 170]

open Demo World in
theorem Demo.ends_overdue : ∃ w, outcome cfg token 100 chain overdueScript = .ok w ∧
    w.now + cfg.roundDuration < 2 ^ 64 ∧ w.remaining cfg < 2 ^ 32 ∧
    (w.vault.rounds 1).closesAt ≤ w.now ∧ w.vault.candidateAttempts = fun _ => 0 := by
  have hends : endsWith (fun w => decide (w.now + cfg.roundDuration < 2 ^ 64 ∧
      w.remaining cfg < 2 ^ 32 ∧ (w.vault.rounds 1).closesAt ≤ w.now))
      (outcome cfg token 100 chain overdueScript) = true := by decide +kernel
  have hnone : (outcome cfg token 100 chain overdueScript).map
      (fun w => w.vault.candidateAttempts) = .ok (fun _ => 0) := rfl
  obtain ⟨w, hw, hcheck⟩ := exists_of_endsWith hends
  obtain ⟨hclock, hfew, hdue⟩ := of_decide_eq_true hcheck
  rw [hw] at hnone
  exact ⟨w, hw, hclock, hfew, hdue, Except.ok.inj hnone⟩

end Leopold
