import Leopold.System.Shape
import Leopold.Contracts.EscrowSpec

/-!
# The vault and the escrow keep the same progress

The vault counts how far the two passes over a round have come, and so does the escrow, from what
the vault reports.  In every reachable state the two agree: on who registered, on both cursors and
on which rounds are settled.
-/

namespace Leopold

open Lib

variable {E64 E128 EBool X : Type} {fhe : Fhe E64 E128 EBool} {E : Externals E64 EBool X}
  {cfg : Config}

/-- Where the two passes over the `n` participants of a round stand in each of its states. -/
def RoundState.Cursors (n selection allocation : Nat) : RoundState → Prop
  | .winnerProcessing => 0 < selection ∧ selection < n ∧ allocation = 0
  | .reconciliationPending | .reconciliationFailed | .readyToAllocate =>
    0 < n ∧ selection = n ∧ allocation = 0
  | .allocationProcessing => selection = n ∧ 0 < allocation ∧ allocation < n
  | .winningsAllocated => 0 < n ∧ selection = n ∧ allocation = n
  | .settled => (selection = 0 ∧ allocation = 0) ∨
      (0 < n ∧ selection = n ∧ (allocation = 0 ∨ allocation = n))
  | _ => selection = 0 ∧ allocation = 0

/-- The public progress of a round. -/
@[ext] structure Progress where
  state : RoundState
  participantCountSnapshot : Nat
  selectionCursor : Nat
  allocationCursor : Nat
  deriving DecidableEq, Repr

/-- What a round shows of its progress. -/
def Round.progress (round : Round E64 E128 EBool) : Progress :=
  ⟨round.state, round.participantCountSnapshot, round.selectionCursor, round.allocationCursor⟩

/-- The vault's round and the escrow's ledger of it agree. -/
structure Settles (participants : List Address) (isRegistered : Address → Bool)
    (ledger : RoundLedger) (p : Progress) : Prop where
  nodup : participants.Nodup
  registered : ∀ a, isRegistered a = true ↔ a ∈ participants
  count : ledger.registered = participants.length
  selection : ledger.selectionProcessed = p.selectionCursor
  allocation : ledger.allocationProcessed = p.allocationCursor
  finalized : ledger.finalized = true ↔ p.state = .settled
  cursors : p.state.Cursors participants.length p.selectionCursor p.allocationCursor
  snapshot : p.state ≠ .open → p.state ≠ .uninitialized →
    p.participantCountSnapshot = participants.length

/-- Every round agrees with its ledger. -/
def World.Settling (w : World E64 E128 EBool X) : Prop :=
  ∀ r, Settles (w.vault.roundParticipants r) (w.escrow.isRegistered r) (w.escrow.rounds r)
    (w.vault.rounds r).progress

namespace Settles

variable {participants : List Address} {isRegistered : Address → Bool} {ledger : RoundLedger}
  {p p' : Progress}

/-- A round that is not settled is not finalized. -/
theorem not_finalized (h : Settles participants isRegistered ledger p) (hs : p.state ≠ .settled) :
    ledger.finalized = false := by
  cases hf : ledger.finalized with
  | false => rfl
  | true => exact absurd (h.finalized.1 hf) hs

/-- An account that is not registered yet joins the open round. -/
theorem register (h : Settles participants isRegistered ledger p) (hopen : p.state = .open)
    {a : Address} (hnew : isRegistered a = false) {deposited : Nat} :
    Settles (participants ++ [a]) (Function.update isRegistered a true)
      { ledger with registered := ledger.registered + 1, deposited := deposited } p where
  nodup := by
    have hmem : a ∉ participants := by
      rw [← h.registered a, hnew]
      exact Bool.false_ne_true
    exact List.nodup_append'.2 ⟨h.nodup, List.nodup_singleton a, by simpa using hmem⟩
  registered b := by
    by_cases hb : b = a
    · simp [hb]
    · rw [Function.update_of_ne hb, h.registered b]
      simp [hb]
  count := by rw [List.length_append, ← h.count, List.length_singleton]
  selection := h.selection
  allocation := h.allocation
  finalized := h.finalized
  cursors := by
    have hc := h.cursors
    rw [hopen] at hc ⊢
    exact hc
  snapshot hne := absurd hopen hne

/-- A round changes its state and keeps its cursors. -/
theorem move (h : Settles participants isRegistered ledger p)
    (hsel : p'.selectionCursor = p.selectionCursor)
    (hall : p'.allocationCursor = p.allocationCursor)
    (hcursors : p'.state.Cursors participants.length p.selectionCursor p.allocationCursor)
    (hbefore : p.state ≠ .settled) (hafter : p'.state ≠ .settled)
    (hsnap : p'.state ≠ .open → p'.state ≠ .uninitialized →
      p'.participantCountSnapshot = participants.length) :
    Settles participants isRegistered ledger p' where
  nodup := h.nodup
  registered := h.registered
  count := h.count
  selection := h.selection.trans hsel.symm
  allocation := h.allocation.trans hall.symm
  finalized := by
    rw [h.not_finalized hbefore]
    exact ⟨nofun, fun hs => absurd hs hafter⟩
  cursors := by rw [hsel, hall]; exact hcursors
  snapshot := hsnap

/-- A pass processes `n` more participants. -/
theorem credit (h : Settles participants isRegistered ledger p) (pass : Nat) {n rewards : Nat}
    (hsel : p'.selectionCursor = p.selectionCursor + (if pass = 1 then n else 0))
    (hall : p'.allocationCursor = p.allocationCursor + (if pass = 1 then 0 else n))
    (hcursors : p'.state.Cursors participants.length p'.selectionCursor p'.allocationCursor)
    (hbefore : p.state ≠ .settled) (hafter : p'.state ≠ .settled)
    (hsnap : p'.participantCountSnapshot = participants.length) :
    Settles participants isRegistered
      { Escrow.advanced pass n ledger with rewardsAccrued := rewards } p' := by
  have hf := h.not_finalized hbefore
  have hselection := h.selection
  have hallocation := h.allocation
  unfold Escrow.advanced
  split_ifs with hpass
  · rw [if_pos hpass] at hsel hall
    exact ⟨h.nodup, h.registered, h.count, by simp only; omega, by simp only; omega,
      ⟨fun ht => absurd ht (hf ▸ Bool.false_ne_true), fun hs => absurd hs hafter⟩, hcursors,
      fun _ _ => hsnap⟩
  · rw [if_neg hpass] at hsel hall
    exact ⟨h.nodup, h.registered, h.count, by simp only; omega, by simp only; omega,
      ⟨fun ht => absurd ht (hf ▸ Bool.false_ne_true), fun hs => absurd hs hafter⟩, hcursors,
      fun _ _ => hsnap⟩

/-- The round is settled and its bonds are released. -/
theorem settle (h : Settles participants isRegistered ledger p) {refunds refund : Nat}
    (hsel : p'.selectionCursor = p.selectionCursor)
    (hall : p'.allocationCursor = p.allocationCursor) (hstate : p'.state = .settled)
    (hcursors : RoundState.settled.Cursors participants.length p.selectionCursor
      p.allocationCursor)
    (hsnap : p'.participantCountSnapshot = participants.length) :
    Settles participants isRegistered { ledger with
      refundsAccrued := refunds
      refundPerParticipant := refund
      finalized := true } p' where
  nodup := h.nodup
  registered := h.registered
  count := h.count
  selection := h.selection.trans hsel.symm
  allocation := h.allocation.trans hall.symm
  finalized := ⟨fun _ => hstate, fun _ => rfl⟩
  cursors := by rw [hstate, hsel, hall]; exact hcursors
  snapshot _ _ := hsnap

end Settles

/-! ## What leaves the progress alone -/

/-- The two vaults show the same progress of every round, with the same participants. -/
structure Vault.SameProgress (v v' : Vault E64 E128 EBool) : Prop where
  progress : ∀ r, (v'.rounds r).progress = (v.rounds r).progress
  participants : v'.roundParticipants = v.roundParticipants

namespace Vault

variable {v v' v'' : Vault E64 E128 EBool} {r : Nat} {a : Address}

theorem SameProgress.refl (v : Vault E64 E128 EBool) : v.SameProgress v := ⟨fun _ => rfl, rfl⟩

theorem SameProgress.trans (h : v.SameProgress v') (h' : v'.SameProgress v'') :
    v.SameProgress v'' :=
  ⟨fun r => (h'.1 r).trans (h.1 r), h'.2.trans h.2⟩

/-- A write to a round that keeps its progress. -/
theorem SameProgress.setRound {u : Vault E64 E128 EBool} {round : Round E64 E128 EBool}
    (h : v.SameProgress u) (hround : round.progress = (u.rounds r).progress) :
    v.SameProgress (u.setRound r round) := by
  refine ⟨fun s => ?_, h.participants⟩
  by_cases hs : s = r
  · rw [hs, setRound_rounds_self, hround, h.progress]
  · rw [setRound_rounds_of_ne hs, h.progress]

theorem SameProgress.grant (h : v.SameProgress v') (gs : List (Grant E64 E128 EBool)) :
    v.SameProgress (v'.grant gs) := ⟨h.progress, h.participants⟩

theorem checkpointUser_sameProgress {b : E64} {t : Nat}
    (h : checkpointUser fhe cfg a b t v = .ok v') : v.SameProgress v' := by
  obtain ⟨obs, cum, gs, _, rfl⟩ := checkpointUser_ok h
  exact ⟨fun _ => rfl, rfl⟩

theorem accrueEligible_sameProgress {t : Nat} (h : accrueEligible fhe cfg r t v = .ok v') :
    v.SameProgress v' := by
  obtain ⟨_, gs, rfl⟩ := accrueEligible_ok h
  refine ((SameProgress.refl v).setRound ?_).grant gs
  rfl

theorem changeEligible_sameProgress {f : E64 → E64} {t : Nat}
    (h : changeEligible fhe cfg a f t v = .ok v') : v.SameProgress v' := by
  rcases changeEligible_ok h with ⟨_, rfl⟩ | ⟨_, _, gs, rfl⟩
  · exact .refl v'
  · refine ((SameProgress.refl v).setRound ?_).grant gs
    rfl

theorem rollPrizeForward_sameProgress (h : rollPrizeForward fhe cfg r v = .ok v') :
    v.SameProgress v' := by
  obtain ⟨_, gs, rfl⟩ := rollPrizeForward_ok h
  refine SameProgress.grant (SameProgress.setRound ?_ ?_) gs
  · exact ⟨fun _ => rfl, rfl⟩
  · rfl

theorem selectParticipant_sameProgress (h : selectParticipant fhe cfg r a v = .ok v') :
    v.SameProgress v' := by
  obtain ⟨weight, gs, _, rfl⟩ := selectParticipant_ok h
  refine SameProgress.grant (SameProgress.setRound ?_ ?_) gs
  · exact ⟨fun _ => rfl, rfl⟩
  · rfl

theorem bookAllocation_sameProgress {prize autoSaved : E64} (v : Vault E64 E128 EBool) :
    v.SameProgress (v.bookAllocation fhe cfg r a prize autoSaved) := by
  unfold bookAllocation
  by_cases hs : v.eligibilityStart v.activeRoundId a ≠ 0
  · simp only [if_pos hs]
    refine SameProgress.grant (SameProgress.setRound ⟨fun s => ?_, ?_⟩ ?_) _
    · refine (SameProgress.setRound (r := v.activeRoundId) (.refl v) ?_).progress s
      rfl
    · rfl
    · rfl
  · simp only [if_neg hs]
    refine SameProgress.grant (SameProgress.setRound ⟨fun s => ?_, ?_⟩ ?_) _ <;> rfl

theorem allocateParticipant_sameProgress {now : Nat}
    (h : allocateParticipant fhe cfg r now a v = .ok v') : v.SameProgress v' := by
  simp only [allocateParticipant, seq_eq_ok, pure_eq_ok, ok_eq_ok] at h
  obtain ⟨_, _, v₁, hcheck, rfl⟩ := h
  exact (checkpointUser_sameProgress hcheck).trans (bookAllocation_sameProgress v₁)

theorem forParticipants_sameProgress {cursor count : Nat}
    {body : Address → Vault E64 E128 EBool → Except Revert (Vault E64 E128 EBool)}
    (hbody : ∀ a u u', body a u = .ok u' → u.SameProgress u')
    (h : forParticipants body r cursor count v = .ok v') : v.SameProgress v' :=
  forList_invariant (I := fun _ u => v.SameProgress u)
    (fun a _ u u' hu hstep => hu.trans (hbody a u u' hstep))
    (forParticipants_ok (fun a u u' hu => congrFun (hbody a u u' hu).participants r) h).2
    (.refl v)

end Vault

/-! ## Every step keeps the two in agreement -/

namespace World

variable {w w' : World E64 E128 EBool X} {sender : Address} {r : Nat}

/-- A step that leaves the progress and the registrations alone. -/
theorem Settling.congr (h : w.Settling) (hv : w.vault.SameProgress w'.vault)
    (hr : w'.escrow.rounds = w.escrow.rounds)
    (hi : w'.escrow.isRegistered = w.escrow.isRegistered) : w'.Settling := by
  intro s
  rw [hv.progress, hv.participants, hr, hi]
  exact h s

/-- A step that changes one round. -/
theorem Settling.of_round (h : w.Settling)
    (hself : Settles (w'.vault.roundParticipants r) (w'.escrow.isRegistered r)
      (w'.escrow.rounds r) (w'.vault.rounds r).progress)
    (hother : ∀ s, s ≠ r → w'.vault.roundParticipants s = w.vault.roundParticipants s ∧
      w'.escrow.isRegistered s = w.escrow.isRegistered s ∧
      w'.escrow.rounds s = w.escrow.rounds s ∧
      (w'.vault.rounds s).progress = (w.vault.rounds s).progress) : w'.Settling := by
  intro s
  by_cases hs : s = r
  · exact hs ▸ hself
  · obtain ⟨h1, h2, h3, h4⟩ := hother s hs
    rw [h1, h2, h3, h4]
    exact h s

/-- A step of the vault alone that moves one round and keeps its cursors. -/
theorem Settling.of_setRound {v : Vault E64 E128 EBool} {round : Round E64 E128 EBool}
    (h : w.Settling) (hv : w.vault.SameProgress v)
    (hsel : round.selectionCursor = (w.vault.rounds r).selectionCursor)
    (hall : round.allocationCursor = (w.vault.rounds r).allocationCursor)
    (hsnap : round.participantCountSnapshot = (w.vault.rounds r).participantCountSnapshot)
    (hopen : (w.vault.rounds r).state ≠ .open) (hset : (w.vault.rounds r).state ≠ .uninitialized)
    (hbefore : (w.vault.rounds r).state ≠ .settled) (hafter : round.state ≠ .settled)
    (hcursors : ∀ n, (w.vault.rounds r).state.Cursors n (w.vault.rounds r).selectionCursor
        (w.vault.rounds r).allocationCursor →
      round.state.Cursors n (w.vault.rounds r).selectionCursor
        (w.vault.rounds r).allocationCursor) (gs : List (Grant E64 E128 EBool)) :
    Settling { w with vault := (v.setRound r round).grant gs } := by
  refine h.of_round (r := r) ?_ ?_
  · show Settles (v.roundParticipants r) (w.escrow.isRegistered r) (w.escrow.rounds r)
      ((v.setRound r round).rounds r).progress
    rw [Vault.setRound_rounds_self, hv.participants]
    refine (h r).move hsel hall (hcursors _ (h r).cursors) hbefore hafter fun _ _ => ?_
    exact hsnap.trans ((h r).snapshot hopen hset)
  · intro s hs
    refine ⟨congrFun hv.participants s, rfl, rfl, ?_⟩
    show ((v.setRound r round).rounds s).progress = _
    rw [Vault.setRound_rounds_of_ne hs, hv.progress]

theorem registerForRound_settling {value : Nat} (h : w.Settling) (hshape : w.vault.Shape fhe)
    (hop : registerForRound fhe cfg sender value r w = .ok w') : w'.Settling := by
  obtain ⟨e, v, he, hv, rfl⟩ := registerForRound_ok hop
  obtain ⟨_, hnew, _, _, rfl⟩ := Escrow.registerForRound_ok he
  obtain ⟨_, _, rfl, _, _, _, gs, rfl⟩ := Vault.acceptBondRegistration_ok hv
  refine h.of_round (r := w.vault.activeRoundId) ?_ ?_
  · simp only [Function.update_self, Vault.grant, Vault.setRound]
    exact (h w.vault.activeRoundId).register hshape.active_open hnew
  · intro s hs
    simp only [Vault.grant, Vault.setRound, Function.update_of_ne hs]
    exact ⟨trivial, trivial, trivial, trivial⟩

theorem closeRound_settling {now : Nat} {v : Vault E64 E128 EBool} (h : w.Settling)
    (hshape : w.vault.Shape fhe) (hop : w.vault.closeRound fhe cfg now = .ok v) :
    Settling { w with vault := v } := by
  obtain ⟨hopen, _, _, _, gs, rfl⟩ := Vault.closeRound_ok hop
  have hlater := congrArg Round.state (hshape.later _ (Nat.lt_succ_self w.vault.activeRoundId))
  intro s
  show Settles (w.vault.roundParticipants s) (w.escrow.isRegistered s) (w.escrow.rounds s)
    (((Vault.setRound _ w.vault.activeRoundId _).setRound (w.vault.activeRoundId + 1) _).rounds
      s).progress
  by_cases hnext : s = w.vault.activeRoundId + 1
  · -- the next round opens
    subst hnext
    rw [Vault.setRound_rounds_self]
    have hc := (h (w.vault.activeRoundId + 1)).cursors
    refine (h (w.vault.activeRoundId + 1)).move rfl rfl ?_ ?_ nofun fun hne => absurd rfl hne
    · rw [Round.progress, hlater] at hc
      exact hc
    · rw [Round.progress, hlater]
      nofun
  · rw [Vault.setRound_rounds_of_ne hnext]
    by_cases hactive : s = w.vault.activeRoundId
    · -- the active round closes
      subst hactive
      rw [Vault.setRound_rounds_self]
      have hc := (h w.vault.activeRoundId).cursors
      refine (h w.vault.activeRoundId).move rfl rfl ?_ ?_ nofun fun _ _ => rfl
      · rw [Round.progress, hopen] at hc
        exact hc
      · rw [Round.progress, hopen]
        nofun
    · rw [Vault.setRound_rounds_of_ne hactive]
      exact h s

/-- The round in which a selection pass enters its loop. -/
theorem startSelection_progress {v v₁ : Vault E64 E128 EBool}
    (h : v.startSelection fhe cfg r = .ok v₁) :
    ((v.rounds r).state = .ticketAccepted ∨ (v.rounds r).state = .winnerProcessing) ∧
      (v₁.rounds r).progress = { (v.rounds r).progress with state := .winnerProcessing } ∧
      (∀ s, s ≠ r → (v₁.rounds s).progress = (v.rounds s).progress) ∧
      v₁.roundParticipants = v.roundParticipants := by
  rcases Vault.startSelection_ok h with ⟨hstate, gs, rfl⟩ | ⟨hstate, rfl⟩
  · refine ⟨.inl hstate, ?_, fun s hs => ?_, rfl⟩
    · rw [Vault.grant_rounds, Vault.setRound_rounds_self]
      rfl
    · rw [Vault.grant_rounds, Vault.setRound_rounds_of_ne hs]
  · exact ⟨.inr hstate, by rw [Round.progress, hstate], fun _ _ => rfl, rfl⟩

theorem processSelection_settling {n : Nat} (h : w.Settling)
    (hop : processSelection fhe cfg sender r n w = .ok w') : w'.Settling := by
  obtain ⟨_, v₁, processed, v₂, e, hstart, hchunk, hloop, hcredit, rfl⟩ := processSelection_ok hop
  obtain ⟨_, hpos, _, _, hle, _, rfl⟩ := Escrow.creditProgress_ok hcredit
  obtain ⟨hstate, hp₁, hother₁, hparts₁⟩ := startSelection_progress hstart
  have hsame := Vault.forParticipants_sameProgress
    (fun a u u' hu => Vault.selectParticipant_sameProgress hu) hloop
  have hcursors : (w.vault.rounds r).selectionCursor + processed ≤
      (w.vault.roundParticipants r).length ∧ (w.vault.rounds r).allocationCursor = 0 := by
    have hc := (h r).cursors
    have hsel : (w.escrow.rounds r).selectionProcessed = (w.vault.rounds r).selectionCursor :=
      (h r).selection
    have hcount := (h r).count
    rw [Escrow.processedIn, if_pos rfl] at hle
    refine ⟨by omega, ?_⟩
    rw [Round.progress] at hc
    rcases hstate with hs | hs <;> rw [hs] at hc
    · exact hc.2
    · exact hc.2.2
  have hsnap : (w.vault.rounds r).participantCountSnapshot =
      (w.vault.roundParticipants r).length := by
    refine (h r).snapshot ?_ ?_ <;> rw [Round.progress] <;>
      rcases hstate with hs | hs <;> rw [hs] <;> rintro ⟨⟩
  have hp₂ : (v₂.rounds r).progress =
      { (w.vault.rounds r).progress with state := .winnerProcessing } := by
    rw [hsame.progress, hp₁]
  have hc₁ : (v₁.rounds r).selectionCursor = (w.vault.rounds r).selectionCursor :=
    congrArg Progress.selectionCursor hp₁
  have hother : ∀ s, s ≠ r → (v₂.rounds s).progress = (w.vault.rounds s).progress :=
    fun s hs => (hsame.progress s).trans (hother₁ s hs)
  have hbefore : (w.vault.rounds r).progress.state ≠ .settled := by
    rw [Round.progress]
    rcases hstate with hs | hs <;> rw [hs] <;> rintro ⟨⟩
  simp only [Progress.ext_iff, Round.progress] at hp₂
  obtain ⟨hstate₂, hsnap₂, _, hall₂⟩ := hp₂
  have hparts : v₂.roundParticipants = w.vault.roundParticipants :=
    hsame.participants.trans hparts₁
  rcases Vault.requestReconciliation_eq fhe cfg r (v₂.setRound r
      { v₂.rounds r with selectionCursor := (v₁.rounds r).selectionCursor + processed })
    with ⟨hdone, gs, heq⟩ | ⟨hmore, heq⟩
  · rw [Vault.setRound_rounds_self] at hdone
    simp only [heq]
    refine h.of_round (r := r) ?_ ?_
    · simp only [Vault.grant, Vault.setRound, Function.update_self, hparts]
      refine (h r).credit 1 ?_ ?_ ?_ hbefore (by rintro ⟨⟩) ?_
      · simp only [Round.progress, hc₁, if_pos]
      · simp only [Round.progress, hall₂, if_pos, Nat.add_zero]
      · simp only [Round.progress, RoundState.Cursors, hc₁, hall₂]
        dsimp only at hdone
        rw [hsnap₂, hc₁] at hdone
        omega
      · exact hsnap₂.trans hsnap
    · intro s hs
      simp only [Vault.grant, Vault.setRound, Function.update_of_ne hs]
      exact ⟨congrFun hparts s, trivial, trivial, hother s hs⟩
  · rw [Vault.setRound_rounds_self] at hmore
    simp only [heq]
    refine h.of_round (r := r) ?_ ?_
    · simp only [Vault.setRound, Function.update_self, hparts]
      refine (h r).credit 1 ?_ ?_ ?_ hbefore ?_ ?_
      · simp only [Round.progress, hc₁, if_pos]
      · simp only [Round.progress, hall₂, if_pos, Nat.add_zero]
      · simp only [Round.progress, hstate₂, RoundState.Cursors, hc₁, hall₂]
        dsimp only at hmore
        rw [hsnap₂, hc₁] at hmore
        omega
      · rw [Round.progress, hstate₂]
        rintro ⟨⟩
      · exact hsnap₂.trans hsnap
    · intro s hs
      simp only [Vault.setRound, Function.update_of_ne hs]
      exact ⟨congrFun hparts s, trivial, trivial, hother s hs⟩

theorem processAllocation_settling {n : Nat} (h : w.Settling)
    (hop : processAllocation fhe cfg sender r n w = .ok w') : w'.Settling := by
  obtain ⟨_, _, v₁, v₂, processed, v₃, e, hstart, hacc, _, hloop, hcredit, rfl⟩ :=
    processAllocation_ok hop
  obtain ⟨_, hpos, _, _, hle, _, rfl⟩ := Escrow.creditProgress_ok hcredit
  obtain ⟨hstate, rfl⟩ := Vault.startAllocation_ok hstart
  have hsame := (Vault.accrueEligible_sameProgress hacc).trans (Vault.forParticipants_sameProgress
    (fun a u u' hu => Vault.allocateParticipant_sameProgress hu) hloop)
  have hc₂ : (v₂.rounds r).allocationCursor = (w.vault.rounds r).allocationCursor := by
    refine (congrArg Progress.allocationCursor
      ((Vault.accrueEligible_sameProgress hacc).progress r)).trans ?_
    rw [Vault.setRound_rounds_self]
    rfl
  have hcursors : (w.vault.rounds r).allocationCursor + processed ≤
      (w.vault.roundParticipants r).length ∧
      (w.vault.rounds r).selectionCursor = (w.vault.roundParticipants r).length := by
    have hc := (h r).cursors
    have hall : (w.escrow.rounds r).allocationProcessed = (w.vault.rounds r).allocationCursor :=
      (h r).allocation
    have hcount := (h r).count
    rw [Escrow.processedIn, if_neg (by decide)] at hle
    refine ⟨by omega, ?_⟩
    rw [Round.progress] at hc
    rcases hstate with hs | hs <;> rw [hs] at hc
    · exact hc.2.1
    · exact hc.1
  have hsnap : (w.vault.rounds r).participantCountSnapshot =
      (w.vault.roundParticipants r).length := by
    refine (h r).snapshot ?_ ?_ <;> rw [Round.progress] <;>
      rcases hstate with hs | hs <;> rw [hs] <;> rintro ⟨⟩
  have hbefore : (w.vault.rounds r).progress.state ≠ .settled := by
    rw [Round.progress]
    rcases hstate with hs | hs <;> rw [hs] <;> rintro ⟨⟩
  have hp₃ : (v₃.rounds r).progress =
      { (w.vault.rounds r).progress with state := .allocationProcessing } := by
    rw [hsame.progress, Vault.setRound_rounds_self]
    rfl
  have hother : ∀ s, s ≠ r → (v₃.rounds s).progress = (w.vault.rounds s).progress := by
    intro s hs
    rw [hsame.progress, Vault.setRound_rounds_of_ne hs]
  simp only [Progress.ext_iff, Round.progress] at hp₃
  obtain ⟨hstate₃, hsnap₃, hsel₃, _⟩ := hp₃
  have hparts : v₃.roundParticipants = w.vault.roundParticipants := hsame.participants
  simp only [Vault.finishAllocation_eq]
  refine h.of_round (r := r) ?_ ?_
  · simp only [Vault.setRound, Function.update_self, hparts]
    refine (h r).credit 2 ?_ ?_ ?_ hbefore ?_ ?_
    · simp only [Round.progress, hsel₃, if_neg (show ¬ (2 = 1) by decide), Nat.add_zero]
    · simp only [Round.progress, hc₂, if_neg (show ¬ (2 = 1) by decide)]
    · simp only [Round.progress, hc₂, hsel₃, hsnap₃]
      split_ifs with hdone
      · simp only [RoundState.Cursors]
        omega
      · rw [hstate₃]
        simp only [RoundState.Cursors]
        omega
    · simp only [Round.progress, hstate₃]
      split_ifs <;> rintro ⟨⟩
    · exact hsnap₃.trans hsnap
  · intro s hs
    simp only [Vault.setRound, Function.update_of_ne hs]
    exact ⟨congrFun hparts s, trivial, trivial, hother s hs⟩

/-- A round whose cursors allow it is settled in both contracts. -/
theorem settle_settling {passes : Nat} (h : w.Settling)
    (hclosed : (w.vault.rounds r).state ≠ .open)
    (hset : (w.vault.rounds r).state ≠ .uninitialized)
    (hcursors : ∀ n, (w.vault.rounds r).state.Cursors n (w.vault.rounds r).selectionCursor
        (w.vault.rounds r).allocationCursor →
      RoundState.settled.Cursors n (w.vault.rounds r).selectionCursor
        (w.vault.rounds r).allocationCursor)
    (hop : settle cfg r passes w = .ok w') : w'.Settling := by
  obtain ⟨e, he, rfl⟩ := settle_ok hop
  obtain ⟨_, _, refund, _, _, rfl⟩ := Escrow.finalizeRound_ok he
  refine h.of_round (r := r) ?_ ?_
  · simp only [Vault.setRound, Function.update_self]
    exact (h r).settle rfl rfl rfl (hcursors _ (h r).cursors) ((h r).snapshot hclosed hset)
  · intro s hs
    simp only [Vault.setRound, Function.update_of_ne hs]
    exact ⟨trivial, trivial, trivial, trivial⟩

/-- The two roll-forward paths settle a round that keeps its progress. -/
theorem settle_rolled {passes : Nat} {v : Vault E64 E128 EBool} {s : RoundState} (h : w.Settling)
    (hstate : (w.vault.rounds r).state = s) (hs : s = .empty ∨ s = .reconciliationFailed)
    (hroll : w.vault.rollPrizeForward fhe cfg r = .ok v)
    (hop : settle cfg r passes { w with vault := v } = .ok w') : w'.Settling := by
  have hsame := Vault.rollPrizeForward_sameProgress hroll
  have hv : Settling { w with vault := v } := h.congr hsame rfl rfl
  have hstate' : (v.rounds r).state = s :=
    (congrArg Progress.state (hsame.progress r)).trans hstate
  refine settle_settling hv ?_ ?_ ?_ hop
  · rw [hstate']
    rcases hs with rfl | rfl <;> nofun
  · rw [hstate']
    rcases hs with rfl | rfl <;> nofun
  · intro n hc
    rw [hstate'] at hc
    rcases hs with rfl | rfl <;> simp only [RoundState.Cursors] at hc ⊢ <;> omega

/-- **Step lemma.**  A call keeps the vault and the escrow in agreement. -/
theorem exec_settling (hsender : cfg.External sender) (hshape : w.vault.Shape fhe)
    (h : w.Settling) {c : Call E64 E128 EBool} (hop : exec fhe E cfg sender w c = .ok w') :
    w'.Settling := by
  by_cases hdraws : c.draws = false
  · obtain ⟨hv, hr, hi, _⟩ := exec_idle hsender hdraws hop
    refine h.congr ⟨fun s => ?_, hv.roundParticipants⟩ hr hi
    rw [hv.rounds]
  cases c with
  | registerForRound value r => exact registerForRound_settling h hshape hop
  | deposit n d =>
    obtain ⟨x₁, sent, v, accepted, x₂, _, hv, _, rfl⟩ := deposit_ok hop
    obtain ⟨_, _, _, v₁, v₂, gs, hcheck, hchange, rfl⟩ :=
      Vault.onConfidentialTransferReceived_ok hv
    obtain ⟨h1, h2⟩ := Vault.changeEligible_sameProgress hchange
    exact h.congr ((Vault.checkpointUser_sameProgress hcheck).trans ⟨h1, h2⟩) rfl rfl
  | withdraw input =>
    obtain ⟨⟨w₁, sent⟩, hw, rfl⟩ := map_eq_ok.1 hop
    obtain ⟨_, x, v, _, hv, rfl⟩ := withdraw_ok hw
    obtain ⟨v₁, v₂, gs, hcheck, hchange, rfl⟩ := Vault.recordWithdrawal_ok hv
    obtain ⟨h1, h2⟩ := Vault.changeEligible_sameProgress hchange
    exact h.congr ((Vault.checkpointUser_sameProgress hcheck).trans ⟨h1, h2⟩) rfl rfl
  | closeRound =>
    obtain ⟨v, hv, rfl⟩ := onVault_eq_ok.1 hop
    exact closeRound_settling h hshape hv
  | finalizeAggregate r c proof =>
    obtain ⟨v, hv, rfl⟩ := onVault_eq_ok.1 hop
    obtain ⟨hstate, n, _, _, rfl⟩ := Vault.finalizeAggregate_ok hv
    rw [← Vault.grant_nil (Vault.setRound _ _ _)]
    refine h.of_setRound (.refl _) ?_ ?_ ?_ (by rw [hstate]; nofun) (by rw [hstate]; nofun)
      (by rw [hstate]; nofun) ?_ ?_ []
    · rfl
    · rfl
    · rfl
    · show (if n = 0 then RoundState.empty else .aggregateFinalized) ≠ _
      split_ifs <;> nofun
    · intro m hc
      rw [hstate] at hc
      show RoundState.Cursors _ _ _ (if n = 0 then RoundState.empty else .aggregateFinalized)
      split_ifs <;> exact hc
  | generateRandomCandidate r candidate =>
    obtain ⟨v, hv, rfl⟩ := onVault_eq_ok.1 hop
    obtain ⟨hstate, _, _, round, attempts, gs, rfl, hround⟩ :=
      Vault.generateRandomCandidate_ok hv
    have hmoved : round.selectionCursor = (w.vault.rounds r).selectionCursor ∧
        round.allocationCursor = (w.vault.rounds r).allocationCursor ∧
        round.participantCountSnapshot = (w.vault.rounds r).participantCountSnapshot ∧
        (round.state = .ticketAccepted ∨ round.state = .candidateValidityPending) := by
      rcases hround with ⟨_, rfl⟩ | ⟨_, rfl⟩
      · exact ⟨rfl, rfl, rfl, .inl rfl⟩
      · exact ⟨rfl, rfl, rfl, .inr rfl⟩
    have hne : ∀ s, s ≠ .aggregateFinalized → s ≠ .candidateRejected →
        (w.vault.rounds r).state ≠ s := by
      rintro s h1 h2 rfl
      exact hstate.elim h1 h2
    obtain ⟨h1, h2, h3, h4⟩ := hmoved
    refine h.of_setRound ⟨fun _ => rfl, rfl⟩ h1 h2 h3 (hne _ nofun nofun) (hne _ nofun nofun)
      (hne _ nofun nofun) ?_ ?_ gs
    · rcases h4 with hs | hs <;> rw [hs] <;> nofun
    · intro n hc
      rcases hstate with hs | hs <;> rw [hs] at hc <;> rcases h4 with h4 | h4 <;> rw [h4] <;>
        exact hc
  | finalizeCandidateValidity r c proof =>
    obtain ⟨v, hv, rfl⟩ := onVault_eq_ok.1 hop
    obtain ⟨hstate, valid, gs, _, rfl⟩ := Vault.finalizeCandidateValidity_ok hv
    refine h.of_setRound (.refl _) ?_ ?_ ?_ (by rw [hstate]; nofun) (by rw [hstate]; nofun)
      (by rw [hstate]; nofun) ?_ ?_ gs
    · cases valid <;> rfl
    · cases valid <;> rfl
    · cases valid <;> rfl
    · cases valid <;> nofun
    · intro n hc
      rw [hstate] at hc
      cases valid <;> exact hc
  | processSelection r n => exact processSelection_settling h hop
  | finalizeSelectionReconciliation r c proof =>
    obtain ⟨v, hv, rfl⟩ := onVault_eq_ok.1 hop
    obtain ⟨hstate, valid, _, rfl⟩ := Vault.finalizeSelectionReconciliation_ok hv
    rw [← Vault.grant_nil (Vault.setRound _ _ _)]
    refine h.of_setRound (.refl _) ?_ ?_ ?_ (by rw [hstate]; nofun) (by rw [hstate]; nofun)
      (by rw [hstate]; nofun) ?_ ?_ []
    · rfl
    · rfl
    · rfl
    · cases valid <;> nofun
    · intro n hc
      rw [hstate] at hc
      cases valid <;> exact hc
  | processAllocation r n => exact processAllocation_settling h hop
  | finalizeSettlement r =>
    obtain ⟨hstate, hsettle⟩ := finalizeSettlement_ok hop
    refine settle_settling h (by rw [hstate]; nofun) (by rw [hstate]; nofun) ?_ hsettle
    intro n hc
    rw [hstate] at hc
    simp only [RoundState.Cursors] at hc ⊢
    omega
  | recoverFailedReconciliation r =>
    obtain ⟨hstate, v, hroll, hsettle⟩ := recoverFailedReconciliation_ok hop
    exact settle_rolled h hstate (.inr rfl) hroll hsettle
  | settleEmptyRound r =>
    obtain ⟨hstate, v, hroll, hsettle⟩ := settleEmptyRound_ok hop
    exact settle_rolled h hstate (.inl rfl) hroll hsettle
  | _ => exact absurd rfl hdraws

end World

end Leopold
