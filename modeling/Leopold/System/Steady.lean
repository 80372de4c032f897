import Leopold.System.Draws

/-!
# What only one call changes

Only `closeRound` opens the next round, only `processAllocation` of a round moves its allocation
cursor, and only `setAutoSavePreference` writes a preference.
-/

namespace Leopold

open Lib

variable {E64 E128 EBool X : Type} {fhe : Fhe E64 E128 EBool} {E : Externals E64 EBool X}
  {cfg : Config}

namespace Vault

/-- The two vaults have the same active round, allocation cursors and preferences. -/
structure Steady (v v' : Vault E64 E128 EBool) : Prop where
  activeRoundId : v'.activeRoundId = v.activeRoundId
  allocationCursor : ∀ r, (v'.rounds r).allocationCursor = (v.rounds r).allocationCursor
  preferenceObservations : v'.preferenceObservations = v.preferenceObservations

variable {v v' u : Vault E64 E128 EBool} {r t : Nat} {a : Address}

theorem Steady.refl (v : Vault E64 E128 EBool) : v.Steady v := ⟨rfl, fun _ => rfl, rfl⟩

theorem Steady.trans (h : v.Steady u) (h' : u.Steady v') : v.Steady v' :=
  ⟨h'.1.trans h.1, fun r => (h'.2 r).trans (h.2 r), h'.3.trans h.3⟩

/-- A round is written with the allocation cursor it had. -/
theorem allocationCursor_setRound {round : Round E64 E128 EBool}
    (h : round.allocationCursor = (v.rounds r).allocationCursor) (s : Nat) :
    ((v.setRound r round).rounds s).allocationCursor = (v.rounds s).allocationCursor := by
  by_cases hs : s = r
  · subst hs
    rw [setRound_rounds_self, h]
  · rw [setRound_rounds_of_ne hs]

theorem Steady.setRound (h : v.Steady u) {round : Round E64 E128 EBool}
    (hround : round.allocationCursor = (u.rounds r).allocationCursor) :
    v.Steady (u.setRound r round) :=
  ⟨h.1, fun s => (allocationCursor_setRound hround s).trans (h.2 s), h.3⟩

theorem Steady.grant (h : v.Steady u) (gs : List (Grant E64 E128 EBool)) : v.Steady (u.grant gs) :=
  ⟨h.1, h.2, h.3⟩

theorem checkpointUser_steady {b : E64} (h : checkpointUser fhe cfg a b t v = .ok v') :
    v.Steady v' := by
  obtain ⟨obs, c, gs, _, rfl⟩ := checkpointUser_ok h
  exact ⟨rfl, fun _ => rfl, rfl⟩

theorem changeEligible_steady {f : E64 → E64} (h : changeEligible fhe cfg a f t v = .ok v') :
    v.Steady v' := by
  rcases changeEligible_ok h with ⟨_, rfl⟩ | ⟨_, _, gs, rfl⟩
  · exact .refl _
  · refine ((Steady.refl v).setRound ?_).grant gs
    rfl

theorem startSelection_steady (h : startSelection fhe cfg r v = .ok v') : v.Steady v' := by
  rcases startSelection_ok h with ⟨_, gs, rfl⟩ | ⟨_, rfl⟩
  · refine ((Steady.refl v).setRound ?_).grant gs
    rfl
  · exact .refl _

theorem selectParticipant_steady (h : selectParticipant fhe cfg r a v = .ok v') :
    v.Steady v' := by
  obtain ⟨weight, gs, _, rfl⟩ := selectParticipant_ok h
  refine Steady.grant (Steady.setRound ?_ ?_) gs
  · exact ⟨rfl, fun _ => rfl, rfl⟩
  · rfl

theorem requestReconciliation_steady (r : Nat) (v : Vault E64 E128 EBool) :
    v.Steady (v.requestReconciliation fhe cfg r) := by
  rcases requestReconciliation_eq fhe cfg r v with ⟨_, gs, heq⟩ | ⟨_, heq⟩ <;>
    rw [heq]
  · refine ((Steady.refl v).setRound ?_).grant gs
    rfl
  · exact .refl _

theorem rollPrizeForward_steady (h : rollPrizeForward fhe cfg r v = .ok v') : v.Steady v' := by
  obtain ⟨_, gs, rfl⟩ := rollPrizeForward_ok h
  refine Steady.grant (Steady.setRound ?_ ?_) gs
  · exact ⟨rfl, fun _ => rfl, rfl⟩
  · rfl

end Vault

namespace World

variable {w w' : World E64 E128 EBool X} {sender : Address} {r n : Nat}

theorem settle_steady (h : settle cfg r n w = .ok w') : w.vault.Steady w'.vault := by
  obtain ⟨e, _, rfl⟩ := settle_ok h
  refine (Vault.Steady.refl w.vault).setRound ?_
  rfl

theorem processSelection_steady (h : processSelection fhe cfg sender r n w = .ok w') :
    w.vault.Steady w'.vault := by
  obtain ⟨_, v₁, processed, v₂, e, hstart, _, hloop, _, rfl⟩ := processSelection_ok h
  have hloop := Vault.forList_invariant (I := fun _ u => v₁.Steady u)
    (fun _ _ _ _ hu hstep => hu.trans (Vault.selectParticipant_steady hstep))
    (Vault.forParticipants_ok (fun _ _ _ hu => by
      obtain ⟨_, _, hv'⟩ := Vault.selectParticipant_tally hu
      rw [hv']
      rfl) hloop).2 (.refl v₁)
  refine (((Vault.startSelection_steady hstart).trans hloop).setRound ?_).trans
    (Vault.requestReconciliation_steady r _)
  rfl

theorem closeRound_steady {v' : Vault E64 E128 EBool}
    (h : Vault.closeRound fhe cfg w.now w.vault = .ok v') :
    v'.activeRoundId = w.vault.activeRoundId + 1 ∧
      (∀ r, (v'.rounds r).allocationCursor = (w.vault.rounds r).allocationCursor) ∧
      v'.preferenceObservations = w.vault.preferenceObservations := by
  obtain ⟨_, _, _, _, gs, rfl⟩ := Vault.closeRound_ok h
  refine ⟨rfl, fun r => ?_, rfl⟩
  rw [Vault.grant_rounds]
  by_cases hr : r = w.vault.activeRoundId + 1
  · subst hr
    rw [Vault.setRound_rounds_self]
    rfl
  · rw [Vault.setRound_rounds_of_ne hr]
    refine Vault.allocationCursor_setRound ?_ r
    rfl

/-- Only a closed round is allocated. -/
theorem processAllocation_closed {s : Nat} (hshape : w.vault.Shape fhe)
    (h : processAllocation fhe cfg sender s n w = .ok w') :
    0 < s ∧ s < w.vault.activeRoundId := by
  obtain ⟨_, _, v₁, _, _, _, _, hstart, _⟩ := processAllocation_ok h
  obtain ⟨hstate, _⟩ := Vault.startAllocation_ok hstart
  exact hshape.closed_of_state (by rcases hstate with h | h <;> rw [h] <;> nofun)
    (by rcases hstate with h | h <;> rw [h] <;> nofun)

/-- Allocating round `s` leaves the active round, the cursors of the others and the preferences
alone. -/
theorem processAllocation_steady {s : Nat} (hs : s ≠ w.vault.activeRoundId)
    (h : processAllocation fhe cfg sender s n w = .ok w') :
    w'.vault.activeRoundId = w.vault.activeRoundId ∧
      (∀ r, r ≠ s → (w'.vault.rounds r).allocationCursor =
        (w.vault.rounds r).allocationCursor) ∧
      w'.vault.preferenceObservations = w.vault.preferenceObservations := by
  obtain ⟨_, hactive, v₁, v₂, processed, v₃, e, hstart, hacc, hchunk, hloop, _, rfl⟩ :=
    processAllocation_ok h
  obtain ⟨hstate, rfl⟩ := Vault.startAllocation_ok hstart
  have hnow := Vault.uint64_lt_closesAt hactive
  have hother : ∀ r, r ≠ s → (v₃.rounds r).allocationCursor =
      (w.vault.rounds r).allocationCursor := by
    obtain ⟨_, _, _, _, hother, ⟨_, _, _, _, hopen⟩, _⟩ :=
      processAllocation_allocating (w := w) hs hnow hacc hloop
    intro r hr
    by_cases hra : r = w.vault.activeRoundId
    · rw [hra, hopen]
    · rw [hother r hr hra]
  have hprefs : v₃.activeRoundId = w.vault.activeRoundId ∧
      v₃.preferenceObservations = w.vault.preferenceObservations := by
    refine Vault.forList_invariant
      (I := fun _ u => u.activeRoundId = w.vault.activeRoundId ∧
        u.preferenceObservations = w.vault.preferenceObservations) ?_
      (Vault.forParticipants_ok
        (fun _ _ _ hu => congrFun (Vault.allocateParticipant_participants hu) s) hloop).2 ?_
    · rintro a _ u u' ⟨hu, hu'⟩ hstep
      obtain ⟨_, _, _, _, _, gs, _, _, _, _, rfl⟩ :=
        Vault.allocateParticipant_ok (hu ▸ hs) hstep
      exact ⟨hu, hu'⟩
    · obtain ⟨_, gs, rfl⟩ := Vault.accrueEligible_ok hacc
      exact ⟨rfl, rfl⟩
  rw [Vault.finishAllocation_eq]
  refine ⟨hprefs.1, fun r hr => ?_, hprefs.2⟩
  rw [Vault.setRound_rounds_of_ne hr, Vault.setRound_rounds_of_ne hr]
  exact hother r hr

/-- Every call but three is steady. -/
theorem exec_steady (hsender : cfg.External sender) {c : Call E64 E128 EBool}
    (hclose : c ≠ .closeRound) (hallocate : ∀ s n, c ≠ .processAllocation s n)
    (hprefer : ∀ p, c ≠ .setAutoSavePreference p) (h : exec fhe E cfg sender w c = .ok w') :
    w.vault.Steady w'.vault := by
  have hres : c.reserved = false := by
    by_contra hne
    exact exec_reserved hsender (Bool.not_eq_false _ ▸ hne) h
  cases c with
  | registerForRound value s =>
    obtain ⟨e, v, _, hv, rfl⟩ := registerForRound_ok h
    obtain ⟨_, _, rfl, _, _, _, gs, rfl⟩ := Vault.acceptBondRegistration_ok hv
    refine Vault.Steady.grant (Vault.Steady.setRound ?_ ?_) gs
    · exact ⟨rfl, fun _ => rfl, rfl⟩
    · rfl
  | deposit n d =>
    obtain ⟨x₁, sent, v, accepted, x₂, _, hv, _, rfl⟩ := deposit_ok h
    obtain ⟨_, _, _, v₁, v₂, gs, hcheck, hchange, rfl⟩ :=
      Vault.onConfidentialTransferReceived_ok hv
    obtain ⟨h1, h2, h3⟩ := Vault.changeEligible_steady hchange
    exact (Vault.checkpointUser_steady hcheck).trans ⟨h1, h2, h3⟩
  | withdraw input =>
    obtain ⟨⟨w₁, sent⟩, hop, rfl⟩ := map_eq_ok.1 h
    obtain ⟨_, x, v, _, hv, rfl⟩ := withdraw_ok hop
    obtain ⟨v₁, v₂, gs, hcheck, hchange, rfl⟩ := Vault.recordWithdrawal_ok hv
    obtain ⟨h1, h2, h3⟩ := Vault.changeEligible_steady hchange
    exact (Vault.checkpointUser_steady hcheck).trans ⟨h1, h2, h3⟩
  | contributeSponsor r units =>
    obtain ⟨_, x₁, x₂, wrapped, gs, _, _, rfl⟩ := contributeSponsor_ok h
    exact ⟨rfl, fun _ => rfl, rfl⟩
  | openStrategyEpoch kind =>
    obtain ⟨⟨w₁, id⟩, hop, rfl⟩ := map_eq_ok.1 h
    obtain ⟨_, _, _, _, epoch, _, _, _, rfl⟩ := openStrategyEpoch_ok hop
    exact ⟨rfl, fun _ => rfl, rfl⟩
  | requestStrategyAmount id =>
    obtain ⟨_, _, _, _, ⟨_, n, x, req, gs, _, _, rfl⟩ | ⟨_, d, gs, rfl⟩⟩ :=
      requestStrategyAmount_ok h <;> exact ⟨rfl, fun _ => rfl, rfl⟩
  | finalizeStrategyDeployment id n proof =>
    obtain ⟨_, _, _, x₁, x₂, a, x₃, x₄, gs, _, _, _, _, rfl⟩ := finalizeStrategyDeployment_ok h
    exact ⟨rfl, fun _ => rfl, rfl⟩
  | finalizeStrategyReplenishment id c proof =>
    obtain ⟨_, _, n, _, _, a, x₁, x₂, wrapped, gs, _, _, rfl⟩ := finalizeStrategyReplenishment_ok h
    exact ⟨rfl, fun _ => rfl, rfl⟩
  | harvestStrategyYield =>
    obtain ⟨⟨w₁, n⟩, hop, rfl⟩ := map_eq_ok.1 h
    obtain ⟨a, x₁, recovered, _, ⟨_, rfl⟩ | ⟨x₂, wrapped, v, _, hv, rfl⟩⟩ :=
      harvestStrategyYield_ok hop
    · exact .refl _
    · obtain ⟨_, gs, rfl⟩ := Vault.realizeSurplus_ok hv
      exact ⟨rfl, fun _ => rfl, rfl⟩
  | setStrategyPaused paused =>
    obtain rfl := setStrategyPaused_ok h
    exact .refl _
  | emergencyUnwindStrategy =>
    obtain ⟨a, x₁, recovered, shortfall, x₂, v, gs, _, _, _, _, hv, rfl⟩ :=
      emergencyUnwindStrategy_ok h
    rcases hv with ⟨_, rfl⟩ | ⟨_, hv⟩
    · exact ⟨rfl, fun _ => rfl, rfl⟩
    · obtain ⟨_, gs', rfl⟩ := Vault.realizeSurplus_ok hv
      exact ⟨rfl, fun _ => rfl, rfl⟩
  | cancelAgingStrategyEpoch id =>
    obtain ⟨_, _, rfl⟩ := cancelAgingStrategyEpoch_ok h
    exact ⟨rfl, fun _ => rfl, rfl⟩
  | cancelExpiredStrategyEpoch id n proof =>
    obtain ⟨_, ⟨_, rfl⟩ | ⟨_, _, x₁, x₂, wrapped, gs, _, _, rfl⟩⟩ :=
      cancelExpiredStrategyEpoch_ok h <;> exact ⟨rfl, fun _ => rfl, rfl⟩
  | finalizeAggregate s c proof =>
    obtain ⟨v, hv, rfl⟩ := onVault_eq_ok.1 h
    obtain ⟨_, n, _, _, rfl⟩ := Vault.finalizeAggregate_ok hv
    refine (Vault.Steady.refl _).setRound ?_
    rfl
  | generateRandomCandidate s candidate =>
    obtain ⟨v, hv, rfl⟩ := onVault_eq_ok.1 h
    obtain ⟨_, _, _, round, attempts, gs, rfl, hround⟩ := Vault.generateRandomCandidate_ok hv
    refine Vault.Steady.grant (Vault.Steady.setRound ?_ ?_) gs
    · exact ⟨rfl, fun _ => rfl, rfl⟩
    · rcases hround with ⟨_, rfl⟩ | ⟨_, rfl⟩ <;> rfl
  | finalizeCandidateValidity s c proof =>
    obtain ⟨v, hv, rfl⟩ := onVault_eq_ok.1 h
    obtain ⟨_, valid, gs, _, rfl⟩ := Vault.finalizeCandidateValidity_ok hv
    refine ((Vault.Steady.refl _).setRound ?_).grant gs
    split_ifs <;> rfl
  | processSelection s n => exact processSelection_steady h
  | finalizeSelectionReconciliation s c proof =>
    obtain ⟨v, hv, rfl⟩ := onVault_eq_ok.1 h
    obtain ⟨_, valid, _, rfl⟩ := Vault.finalizeSelectionReconciliation_ok hv
    refine (Vault.Steady.refl _).setRound ?_
    rfl
  | finalizeSettlement s => exact settle_steady (finalizeSettlement_ok h).2
  | recoverFailedReconciliation s =>
    obtain ⟨_, v, hroll, hsettle⟩ := recoverFailedReconciliation_ok h
    exact (Vault.rollPrizeForward_steady hroll).trans (settle_steady hsettle)
  | settleEmptyRound s =>
    obtain ⟨_, v, hroll, hsettle⟩ := settleEmptyRound_ok h
    exact (Vault.rollPrizeForward_steady hroll).trans (settle_steady hsettle)
  | withdrawWinnings input =>
    obtain ⟨⟨w₁, sent⟩, hop, rfl⟩ := map_eq_ok.1 h
    obtain ⟨x, gs, _, rfl⟩ := withdrawWinnings_ok hop
    exact ⟨rfl, fun _ => rfl, rfl⟩
  | materializeMyRoundWeight s =>
    simp only [exec, onVault_eq_ok, map_eq_ok, Prod.exists] at h
    obtain ⟨v, ⟨v', weight, hv, rfl⟩, rfl⟩ := h
    obtain ⟨gs, rfl⟩ := Vault.materializeMyRoundWeight_ok hv
    exact ⟨rfl, fun _ => rfl, rfl⟩
  | claimBondRefund s accepts | withdrawSettlementRewards accepts =>
    obtain ⟨e, _, rfl⟩ := onEscrow_eq_ok.1 h
    exact .refl _
  | setPaused paused =>
    obtain ⟨a, _, rfl⟩ := map_eq_ok.1 h
    exact .refl _
  | closeRound => exact absurd rfl hclose
  | processAllocation s n => exact absurd rfl (hallocate s n)
  | setAutoSavePreference p => exact absurd rfl (hprefer p)
  | acceptBondRegistration | onConfidentialTransferReceived | creditProgress | finalizeRound
  | deployAssets | withdrawPrincipal | harvest | emergencyExit => cases hres

/-- A call that does not allocate round `r` leaves its allocation cursor alone. -/
theorem exec_allocationCursor (hsender : cfg.External sender) (hshape : w.vault.Shape fhe)
    {c : Call E64 E128 EBool} (hc : ∀ n, c ≠ .processAllocation r n)
    (h : exec fhe E cfg sender w c = .ok w') :
    (w'.vault.rounds r).allocationCursor = (w.vault.rounds r).allocationCursor := by
  by_cases hclose : c = .closeRound
  · subst hclose
    obtain ⟨v, hv, rfl⟩ := onVault_eq_ok.1 h
    exact (closeRound_steady hv).2.1 r
  by_cases hallocate : ∃ s n, c = .processAllocation s n
  · obtain ⟨s, n, rfl⟩ := hallocate
    have hne : r ≠ s := by
      rintro rfl
      exact hc n rfl
    exact (processAllocation_steady (processAllocation_closed hshape h).2.ne h).2.1 r hne
  by_cases hprefer : ∃ p, c = .setAutoSavePreference p
  · obtain ⟨p, rfl⟩ := hprefer
    simp only [exec, onVault_eq_ok, ok_eq_ok] at h
    obtain ⟨v, rfl, rfl⟩ := h
    rfl
  · exact (exec_steady hsender hclose (fun s n hc => hallocate ⟨s, n, hc⟩)
      (fun p hc => hprefer ⟨p, hc⟩) h).allocationCursor r

/-- Only `closeRound` opens a round. -/
theorem exec_activeRoundId (hsender : cfg.External sender) (hshape : w.vault.Shape fhe)
    {c : Call E64 E128 EBool} (h : exec fhe E cfg sender w c = .ok w') :
    w'.vault.activeRoundId = w.vault.activeRoundId ∨
      (c = .closeRound ∧ w'.vault.activeRoundId = w.vault.activeRoundId + 1) := by
  by_cases hclose : c = .closeRound
  · subst hclose
    obtain ⟨v, hv, rfl⟩ := onVault_eq_ok.1 h
    exact .inr ⟨rfl, (closeRound_steady hv).1⟩
  by_cases hallocate : ∃ s n, c = .processAllocation s n
  · obtain ⟨s, n, rfl⟩ := hallocate
    exact .inl (processAllocation_steady (processAllocation_closed hshape h).2.ne h).1
  by_cases hprefer : ∃ p, c = .setAutoSavePreference p
  · obtain ⟨p, rfl⟩ := hprefer
    simp only [exec, onVault_eq_ok, ok_eq_ok] at h
    obtain ⟨v, rfl, rfl⟩ := h
    exact .inl rfl
  · exact .inl (exec_steady hsender hclose (fun s n hc => hallocate ⟨s, n, hc⟩)
      (fun p hc => hprefer ⟨p, hc⟩) h).activeRoundId

end World

end Leopold
