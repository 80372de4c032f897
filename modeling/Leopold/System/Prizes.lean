import Leopold.System.Settlement
import Leopold.System.Lifecycle
import Leopold.System.Payments

/-!
# The public and the encrypted prizes

A prize is kept twice, in clear and encrypted: while it is sponsored, while it is uncommitted
yield, and as the reserve of a closed round until its allocation begins.  Every operation moves
both by the same amount, and the tokens that back the prizes fit into 64 bits, so no sum of public
prizes overflows.
-/

namespace Leopold

open Lib

section

variable {E64 E128 EBool X : Type} {fhe : Fhe E64 E128 EBool} {E : Externals E64 EBool X}
  {cfg : Config}

/-! ## What leaves the prizes alone -/

namespace Vault

/-- The two vaults hold the same sponsored prizes and the same uncommitted yield. -/
structure SamePrizes (v v' : Vault E64 E128 EBool) : Prop where
  sponsored : v'.sponsoredPrize = v.sponsoredPrize
  publicSponsored : v'.publicSponsoredPrize = v.publicSponsoredPrize
  uncommitted : v'.uncommittedYield = v.uncommittedYield
  publicUncommitted : v'.publicUncommittedYield = v.publicUncommittedYield

variable {v v' u : Vault E64 E128 EBool} {r t : Nat} {a : Address}

theorem SamePrizes.refl (v : Vault E64 E128 EBool) : v.SamePrizes v := ⟨rfl, rfl, rfl, rfl⟩

theorem SamePrizes.trans (h : v.SamePrizes u) (h' : u.SamePrizes v') : v.SamePrizes v' :=
  ⟨h'.1.trans h.1, h'.2.trans h.2, h'.3.trans h.3, h'.4.trans h.4⟩

theorem checkpointUser_samePrizes {b : E64} (h : checkpointUser fhe cfg a b t v = .ok v') :
    v.SamePrizes v' := by
  obtain ⟨obs, c, gs, _, rfl⟩ := checkpointUser_ok h
  exact ⟨rfl, rfl, rfl, rfl⟩

theorem accrueEligible_samePrizes (h : accrueEligible fhe cfg r t v = .ok v') :
    v.SamePrizes v' := by
  obtain ⟨_, gs, rfl⟩ := accrueEligible_ok h
  exact ⟨rfl, rfl, rfl, rfl⟩

theorem changeEligible_samePrizes {f : E64 → E64} (h : changeEligible fhe cfg a f t v = .ok v') :
    v.SamePrizes v' := by
  rcases changeEligible_ok h with ⟨_, rfl⟩ | ⟨_, _, gs, rfl⟩ <;> exact ⟨rfl, rfl, rfl, rfl⟩

theorem startSelection_samePrizes (h : startSelection fhe cfg r v = .ok v') :
    v.SamePrizes v' := by
  rcases startSelection_ok h with ⟨_, gs, rfl⟩ | ⟨_, rfl⟩ <;> exact ⟨rfl, rfl, rfl, rfl⟩

theorem selectParticipant_samePrizes (h : selectParticipant fhe cfg r a v = .ok v') :
    v.SamePrizes v' := by
  obtain ⟨weight, gs, _, rfl⟩ := selectParticipant_ok h
  exact ⟨rfl, rfl, rfl, rfl⟩

theorem requestReconciliation_samePrizes (r : Nat) (v : Vault E64 E128 EBool) :
    v.SamePrizes (v.requestReconciliation fhe cfg r) := by
  rcases requestReconciliation_eq fhe cfg r v with ⟨_, gs, heq⟩ | ⟨_, heq⟩ <;>
    rw [heq] <;> exact ⟨rfl, rfl, rfl, rfl⟩

theorem bookAllocation_samePrizes {prize autoSaved : E64} (v : Vault E64 E128 EBool) :
    v.SamePrizes (v.bookAllocation fhe cfg r a prize autoSaved) := by
  unfold bookAllocation
  by_cases hs : v.eligibilityStart v.activeRoundId a ≠ 0
  · simp only [if_pos hs]
    exact ⟨rfl, rfl, rfl, rfl⟩
  · simp only [if_neg hs]
    exact ⟨rfl, rfl, rfl, rfl⟩

theorem allocateParticipant_samePrizes {now : Nat}
    (h : allocateParticipant fhe cfg r now a v = .ok v') : v.SamePrizes v' := by
  simp only [allocateParticipant, seq_eq_ok, pure_eq_ok, ok_eq_ok] at h
  obtain ⟨_, _, v₁, hcheck, rfl⟩ := h
  exact (checkpointUser_samePrizes hcheck).trans (bookAllocation_samePrizes v₁)

/-- A loop leaves the prizes alone when its body does. -/
theorem forParticipants_samePrizes
    {body : Address → Vault E64 E128 EBool → Except Revert (Vault E64 E128 EBool)}
    (hbody : ∀ a u u', body a u = .ok u' → u.SamePrizes u') {cursor count : Nat}
    (h : forParticipants body r cursor count v = .ok v') : v.SamePrizes v' := by
  induction count generalizing cursor v with
  | zero =>
    rw [forParticipants, ok_eq_ok] at h
    exact h ▸ .refl v
  | succ count ih =>
    simp only [forParticipants, seq_eq_ok, orRevert_eq_ok] at h
    obtain ⟨a, _, v₁, hb, h⟩ := h
    exact (hbody a v v₁ hb).trans (ih h)

end Vault

/-- The calls that move a prize. -/
def Call.movesPrizes : Call E64 E128 EBool → Bool
  | .contributeSponsor .. | .harvestStrategyYield | .emergencyUnwindStrategy | .closeRound
  | .recoverFailedReconciliation .. | .settleEmptyRound .. => true
  | _ => false

namespace World

variable {w w' : World E64 E128 EBool X} {sender : Address} {r n : Nat}

theorem processSelection_samePrizes (h : processSelection fhe cfg sender r n w = .ok w') :
    w.vault.SamePrizes w'.vault := by
  obtain ⟨_, v₁, processed, v₂, e, hstart, _, hloop, _, rfl⟩ := processSelection_ok h
  have hrun := (Vault.startSelection_samePrizes hstart).trans
    (Vault.forParticipants_samePrizes (fun _ _ _ => Vault.selectParticipant_samePrizes) hloop)
  refine (hrun.trans ?_).trans (Vault.requestReconciliation_samePrizes r _)
  exact ⟨rfl, rfl, rfl, rfl⟩

theorem processAllocation_samePrizes (h : processAllocation fhe cfg sender r n w = .ok w') :
    w.vault.SamePrizes w'.vault := by
  obtain ⟨_, _, v₁, v₂, processed, v₃, e, hstart, hacc, _, hloop, _, rfl⟩ := processAllocation_ok h
  obtain ⟨_, rfl⟩ := Vault.startAllocation_ok hstart
  have hrun := (Vault.accrueEligible_samePrizes hacc).trans
    (Vault.forParticipants_samePrizes (fun _ _ _ => Vault.allocateParticipant_samePrizes) hloop)
  rw [Vault.finishAllocation_eq]
  exact ⟨hrun.1, hrun.2, hrun.3, hrun.4⟩

/-- Every call but six leaves the prizes alone. -/
theorem exec_samePrizes (hsender : cfg.External sender) {c : Call E64 E128 EBool}
    (hc : c.movesPrizes = false) (h : exec fhe E cfg sender w c = .ok w') :
    w.vault.SamePrizes w'.vault := by
  have hres : c.reserved = false := by
    by_contra hne
    exact exec_reserved hsender (Bool.not_eq_false _ ▸ hne) h
  cases c with
  | registerForRound value s =>
    obtain ⟨e, v, _, hv, rfl⟩ := registerForRound_ok h
    obtain ⟨_, _, rfl, _, _, _, gs, rfl⟩ := Vault.acceptBondRegistration_ok hv
    exact ⟨rfl, rfl, rfl, rfl⟩
  | deposit n d =>
    obtain ⟨x₁, sent, v, accepted, x₂, _, hv, _, rfl⟩ := deposit_ok h
    obtain ⟨_, _, _, v₁, v₂, gs, hcheck, hchange, rfl⟩ :=
      Vault.onConfidentialTransferReceived_ok hv
    obtain ⟨h1, h2, h3, h4⟩ := Vault.changeEligible_samePrizes hchange
    exact (Vault.checkpointUser_samePrizes hcheck).trans ⟨h1, h2, h3, h4⟩
  | withdraw input =>
    obtain ⟨⟨w₁, sent⟩, hop, rfl⟩ := map_eq_ok.1 h
    obtain ⟨_, x, v, _, hv, rfl⟩ := withdraw_ok hop
    obtain ⟨v₁, v₂, gs, hcheck, hchange, rfl⟩ := Vault.recordWithdrawal_ok hv
    obtain ⟨h1, h2, h3, h4⟩ := Vault.changeEligible_samePrizes hchange
    exact (Vault.checkpointUser_samePrizes hcheck).trans ⟨h1, h2, h3, h4⟩
  | openStrategyEpoch kind =>
    obtain ⟨⟨w₁, id⟩, hop, rfl⟩ := map_eq_ok.1 h
    obtain ⟨_, _, _, _, epoch, _, _, _, rfl⟩ := openStrategyEpoch_ok hop
    exact ⟨rfl, rfl, rfl, rfl⟩
  | requestStrategyAmount id =>
    obtain ⟨_, _, _, _, ⟨_, n, x, req, gs, _, _, rfl⟩ | ⟨_, d, gs, rfl⟩⟩ :=
      requestStrategyAmount_ok h <;> exact ⟨rfl, rfl, rfl, rfl⟩
  | finalizeStrategyDeployment id n proof =>
    obtain ⟨_, _, _, x₁, x₂, a, x₃, x₄, gs, _, _, _, _, rfl⟩ := finalizeStrategyDeployment_ok h
    exact ⟨rfl, rfl, rfl, rfl⟩
  | finalizeStrategyReplenishment id c proof =>
    obtain ⟨_, _, n, _, _, a, x₁, x₂, wrapped, gs, _, _, rfl⟩ := finalizeStrategyReplenishment_ok h
    exact ⟨rfl, rfl, rfl, rfl⟩
  | setStrategyPaused paused =>
    obtain rfl := setStrategyPaused_ok h
    exact .refl _
  | cancelAgingStrategyEpoch id =>
    obtain ⟨_, _, rfl⟩ := cancelAgingStrategyEpoch_ok h
    exact ⟨rfl, rfl, rfl, rfl⟩
  | cancelExpiredStrategyEpoch id n proof =>
    obtain ⟨_, ⟨_, rfl⟩ | ⟨_, _, x₁, x₂, wrapped, gs, _, _, rfl⟩⟩ :=
      cancelExpiredStrategyEpoch_ok h <;> exact ⟨rfl, rfl, rfl, rfl⟩
  | finalizeAggregate s c proof =>
    obtain ⟨v, hv, rfl⟩ := onVault_eq_ok.1 h
    obtain ⟨_, n, _, _, rfl⟩ := Vault.finalizeAggregate_ok hv
    exact ⟨rfl, rfl, rfl, rfl⟩
  | generateRandomCandidate s candidate =>
    obtain ⟨v, hv, rfl⟩ := onVault_eq_ok.1 h
    obtain ⟨_, _, _, round, attempts, gs, rfl, _⟩ := Vault.generateRandomCandidate_ok hv
    exact ⟨rfl, rfl, rfl, rfl⟩
  | finalizeCandidateValidity s c proof =>
    obtain ⟨v, hv, rfl⟩ := onVault_eq_ok.1 h
    obtain ⟨_, valid, gs, _, rfl⟩ := Vault.finalizeCandidateValidity_ok hv
    exact ⟨rfl, rfl, rfl, rfl⟩
  | processSelection s n => exact processSelection_samePrizes h
  | finalizeSelectionReconciliation s c proof =>
    obtain ⟨v, hv, rfl⟩ := onVault_eq_ok.1 h
    obtain ⟨_, valid, _, rfl⟩ := Vault.finalizeSelectionReconciliation_ok hv
    exact ⟨rfl, rfl, rfl, rfl⟩
  | processAllocation s n => exact processAllocation_samePrizes h
  | finalizeSettlement s =>
    obtain ⟨e, _, rfl⟩ := settle_ok (finalizeSettlement_ok h).2
    exact ⟨rfl, rfl, rfl, rfl⟩
  | withdrawWinnings input =>
    obtain ⟨⟨w₁, sent⟩, hop, rfl⟩ := map_eq_ok.1 h
    obtain ⟨x, gs, _, rfl⟩ := withdrawWinnings_ok hop
    exact ⟨rfl, rfl, rfl, rfl⟩
  | materializeMyRoundWeight s =>
    simp only [exec, onVault_eq_ok, map_eq_ok, Prod.exists] at h
    obtain ⟨v, ⟨v', weight, hv, rfl⟩, rfl⟩ := h
    obtain ⟨gs, rfl⟩ := Vault.materializeMyRoundWeight_ok hv
    exact ⟨rfl, rfl, rfl, rfl⟩
  | setAutoSavePreference preference =>
    simp only [exec, onVault_eq_ok, ok_eq_ok] at h
    obtain ⟨v, rfl, rfl⟩ := h
    exact ⟨rfl, rfl, rfl, rfl⟩
  | claimBondRefund s accepts | withdrawSettlementRewards accepts =>
    obtain ⟨e, _, rfl⟩ := onEscrow_eq_ok.1 h
    exact .refl _
  | setPaused paused =>
    obtain ⟨a, _, rfl⟩ := map_eq_ok.1 h
    exact .refl _
  | acceptBondRegistration | onConfidentialTransferReceived | creditProgress | finalizeRound
  | deployAssets | withdrawPrincipal | harvest | emergencyExit => cases hres
  | _ => cases hc

end World

end

/-! ## The prizes in clear -/

section

variable {X : Type} {E : Externals Nat Bool X} {O : Observables X} {cfg : Config}

namespace Vault

/-- The open prizes are kept in clear as they are encrypted. -/
structure InClear (v : PlainVault) : Prop where
  sponsored : ∀ r, v.activeRoundId ≤ r → v.publicSponsoredPrize r = v.sponsoredPrize r
  uncommitted : v.publicUncommittedYield = v.uncommittedYield

/-- So are the prizes of the closed rounds until their allocation begins. -/
structure Published (v : PlainVault) : Prop extends v.InClear where
  prize : ∀ r, 0 < r → r < v.activeRoundId → (v.rounds r).allocationCursor = 0 →
    (v.rounds r).state ≠ .settled → (v.rounds r).publicPrize = (v.rounds r).reservedPrize

variable {v v' : PlainVault} {r : Nat} {balance basis rate : Nat}

/-- What backs the open prizes: together they are tokens the vault holds. -/
theorem sponsored_le (h : (v.books balance basis).Kept rate) (hr : v.activeRoundId ≤ r) :
    v.sponsoredPrize r + v.uncommittedYield + v.reservedPrize ≤ v.liquidPrizeAssets := by
  have hsplit := h.prize_split
  have hsurplus := h.surplus_eq
  have hzero := h.sponsored_zero r
  simp only [books] at hsplit hsurplus hzero
  by_cases hfar : v.activeRoundId + 2 ≤ r
  · rw [hzero hfar]
    omega
  · obtain rfl | rfl : r = v.activeRoundId ∨ r = v.activeRoundId + 1 := by omega
    · omega
    · omega

/-- The prize of a round stays published while the round is not allocated. -/
theorem Published.prize_step (h : v.Published) (hB : (v.books balance basis).Kept rate)
    (hstep : RoundStep Fhe.plain cfg r v v') (hr : 0 < r) (hlt' : r < v'.activeRoundId)
    (hcursors : ∃ n, (v'.rounds r).state.Cursors n (v'.rounds r).selectionCursor
      (v'.rounds r).allocationCursor)
    (hzero : (v'.rounds r).allocationCursor = 0) (hsettled : (v'.rounds r).state ≠ .settled) :
    (v'.rounds r).publicPrize = (v'.rounds r).reservedPrize := by
  cases hstep with
  | same hround _ _ hactive =>
    rw [hround] at hzero hsettled ⊢
    exact h.prize r hr (by omega) hzero hsettled
  | accrue hra _ _ _ _ hactive => omega
  | close hra hround =>
    subst hra
    rw [hround]
    have hle := sponsored_le hB (Nat.le_refl v.activeRoundId)
    have hsolvent := hB.solvent
    have hbal := hB.balance_lt
    simp only [books] at hsolvent hbal
    show v.publicSponsoredPrize v.activeRoundId + v.publicUncommittedYield =
      Fhe.plain.add64 (v.sponsoredPrize v.activeRoundId) v.uncommittedYield
    rw [h.sponsored _ (Nat.le_refl _), h.uncommitted, Fhe.plain_add64 (by omega)]
  | opened hra _ _ _ hactive => omega
  | move hmove _ _ hactive =>
    have hlt : r < v.activeRoundId := by omega
    generalize v'.rounds r = round at hmove hzero hsettled
    have hkept : (v.rounds r).allocationCursor = 0 → (v.rounds r).state ≠ .settled →
        (v.rounds r).publicPrize = (v.rounds r).reservedPrize := h.prize r hr hlt
    cases hmove with
    | aggregate hs | accept hs | reject hs | reconcile hs =>
      exact hkept hzero (by rw [hs]; rintro ⟨⟩)
    | take hs | propose hs =>
      exact hkept hzero (by rcases hs with hs | hs <;> rw [hs] <;> rintro ⟨⟩)
    | settle | rollForward => exact absurd rfl hsettled
  | select hs _ _ _ _ hround _ _ hactive =>
    have hkept := h.prize r hr (by omega)
    rw [hround, selectedRound] at hzero ⊢
    have hne : (v.rounds r).state ≠ .settled := by
      rcases hs with hs | hs <;> rw [hs] <;> rintro ⟨⟩
    split_ifs at hzero ⊢ <;> exact hkept hzero hne
  | allocate hs _ _ hround _ _ hactive =>
    -- after a chunk the allocation has begun
    obtain ⟨n, hc⟩ := hcursors
    have hstate : (v'.rounds r).state = .winningsAllocated ∨
        (v'.rounds r).state = .allocationProcessing := by
      rw [hround]
      dsimp only
      split_ifs
      · exact .inl rfl
      · exact .inr rfl
    rw [hzero] at hc
    rcases hstate with hs | hs <;> rw [hs] at hc <;> simp only [RoundState.Cursors] at hc <;>
      omega

end Vault

namespace World

variable {w w' : PlainWorld X} {sender : Address} {r : Nat}

section

variable (hE : E.Lawful O cfg.vault cfg.asset) (hcfg : Deployed E cfg)
  (hs : (w.ledger O cfg).Kept E.rate) (h : w.vault.InClear)

include hE hs h

include hcfg in
theorem contributeSponsor_public {units : Nat}
    (hop : contributeSponsor Fhe.plain E cfg sender r units w = .ok w') :
    w'.vault.InClear := by
  obtain ⟨hr, x₁, x₂, wrapped, gs, hpay, hwrap, rfl⟩ := contributeSponsor_ok hop
  obtain ⟨rfl, hb, _⟩ := Vault.wrapUnderlying_mul hE hcfg hwrap
  rw [(hE.safeTransferFrom hpay).1] at hb
  have hactive : w.vault.activeRoundId ≤ r := by omega
  have hlt := hE.balance_lt x₂ cfg.vault
  have hle := Vault.sponsored_le hs hactive
  have hsolvent := hs.solvent
  simp only [ledger, Vault.books] at hsolvent
  refine ⟨fun s hsr => ?_, h.uncommitted⟩
  simp only [Vault.grant, Function.update_apply]
  split_ifs with heq
  · rw [h.sponsored r hactive, Fhe.plain_add64 (by omega)]
  · exact h.sponsored s hsr

theorem harvestStrategyYield_public {harvested : Nat}
    (hop : harvestStrategyYield Fhe.plain E cfg w = .ok (w', harvested)) :
    w'.vault.InClear := by
  obtain ⟨a, x₁, recovered, h1, hrest⟩ := harvestStrategyYield_ok hop
  obtain ⟨_, hl₁⟩ := Adapter.harvest_ok hE h1
  rcases hrest with ⟨_, rfl⟩ | ⟨x₂, wrapped, v, h2, h3, rfl⟩
  · exact ⟨h.sponsored, h.uncommitted⟩
  · obtain ⟨hwrapped, hb, _⟩ := Vault.wrapUnderlying_lawful hE h2
    obtain ⟨_, gs, rfl⟩ := Vault.realizeSurplus_ok h3
    have hlt := hE.balance_lt x₂ cfg.vault
    have hle := Vault.sponsored_le hs (Nat.le_refl w.vault.activeRoundId)
    have hsolvent := hs.solvent
    simp only [ledger, Vault.books] at hsolvent
    rw [hl₁.1] at hb
    refine ⟨h.sponsored, ?_⟩
    show w.vault.publicUncommittedYield + uint64 (recovered / E.rate) =
      Fhe.plain.add64 w.vault.uncommittedYield wrapped
    rw [← hwrapped, h.uncommitted, uint64, Nat.mod_eq_of_lt (by omega),
      Fhe.plain_add64 (by omega)]

/-- The surplus of an emergency exit is covered by the tokens wrapped. -/
theorem emergencyUnwindStrategy_public
    (hop : emergencyUnwindStrategy Fhe.plain E cfg w = .ok w') : w'.vault.InClear := by
  obtain ⟨a, x₁, recovered, shortfall, x₂, v, gs, h1, hr, _, hwrap, hv, rfl⟩ :=
    emergencyUnwindStrategy_ok hop
  obtain ⟨_, rfl, hl₁⟩ := Adapter.emergencyExit_ok hE h1
  rcases hv with ⟨_, rfl⟩ | ⟨hsurplus, hv⟩
  · exact ⟨h.sponsored, h.uncommitted⟩
  · obtain ⟨_, gs', rfl⟩ := Vault.realizeSurplus_ok hv
    rcases hwrap with ⟨rfl, _⟩ | ⟨wrapped, hwrap⟩
    · exact absurd (Nat.zero_sub _) hsurplus
    · obtain ⟨rfl, hb, _⟩ := Vault.wrapUnderlying_lawful hE hwrap
      have hlt := hE.balance_lt x₂ cfg.vault
      have hle := Vault.sponsored_le hs (Nat.le_refl w.vault.activeRoundId)
      have hsolvent := hs.solvent
      simp only [ledger, Vault.books] at hsolvent
      rw [hl₁.1] at hb
      have hpart : (recovered - min recovered w.adapter.deployedPrincipalBasis) / E.rate ≤
          recovered / E.rate := Nat.div_le_div_right (Nat.sub_le _ _)
      generalize (recovered - min recovered w.adapter.deployedPrincipalBasis) / E.rate = m at *
      refine ⟨h.sponsored, ?_⟩
      show w.vault.publicUncommittedYield + uint64 m =
        Fhe.plain.add64 w.vault.uncommittedYield (Fhe.plain.asEuint64 (uint64 m))
      rw [uint64, Nat.mod_eq_of_lt (by omega), h.uncommitted, Fhe.plain_asEuint64 (by omega),
        Fhe.plain_add64 (by omega)]

omit hE hs in
theorem closeRound_public {now : Nat} {v : PlainVault}
    (hop : w.vault.closeRound Fhe.plain cfg now = .ok v) : v.InClear := by
  obtain ⟨_, _, _, _, gs, rfl⟩ := Vault.closeRound_ok hop
  exact ⟨fun r hr => h.sponsored r (Nat.le_of_succ_le hr), rfl⟩

end

/-- A prize that rolls forward joins the sponsored prizes of the open round. -/
theorem rollPrizeForward_public {v : PlainVault} (hs : (w.ledger O cfg).Kept E.rate)
    (h : w.vault.Published) (hr : 0 < r) (hlt : r < w.vault.activeRoundId)
    (hzero : (w.vault.rounds r).allocationCursor = 0)
    (hsettled : (w.vault.rounds r).state ≠ .settled)
    (hop : w.vault.rollPrizeForward Fhe.plain cfg r = .ok v) : v.InClear := by
  obtain ⟨_, gs, rfl⟩ := Vault.rollPrizeForward_ok hop
  have hle := Vault.sponsored_le hs (Nat.le_refl w.vault.activeRoundId)
  have hreserved : (w.vault.rounds r).reservedPrize ≤ w.vault.reservedPrize :=
    hs.roundReserved_le r
  have hsolvent := hs.solvent
  have hbal := hs.balance_lt
  simp only [ledger, Vault.books] at hsolvent hbal
  refine ⟨fun s hsr => ?_, h.uncommitted⟩
  simp only [Vault.grant, Vault.setRound, Function.update_apply]
  split_ifs with heq
  · rw [h.sponsored _ (Nat.le_refl _), h.prize r hr hlt hzero hsettled,
      Fhe.plain_add64 (by omega)]
  · exact h.sponsored s hsr

theorem settle_public {passes : Nat} {v : PlainVault} (h : v.InClear)
    (hop : settle cfg r passes { w with vault := v } = .ok w') : w'.vault.InClear := by
  obtain ⟨e, _, rfl⟩ := settle_ok hop
  exact ⟨h.sponsored, h.uncommitted⟩

/-- A round whose prize may roll forward is closed and not allocated. -/
theorem Bonded.unallocated (hB : w.Bonded Fhe.plain cfg) (hs : (w.vault.rounds r).state = .empty ∨
    (w.vault.rounds r).state = .reconciliationFailed) :
    (0 < r ∧ r < w.vault.activeRoundId) ∧ (w.vault.rounds r).allocationCursor = 0 ∧
      (w.vault.rounds r).state ≠ .settled := by
  have hcursors := (hB.settling r).cursors
  refine ⟨hB.shape.closed_of_state ?_ ?_, ?_, ?_⟩
  · rcases hs with hs | hs <;> rw [hs] <;> rintro ⟨⟩
  · rcases hs with hs | hs <;> rw [hs] <;> rintro ⟨⟩
  · rw [Round.progress] at hcursors
    rcases hs with hs | hs <;> rw [hs] at hcursors
    · exact hcursors.2
    · exact hcursors.2.2
  · rcases hs with hs | hs <;> rw [hs] <;> rintro ⟨⟩

theorem exec_published (hE : E.Lawful O cfg.vault cfg.asset) (hcfg : Deployed E cfg)
    (hsender : cfg.External sender) (hB : w.Booked O cfg E) (hB' : w.Bonded Fhe.plain cfg)
    (hS' : w'.Settling) (h : w.vault.Published) {c : Call Nat Nat Bool}
    (hop : exec Fhe.plain E cfg sender w c = .ok w') : w'.vault.Published := by
  have hstep : ∀ r, Vault.RoundStep Fhe.plain cfg r w.vault w'.vault :=
    fun r => exec_roundStep hsender hB.shape hop r
  have hclear : w'.vault.InClear := by
    by_cases hc : c.movesPrizes = false
    · obtain ⟨h1, h2, h3, h4⟩ := exec_samePrizes hsender hc hop
      refine ⟨fun r hr => ?_, by rw [h3, h4, h.uncommitted]⟩
      rw [h1, h2]
      refine h.sponsored r (le_trans ?_ hr)
      rcases (hstep _).next with hactive | ⟨hactive, _⟩ <;> omega
    cases c with
    | contributeSponsor r units =>
      exact contributeSponsor_public hE hcfg hB.kept h.toInClear hop
    | harvestStrategyYield =>
      obtain ⟨⟨w₁, n⟩, hharvest, rfl⟩ := map_eq_ok.1 hop
      exact harvestStrategyYield_public hE hB.kept h.toInClear hharvest
    | emergencyUnwindStrategy => exact emergencyUnwindStrategy_public hE hB.kept h.toInClear hop
    | closeRound =>
      obtain ⟨v, hv, rfl⟩ := onVault_eq_ok.1 hop
      exact closeRound_public h.toInClear hv
    | recoverFailedReconciliation r =>
      obtain ⟨hs, v, hroll, hsettle⟩ := recoverFailedReconciliation_ok hop
      obtain ⟨⟨hr, hlt⟩, hzero, hne⟩ := hB'.unallocated (.inr hs)
      exact settle_public (rollPrizeForward_public hB.kept h hr hlt hzero hne hroll) hsettle
    | settleEmptyRound r =>
      obtain ⟨hs, v, hroll, hsettle⟩ := settleEmptyRound_ok hop
      obtain ⟨⟨hr, hlt⟩, hzero, hne⟩ := hB'.unallocated (.inl hs)
      exact settle_public (rollPrizeForward_public hB.kept h hr hlt hzero hne hroll) hsettle
    | _ => exact absurd rfl hc
  refine ⟨hclear, fun r hr hlt hzero hsettled => ?_⟩
  exact h.prize_step hB.kept (hstep r) hr hlt ⟨_, (hS' r).cursors⟩ hzero hsettled

theorem step_published (hE : E.Lawful O cfg.vault cfg.asset) (hcfg : Deployed E cfg)
    (hB : w.Booked O cfg E) (hB' : w.Bonded Fhe.plain cfg) (hS' : w'.Settling)
    (h : w.vault.Published) {l : Label Nat Nat Bool X} (hstep : Step Fhe.plain E cfg w l w') : w'.vault.Published := by
  cases l with
  | call sender c => exact exec_published hE hcfg hstep.1 hB hB' hS' h hstep.2
  | tick now =>
    obtain ⟨_, rfl⟩ := hstep
    exact h
  | thirdParty ext =>
    obtain ⟨_, rfl⟩ := hstep
    exact h
  | forceNative amount =>
    obtain rfl := hstep
    exact h

theorem reachable_published (hE : E.Lawful O cfg.vault cfg.asset)
    (h : (system Fhe.plain E cfg).Reachable w) : w.vault.Published := by
  refine TransitionSystem.Reachable.invariant (I := fun w => w.vault.Published) ?_ ?_ h
  · rintro w ⟨nativeBalance, now, x, hinit⟩
    obtain ⟨_, _, _, gs, rfl⟩ := construct_ok hinit
    refine ⟨⟨fun _ _ => rfl, rfl⟩, fun r hr hlt => ?_⟩
    have hlt : r < 1 := hlt
    omega
  · intro w l w' hw hP hstep
    obtain ⟨hcfg, hB, _⟩ := reachable_timed hE hw
    exact step_published hE hcfg hB (reachable_bonded hw)
      (reachable_bonded (hw.tail hstep)).settling hP hstep

/-! ## No sum of prizes overflows -/

/-- A checked sum of the vault overflowed. -/
def Overflowed (e : Revert) : Prop := e = .panic .vault .overflow

theorem wrapUnderlying_overflow {n : Nat} {x : X} :
    Avoids Overflowed (Vault.wrapUnderlying E cfg n x) :=
  .bind (.orRevert nofun) fun _ _ => .bind (.orRevert nofun) fun _ _ =>
    .bind (.orRevert nofun) fun _ _ => .ok _

theorem adapter_withdraw_overflow {n : Nat} {x : X} :
    Avoids Overflowed (Adapter.withdraw E cfg n x) :=
  .bind (.orRevert nofun) fun _ _ => .bind (.checkedSub nofun) fun _ _ =>
    .bind (.orRevert nofun) fun _ _ => .ok _

theorem adapter_harvest_overflow {a : Adapter} {x : X} :
    Avoids Overflowed (a.harvest E cfg sender x) :=
  .bind (.revertIf nofun) fun _ _ => .bind (.revertIf nofun) fun _ _ =>
    .bind (.revertIf nofun) fun _ _ => .bind (.revertIf nofun) fun _ _ =>
      .ite (fun _ => .ok _) fun _ => .bind adapter_withdraw_overflow fun _ _ => .ok _

theorem adapter_emergencyExit_overflow {a : Adapter} {x : X} :
    Avoids Overflowed (a.emergencyExit E cfg sender x) :=
  .bind (.revertIf nofun) fun _ _ => .bind (.revertIf nofun) fun _ _ =>
    .bind (.ite (fun _ => .ok _) fun _ => adapter_withdraw_overflow) fun _ _ => .ok _

/-- Surplus that the tokens held cover does not overflow the public yield. -/
theorem realizeSurplus_overflow {surplus n : Nat} {v : PlainVault}
    (h : v.publicUncommittedYield + n < 2 ^ 64) :
    Avoids Overflowed (realizeSurplus Fhe.plain cfg surplus n v) :=
  .bind (.of_eq_ok (if_pos h)) fun _ _ => .ok _

theorem harvestStrategyYield_overflow (hE : E.Lawful O cfg.vault cfg.asset)
    (hs : (w.ledger O cfg).Kept E.rate) (h : w.vault.Published) :
    Avoids Overflowed (harvestStrategyYield Fhe.plain E cfg w) := by
  refine .bind (.revertIf nofun) fun _ _ => .bind adapter_harvest_overflow fun p hp =>
    .ite (fun _ => .ok _) fun _ => .bind (.revertIf nofun) fun _ _ =>
      .bind wrapUnderlying_overflow fun q hq => .bind (realizeSurplus_overflow ?_) fun _ _ => .ok _
  obtain ⟨_, hl₁⟩ := Adapter.harvest_ok hE hp
  obtain ⟨hwrapped, hb, _⟩ := Vault.wrapUnderlying_lawful hE hq
  have hlt := hE.balance_lt q.1 cfg.vault
  have hle := Vault.sponsored_le hs (Nat.le_refl w.vault.activeRoundId)
  have hsolvent := hs.solvent
  simp only [ledger, Vault.books] at hsolvent
  rw [hl₁.1] at hb
  rw [h.uncommitted, ← hwrapped, uint64, Nat.mod_eq_of_lt (by omega)]
  omega

theorem emergencyUnwindStrategy_overflow (hE : E.Lawful O cfg.vault cfg.asset)
    (hs : (w.ledger O cfg).Kept E.rate) (h : w.vault.Published) :
    Avoids Overflowed (emergencyUnwindStrategy Fhe.plain E cfg w) := by
  refine .bind (.revertIf nofun) fun _ _ => .bind (.revertIf nofun) fun _ _ =>
    .bind adapter_emergencyExit_overflow fun p hp => .bind (.revertIf nofun) fun _ _ =>
      .bind (.ite (fun _ => .map wrapUnderlying_overflow) fun _ => .ok _) fun x hx =>
        .bind (.ite (fun hsurplus => realizeSurplus_overflow ?_) fun _ => .ok _) fun _ _ => .ok _
  obtain ⟨a, x₁, recovered, shortfall⟩ := p
  obtain ⟨_, _, hl₁⟩ := Adapter.emergencyExit_ok hE hp
  dsimp only at hsurplus hx ⊢
  have hle := Vault.sponsored_le hs (Nat.le_refl w.vault.activeRoundId)
  have hsolvent := hs.solvent
  simp only [ledger, Vault.books] at hsolvent
  -- a surplus is part of what was recovered and wrapped
  have hpart : ∀ n, (recovered - n) / E.rate ≤ recovered / E.rate :=
    fun n => Nat.div_le_div_right (Nat.sub_le _ _)
  split_ifs at hx with hrecovered
  · obtain ⟨⟨x₂, wrapped⟩, hwrap, rfl⟩ := map_eq_ok.1 hx
    obtain ⟨rfl, hb, _⟩ := Vault.wrapUnderlying_lawful hE hwrap
    have hlt := hE.balance_lt x₂ cfg.vault
    have hpart := hpart (if recovered < w.adapter.deployedPrincipalBasis then recovered
      else w.adapter.deployedPrincipalBasis)
    rw [hl₁.1] at hb
    rw [h.uncommitted, uint64, Nat.mod_eq_of_lt (by omega)]
    omega
  · rw [not_not.1 hrecovered, Nat.zero_sub] at hsurplus
    exact absurd rfl hsurplus

/-- The sums of public prizes that a close or a roll-forward makes. -/
theorem public_sums (hs : (w.ledger O cfg).Kept E.rate) (h : w.vault.Published) :
    w.vault.publicSponsoredPrize w.vault.activeRoundId + w.vault.publicUncommittedYield < 2 ^ 64 ∧
    ∀ r, 0 < r → r < w.vault.activeRoundId → (w.vault.rounds r).allocationCursor = 0 →
      (w.vault.rounds r).state ≠ .settled →
        w.vault.publicSponsoredPrize w.vault.activeRoundId + (w.vault.rounds r).publicPrize <
          2 ^ 64 := by
  have hle := Vault.sponsored_le hs (Nat.le_refl w.vault.activeRoundId)
  have hsolvent := hs.solvent
  have hbal := hs.balance_lt
  simp only [ledger, Vault.books] at hsolvent hbal
  rw [h.sponsored _ (Nat.le_refl _), h.uncommitted]
  refine ⟨by omega, fun r hr hlt hzero hsettled => ?_⟩
  have hreserved : (w.vault.rounds r).reservedPrize ≤ w.vault.reservedPrize :=
    hs.roundReserved_le r
  rw [h.prize r hr hlt hzero hsettled]
  omega

/-- A round is closed on time, whatever its prize. -/
theorem closeRound_isOk {v : PlainVault} {now : Nat} (hshape : v.Shape Fhe.plain)
    (hS : v.Scheduled cfg) (hduration : 0 < cfg.roundDuration)
    (hsum : v.publicSponsoredPrize v.activeRoundId + v.publicUncommittedYield < 2 ^ 64)
    (hover : (v.rounds v.activeRoundId).closesAt ≤ now)
    (hnext : (v.rounds v.activeRoundId).closesAt + cfg.roundDuration < 2 ^ 64) :
    ∃ v', v.closeRound Fhe.plain cfg now = .ok v' := by
  have hactive := hS.active_le hduration hshape.active_pos (Nat.le_refl _)
  have hopen : v.requireState v.activeRoundId .open = .ok () :=
    revertIf_of_not (not_not.2 hshape.active_open)
  obtain ⟨v₁, hacc⟩ := Vault.accrueEligible_isOk cfg (hS.accrued_le v.activeRoundId)
  have hround : v₁.publicSponsoredPrize = v.publicSponsoredPrize ∧
      v₁.publicUncommittedYield = v.publicUncommittedYield ∧
      (v₁.rounds v.activeRoundId).closesAt = (v.rounds v.activeRoundId).closesAt := by
    obtain ⟨_, gs, rfl⟩ := Vault.accrueEligible_ok hacc
    rw [Vault.grant_rounds, Vault.setRound_rounds_self]
    exact ⟨rfl, rfl, rfl⟩
  obtain ⟨h1, h2, h3⟩ := hround
  simp only [Vault.closeRound, hopen, revertIf_of_not (not_lt.2 hover), bind_ok, hacc, Vault.add,
    checkedAdd, h1, h2, if_pos hsum, if_pos (show v.activeRoundId + 1 < 2 ^ 256 by omega),
    Vault.initializeRound, h3, if_pos hnext]
  exact ⟨_, rfl⟩

variable (cfg) in
/-- The prize of a round that is not allocated rolls forward. -/
theorem rollPrizeForward_isOk {v : PlainVault}
    (hsum : v.publicSponsoredPrize v.activeRoundId + (v.rounds r).publicPrize < 2 ^ 64) :
    ∃ v', v.rollPrizeForward Fhe.plain cfg r = .ok v' := by
  simp only [Vault.rollPrizeForward, Vault.add, checkedAdd, if_pos hsum, bind_ok]
  exact ⟨_, rfl⟩

/-- **Public and encrypted prizes never drift.**  In every reachable state the sponsored prizes of
the rounds not yet closed, the uncommitted yield and the prizes of the closed rounds that are not
allocated are the same in clear as encrypted; no sum of public prizes overflows, so a round is
closed and a prize rolls forward whatever the prizes are. -/
theorem prizes_published (hE : E.Lawful O cfg.vault cfg.asset)
    (h : (system Fhe.plain E cfg).Reachable w) :
    (∀ r, w.vault.activeRoundId ≤ r →
      w.vault.publicSponsoredPrize r = w.vault.sponsoredPrize r) ∧
    w.vault.publicUncommittedYield = w.vault.uncommittedYield ∧
    (∀ r, 0 < r → r < w.vault.activeRoundId → (w.vault.rounds r).allocationCursor = 0 →
      (w.vault.rounds r).state ≠ .settled →
        (w.vault.rounds r).publicPrize = (w.vault.rounds r).reservedPrize) ∧
    (w.vault.publicSponsoredPrize w.vault.activeRoundId + w.vault.publicUncommittedYield <
      2 ^ 64) ∧
    (∀ r, (w.vault.rounds r).state = .empty ∨ (w.vault.rounds r).state = .reconciliationFailed →
      w.vault.publicSponsoredPrize w.vault.activeRoundId + (w.vault.rounds r).publicPrize <
        2 ^ 64) ∧
    harvestStrategyYield Fhe.plain E cfg w ≠ .error (.panic .vault .overflow) ∧
    emergencyUnwindStrategy Fhe.plain E cfg w ≠ .error (.panic .vault .overflow) ∧
    ((w.vault.rounds w.vault.activeRoundId).closesAt ≤ w.now →
      (w.vault.rounds w.vault.activeRoundId).closesAt + cfg.roundDuration < 2 ^ 64 →
        ∃ v, w.vault.closeRound Fhe.plain cfg w.now = .ok v) ∧
    (∀ r, (w.vault.rounds r).state = .empty →
      ∃ w', settleEmptyRound Fhe.plain cfg r w = .ok w') ∧
    (∀ r, (w.vault.rounds r).state = .reconciliationFailed →
      ∃ w', recoverFailedReconciliation Fhe.plain cfg r w = .ok w') := by
  obtain ⟨hcfg, hB, _⟩ := reachable_timed hE h
  have hbonded := reachable_bonded h
  have hP := reachable_published hE h
  obtain ⟨hclose, hroll⟩ := public_sums hB.kept hP
  have hidle : ∀ r, (w.vault.rounds r).state = .empty ∨
      (w.vault.rounds r).state = .reconciliationFailed →
        w.vault.publicSponsoredPrize w.vault.activeRoundId + (w.vault.rounds r).publicPrize <
          2 ^ 64 := by
    intro r hs
    obtain ⟨⟨hr, hlt⟩, hzero, hne⟩ := hbonded.unallocated hs
    exact hroll r hr hlt hzero hne
  refine ⟨hP.sponsored, hP.uncommitted, hP.prize, hclose, hidle,
    fun he => harvestStrategyYield_overflow hE hB.kept hP _ he rfl,
    fun he => emergencyUnwindStrategy_overflow hE hB.kept hP _ he rfl,
    closeRound_isOk hB.shape (reachable_scheduled h) hcfg.duration_pos hclose,
    fun r hs => ?_, fun r hs => ?_⟩
  · obtain ⟨v, hv⟩ := rollPrizeForward_isOk cfg (hidle r (.inl hs))
    obtain ⟨w', hw'⟩ := settleEmpty_isOk (v := v) hbonded hs
    refine ⟨w', ?_⟩
    simp only [settleEmptyRound, Vault.requireState, revertIf_of_not (not_not.2 hs), bind_ok, hv, hw']
  · obtain ⟨v, hv⟩ := rollPrizeForward_isOk cfg (hidle r (.inr hs))
    obtain ⟨w', hw'⟩ := recover_isOk (v := v) hbonded hs
    refine ⟨w', ?_⟩
    simp only [recoverFailedReconciliation, revertIf_of_not (not_not.2 hs), bind_ok, hv, hw']

/-- The published prizes at the end of the script. -/
theorem prizes_published_script : ∃ w, Demo.Ends w ∧
    (∀ r, w.vault.activeRoundId ≤ r →
      w.vault.publicSponsoredPrize r = w.vault.sponsoredPrize r) ∧
    w.vault.publicUncommittedYield = w.vault.uncommittedYield := by
  obtain ⟨w, hw, _⟩ := Demo.ends_allocated
  obtain ⟨hsponsored, hyield, _⟩ := prizes_published Demo.lawful hw.reachable
  exact ⟨w, hw, hsponsored, hyield⟩

end World

end

end Leopold
