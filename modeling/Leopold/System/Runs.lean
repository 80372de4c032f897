import Leopold.System.Epochs
import Mathlib.Algebra.BigOperators.Intervals
import Leopold.System.Scripts

/-!
# The books of every reachable state

The constructors leave an empty ledger, and every step of a run, whoever takes it, keeps the
invariant of the books and moves the ledger by postings.
-/

namespace Leopold

open Lib

section

variable {E64 E128 EBool X : Type} {fhe : Fhe E64 E128 EBool} {E : Externals E64 EBool X}
  {cfg : Config} {w : World E64 E128 EBool X} {nativeBalance now : Nat} {x : X}

/-- The state the constructors leave. -/
theorem World.construct_ok (h : World.construct fhe E cfg nativeBalance now x = .ok w) :
    Vault.constructorChecks E cfg = .ok () ∧
      (cfg.vault ≠ 0 ∧ cfg.settlementRewardPerParticipantPass ≠ 0 ∧
        cfg.settlementRewardPerParticipantPass * 2 < cfg.settlementBondAmount) ∧
      cfg.firstRoundOpensAt + cfg.roundDuration < 2 ^ 64 ∧
      ∃ gs, w = ⟨((Vault.zeroLedger fhe cfg).setRound 1 { Round.unset fhe with
          opensAt := cfg.firstRoundOpensAt
          closesAt := cfg.firstRoundOpensAt + cfg.roundDuration
          state := .open
          eligibleBalance := fhe.asEuint64 0
          eligibleCumulative := fhe.asEuint128 0
          eligibleTimestamp := cfg.firstRoundOpensAt }).grant gs,
        { Escrow.initial with nativeBalance := nativeBalance }, Adapter.initial, x, now⟩ := by
  simp only [construct, Escrow.construct, seq_eq_ok, revertIf_eq_ok, pure_eq_ok, ok_eq_ok] at h
  obtain ⟨_, hchecks, a, ha, e, ⟨_, hescrow, rfl⟩, v, hv, rfl⟩ := h
  obtain ⟨hduration, gs, rfl⟩ := Vault.initializeRound_ok hv
  have hadapter : a = Adapter.initial := by
    split_ifs at ha
    · simp only [Adapter.construct, seq_eq_ok, pure_eq_ok, ok_eq_ok] at ha
      obtain ⟨_, _, _, _, rfl⟩ := ha
      rfl
    · exact (ok_eq_ok.1 ha).symm
  subst hadapter
  simp only [not_or] at hescrow
  exact ⟨hchecks, ⟨hescrow.1, by omega, by omega⟩, hduration, gs, rfl⟩

theorem World.construct_activeRoundId
    (h : World.construct fhe E cfg nativeBalance now x = .ok w) : w.vault.activeRoundId = 1 := by
  obtain ⟨_, _, _, gs, rfl⟩ := World.construct_ok h
  rfl

theorem Vault.constructorChecks_ok {u : Unit} (h : Vault.constructorChecks E cfg = .ok u) :
    E.rate ≠ 0 ∧ cfg.roundDuration ≠ 0 ∧ cfg.roundDuration ≤ MAX_ROUND_DURATION ∧
      cfg.firstRoundOpensAt ≠ 0 := by
  simp only [constructorChecks, seq_eq_ok, revertIf_eq_ok] at h
  obtain ⟨_, _, _, hconfig, _, hasset, _⟩ := h
  omega

/-- One round is open after the deployment. -/
theorem World.construct_shape (h : World.construct fhe E cfg nativeBalance now x = .ok w) :
    w.vault.Shape fhe := by
  obtain ⟨_, _, _, gs, rfl⟩ := World.construct_ok h
  refine Vault.Shape.grant ?_ gs
  have hother : ∀ r, r ≠ 1 → ((Vault.zeroLedger fhe cfg).setRound 1 { Round.unset fhe with
      opensAt := cfg.firstRoundOpensAt
      closesAt := cfg.firstRoundOpensAt + cfg.roundDuration
      state := .open
      eligibleBalance := fhe.asEuint64 0
      eligibleCumulative := fhe.asEuint128 0
      eligibleTimestamp := cfg.firstRoundOpensAt }).rounds r = Round.unset fhe :=
    fun r hr => Vault.setRound_rounds_of_ne hr _
  constructor
  · exact Nat.one_pos
  · exact congrArg Round.state (Vault.setRound_rounds_self 1 _)
  · intro r hpos hlt
    have hlt : r < 1 := hlt
    omega
  · exact hother 0 Nat.zero_ne_one
  · exact fun r hr => hother r (Nat.ne_of_gt hr)
  · rfl
  · exact fun _ _ => rfl
  · exact fun _ _ _ => rfl

end

section

variable {X : Type} {E : Externals Nat Bool X} {O : Observables X} {cfg : Config}

theorem World.deployed_of_construct {w : PlainWorld X} {nativeBalance now : Nat} {x : X}
    (h : World.construct Fhe.plain E cfg nativeBalance now x = .ok w) : Deployed E cfg := by
  obtain ⟨hchecks, ⟨hvault, hreward, hbond⟩, _, _⟩ := World.construct_ok h
  obtain ⟨hrate, hduration, hle, hfirst⟩ := Vault.constructorChecks_ok hchecks
  exact ⟨Nat.pos_of_ne_zero hrate, Nat.pos_of_ne_zero hduration, hle,
    Nat.pos_of_ne_zero hfirst, hvault, Nat.pos_of_ne_zero hreward, hbond⟩

/-- The ledger of a new deployment is empty. -/
theorem World.construct_ledger {w : PlainWorld X} {nativeBalance now : Nat} {x : X}
    (h : World.construct Fhe.plain E cfg nativeBalance now x = .ok w) :
    w.ledger O cfg = Ledger.empty 1 (O.confidentialBalance x cfg.vault) := by
  obtain ⟨_, _, _, gs, rfl⟩ := World.construct_ok h
  rw [World.ledger, Vault.books_grant, Vault.books_setRound_of_reserved]
  · rfl
  · rfl

variable (hE : E.Lawful O cfg.vault cfg.asset) {w w' : PlainWorld X}

include hE

theorem World.construct_booked {nativeBalance now : Nat} {x : X}
    (h : World.construct Fhe.plain E cfg nativeBalance now x = .ok w) : w.Booked O cfg E := by
  refine ⟨World.construct_shape h, ?_, ?_⟩
  · rw [World.construct_ledger h]
    exact Ledger.sound_empty (hE.balance_lt _ _)
  · obtain ⟨_, _, _, gs, rfl⟩ := World.construct_ok h
    exact ⟨rfl, nofun⟩

/-- A step of a run moves the ledger by postings. -/
theorem World.step_moves (hcfg : Deployed E cfg) (hB : w.Booked O cfg E)
    {l : Label Nat Nat Bool X} (h : Step Fhe.plain E cfg w l w') :
    Ledger.Moves E.rate (w.ledger O cfg) (w'.ledger O cfg) := by
  cases l with
  | call sender c => exact World.exec_moves hE hcfg h.1 hB h.2
  | tick now =>
    obtain ⟨_, rfl⟩ := h
    exact .refl
  | thirdParty ext =>
    obtain ⟨hext, rfl⟩ := h
    -- other accounts can only pay the vault
    obtain ⟨n, hn⟩ := Nat.le.dest (hE.thirdParty_balance hext)
    have hlt := hE.balance_lt ext cfg.vault
    have hpost : Ledger.Posting MAX_POOL_BASE_UNITS E.rate (w.ledger O cfg) _ :=
      .receive n (by simp only [World.ledger, Vault.books]; omega)
    simp only [World.ledger, Vault.books] at hpost ⊢
    rw [hn] at hpost
    exact .single hpost
  | forceNative amount =>
    obtain rfl := h
    exact .refl

theorem World.step_booked (hcfg : Deployed E cfg) (hB : w.Booked O cfg E)
    {l : Label Nat Nat Bool X} (h : Step Fhe.plain E cfg w l w') : w'.Booked O cfg E := by
  refine ⟨?_, hB.kept.postings (World.step_moves hE hcfg hB h), ?_⟩
  · cases l with
    | call sender c => exact exec_shape h.1 hB.shape h.2
    | tick now =>
      obtain ⟨_, rfl⟩ := h
      exact hB.shape
    | thirdParty ext =>
      obtain ⟨_, rfl⟩ := h
      exact hB.shape
    | forceNative amount =>
      obtain rfl := h
      exact hB.shape
  · cases l with
    | call sender c => exact World.exec_epochSound hE h.1 hB h.2
    | tick now =>
      obtain ⟨_, rfl⟩ := h
      exact hB.epoch.congr (.refl _) fun _ => .inl rfl
    | thirdParty ext =>
      obtain ⟨hext, rfl⟩ := h
      refine hB.epoch.congr (.refl _) fun hstate => ?_
      -- somebody else may finalize the request of the vault, and nothing more
      rcases hB.epoch.requested hstate with hout | hfin
      · rw [hout]
        exact hE.thirdParty_outstanding hext hout
      · exact .inr (hE.thirdParty_finalized hext hfin)
    | forceNative amount =>
      obtain rfl := h
      exact hB.epoch.congr (.refl _) fun _ => .inl rfl

/-- **The books of a run.**  Every reachable state was properly deployed and its books are
sound. -/
theorem World.reachable_booked (h : (system Fhe.plain E cfg).Reachable w) :
    Deployed E cfg ∧ w.Booked O cfg E := by
  refine TransitionSystem.Reachable.invariant (I := fun w => Deployed E cfg ∧ w.Booked O cfg E)
    ?_ ?_ h
  · rintro w ⟨nativeBalance, now, x, hinit⟩
    exact ⟨World.deployed_of_construct hinit, World.construct_booked hE hinit⟩
  · rintro w l w' _ ⟨hcfg, hB⟩ hstep
    exact ⟨hcfg, World.step_booked hE hcfg hB hstep⟩

/-- **Principal is conserved.**  In every reachable state the savings of the accounts are the
four cells the vault splits them into, under the cap, and the deployed cell is what the adapter
recorded; every step changes the cells by postings, which never wrap. -/
theorem World.principal_conserved (h : (system Fhe.plain E cfg).Reachable w) :
    w.vault.totalPrincipal = ∑ a, w.vault.principal a ∧
    w.vault.totalPrincipal = w.vault.liquidPrincipal + w.vault.deployedPrincipal +
      w.vault.principalInTransition + w.vault.strategyShortfall ∧
    w.vault.totalPrincipal ≤ MAX_POOL_BASE_UNITS ∧
    w.vault.deployedPrincipal * E.rate = w.adapter.deployedPrincipalBasis ∧
    (∀ l w', Step Fhe.plain E cfg w l w' →
      Ledger.Moves E.rate (w.ledger O cfg) (w'.ledger O cfg)) := by
  obtain ⟨hcfg, hB⟩ := World.reachable_booked hE h
  exact ⟨hB.kept.principal_sum.symm, hB.kept.total_split, hB.kept.total_le, hB.kept.basis_eq,
    fun l w' hstep => World.step_moves hE hcfg hB hstep⟩

omit hE in
/-- The savings at the end of the script: the prize of bob is saved with his principal. -/
theorem World.principal_conserved_script : ∃ w, Demo.Ends w ∧
    w.vault.totalPrincipal = 135 ∧ w.vault.liquidPrincipal = 135 ∧
    w.vault.totalPrincipal = ∑ a, w.vault.principal a ∧
    w.vault.totalPrincipal = w.vault.liquidPrincipal + w.vault.deployedPrincipal +
      w.vault.principalInTransition + w.vault.strategyShortfall ∧
    w.vault.totalPrincipal ≤ MAX_POOL_BASE_UNITS ∧
    w.vault.deployedPrincipal * Demo.externals.rate = w.adapter.deployedPrincipalBasis ∧
    ∀ l w', Step Fhe.plain Demo.externals Demo.cfg w l w' →
      Ledger.Moves Demo.externals.rate (w.ledger mockObservables Demo.cfg)
        (w'.ledger mockObservables Demo.cfg) := by
  have hends : World.endsWith (fun w => decide (w.vault.totalPrincipal = 135 ∧
      w.vault.liquidPrincipal = 135))
      (World.outcome Demo.cfg Demo.token 100 Demo.chain Demo.script) = true := by decide +kernel
  obtain ⟨w, hw, hcheck⟩ := World.exists_of_endsWith hends
  obtain ⟨htotal, hliquid⟩ := of_decide_eq_true hcheck
  exact ⟨w, hw, htotal, hliquid,
    World.principal_conserved Demo.lawful (World.outcome_reachable hw)⟩

/-- **Prizes are conserved.**  In every reachable state the liquid prize assets are the sponsored
prizes of the rounds not yet closed, the surplus, the reserves of the closed rounds and the
winnings of the accounts. -/
theorem World.prizes_conserved (h : (system Fhe.plain E cfg).Reachable w) :
    w.vault.liquidPrizeAssets =
      (∑ᶠ r ∈ Set.Ici w.vault.activeRoundId, w.vault.sponsoredPrize r) +
        w.vault.realizedSurplus + w.vault.reservedPrize + w.vault.winningsLiability ∧
    w.vault.realizedSurplus = w.vault.uncommittedYield ∧
    w.vault.reservedPrize =
      ∑ r ∈ Finset.Ico 1 w.vault.activeRoundId, (w.vault.rounds r).reservedPrize ∧
    w.vault.winningsLiability = ∑ a, w.vault.winnings a := by
  obtain ⟨_, hB⟩ := World.reachable_booked hE h
  have hsponsored := hB.kept.sponsored_finsum
  have hreserved : w.vault.reservedPrize =
    ∑ r ∈ Finset.range w.vault.activeRoundId, (w.vault.rounds r).reservedPrize :=
      hB.kept.reserved_sum
  refine ⟨?_, hB.kept.surplus_eq, ?_, hB.kept.winnings_sum.symm⟩
  · exact hsponsored ▸ hB.kept.prize_split
  · rw [hreserved, Finset.range_eq_Ico, Finset.sum_eq_sum_Ico_succ_bot hB.shape.active_pos,
      hB.shape.zero]
    exact Nat.zero_add _

omit hE in
/-- The prizes at the end of the script: none is left, since the only one was won and saved. -/
theorem World.prizes_conserved_script : ∃ w, Demo.Ends w ∧
    w.vault.liquidPrizeAssets = 0 ∧
    w.vault.liquidPrizeAssets =
      (∑ᶠ r ∈ Set.Ici w.vault.activeRoundId, w.vault.sponsoredPrize r) +
        w.vault.realizedSurplus + w.vault.reservedPrize + w.vault.winningsLiability ∧
    w.vault.realizedSurplus = w.vault.uncommittedYield ∧
    w.vault.reservedPrize =
      ∑ r ∈ Finset.Ico 1 w.vault.activeRoundId, (w.vault.rounds r).reservedPrize ∧
    w.vault.winningsLiability = ∑ a, w.vault.winnings a := by
  have hends : World.endsWith (fun w => decide (w.vault.liquidPrizeAssets = 0))
      (World.outcome Demo.cfg Demo.token 100 Demo.chain Demo.script) = true := by decide +kernel
  obtain ⟨w, hw, hcheck⟩ := World.exists_of_endsWith hends
  exact ⟨w, hw, of_decide_eq_true hcheck,
    World.prizes_conserved Demo.lawful (World.outcome_reachable hw)⟩

end

end Leopold
