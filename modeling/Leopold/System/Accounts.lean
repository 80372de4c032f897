import Leopold.Reference.Accounting
import Leopold.System.Runs
import Leopold.System.Scripts

/-!
# The vault against its reference accounting

The tests compare the vault with `AccountingReferenceModel`.  Every posting on the books of the
vault is some calls of that model, none of which throws, so every run of the contracts is a run of
the model with the same totals.  The model cannot give a reserve back: a prize that the vault rolls
forward counts there as reserved until the round it joined closes.
-/

namespace Leopold

open Lib

variable {α : Type} [Fintype α] [DecidableEq α] {cap rate : Nat} {L L' : Ledger α}
  {s : AccountingSnapshot}

/-- The categories of the model are the totals of the ledger, but that `rolled` of the sponsored
prize of the open round is still reserved. -/
structure Ledger.Accounts (L : Ledger α) (rolled : Nat) (s : AccountingSnapshot) : Prop where
  principalLiability : s.principalLiability = L.totalPrincipal
  liquidPrincipal : s.liquidPrincipal = L.liquidPrincipal
  deployedPrincipal : s.deployedPrincipal = L.deployedPrincipal
  principalInTransition : s.principalInTransition = L.principalInTransition
  strategyShortfall : s.strategyShortfall = L.strategyShortfall
  liquidPrizeAssets : s.liquidPrizeAssets = L.liquidPrizeAssets
  realizedSurplus : s.realizedSurplus = L.realizedSurplus
  winningsLiability : s.winningsLiability = L.winningsLiability
  reservedPrize : s.reservedPrize = L.reservedPrize + rolled
  sponsoredPrize : s.sponsoredPrize + rolled =
    L.sponsoredPrize L.activeRoundId + L.sponsoredPrize (L.activeRoundId + 1)
  rolled_le : rolled ≤ L.sponsoredPrize L.activeRoundId

namespace AccountingSnapshot

variable {s' : AccountingSnapshot} {n : Nat}

/-- One call, or none where there is nothing to move. -/
theorem Calls.amount (method : Method) (hzero : n = 0 → s' = s)
    (hpos : 0 < (n : Int) → s.call method = .ok s') : Calls s s' := by
  rcases Nat.eq_zero_or_pos n with hn | hn
  · rw [hzero hn]
    exact .refl
  · exact .tail .refl (hpos (Int.natCast_pos.2 hn))

end AccountingSnapshot

open AccountingSnapshot

/-- **Step lemma.**  A posting is simulated by calls that do not throw. -/
theorem Ledger.Posting.simulated {rolled : Nat} (hL : L.Sound cap rate)
    (hp : Ledger.Posting cap rate L L') (h : L.Accounts rolled s) (hs : s.Reconciled) :
    ∃ s' rolled', Calls s s' ∧ L'.Accounts rolled' s' := by
  obtain ⟨h1, h2, h3, h4, h5, h6, h7, h8, h9, h10, h11⟩ := id h
  cases hp with
  | save a n hcap hbal =>
    refine ⟨_, rolled, .amount (.depositPrincipal n) ?_
      (depositPrincipal_eq_ok hs), ?_⟩
    · rintro rfl
      simp
    · constructor <;> simp only <;> first | assumption | omega
  | withdraw a n hp hl =>
    have hle := hL.principal_le a
    refine ⟨_, rolled, .amount (.withdrawPrincipal n) ?_
      fun hn => withdrawPrincipal_eq_ok hs hn (by omega) (by omega), ?_⟩
    · rintro rfl
      simp
    · constructor <;> simp only <;> first | assumption | omega
  | sponsor r n hr hbal =>
    refine ⟨_, rolled, .amount (.sponsor n) ?_ (sponsor_eq_ok hs), ?_⟩
    · rintro rfl
      simp
    · rcases hr with rfl | rfl
      · constructor <;> simp only [Function.update_self, ne_eq, Nat.succ_ne_self,
          not_false_eq_true, Function.update_of_ne] <;> first | assumption | omega
      · constructor <;> simp only [Function.update_self, ne_eq, Nat.left_eq_add, Nat.one_ne_zero,
          not_false_eq_true, Function.update_of_ne] <;> first | assumption | omega
  | transit n hl =>
    refine ⟨_, rolled, .amount (.beginAggregateDeployment n) ?_
      fun hn => beginAggregateDeployment_eq_ok hs hn (by omega), ?_⟩
    · rintro rfl
      simp
    · constructor <;> simp only <;> first | assumption | omega
  | deploy n hn =>
    refine ⟨_, rolled, .amount (.completeAggregateDeployment n) ?_
      fun hpos => completeAggregateDeployment_eq_ok hs hpos (by omega), ?_⟩
    · rintro rfl
      simp
    · constructor <;> simp only <;> first | assumption | omega
  | cancel n hn hbal =>
    refine ⟨_, rolled, .amount (.cancelAggregateDeployment n) ?_
      fun hpos => cancelAggregateDeployment_eq_ok hs hpos (by omega), ?_⟩
    · rintro rfl
      simp
    · constructor <;> simp only <;> first | assumption | omega
  | replenish n hn hbal =>
    refine ⟨_, rolled, .amount (.returnPrincipal n) ?_
      fun hpos => returnPrincipal_eq_ok hs hpos (by omega), ?_⟩
    · rintro rfl
      simp
    · constructor <;> simp only <;> first | assumption | omega
  | harvest n hbal =>
    refine ⟨_, rolled, .amount (.harvestGenuineSurplus n) ?_
      (harvestGenuineSurplus_eq_ok hs), ?_⟩
    · rintro rfl
      simp
    · constructor <;> simp only <;> first | assumption | omega
  | unwind n k hnk hbal =>
    let lost : AccountingSnapshot := { s with
      deployedPrincipal := s.deployedPrincipal - k
      strategyShortfall := s.strategyShortfall + k }
    have hlost : Calls s lost := by
      refine .amount (.recognizeStrategyLoss k) ?_
        fun hk => recognizeStrategyLoss_eq_ok hs hk (by omega)
      rintro rfl
      simp [lost]
    refine ⟨_, rolled, hlost.trans (.amount (.returnPrincipal n) ?_
      fun hn => returnPrincipal_eq_ok (hlost.reconciled hs) hn ?_), ?_⟩
    · rintro rfl
      simp
    · simp only [lost]
      omega
    · constructor <;> simp only [lost] <;> first | assumption | omega
  | close =>
    -- What was rolled forward is reserved already.
    have hsurplus := hL.surplus_eq
    have hnext := hL.sponsored_zero (L.activeRoundId + 2) le_rfl
    have hcall := reservePrize_eq_ok hs (n := L.uncommittedYield)
      (m := L.sponsoredPrize L.activeRoundId - rolled) (by omega) (by omega) (by omega) (by omega)
    refine ⟨_, 0, Calls.refl.tail (show s.call (.reservePrize _ _) = _ from hcall), ?_⟩
    constructor <;> simp only [hnext] <;> first | assumption | omega
  | award r a hr =>
    have hle := hL.roundReserved_le r
    refine ⟨_, rolled, .amount (.allocateWinnings (L.roundReserved r)) ?_
      fun hn => allocateWinnings_eq_ok hs hn (by omega), ?_⟩
    · intro hzero
      simp [hzero]
    · constructor <;> simp only <;> first | assumption | omega
  | autoSave r a hr hcap =>
    have hle := hL.roundReserved_le r
    let won : AccountingSnapshot := { s with
      reservedPrize := s.reservedPrize - L.roundReserved r
      winningsLiability := s.winningsLiability + L.roundReserved r
      allocatedWinnings := s.allocatedWinnings + L.roundReserved r }
    have hwon : Calls s won := by
      refine .amount (.allocateWinnings (L.roundReserved r)) ?_
        fun hn => allocateWinnings_eq_ok hs hn (by omega)
      intro hzero
      simp [won, hzero]
    have hsplit := hL.prize_split
    refine ⟨_, rolled, hwon.trans (.amount (.autoSave (L.roundReserved r)) ?_
      fun hn => autoSave_eq_ok (hwon.reconciled hs) hn ?_), ?_⟩
    · intro hzero
      simp [hzero]
    · simp only [won]
      omega
    · constructor <;> simp only [won] <;> first | assumption | omega
  | rollForward r hr =>
    -- The model keeps the reserve until the round it joins closes.
    have hle := hL.roundReserved_le r
    refine ⟨s, rolled + L.roundReserved r, .refl, ?_⟩
    constructor <;> simp only [Function.update_self, ne_eq, Nat.succ_ne_self,
      not_false_eq_true, Function.update_of_ne] <;> first | assumption | omega
  | payWinnings a n hn =>
    have hle := hL.winnings_le a
    have hsplit := hL.prize_split
    refine ⟨_, rolled, .amount (.withdrawWinnings n) ?_
      fun hpos => withdrawWinnings_eq_ok hs hpos (by omega) (by omega), ?_⟩
    · rintro rfl
      simp
    · constructor <;> simp only <;> first | assumption | omega
  | receive n hbal => exact ⟨s, rolled, .refl, { h with }⟩

theorem Ledger.Sound.simulated {rolled : Nat} (hL : L.Sound cap rate)
    (hp : Ledger.Postings cap rate L L') (h : L.Accounts rolled s) (hs : s.Reconciled) :
    ∃ s' rolled', Calls s s' ∧ L'.Accounts rolled' s' := by
  induction hp with
  | refl => exact ⟨s, rolled, .refl, h⟩
  | tail hmoves hpost ih =>
    obtain ⟨s₁, rolled₁, hcalls, h₁⟩ := ih
    obtain ⟨s₂, rolled₂, hcalls', h₂⟩ :=
      hpost.simulated (hL.postings hmoves) h₁ (hcalls.reconciled hs)
    exact ⟨s₂, rolled₂, hcalls.trans hcalls', h₂⟩

omit [Fintype α] [DecidableEq α] in
theorem Ledger.accounts_empty {activeRoundId balance : Nat} :
    (Ledger.empty activeRoundId balance : Ledger α).Accounts 0 AccountingSnapshot.initial := by
  constructor <;> rfl

namespace World

section

variable {X : Type} {E : Externals Nat Bool X} {O : Observables X} {cfg : Config}
  (hE : E.Lawful O cfg.vault cfg.asset) {w w' : PlainWorld X}

include hE

/-- A step of the contracts is simulated by the model. -/
theorem step_accounts {l : Label Nat Nat Bool X} {rolled : Nat}
    (h : (system Fhe.plain E cfg).Reachable w) (hstep : Step Fhe.plain E cfg w l w')
    (hacc : (w.ledger O cfg).Accounts rolled s) (hs : s.Reconciled) :
    ∃ s' rolled', Calls s s' ∧ (w'.ledger O cfg).Accounts rolled' s' := by
  obtain ⟨hcfg, hB⟩ := reachable_booked hE h
  exact hB.kept.simulated (step_moves hE hcfg hB hstep) hacc hs

/-- **Reference accounting.**  Every run of the contracts is a run of the reference model in which
no method throws, and from any state of the model that accounts for the books it can follow the
next step. -/
theorem accounts_of_run (h : (system Fhe.plain E cfg).Reachable w) :
    (∃ s rolled, Calls .initial s ∧ s.Reconciled ∧ (w.ledger O cfg).Accounts rolled s) ∧
    ∀ l w', Step Fhe.plain E cfg w l w' → ∀ s rolled, s.Reconciled →
      (w.ledger O cfg).Accounts rolled s →
      ∃ s' rolled', Calls s s' ∧ s'.Reconciled ∧ (w'.ledger O cfg).Accounts rolled' s' := by
  constructor
  · induction h with
    | init hinit =>
      obtain ⟨nativeBalance, now, x, hinit⟩ := hinit
      refine ⟨.initial, 0, .refl, initial_reconciled, ?_⟩
      rw [construct_ledger hinit]
      exact Ledger.accounts_empty
    | step hw hstep _ ih =>
      obtain ⟨s, rolled, hcalls, hs, hacc⟩ := ih
      obtain ⟨s', rolled', hcalls', hacc'⟩ := step_accounts hE hw hstep hacc hs
      exact ⟨s', rolled', hcalls.trans hcalls', hcalls'.reconciled hs, hacc'⟩
  · intro l w' hstep s rolled hs hacc
    obtain ⟨s', rolled', hcalls, hacc'⟩ := step_accounts hE h hstep hacc hs
    exact ⟨s', rolled', hcalls, hcalls.reconciled hs, hacc'⟩

end

/-- The books at the end of the demo. -/
theorem accounts_of_run_script : ∃ w, Demo.Ends w ∧ ∃ s rolled, Calls .initial s ∧
    s.Reconciled ∧ (w.ledger mockObservables Demo.cfg).Accounts rolled s := by
  obtain ⟨w, hw, _⟩ := Demo.ends_allocated
  exact ⟨w, hw, (accounts_of_run Demo.lawful hw.reachable).1⟩

end World

end Leopold
