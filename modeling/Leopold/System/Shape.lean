import Leopold.System.Calls
import Leopold.Vault.JointInversion

/-!
# The shape of the rounds

At every moment one round is open, the rounds before it are closed, and the rounds after it were
never touched.  The calls that do not take part in a draw leave the rounds, the registrations and
the checkpoints alone; what each of the others does is said by its inversion lemma.
-/

namespace Leopold

open Lib

variable {E64 E128 EBool X : Type} {fhe : Fhe E64 E128 EBool} {E : Externals E64 EBool X}
  {cfg : Config}

/-- The two vaults agree on everything a draw reads or writes. -/
structure Vault.SameDraw (v v' : Vault E64 E128 EBool) : Prop where
  activeRoundId : v'.activeRoundId = v.activeRoundId
  rounds : v'.rounds = v.rounds
  roundParticipants : v'.roundParticipants = v.roundParticipants
  eligibilityStart : v'.eligibilityStart = v.eligibilityStart
  observations : v'.observations = v.observations
  principal : v'.principal = v.principal
  winnerPredicate : v'.winnerPredicate = v.winnerPredicate

theorem Vault.SameDraw.refl (v : Vault E64 E128 EBool) : v.SameDraw v :=
  ⟨rfl, rfl, rfl, rfl, rfl, rfl, rfl⟩

/-- A step that takes no part in a draw. -/
structure World.Idle (w w' : World E64 E128 EBool X) : Prop where
  vault : w.vault.SameDraw w'.vault
  rounds : w'.escrow.rounds = w.escrow.rounds
  isRegistered : w'.escrow.isRegistered = w.escrow.isRegistered
  now : w'.now = w.now

/-- The calls that take part in a draw. -/
def Call.draws : Call E64 E128 EBool → Bool
  | .registerForRound .. | .deposit .. | .withdraw .. | .closeRound | .finalizeAggregate ..
  | .generateRandomCandidate .. | .finalizeCandidateValidity .. | .processSelection ..
  | .finalizeSelectionReconciliation .. | .processAllocation .. | .finalizeSettlement ..
  | .recoverFailedReconciliation .. | .settleEmptyRound .. => true
  | _ => false

/-- The entry points meant for another contract of the deployment. -/
def Call.reserved : Call E64 E128 EBool → Bool
  | .acceptBondRegistration .. | .onConfidentialTransferReceived .. | .creditProgress ..
  | .finalizeRound .. | .deployAssets .. | .withdrawPrincipal .. | .harvest
  | .emergencyExit => true
  | _ => false

theorem World.Idle.of_vault {w : World E64 E128 EBool X} {v : Vault E64 E128 EBool} {e : Escrow}
    {a : Adapter} {x : X} (hv : w.vault.SameDraw v) (hr : e.rounds = w.escrow.rounds)
    (hi : e.isRegistered = w.escrow.isRegistered) :
    w.Idle { w with vault := v, escrow := e, adapter := a, ext := x } :=
  ⟨hv, hr, hi, rfl⟩

theorem World.realizeSurplus_sameDraw {v v' : Vault E64 E128 EBool} {s : E64} {n : Nat}
    (h : World.realizeSurplus fhe cfg s n v = .ok v') : v.SameDraw v' := by
  obtain ⟨_, gs, rfl⟩ := Vault.realizeSurplus_ok h
  exact ⟨rfl, rfl, rfl, rfl, rfl, rfl, rfl⟩

/-- An outside account is not the vault, so the functions reserved for it reject it. -/
theorem Config.External.ne_vault {sender : Address} (h : cfg.External sender) :
    sender ≠ cfg.vault := h.2.1

theorem Config.External.ne_zero {sender : Address} (h : cfg.External sender) : sender ≠ 0 := h.1

theorem Config.External.ne_escrow {sender : Address} (h : cfg.External sender) :
    sender ≠ cfg.escrow := h.2.2.1

theorem Config.External.ne_asset {sender : Address} (h : cfg.External sender) :
    sender ≠ cfg.asset := h.2.2.2.2

section

variable {w w' : World E64 E128 EBool X} {sender : Address} (hsender : cfg.External sender)

include hsender

/-- The entry points meant for another contract reject an outside account. -/
theorem exec_reserved {c : Call E64 E128 EBool} (hc : c.reserved = true) :
    exec fhe E cfg sender w c ≠ .ok w' := by
  intro h
  cases c with
  | acceptBondRegistration r a =>
    obtain ⟨v, hv, _⟩ := World.onVault_eq_ok.1 h
    exact hsender.ne_escrow (Vault.acceptBondRegistration_ok hv).1
  | onConfidentialTransferReceived a n d =>
    simp only [exec, World.onVault_eq_ok, map_eq_ok, Prod.exists] at h
    obtain ⟨v, ⟨v', accepted, hv, _⟩, _⟩ := h
    exact hsender.ne_asset (Vault.onConfidentialTransferReceived_ok hv).1
  | creditProgress r p n a =>
    simp only [exec, World.onEscrow_eq_ok, Escrow.creditProgress, seq_eq_ok,
      revertIf_eq_ok] at h
    obtain ⟨e, ⟨_, hguard, _⟩, _⟩ := h
    exact hguard hsender.ne_vault
  | finalizeRound r p =>
    simp only [exec, World.onEscrow_eq_ok, Escrow.finalizeRound, seq_eq_ok,
      revertIf_eq_ok] at h
    obtain ⟨e, ⟨_, hguard, _⟩, _⟩ := h
    exact hguard hsender.ne_vault
  | deployAssets n =>
    simp only [exec, World.onAdapter, Adapter.deployAssets, seq_eq_ok, revertIf_eq_ok] at h
    obtain ⟨_, ⟨_, hguard, _⟩, _⟩ := h
    exact hguard hsender.ne_vault
  | withdrawPrincipal n =>
    simp only [exec, World.onAdapter, Adapter.withdrawPrincipal, seq_eq_ok,
      revertIf_eq_ok] at h
    obtain ⟨_, ⟨_, hguard, _⟩, _⟩ := h
    exact hguard hsender.ne_vault
  | harvest =>
    simp only [exec, World.onAdapter, Adapter.harvest, seq_eq_ok, revertIf_eq_ok] at h
    obtain ⟨_, ⟨_, hguard, _⟩, _⟩ := h
    exact hguard hsender.ne_vault
  | emergencyExit =>
    simp only [exec, World.onAdapter, Adapter.emergencyExit, seq_eq_ok, revertIf_eq_ok] at h
    obtain ⟨_, ⟨_, hguard, _⟩, _⟩ := h
    exact hguard hsender.ne_vault
  | _ => cases hc

/-- A call that takes no part in a draw leaves the draws alone. -/
theorem exec_idle {c : Call E64 E128 EBool} (hc : c.draws = false)
    (h : exec fhe E cfg sender w c = .ok w') : w.Idle w' := by
  have hres : c.reserved = false := by
    by_contra hne
    exact exec_reserved hsender (Bool.not_eq_false _ ▸ hne) h
  have hsame : w.vault.SameDraw w.vault := .refl _
  cases c with
  | contributeSponsor r units =>
    obtain ⟨_, x₁, x₂, wrapped, gs, _, _, rfl⟩ := World.contributeSponsor_ok h
    exact .of_vault ⟨rfl, rfl, rfl, rfl, rfl, rfl, rfl⟩ rfl rfl
  | openStrategyEpoch kind =>
    obtain ⟨⟨w₁, id⟩, hop, rfl⟩ := map_eq_ok.1 h
    obtain ⟨_, _, _, _, epoch, _, _, _, rfl⟩ := World.openStrategyEpoch_ok hop
    exact .of_vault ⟨rfl, rfl, rfl, rfl, rfl, rfl, rfl⟩ rfl rfl
  | requestStrategyAmount id =>
    obtain ⟨_, _, _, _, ⟨_, n, x, req, gs, _, _, rfl⟩ | ⟨_, d, gs, rfl⟩⟩ :=
      World.requestStrategyAmount_ok h
    · exact .of_vault ⟨rfl, rfl, rfl, rfl, rfl, rfl, rfl⟩ rfl rfl
    · exact .of_vault ⟨rfl, rfl, rfl, rfl, rfl, rfl, rfl⟩ rfl rfl
  | finalizeStrategyDeployment id n proof =>
    obtain ⟨_, _, _, x₁, x₂, a, x₃, x₄, gs, _, _, _, _, rfl⟩ :=
      World.finalizeStrategyDeployment_ok h
    exact .of_vault ⟨rfl, rfl, rfl, rfl, rfl, rfl, rfl⟩ rfl rfl
  | finalizeStrategyReplenishment id c proof =>
    obtain ⟨_, _, n, _, _, a, x₁, x₂, wrapped, gs, _, _, rfl⟩ :=
      World.finalizeStrategyReplenishment_ok h
    exact .of_vault ⟨rfl, rfl, rfl, rfl, rfl, rfl, rfl⟩ rfl rfl
  | harvestStrategyYield =>
    obtain ⟨⟨w₁, n⟩, hop, rfl⟩ := map_eq_ok.1 h
    obtain ⟨a, x₁, recovered, _, ⟨_, rfl⟩ | ⟨x₂, wrapped, v, _, hv, rfl⟩⟩ :=
      World.harvestStrategyYield_ok hop
    · exact .of_vault hsame rfl rfl
    · exact .of_vault (World.realizeSurplus_sameDraw hv) rfl rfl
  | setStrategyPaused paused =>
    obtain rfl := World.setStrategyPaused_ok h
    exact .of_vault hsame rfl rfl
  | emergencyUnwindStrategy =>
    obtain ⟨a, x₁, recovered, shortfall, x₂, v, gs, _, _, _, _, hv, rfl⟩ :=
      World.emergencyUnwindStrategy_ok h
    rcases hv with ⟨_, rfl⟩ | ⟨_, hv⟩
    · exact .of_vault ⟨rfl, rfl, rfl, rfl, rfl, rfl, rfl⟩ rfl rfl
    · obtain ⟨h1, h2, h3, h4, h5, h6, h7⟩ := World.realizeSurplus_sameDraw hv
      exact .of_vault ⟨h1, h2, h3, h4, h5, h6, h7⟩ rfl rfl
  | cancelAgingStrategyEpoch id =>
    obtain ⟨_, _, rfl⟩ := World.cancelAgingStrategyEpoch_ok h
    exact .of_vault ⟨rfl, rfl, rfl, rfl, rfl, rfl, rfl⟩ rfl rfl
  | cancelExpiredStrategyEpoch id n proof =>
    obtain ⟨_, ⟨_, rfl⟩ | ⟨_, _, x₁, x₂, wrapped, gs, _, _, rfl⟩⟩ :=
      World.cancelExpiredStrategyEpoch_ok h
    · exact .of_vault ⟨rfl, rfl, rfl, rfl, rfl, rfl, rfl⟩ rfl rfl
    · exact .of_vault ⟨rfl, rfl, rfl, rfl, rfl, rfl, rfl⟩ rfl rfl
  | withdrawWinnings input =>
    obtain ⟨⟨w₁, sent⟩, hop, rfl⟩ := map_eq_ok.1 h
    obtain ⟨x, gs, _, rfl⟩ := World.withdrawWinnings_ok hop
    exact .of_vault ⟨rfl, rfl, rfl, rfl, rfl, rfl, rfl⟩ rfl rfl
  | materializeMyRoundWeight r =>
    simp only [exec, World.onVault_eq_ok, map_eq_ok, Prod.exists] at h
    obtain ⟨v, ⟨v', weight, hv, rfl⟩, rfl⟩ := h
    obtain ⟨gs, rfl⟩ := Vault.materializeMyRoundWeight_ok hv
    exact .of_vault ⟨rfl, rfl, rfl, rfl, rfl, rfl, rfl⟩ rfl rfl
  | setAutoSavePreference preference =>
    simp only [exec, World.onVault_eq_ok, ok_eq_ok] at h
    obtain ⟨v, rfl, rfl⟩ := h
    exact .of_vault ⟨rfl, rfl, rfl, rfl, rfl, rfl, rfl⟩ rfl rfl
  | claimBondRefund r accepts =>
    obtain ⟨e, he, rfl⟩ := World.onEscrow_eq_ok.1 h
    simp only [Escrow.claimBondRefund, Escrow.pay, seq_eq_ok, revertIf_eq_ok,
      checkedSub_eq_ok, checkedAdd_eq_ok, pure_eq_ok, ok_eq_ok] at he
    obtain ⟨_, _, _, ⟨_, rfl⟩, _, ⟨_, rfl⟩, _, _, rfl⟩ := he
    exact .of_vault hsame rfl rfl
  | withdrawSettlementRewards accepts =>
    obtain ⟨e, he, rfl⟩ := World.onEscrow_eq_ok.1 h
    simp only [Escrow.withdrawSettlementRewards, Escrow.pay, seq_eq_ok, revertIf_eq_ok,
      checkedSub_eq_ok, checkedAdd_eq_ok, pure_eq_ok, ok_eq_ok] at he
    obtain ⟨_, _, _, ⟨_, rfl⟩, _, ⟨_, rfl⟩, _, _, rfl⟩ := he
    exact .of_vault hsame rfl rfl
  | setPaused paused =>
    obtain ⟨a, _, rfl⟩ := map_eq_ok.1 h
    exact .of_vault hsame rfl rfl
  | acceptBondRegistration | onConfidentialTransferReceived | creditProgress | finalizeRound
  | deployAssets | withdrawPrincipal | harvest | emergencyExit => cases hres
  | _ => cases hc

end

section

variable {w w' : World E64 E128 EBool X} {sender : Address}

/-- The settlement calls take no time. -/
theorem World.settle_now {r passes : Nat} (h : World.settle cfg r passes w = .ok w') :
    w'.now = w.now := by
  obtain ⟨e, _, rfl⟩ := World.settle_ok h
  rfl

/-- A transaction takes no time. -/
theorem exec_now (hsender : cfg.External sender) {c : Call E64 E128 EBool}
    (h : exec fhe E cfg sender w c = .ok w') : w'.now = w.now := by
  by_cases hdraws : c.draws = false
  · exact (exec_idle hsender hdraws h).now
  cases c with
  | registerForRound value r =>
    obtain ⟨e, v, _, _, rfl⟩ := World.registerForRound_ok h
    rfl
  | deposit n d =>
    obtain ⟨x₁, sent, v, accepted, x₂, _, _, _, rfl⟩ := World.deposit_ok h
    rfl
  | withdraw input =>
    obtain ⟨⟨w₁, sent⟩, hop, rfl⟩ := map_eq_ok.1 h
    obtain ⟨_, x, v, _, _, rfl⟩ := World.withdraw_ok hop
    rfl
  | closeRound | finalizeAggregate | generateRandomCandidate | finalizeCandidateValidity
  | finalizeSelectionReconciliation =>
    obtain ⟨v, _, rfl⟩ := World.onVault_eq_ok.1 h
    rfl
  | processSelection r n =>
    obtain ⟨_, v₁, processed, v₂, e, _, _, _, _, rfl⟩ := World.processSelection_ok h
    rfl
  | processAllocation r n =>
    obtain ⟨_, _, v₁, v₂, processed, v₃, e, _, _, _, _, _, rfl⟩ := World.processAllocation_ok h
    rfl
  | finalizeSettlement r => exact World.settle_now (World.finalizeSettlement_ok h).2
  | recoverFailedReconciliation r =>
    obtain ⟨_, v, _, hsettle⟩ := World.recoverFailedReconciliation_ok h
    exact (World.settle_now hsettle :)
  | settleEmptyRound r =>
    obtain ⟨_, v, _, hsettle⟩ := World.settleEmptyRound_ok h
    exact (World.settle_now hsettle :)
  | _ => exact absurd rfl hdraws

end

/-! ## Rounds of a run -/

/-- One round is open, the rounds before it are closed and those after it untouched. -/
structure Vault.Shape (fhe : Fhe E64 E128 EBool) (v : Vault E64 E128 EBool) : Prop where
  active_pos : 0 < v.activeRoundId
  active_open : (v.rounds v.activeRoundId).state = .open
  closed : ∀ r, 0 < r → r < v.activeRoundId →
    (v.rounds r).state ≠ .open ∧ (v.rounds r).state ≠ .uninitialized
  zero : v.rounds 0 = Round.unset fhe
  later : ∀ r, v.activeRoundId < r → v.rounds r = Round.unset fhe
  zero_participants : v.roundParticipants 0 = []
  later_participants : ∀ r, v.activeRoundId < r → v.roundParticipants r = []
  later_eligibility : ∀ r a, v.activeRoundId < r → v.eligibilityStart r a = 0

namespace Vault.Shape

variable {v v' : Vault E64 E128 EBool} {r : Nat} {round : Round E64 E128 EBool}

/-- A round in a state past `open` is closed. -/
theorem closed_of_state (h : v.Shape fhe) (hopen : (v.rounds r).state ≠ .open)
    (hset : (v.rounds r).state ≠ .uninitialized) : 0 < r ∧ r < v.activeRoundId := by
  have hr : ∀ s, v.rounds s = Round.unset fhe → s ≠ r := by
    rintro s hs rfl
    exact hset (congrArg Round.state hs)
  refine ⟨Nat.pos_of_ne_zero fun h0 => hr 0 h.zero h0.symm, ?_⟩
  rcases Nat.lt_trichotomy r v.activeRoundId with hlt | rfl | hgt
  · exact hlt
  · exact absurd h.active_open hopen
  · exact absurd rfl (hr r (h.later r hgt))

/-- The shape only reads the rounds and the registrations. -/
theorem congr' (h : v.Shape fhe) (h1 : v'.activeRoundId = v.activeRoundId)
    (h2 : v'.rounds = v.rounds) (h3 : v'.roundParticipants = v.roundParticipants)
    (h4 : v'.eligibilityStart = v.eligibilityStart) : v'.Shape fhe := by
  constructor <;> simp only [h1, h2, h3, h4]
  exacts [h.active_pos, h.active_open, h.closed, h.zero, h.later, h.zero_participants,
    h.later_participants, h.later_eligibility]

theorem congr (h : v.Shape fhe) (hv : v.SameDraw v') : v'.Shape fhe :=
  h.congr' hv.activeRoundId hv.rounds hv.roundParticipants hv.eligibilityStart

theorem grant (h : v.Shape fhe) (gs : List (Grant E64 E128 EBool)) : (v.grant gs).Shape fhe :=
  h.congr ⟨rfl, rfl, rfl, rfl, rfl, rfl, rfl⟩

/-- A closed round stays closed when it moves on. -/
theorem setRound_closed (h : v.Shape fhe) (hr : 0 < r) (hlt : r < v.activeRoundId)
    (hopen : round.state ≠ .open) (hset : round.state ≠ .uninitialized) :
    (v.setRound r round).Shape fhe where
  active_pos := h.active_pos
  active_open := by
    rw [setRound_rounds_of_ne (v := v) (r := r) (s := (v.setRound r round).activeRoundId)
      (Nat.ne_of_gt hlt)]
    exact h.active_open
  closed s hs hslt := by
    by_cases hsr : s = r
    · rw [hsr, setRound_rounds_self]
      exact ⟨hopen, hset⟩
    · rw [setRound_rounds_of_ne hsr]
      exact h.closed s hs hslt
  zero := by
    rw [setRound_rounds_of_ne (Nat.ne_of_lt hr)]
    exact h.zero
  later s hs := by
    rw [setRound_rounds_of_ne (Nat.ne_of_gt (Nat.lt_trans hlt hs))]
    exact h.later s hs
  zero_participants := h.zero_participants
  later_participants := h.later_participants
  later_eligibility := h.later_eligibility

theorem setRound_active (h : v.Shape fhe) (hopen : round.state = .open) :
    (v.setRound v.activeRoundId round).Shape fhe where
  active_pos := h.active_pos
  active_open := by
    rw [show (v.setRound v.activeRoundId round).activeRoundId = v.activeRoundId from rfl,
      setRound_rounds_self]
    exact hopen
  closed s hs hslt := by
    have hslt : s < v.activeRoundId := hslt
    rw [setRound_rounds_of_ne (Nat.ne_of_lt hslt)]
    exact h.closed s hs hslt
  zero := by
    rw [setRound_rounds_of_ne (Nat.ne_of_lt h.active_pos)]
    exact h.zero
  later s hs := by
    have hs : v.activeRoundId < s := hs
    rw [setRound_rounds_of_ne (Nat.ne_of_gt hs)]
    exact h.later s hs
  zero_participants := h.zero_participants
  later_participants := h.later_participants
  later_eligibility := h.later_eligibility

theorem accrueEligible {t : Nat} (h : v.Shape fhe)
    (hacc : Vault.accrueEligible fhe cfg v.activeRoundId t v = .ok v') : v'.Shape fhe := by
  obtain ⟨_, gs, rfl⟩ := accrueEligible_ok hacc
  refine Vault.Shape.grant (h.setRound_active ?_) gs
  exact h.active_open

theorem changeEligible {a : Address} {f : E64 → E64} {t : Nat} (h : v.Shape fhe)
    (hch : Vault.changeEligible fhe cfg a f t v = .ok v') : v'.Shape fhe := by
  rcases changeEligible_ok hch with ⟨_, rfl⟩ | ⟨_, _, gs, rfl⟩
  · exact h
  · refine Vault.Shape.grant (h.setRound_active ?_) gs
    exact h.active_open

/-- A round that changes without leaving its state. -/
theorem setRound_state (h : v.Shape fhe) (hr : 0 < r) (hlt : r < v.activeRoundId)
    (hstate : round.state = (v.rounds r).state) : (v.setRound r round).Shape fhe :=
  h.setRound_closed hr hlt (hstate ▸ (h.closed r hr hlt).1) (hstate ▸ (h.closed r hr hlt).2)

theorem selectParticipant {a : Address} (h : v.Shape fhe) (hr : 0 < r)
    (hlt : r < v.activeRoundId) (hsel : Vault.selectParticipant fhe cfg r a v = .ok v') :
    v'.Shape fhe ∧ v'.activeRoundId = v.activeRoundId := by
  obtain ⟨weight, gs, _, rfl⟩ := selectParticipant_ok hsel
  refine ⟨Vault.Shape.grant (setRound_state ?_ hr ?_ ?_) gs, rfl⟩
  · exact h.congr' rfl rfl rfl rfl
  · exact hlt
  · rfl

theorem allocateParticipant {a : Address} {now : Nat} (h : v.Shape fhe) (hr : 0 < r)
    (hlt : r < v.activeRoundId) (hall : Vault.allocateParticipant fhe cfg r now a v = .ok v') :
    v'.Shape fhe ∧ v'.activeRoundId = v.activeRoundId := by
  obtain ⟨_, prize, autoSaved, obs, cum, gs, _, _, _, _, rfl⟩ :=
    allocateParticipant_ok (Nat.ne_of_lt hlt) hall
  refine ⟨Vault.Shape.grant (setRound_state (setRound_active ?_ ?_) hr ?_ ?_) gs, rfl⟩
  · exact h.congr' rfl rfl rfl rfl
  · exact h.active_open
  · exact hlt
  · rw [setRound_rounds_of_ne (Nat.ne_of_lt hlt)]

theorem rollPrizeForward (h : v.Shape fhe) (hr : 0 < r) (hlt : r < v.activeRoundId)
    (hroll : Vault.rollPrizeForward fhe cfg r v = .ok v') :
    v'.Shape fhe ∧ v'.activeRoundId = v.activeRoundId := by
  obtain ⟨_, gs, rfl⟩ := rollPrizeForward_ok hroll
  refine ⟨Vault.Shape.grant (setRound_state ?_ hr ?_ ?_) gs, rfl⟩
  · exact h.congr' rfl rfl rfl rfl
  · exact hlt
  · rfl

theorem closeRound {now : Nat} (h : v.Shape fhe) (hclose : Vault.closeRound fhe cfg now v = .ok v') :
    v'.Shape fhe := by
  obtain ⟨_, _, _, _, gs, rfl⟩ := closeRound_ok hclose
  have hne : v.activeRoundId ≠ v.activeRoundId + 1 := Nat.ne_of_lt (Nat.lt_succ_self _)
  refine Vault.Shape.grant ?_ gs
  constructor
  · exact Nat.succ_pos _
  · exact congrArg Round.state (setRound_rounds_self (v.activeRoundId + 1) _)
  · intro r hr hlt
    have hlt : r < v.activeRoundId + 1 := hlt
    rw [setRound_rounds_of_ne (Nat.ne_of_lt hlt)]
    by_cases hra : r = v.activeRoundId
    · rw [hra, setRound_rounds_self]
      exact ⟨nofun, nofun⟩
    · rw [setRound_rounds_of_ne hra]
      exact h.closed r hr (Nat.lt_of_le_of_ne (Nat.le_of_lt_succ hlt) hra)
  · rw [setRound_rounds_of_ne (Nat.succ_ne_zero _).symm,
      setRound_rounds_of_ne (Nat.ne_of_lt h.active_pos)]
    exact h.zero
  · intro r hr
    have hr : v.activeRoundId + 1 < r := hr
    rw [setRound_rounds_of_ne (Nat.ne_of_gt hr), setRound_rounds_of_ne (by omega)]
    exact h.later r (by omega)
  · exact h.zero_participants
  · exact fun r hr => h.later_participants r (Nat.lt_of_succ_lt hr)
  · exact fun r a hr => h.later_eligibility r a (Nat.lt_of_succ_lt hr)

theorem checkpointUser {a : Address} {b : E64} {t : Nat} (h : v.Shape fhe)
    (hch : Vault.checkpointUser fhe cfg a b t v = .ok v') : v'.Shape fhe := by
  obtain ⟨obs, cum, gs, _, rfl⟩ := checkpointUser_ok hch
  exact h.congr' rfl rfl rfl rfl

end Vault.Shape

section

variable {w w' : World E64 E128 EBool X} {sender : Address} (hsender : cfg.External sender)

theorem World.settle_shape {r passes : Nat} (h : w.vault.Shape fhe) (hr : 0 < r)
    (hlt : r < w.vault.activeRoundId) (hs : World.settle cfg r passes w = .ok w') :
    w'.vault.Shape fhe := by
  obtain ⟨e, _, rfl⟩ := World.settle_ok hs
  exact h.setRound_closed hr hlt nofun nofun

/-- A loop over the participants of a closed round keeps the shape when its body does. -/
theorem Vault.Shape.forParticipants {v v' : Vault E64 E128 EBool} {r cursor count : Nat}
    {body : Address → Vault E64 E128 EBool → Except Revert (Vault E64 E128 EBool)}
    (h : v.Shape fhe) (hlt : r < v.activeRoundId)
    (hparticipants : ∀ a u u', body a u = .ok u' → u'.roundParticipants r = u.roundParticipants r)
    (hbody : ∀ a u u', u.Shape fhe → r < u.activeRoundId → body a u = .ok u' →
      u'.Shape fhe ∧ u'.activeRoundId = u.activeRoundId)
    (hloop : Vault.forParticipants body r cursor count v = .ok v') :
    v'.Shape fhe ∧ v'.activeRoundId = v.activeRoundId := by
  refine Vault.forList_invariant
    (I := fun _ u => u.Shape fhe ∧ u.activeRoundId = v.activeRoundId) ?_
    (Vault.forParticipants_ok hparticipants hloop).2 ⟨h, rfl⟩
  rintro a _ u u' ⟨hu, hactive⟩ hstep
  obtain ⟨hu', heq⟩ := hbody a u u' hu (hactive ▸ hlt) hstep
  exact ⟨hu', heq.trans hactive⟩

theorem Vault.selectParticipant_participants {v v' : Vault E64 E128 EBool} {r : Nat} {a : Address}
    (h : Vault.selectParticipant fhe cfg r a v = .ok v') :
    v'.roundParticipants = v.roundParticipants := by
  obtain ⟨weight, gs, _, rfl⟩ := Vault.selectParticipant_ok h
  rfl

theorem Vault.allocateParticipant_participants {v v' : Vault E64 E128 EBool} {r now : Nat}
    {a : Address} (h : Vault.allocateParticipant fhe cfg r now a v = .ok v') :
    v'.roundParticipants = v.roundParticipants := by
  simp only [Vault.allocateParticipant, seq_eq_ok, pure_eq_ok, ok_eq_ok] at h
  obtain ⟨_, _, v₁, hcheck, rfl⟩ := h
  obtain ⟨obs, cum, gs, _, rfl⟩ := Vault.checkpointUser_ok hcheck
  exact Vault.bookAllocation_participants _

include hsender in
/-- A call keeps the shape of the rounds. -/
theorem exec_shape {c : Call E64 E128 EBool} (hs : w.vault.Shape fhe)
    (h : exec fhe E cfg sender w c = .ok w') : w'.vault.Shape fhe := by
  by_cases hdraws : c.draws = false
  · exact hs.congr (exec_idle hsender hdraws h).vault
  cases c with
  | registerForRound value r =>
    obtain ⟨e, v, _, hv, rfl⟩ := World.registerForRound_ok h
    obtain ⟨_, _, rfl, _, _, _, gs, rfl⟩ := Vault.acceptBondRegistration_ok hv
    have hne : ∀ r, w.vault.activeRoundId < r → r ≠ w.vault.activeRoundId :=
      fun r hr => Nat.ne_of_gt hr
    refine Vault.Shape.grant (Vault.Shape.setRound_active ?_ ?_) gs
    · refine ⟨hs.active_pos, hs.active_open, hs.closed, hs.zero, hs.later, ?_, ?_, ?_⟩
      · exact (Function.update_of_ne (Nat.ne_of_lt hs.active_pos) _ _).trans hs.zero_participants
      · exact fun r hr => (Function.update_of_ne (hne r hr) _ _).trans (hs.later_participants r hr)
      · exact fun r a hr => (congrFun (Function.update_of_ne (hne r hr) _ _) a).trans
          (hs.later_eligibility r a hr)
    · exact hs.active_open
  | deposit n d =>
    obtain ⟨x₁, sent, v, accepted, x₂, _, hv, _, rfl⟩ := World.deposit_ok h
    obtain ⟨_, _, _, v₁, v₂, gs, hcheck, hchange, rfl⟩ :=
      Vault.onConfidentialTransferReceived_ok hv
    refine Vault.Shape.grant (Vault.Shape.changeEligible ?_ hchange) gs
    exact Vault.Shape.congr' (hs.checkpointUser hcheck) rfl rfl rfl rfl
  | withdraw input =>
    obtain ⟨⟨w₁, sent⟩, hop, rfl⟩ := map_eq_ok.1 h
    obtain ⟨_, x, v, _, hv, rfl⟩ := World.withdraw_ok hop
    obtain ⟨v₁, v₂, gs, hcheck, hchange, rfl⟩ := Vault.recordWithdrawal_ok hv
    refine Vault.Shape.grant (Vault.Shape.changeEligible ?_ hchange) gs
    exact Vault.Shape.congr' (hs.checkpointUser hcheck) rfl rfl rfl rfl
  | closeRound =>
    obtain ⟨v, hv, rfl⟩ := World.onVault_eq_ok.1 h
    exact hs.closeRound hv
  | finalizeAggregate r c proof =>
    obtain ⟨v, hv, rfl⟩ := World.onVault_eq_ok.1 h
    obtain ⟨hstate, n, _, _, rfl⟩ := Vault.finalizeAggregate_ok hv
    obtain ⟨hr, hlt⟩ := hs.closed_of_state (by rw [hstate]; nofun) (by rw [hstate]; nofun)
    refine hs.setRound_closed hr hlt ?_ ?_ <;> simp only <;> split_ifs <;> nofun
  | generateRandomCandidate r candidate =>
    obtain ⟨v, hv, rfl⟩ := World.onVault_eq_ok.1 h
    obtain ⟨hstate, _, _, round, attempts, gs, rfl, hround⟩ :=
      Vault.generateRandomCandidate_ok hv
    obtain ⟨hr, hlt⟩ := hs.closed_of_state (by rcases hstate with h | h <;> rw [h] <;> nofun)
      (by rcases hstate with h | h <;> rw [h] <;> nofun)
    refine Vault.Shape.grant (Vault.Shape.setRound_closed ?_ hr ?_ ?_ ?_) gs
    · exact hs.congr' rfl rfl rfl rfl
    · exact hlt
    · rcases hround with ⟨_, rfl⟩ | ⟨_, rfl⟩ <;> nofun
    · rcases hround with ⟨_, rfl⟩ | ⟨_, rfl⟩ <;> nofun
  | finalizeCandidateValidity r c proof =>
    obtain ⟨v, hv, rfl⟩ := World.onVault_eq_ok.1 h
    obtain ⟨hstate, valid, gs, _, rfl⟩ := Vault.finalizeCandidateValidity_ok hv
    obtain ⟨hr, hlt⟩ := hs.closed_of_state (by rw [hstate]; nofun) (by rw [hstate]; nofun)
    refine Vault.Shape.grant (hs.setRound_closed hr hlt ?_ ?_) gs <;> split_ifs <;> nofun
  | processSelection r n =>
    obtain ⟨_, v₁, processed, v₂, e, hstart, _, hloop, _, rfl⟩ := World.processSelection_ok h
    have h₁ : 0 < r ∧ r < w.vault.activeRoundId ∧ v₁.Shape fhe ∧
        v₁.activeRoundId = w.vault.activeRoundId := by
      rcases Vault.startSelection_ok hstart with ⟨hstate, gs, rfl⟩ | ⟨hstate, rfl⟩
      · obtain ⟨hr, hlt⟩ := hs.closed_of_state (by rw [hstate]; nofun) (by rw [hstate]; nofun)
        refine ⟨hr, hlt, Vault.Shape.grant (hs.setRound_closed hr hlt ?_ ?_) gs, rfl⟩ <;> nofun
      · obtain ⟨hr, hlt⟩ := hs.closed_of_state (by rw [hstate]; nofun) (by rw [hstate]; nofun)
        exact ⟨hr, hlt, hs, rfl⟩
    obtain ⟨hr, hlt, hs₁, hactive⟩ := h₁
    obtain ⟨hs₂, hactive₂⟩ := hs₁.forParticipants (hactive ▸ hlt)
      (fun a u u' hu => congrFun (Vault.selectParticipant_participants hu) r)
      (fun a u u' hu hlt hstep => hu.selectParticipant hr hlt hstep) hloop
    have hlt₂ : r < v₂.activeRoundId := by rw [hactive₂, hactive]; exact hlt
    have hs₃ : (v₂.setRound r { v₂.rounds r with
        selectionCursor := (v₁.rounds r).selectionCursor + processed }).Shape fhe :=
      hs₂.setRound_state hr hlt₂ rfl
    rcases Vault.requestReconciliation_eq fhe cfg r (v₂.setRound r
        { v₂.rounds r with selectionCursor := (v₁.rounds r).selectionCursor + processed })
      with ⟨_, gs, heq⟩ | ⟨_, heq⟩
    · simp only [heq]
      refine Vault.Shape.grant (hs₃.setRound_closed hr hlt₂ ?_ ?_) gs <;> nofun
    · simp only [heq]
      exact hs₃
  | finalizeSelectionReconciliation r c proof =>
    obtain ⟨v, hv, rfl⟩ := World.onVault_eq_ok.1 h
    obtain ⟨hstate, valid, _, rfl⟩ := Vault.finalizeSelectionReconciliation_ok hv
    obtain ⟨hr, hlt⟩ := hs.closed_of_state (by rw [hstate]; nofun) (by rw [hstate]; nofun)
    refine hs.setRound_closed hr hlt ?_ ?_ <;> simp only <;> split_ifs <;> nofun
  | processAllocation r n =>
    obtain ⟨_, _, v₁, v₂, processed, v₃, e, hstart, hacc, _, hloop, _, rfl⟩ :=
      World.processAllocation_ok h
    obtain ⟨hstate, rfl⟩ := Vault.startAllocation_ok hstart
    obtain ⟨hr, hlt⟩ := hs.closed_of_state (by rcases hstate with h | h <;> rw [h] <;> nofun)
      (by rcases hstate with h | h <;> rw [h] <;> nofun)
    have hs₁ : (w.vault.setRound r { w.vault.rounds r with
        state := .allocationProcessing }).Shape fhe := hs.setRound_closed hr hlt nofun nofun
    have hs₂ := hs₁.accrueEligible hacc
    obtain ⟨_, gs, rfl⟩ := Vault.accrueEligible_ok hacc
    obtain ⟨hs₃, hactive⟩ := hs₂.forParticipants hlt
      (fun a u u' hu => congrFun (Vault.allocateParticipant_participants hu) r)
      (fun a u u' hu hlt hstep => hu.allocateParticipant hr hlt hstep) hloop
    have hlt₃ : r < v₃.activeRoundId := hactive ▸ hlt
    have hclosed := hs₃.closed r hr hlt₃
    simp only [Vault.finishAllocation_eq]
    refine Vault.Shape.setRound_closed (hs₃.setRound_state hr hlt₃ rfl) hr hlt₃ ?_ ?_
    · simp only [Vault.setRound_rounds_self]
      split_ifs
      · nofun
      · exact hclosed.1
    · simp only [Vault.setRound_rounds_self]
      split_ifs
      · nofun
      · exact hclosed.2
  | finalizeSettlement r =>
    obtain ⟨hstate, hsettle⟩ := World.finalizeSettlement_ok h
    obtain ⟨hr, hlt⟩ := hs.closed_of_state (by rw [hstate]; nofun) (by rw [hstate]; nofun)
    exact World.settle_shape hs hr hlt hsettle
  | recoverFailedReconciliation r =>
    obtain ⟨hstate, v, hroll, hsettle⟩ := World.recoverFailedReconciliation_ok h
    obtain ⟨hr, hlt⟩ := hs.closed_of_state (by rw [hstate]; nofun) (by rw [hstate]; nofun)
    obtain ⟨hs₁, hactive⟩ := hs.rollPrizeForward hr hlt hroll
    exact World.settle_shape hs₁ hr (hactive ▸ hlt) hsettle
  | settleEmptyRound r =>
    obtain ⟨hstate, v, hroll, hsettle⟩ := World.settleEmptyRound_ok h
    obtain ⟨hr, hlt⟩ := hs.closed_of_state (by rw [hstate]; nofun) (by rw [hstate]; nofun)
    obtain ⟨hs₁, hactive⟩ := hs.rollPrizeForward hr hlt hroll
    exact World.settle_shape hs₁ hr (hactive ▸ hlt) hsettle
  | _ => exact absurd rfl hdraws

end

end Leopold
