import Leopold.System.Runs
import Leopold.Vault.History
import Leopold.Lib.Accrual

/-!
# Time in a run

The vault accrues the weight of the open round in constant time per call, and keeps a history of
every account.  In every reachable state the accrual is the sum over the registered accounts of
their own histories since they registered, and the aggregate of a closed round stays the sum of
the weights of its participants, because later calls only write at later times.
-/

namespace Leopold

open Lib

/-- The time-keeping part of a round. -/
@[ext] structure Clock (E64 E128 : Type) where
  opensAt : Nat
  closesAt : Nat
  aggregateTwab : E128
  eligibleBalance : E64
  eligibleCumulative : E128
  eligibleTimestamp : Nat

def Round.clock {E64 E128 EBool : Type} (round : Round E64 E128 EBool) : Clock E64 E128 :=
  ⟨round.opensAt, round.closesAt, round.aggregateTwab, round.eligibleBalance,
    round.eligibleCumulative, round.eligibleTimestamp⟩

/-! ## What leaves the clocks alone -/

section

variable {E64 E128 EBool X : Type} {fhe : Fhe E64 E128 EBool} {E : Externals E64 EBool X}
  {cfg : Config}

/-- The two vaults keep the same time: the clocks of the rounds, the registrations and the
histories agree. -/
structure Vault.SameTimes (v v' : Vault E64 E128 EBool) : Prop where
  activeRoundId : v'.activeRoundId = v.activeRoundId
  clock : ∀ r, (v'.rounds r).clock = (v.rounds r).clock
  roundParticipants : v'.roundParticipants = v.roundParticipants
  eligibilityStart : v'.eligibilityStart = v.eligibilityStart
  observations : v'.observations = v.observations
  principal : v'.principal = v.principal

namespace Vault

variable {v v' v'' u : Vault E64 E128 EBool} {r : Nat} {a : Address}

theorem SameTimes.refl (v : Vault E64 E128 EBool) : v.SameTimes v :=
  ⟨rfl, fun _ => rfl, rfl, rfl, rfl, rfl⟩

theorem SameTimes.trans (h : v.SameTimes v') (h' : v'.SameTimes v'') : v.SameTimes v'' :=
  ⟨h'.1.trans h.1, fun r => (h'.2 r).trans (h.2 r), h'.3.trans h.3, h'.4.trans h.4,
    h'.5.trans h.5, h'.6.trans h.6⟩

theorem SameDraw.sameTimes (h : v.SameDraw v') : v.SameTimes v' :=
  ⟨h.activeRoundId, fun _ => by rw [h.rounds], h.roundParticipants, h.eligibilityStart,
    h.observations, h.principal⟩

theorem SameTimes.setRound {round : Round E64 E128 EBool} (h : v.SameTimes u)
    (hround : round.clock = (u.rounds r).clock) : v.SameTimes (u.setRound r round) := by
  refine ⟨h.activeRoundId, fun s => ?_, h.roundParticipants, h.eligibilityStart, h.observations,
    h.principal⟩
  by_cases hs : s = r
  · rw [hs, setRound_rounds_self, hround, h.clock]
  · rw [setRound_rounds_of_ne hs, h.clock]

theorem SameTimes.grant (h : v.SameTimes v') (gs : List (Grant E64 E128 EBool)) :
    v.SameTimes (v'.grant gs) :=
  ⟨h.activeRoundId, h.clock, h.roundParticipants, h.eligibilityStart, h.observations,
    h.principal⟩

theorem startSelection_sameTimes (h : startSelection fhe cfg r v = .ok v') : v.SameTimes v' := by
  rcases startSelection_ok h with ⟨_, gs, rfl⟩ | ⟨_, rfl⟩
  · refine ((SameTimes.refl v).setRound ?_).grant gs
    rfl
  · exact .refl _

theorem selectParticipant_sameTimes (h : selectParticipant fhe cfg r a v = .ok v') :
    v.SameTimes v' := by
  obtain ⟨weight, gs, _, rfl⟩ := selectParticipant_ok h
  refine SameTimes.grant (SameTimes.setRound ?_ ?_) gs
  · exact ⟨rfl, fun _ => rfl, rfl, rfl, rfl, rfl⟩
  · rfl

theorem requestReconciliation_sameTimes (r : Nat) (v : Vault E64 E128 EBool) :
    v.SameTimes (v.requestReconciliation fhe cfg r) := by
  rcases requestReconciliation_eq fhe cfg r v with ⟨_, gs, heq⟩ | ⟨_, heq⟩
  · rw [heq]
    refine ((SameTimes.refl v).setRound ?_).grant gs
    rfl
  · rw [heq]
    exact .refl v

theorem rollPrizeForward_sameTimes (h : rollPrizeForward fhe cfg r v = .ok v') :
    v.SameTimes v' := by
  obtain ⟨_, gs, rfl⟩ := rollPrizeForward_ok h
  refine SameTimes.grant (SameTimes.setRound ?_ ?_) gs
  · exact ⟨rfl, fun _ => rfl, rfl, rfl, rfl, rfl⟩
  · rfl

/-- What an allocation does to the time-keeping: the principal and the history of one account
change, and the eligible balance follows. -/
theorem allocated_times {prize autoSaved : E64} {obs : List (Observation E64 E128)}
    (hr : r ≠ v.activeRoundId) (hu : u = allocated fhe r a prize autoSaved obs v) :
    u.activeRoundId = v.activeRoundId ∧ u.roundParticipants = v.roundParticipants ∧
      u.eligibilityStart = v.eligibilityStart ∧
      u.principal = Function.update v.principal a (fhe.add64 (v.principal a) autoSaved) ∧
      u.observations = Function.update v.observations a obs ∧
      (∀ s, s ≠ v.activeRoundId → (u.rounds s).clock = (v.rounds s).clock) ∧
      (u.rounds v.activeRoundId).clock = { (v.rounds v.activeRoundId).clock with
        eligibleBalance :=
          if v.eligibilityStart v.activeRoundId a ≠ 0 then
            fhe.add64 (v.rounds v.activeRoundId).eligibleBalance autoSaved
          else (v.rounds v.activeRoundId).eligibleBalance } := by
  subst hu
  refine ⟨rfl, rfl, rfl, rfl, rfl, fun s hsa => ?_, ?_⟩
  · by_cases hsr : s = r
    · subst hsr
      refine Eq.trans (congrArg Round.clock (setRound_rounds_self _ _)) ?_
      rfl
    · exact congrArg Round.clock
        ((setRound_rounds_of_ne hsr _).trans (setRound_rounds_of_ne hsa _))
  · exact congrArg Round.clock
      ((setRound_rounds_of_ne hr.symm _).trans (setRound_rounds_self _ _))

theorem allocateParticipant_active {now : Nat} (hr : r ≠ v.activeRoundId)
    (h : allocateParticipant fhe cfg r now a v = .ok v') : v'.activeRoundId = v.activeRoundId := by
  obtain ⟨_, prize, autoSaved, obs, cum, gs, _, _, _, _, rfl⟩ := allocateParticipant_ok hr h
  rfl

end Vault

/-- The calls that leave the time-keeping of the vault alone. -/
def Call.keepsTime : Call E64 E128 EBool → Bool
  | .registerForRound .. | .deposit .. | .withdraw .. | .closeRound | .processAllocation .. =>
    false
  | _ => true

namespace World

variable {w w' : World E64 E128 EBool X} {sender : Address} {r n : Nat}

theorem settle_sameTimes (h : settle cfg r n w = .ok w') : w.vault.SameTimes w'.vault := by
  obtain ⟨e, _, rfl⟩ := settle_ok h
  refine (Vault.SameTimes.refl w.vault).setRound ?_
  rfl

theorem processSelection_sameTimes (h : processSelection fhe cfg sender r n w = .ok w') :
    w.vault.SameTimes w'.vault := by
  obtain ⟨_, v₁, processed, v₂, e, hstart, _, hloop, _, rfl⟩ := processSelection_ok h
  have hrun : v₁.SameTimes v₂ := Vault.forList_invariant
    (I := fun _ u => v₁.SameTimes u)
    (fun a _ u u' hu hstep => hu.trans (Vault.selectParticipant_sameTimes hstep))
    (Vault.forParticipants_ok
      (fun a u u' hu => congrFun (Vault.selectParticipant_participants hu) r) hloop).2
    (.refl v₁)
  refine (((Vault.startSelection_sameTimes hstart).trans hrun).setRound ?_).trans
    (Vault.requestReconciliation_sameTimes r _)
  rfl

/-- Every call but five leaves the time-keeping alone. -/
theorem exec_sameTimes (hsender : cfg.External sender) {c : Call E64 E128 EBool}
    (hc : c.keepsTime = true) (h : exec fhe E cfg sender w c = .ok w') :
    w.vault.SameTimes w'.vault := by
  by_cases hdraws : c.draws = false
  · exact (exec_idle hsender hdraws h).vault.sameTimes
  cases c with
  | finalizeAggregate r c proof =>
    obtain ⟨v, hv, rfl⟩ := onVault_eq_ok.1 h
    obtain ⟨_, n, _, _, rfl⟩ := Vault.finalizeAggregate_ok hv
    refine (Vault.SameTimes.refl w.vault).setRound ?_
    rfl
  | generateRandomCandidate r candidate =>
    obtain ⟨v, hv, rfl⟩ := onVault_eq_ok.1 h
    obtain ⟨_, _, _, round, attempts, gs, rfl, hround⟩ := Vault.generateRandomCandidate_ok hv
    refine Vault.SameTimes.grant (Vault.SameTimes.setRound ?_ ?_) gs
    · exact ⟨rfl, fun _ => rfl, rfl, rfl, rfl, rfl⟩
    · rcases hround with ⟨_, rfl⟩ | ⟨_, rfl⟩ <;> rfl
  | finalizeCandidateValidity r c proof =>
    obtain ⟨v, hv, rfl⟩ := onVault_eq_ok.1 h
    obtain ⟨_, valid, gs, _, rfl⟩ := Vault.finalizeCandidateValidity_ok hv
    refine ((Vault.SameTimes.refl w.vault).setRound ?_).grant gs
    cases valid <;> rfl
  | processSelection r n => exact processSelection_sameTimes h
  | finalizeSelectionReconciliation r c proof =>
    obtain ⟨v, hv, rfl⟩ := onVault_eq_ok.1 h
    obtain ⟨_, valid, _, rfl⟩ := Vault.finalizeSelectionReconciliation_ok hv
    refine (Vault.SameTimes.refl w.vault).setRound ?_
    rfl
  | finalizeSettlement r => exact settle_sameTimes (finalizeSettlement_ok h).2
  | recoverFailedReconciliation r =>
    obtain ⟨_, v, hroll, hsettle⟩ := recoverFailedReconciliation_ok h
    exact (Vault.rollPrizeForward_sameTimes hroll).trans (settle_sameTimes hsettle)
  | settleEmptyRound r =>
    obtain ⟨_, v, hroll, hsettle⟩ := settleEmptyRound_ok h
    exact (Vault.rollPrizeForward_sameTimes hroll).trans (settle_sameTimes hsettle)
  | registerForRound | deposit | withdraw | closeRound | processAllocation => cases hc
  | _ => exact absurd rfl hdraws

end World

end

namespace Vault

/-- The accrual of the open round. -/
def accrual (v : PlainVault) : Accrual Address where
  members := v.roundParticipants v.activeRoundId
  start := v.eligibilityStart v.activeRoundId
  history a := balanceAt (v.observations a)
  current := v.principal
  time := (v.rounds v.activeRoundId).eligibleTimestamp
  total := (v.rounds v.activeRoundId).eligibleBalance
  cumulative := (v.rounds v.activeRoundId).eligibleCumulative

/-- A closed round is over, and what it froze is the sum of the weights of its participants. -/
structure ClosedSound (cfg : Config) (now : Nat) (v : PlainVault) (r : Nat) : Prop where
  ended : (v.rounds r).closesAt ≤ now
  closes_lt : (v.rounds r).closesAt < 2 ^ 64
  start_le : ∀ a ∈ v.roundParticipants r, v.eligibilityStart r a ≤ (v.rounds r).closesAt
  frozen : (v.rounds r).eligibleCumulative = (v.rounds r).aggregateTwab
  aggregate_eq : (v.rounds r).aggregateTwab = ((v.roundParticipants r).map (v.weight r)).sum
  aggregate_le : (v.rounds r).aggregateTwab ≤ MAX_POOL_BASE_UNITS * cfg.roundDuration

/-- The open round accrues exactly, from its opening to at most its close. -/
structure OpenSound (cfg : Config) (now : Nat) (v : PlainVault) : Prop where
  opens_pos : 0 < (v.rounds v.activeRoundId).opensAt
  opens_le : (v.rounds v.activeRoundId).opensAt ≤ (v.rounds v.activeRoundId).eligibleTimestamp
  time_le : (v.rounds v.activeRoundId).eligibleTimestamp ≤
    max (v.rounds v.activeRoundId).opensAt now
  closes_eq : (v.rounds v.activeRoundId).closesAt =
    (v.rounds v.activeRoundId).opensAt + cfg.roundDuration
  closes_lt : (v.rounds v.activeRoundId).closesAt < 2 ^ 64
  cumulative_le : (v.rounds v.activeRoundId).eligibleCumulative ≤ MAX_POOL_BASE_UNITS *
    ((v.rounds v.activeRoundId).eligibleTimestamp - (v.rounds v.activeRoundId).opensAt)

/-- The invariant of time. -/
structure Timed (cfg : Config) (now : Nat) (v : PlainVault) : Prop where
  recorded : ∀ a, Recorded now (v.principal a) (v.observations a)
  eligible : ∀ r a, v.eligibilityStart r a ≠ 0 ↔ a ∈ v.roundParticipants r
  accrual : v.accrual.Sound
  openRound : v.OpenSound cfg now
  closed : ∀ r, 0 < r → r < v.activeRoundId → v.ClosedSound cfg now r

variable {cfg : Config} {now t b : Nat} {v v' : PlainVault} {a : Address} {r : Nat}

/-- A closed round stays sound while its clock, its registrations and the weights stay. -/
theorem ClosedSound.congr (h : v.ClosedSound cfg now r) {now' : Nat} (hnow : now ≤ now')
    (hclock : (v'.rounds r).clock = (v.rounds r).clock)
    (hparts : v'.roundParticipants r = v.roundParticipants r)
    (hstart : v'.eligibilityStart r = v.eligibilityStart r)
    (hweight : ∀ a ∈ v.roundParticipants r, v'.weight r a = v.weight r a) :
    v'.ClosedSound cfg now' r := by
  obtain ⟨h1, h2, h3, h4, h5, h6⟩ := h
  have hc := Clock.ext_iff.1 hclock
  simp only [Round.clock] at hc
  obtain ⟨_, e2, e3, _, e5, _⟩ := hc
  constructor <;> simp only [hparts, hstart, e2, e3, e5]
  · exact h1.trans hnow
  · exact h2
  · exact h3
  · exact h4
  · rw [h5, List.map_congr_left hweight]
  · exact h6

/-- The principal of `a` becomes `b` at time `now`; the eligible balance follows when `a` is
registered in the open round. -/
structure Rebalanced (now : Nat) (a : Address) (b : Nat) (v v' : PlainVault) : Prop where
  activeRoundId : v'.activeRoundId = v.activeRoundId
  roundParticipants : v'.roundParticipants = v.roundParticipants
  eligibilityStart : v'.eligibilityStart = v.eligibilityStart
  principal : v'.principal = Function.update v.principal a b
  observations : ∃ obs c, record Fhe.plain b now (v.observations a) = .ok (obs, c) ∧
    v'.observations = Function.update v.observations a obs
  clock_of_ne : ∀ r, r ≠ v.activeRoundId → (v'.rounds r).clock = (v.rounds r).clock
  clock : (v'.rounds v.activeRoundId).clock = { (v.rounds v.activeRoundId).clock with
    eligibleBalance :=
      if a ∈ v.roundParticipants v.activeRoundId then
        (v.rounds v.activeRoundId).eligibleBalance - v.principal a + b
      else (v.rounds v.activeRoundId).eligibleBalance }

namespace Timed

/-- What the eligible balance of the open round sums. -/
theorem eligible_le_total {total : Nat} (h : v.Timed cfg now)
    (htotal : ∑ a, v.principal a = total) :
    (v.rounds v.activeRoundId).eligibleBalance ≤ total := by
  have heq : (v.rounds v.activeRoundId).eligibleBalance =
      ((v.roundParticipants v.activeRoundId).map v.principal).sum := h.accrual.total_eq
  rw [heq, ← htotal]
  exact list_sum_le h.accrual.nodup v.principal

/-- The invariant only reads the clocks of the rounds, the registrations and the histories. -/
theorem congr (h : v.Timed cfg now) {now' : Nat} (hnow : now ≤ now') (hv : v.SameTimes v') :
    v'.Timed cfg now' := by
  obtain ⟨hactive, hclock, hparts, hstart, hobs, hprincipal⟩ := hv
  have hc := fun s => Clock.ext_iff.1 (hclock s)
  simp only [Round.clock] at hc
  constructor
  · intro a
    rw [hprincipal, hobs]
    exact (h.recorded a).later hnow
  · rw [hparts, hstart]
    exact h.eligible
  · have heq : v'.accrual = v.accrual := by
      obtain ⟨_, _, _, h4, h5, h6⟩ := hc v.activeRoundId
      simp only [Vault.accrual, hactive, hparts, hstart, hobs, hprincipal, h4, h5, h6]
    rw [heq]
    exact h.accrual
  · obtain ⟨h1, h2, h3, h4, h5, h6⟩ := h.openRound
    obtain ⟨e1, e2, _, _, e5, e6⟩ := hc v.activeRoundId
    constructor <;> simp only [hactive, e1, e2, e5, e6]
    · exact h1
    · exact h2
    · exact h3.trans (max_le_max_left _ hnow)
    · exact h4
    · exact h5
    · exact h6
  · intro r hr hlt
    rw [hactive] at hlt
    refine (h.closed r hr hlt).congr hnow (hclock r) (by rw [hparts]) (by rw [hstart])
      fun a _ => ?_
    rw [Vault.weight, Vault.weight, hobs, hstart, (hc r).2.1]

/-- The present while the active round is open. -/
theorem open_bounds (h : v.Timed cfg now) (hopen : v.isActiveRoundOpen now = true) :
    now < 2 ^ 64 ∧ uint64 now = now ∧ 0 < now ∧
      (v.rounds v.activeRoundId).eligibleTimestamp ≤ now ∧
      now < (v.rounds v.activeRoundId).opensAt + cfg.roundDuration := by
  obtain ⟨_, hopens, hcloses⟩ := isActiveRoundOpen_iff.1 hopen
  obtain ⟨h1, _, h3, h4, h5, _⟩ := h.openRound
  rw [max_eq_right hopens] at h3
  have hlt : now < 2 ^ 64 := hcloses.trans h5
  exact ⟨hlt, Nat.mod_eq_of_lt hlt, by omega, h3, by omega⟩

/-- The encrypted accrual of a round is exact while the balances stay under the cap. -/
theorem accrued_eq (h : v.Timed cfg now) (hdur : cfg.roundDuration ≤ MAX_ROUND_DURATION)
    (htotal : (v.rounds v.activeRoundId).eligibleBalance ≤ MAX_POOL_BASE_UNITS)
    (ht : (v.rounds v.activeRoundId).eligibleTimestamp ≤ t)
    (hclose : t ≤ (v.rounds v.activeRoundId).closesAt) :
    accruedCumulative Fhe.plain (v.rounds v.activeRoundId) t =
        (v.rounds v.activeRoundId).eligibleCumulative +
          (v.rounds v.activeRoundId).eligibleBalance *
            (t - (v.rounds v.activeRoundId).eligibleTimestamp) ∧
      accruedCumulative Fhe.plain (v.rounds v.activeRoundId) t ≤
        MAX_POOL_BASE_UNITS * (t - (v.rounds v.activeRoundId).opensAt) := by
  obtain ⟨_, h2, _, h4, h5, h6⟩ := h.openRound
  generalize v.rounds v.activeRoundId = round at *
  have hle : round.eligibleCumulative + round.eligibleBalance * (t - round.eligibleTimestamp) ≤
      MAX_POOL_BASE_UNITS * (t - round.opensAt) := by
    calc round.eligibleCumulative + round.eligibleBalance * (t - round.eligibleTimestamp)
        ≤ MAX_POOL_BASE_UNITS * (round.eligibleTimestamp - round.opensAt) +
            MAX_POOL_BASE_UNITS * (t - round.eligibleTimestamp) :=
          Nat.add_le_add h6 (Nat.mul_le_mul_right _ htotal)
      _ = MAX_POOL_BASE_UNITS * (t - round.opensAt) := by
          rw [← Nat.mul_add]
          congr 1
          omega
  have hbound : MAX_POOL_BASE_UNITS * (t - round.opensAt) < 2 ^ 128 := by
    have hd : t - round.opensAt ≤ MAX_ROUND_DURATION := by omega
    refine (Nat.mul_le_mul_left _ hd).trans_lt ?_
    decide
  have heq : accruedCumulative Fhe.plain round t =
      round.eligibleCumulative + round.eligibleBalance * (t - round.eligibleTimestamp) := by
    unfold accruedCumulative
    split_ifs with hsame
    · rw [hsame, Nat.sub_self, Nat.mul_zero, Nat.add_zero]
    · exact Recorded.extend_eq (by omega) (by omega)
  exact ⟨heq, heq ▸ hle⟩

/-! ## Steps -/

/-- The accrual of the open round is brought to the present. -/
theorem advance (h : v.Timed cfg now) (hdur : cfg.roundDuration ≤ MAX_ROUND_DURATION)
    (hopen : v.isActiveRoundOpen now = true)
    (hcap : (v.rounds v.activeRoundId).eligibleBalance ≤ MAX_POOL_BASE_UNITS) :
    (v.setRound v.activeRoundId
      (accrued Fhe.plain (v.rounds v.activeRoundId) now)).Timed cfg now := by
  obtain ⟨_, _, _, hle, hend⟩ := h.open_bounds hopen
  have hcloses := h.openRound.closes_eq
  obtain ⟨hcum, hbound⟩ := h.accrued_eq hdur hcap hle (by omega)
  have hopens := (isActiveRoundOpen_iff.1 hopen).2.1
  have hself : (v.setRound v.activeRoundId (accrued Fhe.plain (v.rounds v.activeRoundId)
      now)).rounds v.activeRoundId = accrued Fhe.plain (v.rounds v.activeRoundId) now :=
    setRound_rounds_self _ _
  generalize hv : v.setRound v.activeRoundId _ = v' at hself ⊢
  have hactive : v'.activeRoundId = v.activeRoundId := by rw [← hv]; rfl
  have hparts : v'.roundParticipants = v.roundParticipants := by rw [← hv]; rfl
  have hstart : v'.eligibilityStart = v.eligibilityStart := by rw [← hv]; rfl
  have hobs : v'.observations = v.observations := by rw [← hv]; rfl
  have hprincipal : v'.principal = v.principal := by rw [← hv]; rfl
  constructor
  · rw [hprincipal, hobs]
    exact h.recorded
  · rw [hparts, hstart]
    exact h.eligible
  · have heq : v'.accrual = v.accrual.advance now := by
      simp only [Vault.accrual, Accrual.advance, hactive, hparts, hstart, hobs, hprincipal, hself,
        accrued, hcum]
    rw [heq]
    exact h.accrual.advance hle
  · obtain ⟨h1, h2, h3, h4, h5, h6⟩ := h.openRound
    constructor <;> simp only [hactive, hself, accrued]
    · exact h1
    · exact hopens
    · exact Nat.le_max_right _ _
    · exact h4
    · exact h5
    · exact hbound
  · intro r hr hlt
    rw [hactive] at hlt
    have hround : v'.rounds r = v.rounds r := by
      rw [← hv]
      exact setRound_rounds_of_ne (Nat.ne_of_lt hlt) _
    exact (h.closed r hr hlt).congr (Nat.le_refl _) (by rw [hround]) (by rw [hparts])
      (by rw [hstart]) fun a _ => by rw [Vault.weight, Vault.weight, hobs, hstart, hround]

/-- A balance changes at the present. -/
theorem rebalance (h : v.Timed cfg now) (hnow : now < 2 ^ 64) (hb : b ≤ MAX_POOL_BASE_UNITS)
    (htime : a ∈ v.roundParticipants v.activeRoundId →
      (v.rounds v.activeRoundId).eligibleTimestamp = now)
    (hv : v.Rebalanced now a b v') : v'.Timed cfg now := by
  obtain ⟨hactive, hparts, hstart, hprincipal, ⟨obs, c, hrecord, hobs⟩, hother, hclock⟩ := hv
  obtain ⟨obs', c', hrecord', hrecorded, hat⟩ := (h.recorded a).record hnow
    (hb.trans_lt cap_lt)
  rw [hrecord, Except.ok.injEq, Prod.mk.injEq] at hrecord'
  obtain ⟨rfl, rfl⟩ := hrecord'
  have hc := Clock.ext_iff.1 hclock
  simp only [Round.clock] at hc
  obtain ⟨e1, e2, _, e4, e5, e6⟩ := hc
  constructor
  · intro a'
    rw [hprincipal, hobs]
    by_cases ha : a' = a
    · rw [ha, Function.update_self, Function.update_self]
      exact hrecorded
    · rw [Function.update_of_ne ha, Function.update_of_ne ha]
      exact h.recorded a'
  · rw [hparts, hstart]
    exact h.eligible
  · have hhistory : (fun a' => balanceAt (v'.observations a')) =
        Function.update (fun a' => balanceAt (v.observations a')) a
          fun s => if now ≤ s then b else balanceAt (v.observations a) s := by
      funext a'
      rw [hobs]
      by_cases ha : a' = a
      · rw [ha, Function.update_self, Function.update_self]
        exact funext hat
      · rw [Function.update_of_ne ha, Function.update_of_ne ha]
    have heq : v'.accrual = v.accrual.rebalance now a b := by
      refine Accrual.ext ?_ ?_ hhistory hprincipal ?_ ?_ ?_ <;>
        simp only [Vault.accrual, Accrual.rebalance, hactive, hparts, hstart, e4, e5, e6]
      exact if_congr Iff.rfl rfl rfl
    rw [heq]
    exact h.accrual.rebalance fun ha => (htime ha).symm
  · obtain ⟨h1, h2, h3, h4, h5, h6⟩ := h.openRound
    constructor <;> simp only [hactive, e1, e2, e5, e6]
    exacts [h1, h2, h3, h4, h5, h6]
  · intro r hr hlt
    rw [hactive] at hlt
    have hround := hother r (Nat.ne_of_lt hlt)
    have hclosed := h.closed r hr hlt
    refine hclosed.congr (Nat.le_refl _) hround (by rw [hparts]) (by rw [hstart]) fun a' _ => ?_
    have hcloses : (v'.rounds r).closesAt = (v.rounds r).closesAt := congrArg Clock.closesAt hround
    rw [Vault.weight, Vault.weight, hobs, hstart, hcloses]
    -- the close of the round is not after the present
    refine Finset.sum_congr rfl fun s hs => ?_
    have hs := (Finset.mem_Ico.1 hs).2
    have hover := hclosed.ended
    by_cases ha : a' = a
    · rw [ha, Function.update_self, hat, if_neg (by omega)]
    · rw [Function.update_of_ne ha]

/-- An account joins the open round, whose accrual is at the present. -/
theorem enroll (h : v.Timed cfg now) (hpos : 0 < now)
    (ha : a ∉ v.roundParticipants v.activeRoundId)
    (htime : (v.rounds v.activeRoundId).eligibleTimestamp = now)
    (hactive : v'.activeRoundId = v.activeRoundId)
    (hparts : v'.roundParticipants = Function.update v.roundParticipants v.activeRoundId
      (v.roundParticipants v.activeRoundId ++ [a]))
    (hstart : v'.eligibilityStart = Function.update v.eligibilityStart v.activeRoundId
      (Function.update (v.eligibilityStart v.activeRoundId) a now))
    (hobs : v'.observations = v.observations) (hprincipal : v'.principal = v.principal)
    (hother : ∀ r, r ≠ v.activeRoundId → (v'.rounds r).clock = (v.rounds r).clock)
    (hclock : (v'.rounds v.activeRoundId).clock = { (v.rounds v.activeRoundId).clock with
      eligibleBalance := (v.rounds v.activeRoundId).eligibleBalance + v.principal a }) :
    v'.Timed cfg now := by
  have hc := Clock.ext_iff.1 hclock
  simp only [Round.clock] at hc
  obtain ⟨e1, e2, _, e4, e5, e6⟩ := hc
  constructor
  · rw [hprincipal, hobs]
    exact h.recorded
  · intro r a'
    rw [hparts, hstart]
    by_cases hr : r = v.activeRoundId
    · subst hr
      rw [Function.update_self, Function.update_self, List.mem_append, List.mem_singleton]
      by_cases haa : a' = a
      · rw [haa, Function.update_self]
        exact ⟨fun _ => .inr rfl, fun _ => Nat.ne_of_gt hpos⟩
      · rw [Function.update_of_ne haa, h.eligible]
        exact ⟨.inl, fun hor => hor.resolve_right haa⟩
    · rw [Function.update_of_ne hr, Function.update_of_ne hr]
      exact h.eligible r a'
  · have heq : v'.accrual = v.accrual.enroll a := by
      refine Accrual.ext ?_ ?_ ?_ ?_ ?_ ?_ ?_ <;>
        simp only [Vault.accrual, Accrual.enroll, hactive, hparts, hstart, hobs, hprincipal, e4,
          e5, e6, htime, Function.update_self]
    rw [heq]
    refine h.accrual.enroll ha fun s hs => ?_
    have hs : (v.rounds v.activeRoundId).eligibleTimestamp ≤ s := hs
    exact (h.recorded a).current s (htime ▸ hs)
  · obtain ⟨h1, h2, h3, h4, h5, h6⟩ := h.openRound
    constructor <;> simp only [hactive, e1, e2, e5, e6]
    exacts [h1, h2, h3, h4, h5, h6]
  · intro r hr hlt
    rw [hactive] at hlt
    have hne := Nat.ne_of_lt hlt
    have hround := hother r hne
    have hstart' : v'.eligibilityStart r = v.eligibilityStart r := by
      rw [hstart, Function.update_of_ne hne]
    refine (h.closed r hr hlt).congr (Nat.le_refl _) hround
      (by rw [hparts, Function.update_of_ne hne]) hstart' fun a' _ => ?_
    have hcloses : (v'.rounds r).closesAt = (v.rounds r).closesAt := congrArg Clock.closesAt hround
    rw [Vault.weight, Vault.weight, hobs, hstart', hcloses]

/-- The open round closes and the next one opens where it ended. -/
theorem close (h : v.Timed cfg now) (hdur : cfg.roundDuration ≤ MAX_ROUND_DURATION)
    (hcap : (v.rounds v.activeRoundId).eligibleBalance ≤ MAX_POOL_BASE_UNITS)
    (hnone : v.roundParticipants (v.activeRoundId + 1) = [])
    (hover : (v.rounds v.activeRoundId).closesAt ≤ now)
    (hlate : (v.rounds v.activeRoundId).eligibleTimestamp ≤ (v.rounds v.activeRoundId).closesAt)
    (hnext : (v.rounds v.activeRoundId).closesAt + cfg.roundDuration < 2 ^ 64)
    (hactive : v'.activeRoundId = v.activeRoundId + 1)
    (hparts : v'.roundParticipants = v.roundParticipants)
    (hstart : v'.eligibilityStart = v.eligibilityStart)
    (hobs : v'.observations = v.observations) (hprincipal : v'.principal = v.principal)
    (hother : ∀ r, r ≠ v.activeRoundId → r ≠ v.activeRoundId + 1 → v'.rounds r = v.rounds r)
    (hclosed : v'.rounds v.activeRoundId = closedRound Fhe.plain v)
    (hopened : v'.rounds (v.activeRoundId + 1) = openedRound Fhe.plain cfg v) :
    v'.Timed cfg now := by
  obtain ⟨h1, h2, _, h4, h5, _⟩ := h.openRound
  obtain ⟨hcum, hbound⟩ := h.accrued_eq hdur hcap hlate (Nat.le_refl _)
  constructor
  · rw [hprincipal, hobs]
    exact h.recorded
  · rw [hparts, hstart]
    exact h.eligible
  · -- nobody has registered in the round that opens
    have hempty : v'.accrual.members = [] := by
      simp only [Vault.accrual, hactive, hparts, hnone]
    constructor
    · rw [hempty]
      exact .nil
    · rw [hempty]
      nofun
    · rw [hempty]
      nofun
    · rw [hempty]
      simp only [Vault.accrual, hactive, hopened, openedRound]
      rfl
    · rw [hempty]
      simp only [Vault.accrual, hactive, hopened, openedRound]
      rfl
  · constructor <;> simp only [hactive, hopened, openedRound]
    · omega
    · exact Nat.le_refl _
    · exact Nat.le_max_left _ _
    · exact hnext
    · exact Nat.zero_le _
  · intro r hr hlt
    rw [hactive] at hlt
    by_cases hra : r = v.activeRoundId
    · subst hra
      have hweight : v'.weight v.activeRoundId =
          v.accrual.weight (v.rounds v.activeRoundId).closesAt := by
        funext a
        rw [Vault.weight, hobs, hstart, hclosed]
        rfl
      have hsound := h.accrual.advance (t := (v.rounds v.activeRoundId).closesAt) hlate
      constructor <;> simp only [hclosed, closedRound, accrued, hparts, hstart]
      · exact hover
      · exact h5
      · exact fun a ha => (h.accrual.start_le a ha).trans hlate
      · rw [hcum, hweight]
        exact hsound.cumulative_eq
      · have hlen : (v.rounds v.activeRoundId).closesAt - (v.rounds v.activeRoundId).opensAt =
          cfg.roundDuration := by omega
        rw [← hlen]
        exact hbound
    · have hround := hother r hra (by omega)
      refine (h.closed r hr (by omega)).congr (Nat.le_refl _) (by rw [hround]) (by rw [hparts])
        (by rw [hstart]) fun a _ => ?_
      rw [Vault.weight, Vault.weight, hobs, hstart, hround]

/-- A balance is checkpointed and the eligible balance follows it. -/
theorem change {v₁ v₂ : PlainVault} {f : Nat → Nat} {total liquid : Nat} (h : v.Timed cfg now)
    (hdur : cfg.roundDuration ≤ MAX_ROUND_DURATION) (hopen : v.isActiveRoundOpen now = true)
    (hcap : (v.rounds v.activeRoundId).eligibleBalance ≤ MAX_POOL_BASE_UNITS)
    (hb : b ≤ MAX_POOL_BASE_UNITS)
    (hf : a ∈ v.roundParticipants v.activeRoundId →
      f (v.rounds v.activeRoundId).eligibleBalance =
        (v.rounds v.activeRoundId).eligibleBalance - v.principal a + b)
    (hcheck : checkpointUser Fhe.plain cfg a b now v = .ok v₁)
    (hchange : changeEligible Fhe.plain cfg a f now { v₁ with
      principal := Function.update v₁.principal a b
      totalPrincipal := total
      liquidPrincipal := liquid } = .ok v₂) : v₂.Timed cfg now := by
  obtain ⟨hlt, _, hpos, _, _⟩ := h.open_bounds hopen
  obtain ⟨obs, c, gs, hrecord, rfl⟩ := checkpointUser_ok hcheck
  have hmem := h.eligible v.activeRoundId a
  rcases changeEligible_ok hchange with ⟨hzero, rfl⟩ | ⟨hreg, _, gs', rfl⟩
  · -- nobody registered: only the history changes
    have hzero : v.eligibilityStart v.activeRoundId a = 0 := hzero
    have hnot : a ∉ v.roundParticipants v.activeRoundId := fun ha => hmem.2 ha hzero
    refine h.rebalance (a := a) hlt hb (fun ha => absurd ha hnot) ?_
    refine ⟨rfl, rfl, rfl, rfl, ⟨obs, c, hrecord, rfl⟩, fun _ _ => rfl, ?_⟩
    rw [if_neg hnot]
    rfl
  · have hreg : v.eligibilityStart v.activeRoundId a ≠ 0 := hreg
    have ha := hmem.1 hreg
    have hself : (v.setRound v.activeRoundId (accrued Fhe.plain (v.rounds v.activeRoundId)
        now)).rounds v.activeRoundId = accrued Fhe.plain (v.rounds v.activeRoundId) now :=
      setRound_rounds_self _ _
    refine (h.advance hdur hopen hcap).rebalance (a := a) hlt hb (fun _ => ?_) ?_
    · exact congrArg Round.eligibleTimestamp hself
    · refine ⟨rfl, rfl, rfl, rfl, ⟨obs, c, hrecord, rfl⟩, fun r hr => ?_, ?_⟩
      · refine congrArg Round.clock ?_
        exact (setRound_rounds_of_ne hr _).trans (setRound_rounds_of_ne hr _).symm
      · refine (congrArg Round.clock (setRound_rounds_self _ _)).trans ?_
        refine Eq.trans ?_ (congrArg (fun round : PlainRound => { round.clock with
          eligibleBalance := if a ∈ v.roundParticipants v.activeRoundId then
            round.eligibleBalance - v.principal a + b else round.eligibleBalance }) hself.symm)
        have heq := hf ha
        simp only [Round.clock, accrued, if_pos ha]
        exact congrArg (fun n => Clock.mk _ _ _ n _ _) heq

end Timed

end Vault

/-! ## Every step keeps time -/

section

variable {X : Type} {E : Externals Nat Bool X} {O : Observables X} {cfg : Config}
  {w w' : PlainWorld X} {sender : Address}

namespace Vault

variable {v v' : PlainVault} {now r balance basis rate : Nat} {a : Address}

/-- The eligible balance of the open round is part of the savings. -/
theorem Timed.eligible_le (h : v.Timed cfg now) (hs : (v.books balance basis).Kept rate) :
    (v.rounds v.activeRoundId).eligibleBalance ≤ v.totalPrincipal :=
  h.eligible_le_total hs.principal_sum

theorem Timed.eligible_le_cap (h : v.Timed cfg now) (hs : (v.books balance basis).Kept rate) :
    (v.rounds v.activeRoundId).eligibleBalance ≤ MAX_POOL_BASE_UNITS :=
  (h.eligible_le hs).trans hs.total_le

/-- The allocation to one participant of a closed round is a change of its balance. -/
theorem Timed.allocateParticipant (h : v.Timed cfg now) (hs : (v.books balance basis).Kept rate)
    (hnow : now < 2 ^ 64) (htime : (v.rounds v.activeRoundId).eligibleTimestamp = now)
    (hr : r < v.activeRoundId)
    (hall : Vault.allocateParticipant Fhe.plain cfg r now a v = .ok v') :
    v'.Timed cfg now ∧ (v'.rounds v.activeRoundId).eligibleTimestamp = now := by
  have hne : r ≠ v.activeRoundId := Nat.ne_of_lt hr
  obtain ⟨preference, prize, autoSaved, obs, c, gs, _, hprize, hauto, hrecord, rfl⟩ :=
    allocateParticipant_ok hne hall
  rw [uint64, Nat.mod_eq_of_lt hnow] at hrecord
  have htotal : v.totalPrincipal ≤ MAX_POOL_BASE_UNITS := hs.total_le
  have hprincipal : v.principal a ≤ v.totalPrincipal := hs.principal_le a
  have helig := h.eligible_le hs
  have hcap := cap_lt
  have hfits : v.totalPrincipal + autoSaved ≤ MAX_POOL_BASE_UNITS := by
    rcases allocated_amounts htotal hprize hauto with ⟨_, h0⟩ | ⟨_, h0⟩ | ⟨_, h0, hle⟩ <;> omega
  clear hprize hauto
  have hb : Fhe.plain.add64 (v.principal a) autoSaved = v.principal a + autoSaved :=
    Fhe.plain_add64 (by omega)
  have heb : Fhe.plain.add64 (v.rounds v.activeRoundId).eligibleBalance autoSaved =
      (v.rounds v.activeRoundId).eligibleBalance + autoSaved := Fhe.plain_add64 (by omega)
  obtain ⟨u, hu⟩ : ∃ u, u = allocated Fhe.plain r a prize autoSaved obs v := ⟨_, rfl⟩
  obtain ⟨hactive, hparts, hstart, hprincipals, hobs, hother, hclock⟩ := allocated_times hne hu
  rw [← hu]
  clear hu hall
  rw [hb] at hrecord hprincipals
  rw [heb] at hclock
  have hchanged : v.Rebalanced now a (v.principal a + autoSaved) u := by
    refine ⟨hactive, hparts, hstart, hprincipals, ⟨obs, c, hrecord, hobs⟩, hother, ?_⟩
    rw [hclock]
    by_cases ha : a ∈ v.roundParticipants v.activeRoundId
    · have hle : v.principal a ≤ (v.rounds v.activeRoundId).eligibleBalance :=
        h.accrual.current_le ha
      rw [if_pos ha, if_pos ((h.eligible _ _).2 ha)]
      exact congrArg (fun n => Clock.mk _ _ _ n _ _) (by omega)
    · rw [if_neg ha, if_neg (fun hreg => ha ((h.eligible _ _).1 hreg))]
  refine ⟨(h.rebalance hnow (by omega) (fun _ => htime) hchanged).congr (Nat.le_refl _)
    ((SameTimes.refl u).grant gs), ?_⟩
  exact (congrArg Clock.eligibleTimestamp hclock).trans htime

end Vault

namespace World

variable (hE : E.Lawful O cfg.vault cfg.asset) (hcfg : Deployed E cfg)

include hcfg in
theorem registerForRound_timed {value r : Nat} (hB : w.Booked O cfg E)
    (h : w.vault.Timed cfg w.now)
    (hop : registerForRound Fhe.plain cfg sender value r w = .ok w') :
    w'.vault.Timed cfg w'.now := by
  obtain ⟨e, v, _, hv, rfl⟩ := registerForRound_ok hop
  obtain ⟨_, _, rfl, hopen, hnew, _, gs, rfl⟩ := Vault.acceptBondRegistration_ok hv
  obtain ⟨hlt, hnow, hpos, _, _⟩ := h.open_bounds hopen
  have hcap := Vault.cap_add_cap_lt
  have helig := h.eligible_le_cap hB.kept
  have hprincipal : w.vault.principal sender ≤ MAX_POOL_BASE_UNITS :=
    (hB.kept.principal_le sender).trans hB.kept.total_le
  have hsum : Fhe.plain.add64 (w.vault.rounds w.vault.activeRoundId).eligibleBalance
      (if Fhe.plain.isInitialized (w.vault.principal sender) then w.vault.principal sender
        else Fhe.plain.asEuint64 0) =
      (w.vault.rounds w.vault.activeRoundId).eligibleBalance + w.vault.principal sender := by
    rw [Fhe.plain_isInitialized, if_pos rfl, Fhe.plain_add64 (by omega)]
  rw [hnow, hsum]
  have hadvanced := h.advance hcfg.duration_le hopen helig
  have hself : (w.vault.setRound w.vault.activeRoundId (Vault.accrued Fhe.plain
      (w.vault.rounds w.vault.activeRoundId) w.now)).rounds w.vault.activeRoundId =
      Vault.accrued Fhe.plain (w.vault.rounds w.vault.activeRoundId) w.now :=
    Vault.setRound_rounds_self _ _
  refine (hadvanced.enroll hpos (fun ha => (h.eligible _ _).2 ha hnew)
    (congrArg Round.eligibleTimestamp hself) ?_ ?_ ?_ ?_ ?_ ?_ ?_).congr (Nat.le_refl _)
      ((Vault.SameTimes.refl _).grant gs)
  · rfl
  · rfl
  · rfl
  · rfl
  · rfl
  · exact fun r hr => congrArg Round.clock
      ((Vault.setRound_rounds_of_ne hr _).trans (Vault.setRound_rounds_of_ne hr _).symm)
  · refine (congrArg Round.clock (Vault.setRound_rounds_self _ _)).trans ?_
    exact (congrArg (fun round : PlainRound => { round.clock with
      eligibleBalance := round.eligibleBalance + w.vault.principal sender }) hself).symm

include hcfg in
theorem deposit_timed {n d : Nat} (hB : w.Booked O cfg E) (h : w.vault.Timed cfg w.now)
    (hop : deposit Fhe.plain E cfg sender n d w = .ok w') : w'.vault.Timed cfg w'.now := by
  obtain ⟨x₁, sent, v, accepted, x₂, _, hv, _, rfl⟩ := deposit_ok hop
  obtain ⟨_, hopen, haccepted, v₁, v₂, gs, hcheck, hchange, rfl⟩ :=
    Vault.onConfidentialTransferReceived_ok hv
  obtain ⟨hlt, hnow, _, _, _⟩ := h.open_bounds hopen
  have hcap := Vault.cap_lt
  have htotal : w.vault.totalPrincipal ≤ MAX_POOL_BASE_UNITS := hB.kept.total_le
  have hprincipal : w.vault.principal sender ≤ w.vault.totalPrincipal :=
    hB.kept.principal_le sender
  have helig := h.eligible_le hB.kept
  -- what is accepted fits under the cap
  have hfits : w.vault.totalPrincipal +
      Fhe.plain.select64 accepted sent (Fhe.plain.asEuint64 0) ≤ MAX_POOL_BASE_UNITS := by
    rw [Fhe.plain_select64]
    cases accepted with
    | false => exact htotal
    | true =>
      have hle := (Bool.and_eq_true_iff.1 haccepted.symm).1
      rw [Fhe.plain_asEuint64 hcap, Fhe.plain_sub64 hcap htotal, Fhe.plain_le64,
        decide_eq_true_iff] at hle
      rw [if_pos rfl]
      omega
  generalize Fhe.plain.select64 accepted sent (Fhe.plain.asEuint64 0) = m at *
  rw [hnow, Fhe.plain_add64 (by omega)] at hcheck hchange
  refine (h.change hcfg.duration_le hopen (h.eligible_le_cap hB.kept) (by omega) (fun ha => ?_)
    hcheck hchange).congr (Nat.le_refl _) ((Vault.SameTimes.refl v₂).grant gs)
  have hle : w.vault.principal sender ≤
    (w.vault.rounds w.vault.activeRoundId).eligibleBalance := h.accrual.current_le ha
  rw [Fhe.plain_add64 (by omega)]
  omega

include hE hcfg in
theorem withdraw_timed (hsender : cfg.External sender) {input : EncryptedInput Nat} {sent : Nat}
    (hB : w.Booked O cfg E) (h : w.vault.Timed cfg w.now)
    (hop : withdraw Fhe.plain E cfg sender input w = .ok (w', sent)) :
    w'.vault.Timed cfg w'.now := by
  obtain ⟨hopen, x, v, hsend, hv, rfl⟩ := withdraw_ok hop
  obtain ⟨hsent, _, _⟩ := hE.transfer hsend hsender.ne_vault
  obtain ⟨v₁, v₂, gs, hcheck, hchange, rfl⟩ := Vault.recordWithdrawal_ok hv
  obtain ⟨hlt, hnow, _, _, _⟩ := h.open_bounds hopen
  have hcap := Vault.cap_lt
  have htotal : w.vault.totalPrincipal ≤ MAX_POOL_BASE_UNITS := hB.kept.total_le
  have hprincipal : w.vault.principal sender ≤ w.vault.totalPrincipal :=
    hB.kept.principal_le sender
  have helig := h.eligible_le hB.kept
  have hle : sent ≤ w.vault.principal sender := by
    refine le_trans ?_ (eligibleWithdrawal_le sender input.handle w.vault).1
    rw [hsent]
    split_ifs <;> omega
  rw [hnow, Fhe.plain_sub64 (by omega) hle] at hcheck hchange
  refine (h.change hcfg.duration_le hopen (h.eligible_le_cap hB.kept) (by omega) (fun ha => ?_)
    hcheck hchange).congr (Nat.le_refl _) ((Vault.SameTimes.refl v₂).grant gs)
  have hmem : w.vault.principal sender ≤
    (w.vault.rounds w.vault.activeRoundId).eligibleBalance := h.accrual.current_le ha
  rw [Fhe.plain_sub64 (by omega) (by omega)]
  omega

include hcfg in
theorem closeRound_timed {v : PlainVault} (hB : w.Booked O cfg E) (h : w.vault.Timed cfg w.now)
    (hop : w.vault.closeRound Fhe.plain cfg w.now = .ok v) : v.Timed cfg w.now := by
  obtain ⟨_, hover, hlate, hnext, gs, rfl⟩ := Vault.closeRound_ok hop
  have hne : w.vault.activeRoundId ≠ w.vault.activeRoundId + 1 := Nat.ne_of_lt (Nat.lt_succ_self _)
  refine (h.close hcfg.duration_le (h.eligible_le_cap hB.kept)
    (hB.shape.later_participants _ (Nat.lt_succ_self _)) hover hlate hnext
    ?_ ?_ ?_ ?_ ?_ (fun r hr hr' => ?_) ?_ ?_).congr (Nat.le_refl _) ((Vault.SameTimes.refl _).grant gs)
  · rfl
  · rfl
  · rfl
  · rfl
  · rfl
  · exact (Vault.setRound_rounds_of_ne hr' _).trans (Vault.setRound_rounds_of_ne hr _)
  · exact (Vault.setRound_rounds_of_ne hne _).trans (Vault.setRound_rounds_self _ _)
  · exact Vault.setRound_rounds_self _ _

include hcfg in
theorem processAllocation_timed {r n : Nat} (hB : w.Booked O cfg E)
    (h : w.vault.Timed cfg w.now)
    (hop : processAllocation Fhe.plain cfg sender r n w = .ok w') :
    w'.vault.Timed cfg w'.now := by
  obtain ⟨_, hopen, v₁, v₂, processed, v₃, e, hstart, hacc, _, hloop, _, rfl⟩ :=
    processAllocation_ok hop
  obtain ⟨hstate, rfl⟩ := Vault.startAllocation_ok hstart
  obtain ⟨hlt, hnow, _, _, _⟩ := h.open_bounds hopen
  obtain ⟨hr, hrlt⟩ := hB.shape.closed_of_state (r := r)
    (by rcases hstate with h | h <;> rw [h] <;> nofun)
    (by rcases hstate with h | h <;> rw [h] <;> nofun)
  have hne : w.vault.activeRoundId ≠ r := Nat.ne_of_gt hrlt
  have hsame : w.vault.SameTimes (w.vault.setRound r { w.vault.rounds r with
      state := .allocationProcessing }) := by
    refine (Vault.SameTimes.refl w.vault).setRound ?_
    rfl
  have hself : (w.vault.setRound r { w.vault.rounds r with state := .allocationProcessing }).rounds
      w.vault.activeRoundId = w.vault.rounds w.vault.activeRoundId :=
    Vault.setRound_rounds_of_ne hne _
  have hbooks : (w.vault.setRound r { w.vault.rounds r with
      state := .allocationProcessing }).books (O.confidentialBalance w.ext cfg.vault)
        w.adapter.deployedPrincipalBasis = w.ledger O cfg := by
    refine Vault.books_setRound_of_reserved ?_
    rfl
  have hkept₁ : (Vault.books (O.confidentialBalance w.ext cfg.vault)
      w.adapter.deployedPrincipalBasis (w.vault.setRound r { w.vault.rounds r with
        state := .allocationProcessing })).Kept E.rate := by
    rw [hbooks]
    exact hB.kept
  have hactive₁ : (w.vault.setRound r { w.vault.rounds r with
      state := .allocationProcessing }).activeRoundId = w.vault.activeRoundId := rfl
  generalize w.vault.setRound r _ = v₁ at hsame hself hkept₁ hactive₁ hacc
  have h₁ : v₁.Timed cfg w.now := h.congr (Nat.le_refl _) hsame
  have hopen₁ : v₁.isActiveRoundOpen w.now = true := by
    rw [Vault.isActiveRoundOpen_iff, hactive₁, hself, ← Vault.isActiveRoundOpen_iff]
    exact hopen
  -- the accrual of the active round comes first, then the balances change
  have hkept₂ := Vault.accrueEligible_books hacc ▸ hkept₁
  obtain ⟨_, gs, rfl⟩ := Vault.accrueEligible_ok hacc
  rw [hnow] at hloop hkept₂
  have h₂ := (h₁.advance hcfg.duration_le hopen₁ (h₁.eligible_le_cap hkept₁)).congr (Nat.le_refl _)
    ((Vault.SameTimes.refl _).grant gs)
  have htime : (((v₁.setRound v₁.activeRoundId (Vault.accrued Fhe.plain
      (v₁.rounds v₁.activeRoundId) w.now)).grant gs).rounds v₁.activeRoundId).eligibleTimestamp =
      w.now := congrArg Round.eligibleTimestamp (Vault.setRound_rounds_self _ _)
  have hactive₂ : ((v₁.setRound v₁.activeRoundId (Vault.accrued Fhe.plain
      (v₁.rounds v₁.activeRoundId) w.now)).grant gs).activeRoundId = v₁.activeRoundId := rfl
  rw [hnow]
  generalize (v₁.setRound v₁.activeRoundId _).grant gs = v₂ at hkept₂ h₂ htime hactive₂ hloop ⊢
  have hend := Vault.forList_invariant
    (I := fun _ u => u.Timed cfg w.now ∧ (u.books (O.confidentialBalance w.ext cfg.vault)
        w.adapter.deployedPrincipalBasis).Kept E.rate ∧
      u.activeRoundId = v₁.activeRoundId ∧
      (u.rounds v₁.activeRoundId).eligibleTimestamp = w.now)
    (fun a _ u u' hu hstep => ?_)
    (Vault.forParticipants_ok
      (fun a u u' hu => congrFun (Vault.allocateParticipant_participants hu) r) hloop).2
    ⟨h₂, hkept₂, hactive₂, htime⟩
  · refine hend.1.congr (Nat.le_refl _) ?_
    rw [Vault.finishAllocation_eq]
    refine Vault.SameTimes.setRound (Vault.SameTimes.setRound (.refl v₃) ?_) ?_ <;> rfl
  · obtain ⟨ht, hk, hact, hstamp⟩ := hu
    have hru : r < u.activeRoundId := by rw [hact, hactive₁]; exact hrlt
    rw [← hact] at hstamp
    obtain ⟨ht', hstamp'⟩ := ht.allocateParticipant hk hlt hstamp hru hstep
    have hact' := Vault.allocateParticipant_active (Nat.ne_of_lt hru) hstep
    refine ⟨ht', hk.postings (Vault.allocateParticipant_books hk hru hstep), hact'.trans hact, ?_⟩
    rw [← hact]
    exact hstamp'

include hE hcfg in
/-- **Step lemma.**  Every call keeps the time-keeping exact. -/
theorem exec_timed (hsender : cfg.External sender) (hB : w.Booked O cfg E)
    (h : w.vault.Timed cfg w.now) {c : Call Nat Nat Bool}
    (hop : exec Fhe.plain E cfg sender w c = .ok w') : w'.vault.Timed cfg w'.now := by
  have hnow : w'.now = w.now := exec_now hsender hop
  by_cases hc : c.keepsTime = true
  · rw [hnow]
    exact h.congr (Nat.le_refl _) (exec_sameTimes hsender hc hop)
  cases c with
  | registerForRound value r => exact registerForRound_timed hcfg hB h hop
  | deposit n d => exact deposit_timed hcfg hB h hop
  | withdraw input =>
    obtain ⟨⟨w₁, sent⟩, hw, rfl⟩ := map_eq_ok.1 hop
    exact withdraw_timed hE hcfg hsender hB h hw
  | closeRound =>
    obtain ⟨v, hv, rfl⟩ := onVault_eq_ok.1 hop
    exact closeRound_timed (w := w) hcfg hB h hv
  | processAllocation r n => exact processAllocation_timed hcfg hB h hop
  | _ => exact absurd rfl hc

include hE hcfg in
theorem step_timed (hB : w.Booked O cfg E) (h : w.vault.Timed cfg w.now)
    {l : Label Nat Nat Bool X} (hstep : Step Fhe.plain E cfg w l w') :
    w'.vault.Timed cfg w'.now := by
  cases l with
  | call sender c => exact exec_timed hE hcfg hstep.1 hB h hstep.2
  | tick now =>
    obtain ⟨hle, rfl⟩ := hstep
    exact h.congr hle (.refl _)
  | thirdParty ext =>
    obtain ⟨_, rfl⟩ := hstep
    exact h
  | forceNative amount =>
    obtain rfl := hstep
    exact h

theorem construct_timed {nativeBalance now : Nat} {x : X}
    (h : construct Fhe.plain E cfg nativeBalance now x = .ok w) : w.vault.Timed cfg w.now := by
  have hdeployed := deployed_of_construct h
  obtain ⟨_, _, hlt, gs, rfl⟩ := construct_ok h
  have hself := Vault.setRound_rounds_self (v := Vault.zeroLedger Fhe.plain cfg) 1
    { Round.unset Fhe.plain with
      opensAt := cfg.firstRoundOpensAt
      closesAt := cfg.firstRoundOpensAt + cfg.roundDuration
      state := .open
      eligibleBalance := Fhe.plain.asEuint64 0
      eligibleCumulative := Fhe.plain.asEuint128 0
      eligibleTimestamp := cfg.firstRoundOpensAt }
  refine Vault.Timed.congr (v := Vault.setRound _ 1 _) ?_ (Nat.le_refl _)
    ((Vault.SameTimes.refl _).grant gs)
  generalize hv : Vault.setRound _ 1 _ = v at hself
  have hactive : v.activeRoundId = 1 := by rw [← hv]; rfl
  have hparts : v.roundParticipants = fun _ => [] := by rw [← hv]; rfl
  have hstart : v.eligibilityStart = fun _ _ => 0 := by rw [← hv]; rfl
  have hobs : v.observations = fun _ => [] := by rw [← hv]; rfl
  have hprincipal : v.principal = fun _ => 0 := by rw [← hv]; rfl
  constructor
  · intro a
    rw [hprincipal, hobs]
    exact .empty
  · intro r a
    rw [hparts, hstart]
    exact ⟨fun hne => absurd rfl hne, nofun⟩
  · have hmembers : v.accrual.members = [] := by simp only [Vault.accrual, hparts]
    constructor
    · rw [hmembers]
      exact .nil
    · rw [hmembers]
      nofun
    · rw [hmembers]
      nofun
    · rw [hmembers]
      simp only [Vault.accrual, hactive, hself]
      rfl
    · rw [hmembers]
      simp only [Vault.accrual, hactive, hself]
      rfl
  · constructor <;> simp only [hactive, hself]
    · exact hdeployed.firstOpens_pos
    · exact Nat.le_refl _
    · exact Nat.le_max_left _ _
    · exact hlt
    · exact Nat.zero_le _
  · intro r hr hlt
    omega

include hE in
/-- **Time in a run.**  Every reachable state was properly deployed, keeps sound books and keeps
exact time. -/
theorem reachable_timed (h : (system Fhe.plain E cfg).Reachable w) :
    Deployed E cfg ∧ w.Booked O cfg E ∧ w.vault.Timed cfg w.now := by
  refine TransitionSystem.Reachable.invariant
    (I := fun w => Deployed E cfg ∧ w.Booked O cfg E ∧ w.vault.Timed cfg w.now) ?_ ?_ h
  · rintro w ⟨nativeBalance, now, x, hinit⟩
    exact ⟨deployed_of_construct hinit, construct_booked hE hinit, construct_timed hinit⟩
  · rintro w l w' _ ⟨hcfg, hB, hT⟩ hstep
    exact ⟨hcfg, step_booked hE hcfg hB hstep, step_timed hE hcfg hB hT hstep⟩

end World

end

end Leopold
