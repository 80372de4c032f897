import Leopold.System.Timeline
import Leopold.System.Draws

/-!
# The past does not change

A checkpoint is only ever written at the present, so no call changes what a history says about an
earlier time.  The weights of a closed round are sums over the past: once the round is closed they
stay what they are.
-/

namespace Leopold

open Lib

section

variable {E64 E128 EBool X : Type} {fhe : Fhe E64 E128 EBool} {E : Externals E64 EBool X}
  {cfg : Config}

/-- The observations made before `t`. -/
def before (t : Nat) (obs : List (Observation E64 E128)) : List (Observation E64 E128) :=
  obs.filter fun o => o.timestamp < t

theorem before_concat {t : Nat} {obs : List (Observation E64 E128)} {o : Observation E64 E128}
    (h : t ≤ o.timestamp) : before t (obs ++ [o]) = before t obs := by
  rw [before, before, List.filter_append, List.filter_cons_of_neg (by simpa using h),
    List.filter_nil, List.append_nil]

/-- `_checkpointUser` at time `t` keeps every earlier observation. -/
theorem record_before {b : E64} {t : Nat} {obs obs' : List (Observation E64 E128)} {c : E128}
    (h : Vault.record fhe b t obs = .ok (obs', c)) : before t obs' = before t obs := by
  rcases List.eq_nil_or_concat obs with rfl | ⟨init, o, rfl⟩
  · simp only [Vault.record, List.getLast?_nil, ok_eq_ok, Prod.mk.injEq] at h
    obtain ⟨rfl, _⟩ := h
    exact before_concat (Nat.le_refl t)
  · simp only [List.concat_eq_append, Vault.record, List.getLast?_concat, List.dropLast_concat,
      seq_eq_ok, checkedSub_eq_ok] at h
    obtain ⟨elapsed, ⟨hle, rfl⟩, h⟩ := h
    rw [List.concat_eq_append]
    split_ifs at h with hzero
    · simp only [pure_eq_ok, ok_eq_ok, Prod.mk.injEq] at h
      obtain ⟨rfl, _⟩ := h
      rw [before_concat (by simp only; omega), before_concat (by omega)]
    · simp only [pure_eq_ok, ok_eq_ok, Prod.mk.injEq] at h
      obtain ⟨rfl, _⟩ := h
      exact before_concat (Nat.le_refl t)

theorem Round.Moves.clock {round round' : Round E64 E128 EBool} (h : round.Moves fhe round') :
    round'.clock = round.clock := by
  cases h <;> rfl

namespace Vault

variable {v v' u : Vault E64 E128 EBool} {t now r : Nat} {a : Address}

/-- The two vaults recorded the same before `t`. -/
def SameBefore (t : Nat) (v v' : Vault E64 E128 EBool) : Prop :=
  ∀ a, before t (v'.observations a) = before t (v.observations a)

theorem SameBefore.trans (h : v.SameBefore t u) (h' : u.SameBefore t v') : v.SameBefore t v' :=
  fun a => (h' a).trans (h a)

theorem SameBefore.of_record {b : E64} {obs : List (Observation E64 E128)} {c : E128}
    (hrec : record fhe b t (v.observations a) = .ok (obs, c))
    (hobs : v'.observations = Function.update v.observations a obs) : v.SameBefore t v' := by
  intro a'
  rw [hobs]
  by_cases ha : a' = a
  · rw [ha, Function.update_self]
    exact record_before hrec
  · rw [Function.update_of_ne ha]

theorem checkpointUser_before {b : E64} (h : checkpointUser fhe cfg a b t v = .ok v') :
    v.SameBefore t v' := by
  obtain ⟨obs, c, gs, hrec, rfl⟩ := checkpointUser_ok h
  exact .of_record hrec rfl

theorem changeEligible_observations {f : E64 → E64}
    (h : changeEligible fhe cfg a f t v = .ok v') : v'.observations = v.observations := by
  rcases changeEligible_ok h with ⟨_, rfl⟩ | ⟨_, _, gs, rfl⟩ <;> rfl

theorem changeEligible_eligibilityStart {f : E64 → E64}
    (h : changeEligible fhe cfg a f t v = .ok v') : v'.eligibilityStart = v.eligibilityStart := by
  rcases changeEligible_ok h with ⟨_, rfl⟩ | ⟨_, _, gs, rfl⟩ <;> rfl

theorem allocateParticipant_before (hr : r ≠ v.activeRoundId)
    (h : allocateParticipant fhe cfg r now a v = .ok v') : v.SameBefore (uint64 now) v' := by
  obtain ⟨_, prize, autoSaved, obs, c, gs, _, _, _, hrec, rfl⟩ := allocateParticipant_ok hr h
  exact .of_record hrec rfl

/-- A closed round keeps its clock. -/
theorem RoundStep.clock (h : RoundStep fhe cfg r v v') (hlt : r < v.activeRoundId) :
    (v'.rounds r).clock = (v.rounds r).clock := by
  cases h with
  | same hround => rw [hround]
  | accrue hr => exact absurd hr (Nat.ne_of_lt hlt)
  | close hr => exact absurd hr (Nat.ne_of_lt hlt)
  | opened hr => omega
  | move hround => exact hround.clock
  | select _ _ _ _ _ hround =>
    rw [hround, selectedRound]
    split_ifs <;> rfl
  | allocate _ _ _ hround =>
    rw [hround]
    rfl

end Vault

namespace World

variable {w w' : World E64 E128 EBool X} {sender : Address}

/-- A call that records anything records it at the present, while a round is open. -/
theorem exec_before (hsender : cfg.External sender) (hshape : w.vault.Shape fhe)
    {c : Call E64 E128 EBool} (h : exec fhe E cfg sender w c = .ok w') :
    w'.vault.observations = w.vault.observations ∨
      (w.vault.isActiveRoundOpen w.now = true ∧
        w.vault.SameBefore (uint64 w.now) w'.vault) := by
  by_cases hc : c.keepsTime = true
  · exact .inl (exec_sameTimes hsender hc h).observations
  cases c with
  | registerForRound value s =>
    obtain ⟨e, v, _, hv, rfl⟩ := registerForRound_ok h
    obtain ⟨_, _, rfl, _, _, _, gs, rfl⟩ := Vault.acceptBondRegistration_ok hv
    exact .inl rfl
  | deposit n d =>
    obtain ⟨x₁, sent, v, accepted, x₂, _, hv, _, rfl⟩ := deposit_ok h
    obtain ⟨_, hopen, _, v₁, v₂, gs, hcheck, hchange, rfl⟩ :=
      Vault.onConfidentialTransferReceived_ok hv
    refine .inr ⟨hopen, fun a => ?_⟩
    have hobs := Vault.changeEligible_observations hchange
    exact (congrArg (before _) (congrFun hobs a)).trans (Vault.checkpointUser_before hcheck a)
  | withdraw input =>
    obtain ⟨⟨w₁, sent⟩, hop, rfl⟩ := map_eq_ok.1 h
    obtain ⟨hopen, x, v, _, hv, rfl⟩ := withdraw_ok hop
    obtain ⟨v₁, v₂, gs, hcheck, hchange, rfl⟩ := Vault.recordWithdrawal_ok hv
    refine .inr ⟨hopen, fun a => ?_⟩
    have hobs := Vault.changeEligible_observations hchange
    exact (congrArg (before _) (congrFun hobs a)).trans (Vault.checkpointUser_before hcheck a)
  | closeRound =>
    obtain ⟨v, hv, rfl⟩ := onVault_eq_ok.1 h
    obtain ⟨_, _, _, _, gs, rfl⟩ := Vault.closeRound_ok hv
    exact .inl rfl
  | processAllocation s n =>
    obtain ⟨_, hopen, v₁, v₂, processed, v₃, e, hstart, hacc, _, hloop, _, rfl⟩ :=
      processAllocation_ok h
    obtain ⟨hstate, rfl⟩ := Vault.startAllocation_ok hstart
    obtain ⟨_, hlt⟩ := hshape.closed_of_state (r := s)
      (by rcases hstate with h | h <;> rw [h] <;> nofun)
      (by rcases hstate with h | h <;> rw [h] <;> nofun)
    have hne : s ≠ w.vault.activeRoundId := Nat.ne_of_lt hlt
    have h₂ := Vault.Allocating.start hne (Vault.uint64_lt_closesAt hopen) hacc
    obtain ⟨_, gs, rfl⟩ := Vault.accrueEligible_ok hacc
    have h₃ := Vault.forList_invariant
      (I := fun _ u => w.vault.Allocating s u ∧ w.vault.SameBefore (uint64 w.now) u)
      (fun a _ u u' hu hstep => ⟨hu.1.allocate hne hstep, hu.2.trans
        (Vault.allocateParticipant_before (hu.1.activeRoundId ▸ hne) hstep)⟩)
      (Vault.forParticipants_ok
        (fun a u u' hu => congrFun (Vault.allocateParticipant_participants hu) s) hloop).2
      ⟨h₂, fun _ => rfl⟩
    refine .inr ⟨hopen, ?_⟩
    rw [Vault.finishAllocation_eq]
    exact h₃.2
  | _ => exact absurd rfl hc

/-- The registrations of the rounds that are not open stay. -/
theorem exec_eligibilityStart (hsender : cfg.External sender) (hshape : w.vault.Shape fhe)
    {c : Call E64 E128 EBool} (h : exec fhe E cfg sender w c = .ok w') {r : Nat} (hr : r ≠ w.vault.activeRoundId) :
    w'.vault.eligibilityStart r = w.vault.eligibilityStart r := by
  by_cases hc : c.keepsTime = true
  · exact congrFun (exec_sameTimes hsender hc h).eligibilityStart r
  cases c with
  | registerForRound value s =>
    obtain ⟨e, v, _, hv, rfl⟩ := registerForRound_ok h
    obtain ⟨_, _, rfl, _, _, _, gs, rfl⟩ := Vault.acceptBondRegistration_ok hv
    exact Function.update_of_ne hr _ _
  | deposit n d =>
    obtain ⟨x₁, sent, v, accepted, x₂, _, hv, _, rfl⟩ := deposit_ok h
    obtain ⟨_, _, _, v₁, v₂, gs, hcheck, hchange, rfl⟩ :=
      Vault.onConfidentialTransferReceived_ok hv
    obtain ⟨obs, c, gs', _, rfl⟩ := Vault.checkpointUser_ok hcheck
    exact congrFun (Vault.changeEligible_eligibilityStart hchange) r
  | withdraw input =>
    obtain ⟨⟨w₁, sent⟩, hop, rfl⟩ := map_eq_ok.1 h
    obtain ⟨_, x, v, _, hv, rfl⟩ := withdraw_ok hop
    obtain ⟨v₁, v₂, gs, hcheck, hchange, rfl⟩ := Vault.recordWithdrawal_ok hv
    obtain ⟨obs, c, gs', _, rfl⟩ := Vault.checkpointUser_ok hcheck
    exact congrFun (Vault.changeEligible_eligibilityStart hchange) r
  | closeRound =>
    obtain ⟨v, hv, rfl⟩ := onVault_eq_ok.1 h
    obtain ⟨_, _, _, _, gs, rfl⟩ := Vault.closeRound_ok hv
    rfl
  | processAllocation s n =>
    obtain ⟨_, hopen, v₁, v₂, processed, v₃, e, hstart, hacc, _, hloop, _, rfl⟩ :=
      processAllocation_ok h
    obtain ⟨hstate, rfl⟩ := Vault.startAllocation_ok hstart
    obtain ⟨_, hlt⟩ := hshape.closed_of_state (r := s)
      (by rcases hstate with h | h <;> rw [h] <;> nofun)
      (by rcases hstate with h | h <;> rw [h] <;> nofun)
    have h₃ := processAllocation_allocating (w := w) (Nat.ne_of_lt hlt)
      (Vault.uint64_lt_closesAt hopen) hacc hloop
    rw [Vault.finishAllocation_eq]
    exact congrFun h₃.eligibilityStart r
  | _ => exact absurd rfl hc

end World

end

/-! ## Exact histories -/

theorem balanceAt_before {t s : Nat} {obs : List (Observation Nat Nat)} (hs : s < t) :
    balanceAt (before t obs) s = balanceAt obs s := by
  induction obs using List.reverseRecOn with
  | nil => rfl
  | append_singleton obs o ih =>
    rw [balanceAt, balanceAt, valueAt_concat]
    by_cases ho : o.timestamp < t
    · rw [before, List.filter_append, List.filter_cons_of_pos (by simpa using ho), List.filter_nil,
        valueAt_concat]
      split_ifs
      · rfl
      · exact ih
    · rw [before_concat (Nat.not_lt.1 ho), if_neg (by omega)]
      exact ih

section

variable {X : Type} {E : Externals Nat Bool X} {O : Observables X} {cfg : Config}
  {w w' : PlainWorld X} {sender : Address} {r s : Nat} {a : Address}

namespace World

/-- What the histories say about a time before the present is final. -/
theorem exec_balanceAt (hsender : cfg.External sender) (hshape : w.vault.Shape Fhe.plain)
    (hT : w.vault.Timed cfg w.now) {c : Call Nat Nat Bool}
    (h : exec Fhe.plain E cfg sender w c = .ok w') (hs : s < w.now) :
    balanceAt (w'.vault.observations a) s = balanceAt (w.vault.observations a) s := by
  rcases exec_before hsender hshape h with hobs | ⟨hopen, hbefore⟩
  · rw [hobs]
  · rw [(hT.open_bounds hopen).2.1] at hbefore
    rw [← balanceAt_before hs, hbefore a, balanceAt_before hs]

/-- The weights of a closed round are final. -/
theorem exec_weight (hsender : cfg.External sender) (hshape : w.vault.Shape Fhe.plain)
    (hT : w.vault.Timed cfg w.now) {c : Call Nat Nat Bool}
    (h : exec Fhe.plain E cfg sender w c = .ok w') (hr : 0 < r) (hlt : r < w.vault.activeRoundId) :
    w'.vault.weight r = w.vault.weight r := by
  funext a
  have hclock := (exec_roundStep hsender hshape h r).clock hlt
  have hcloses : (w'.vault.rounds r).closesAt = (w.vault.rounds r).closesAt :=
    congrArg Clock.closesAt hclock
  rw [Vault.weight, Vault.weight, exec_eligibilityStart hsender hshape h (Nat.ne_of_lt hlt),
    hcloses]
  refine Finset.sum_congr rfl fun s hs => exec_balanceAt hsender hshape hT h ?_
  exact (Finset.mem_Ico.1 hs).2.trans_le (hT.closed r hr hlt).ended

end World

end

end Leopold
