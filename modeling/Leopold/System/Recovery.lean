import Leopold.System.Runs

/-!
# Recovering an epoch that waits for its unwrap

An epoch whose principal is burned at the wrapper ends when its unwrap request is finalized, by
`finalizeStrategyDeployment` or, after the deadline, by `cancelExpiredStrategyEpoch`.  Both
finalize the request themselves, and the wrapper lets anyone finalize it once.  So an expired
epoch can be cancelled exactly as long as the wrapper still holds its request; once somebody else
finalized it, the epoch waits for ever and no other one is opened.
-/

namespace Leopold

open Lib

namespace World

section

variable {E64 E128 EBool X : Type} {fhe : Fhe E64 E128 EBool} {E : Externals E64 EBool X}
  {cfg : Config} {w w' : World E64 E128 EBool X} {sender : Address}

/-- An epoch was opened only with a strategy, under an identifier that is not zero. -/
structure Opened (cfg : Config) (w : World E64 E128 EBool X) : Prop where
  hasStrategy : w.activeEpoch.state ≠ .none → cfg.hasStrategy = true
  id_pos : w.activeEpoch.state ≠ .none → 0 < w.vault.activeStrategyEpochId

theorem Opened.congr (h : w.Opened cfg) (hv : w.vault.SameEpochs w'.vault) : w'.Opened cfg := by
  have hepoch : w'.activeEpoch = w.activeEpoch := by
    rw [activeEpoch, activeEpoch, hv.strategyEpochs, hv.activeStrategyEpochId]
  constructor
  · rw [hepoch]
    exact h.hasStrategy
  · rw [hepoch, hv.activeStrategyEpochId]
    exact h.id_pos

/-- A call that found the epoch opened keeps its identifier. -/
theorem Opened.keep (h : w.Opened cfg) (hne : w.activeEpoch.state ≠ .none)
    (hid : w'.vault.activeStrategyEpochId = w.vault.activeStrategyEpochId) : w'.Opened cfg :=
  ⟨fun _ => h.hasStrategy hne, fun _ => hid ▸ h.id_pos hne⟩

theorem exec_opened (hsender : cfg.External sender) (hO : w.Opened cfg)
    {c : Call E64 E128 EBool} (h : exec fhe E cfg sender w c = .ok w') : w'.Opened cfg := by
  by_cases hmoves : c.movesEpoch = false
  · exact hO.congr (exec_sameEpochs hsender hmoves h)
  cases c with
  | openStrategyEpoch kind =>
    obtain ⟨⟨w₁, id⟩, hop, rfl⟩ := map_eq_ok.1 h
    obtain ⟨_, _, _, hstrategy, _, _, _, _, rfl⟩ := openStrategyEpoch_ok hop
    exact ⟨fun _ => hstrategy, fun _ => Nat.succ_pos _⟩
  | requestStrategyAmount id =>
    obtain ⟨_, rfl, hstate, _, hbranch⟩ := requestStrategyAmount_ok h
    refine hO.keep (fun hnone => ?_) ?_
    · rw [activeEpoch, hstate] at hnone
      cases hnone
    · rcases hbranch with ⟨_, _, _, _, _, _, _, rfl⟩ | ⟨_, _, _, rfl⟩ <;> rfl
  | finalizeStrategyDeployment id n proof =>
    obtain ⟨rfl, hstate, _, _, _, _, _, _, _, _, _, _, _, rfl⟩ := finalizeStrategyDeployment_ok h
    refine hO.keep (fun hnone => ?_) rfl
    rw [activeEpoch, hstate] at hnone
    cases hnone
  | finalizeStrategyReplenishment id cl proof =>
    obtain ⟨rfl, hstate, _, _, _, _, _, _, _, _, _, _, rfl⟩ := finalizeStrategyReplenishment_ok h
    refine hO.keep (fun hnone => ?_) rfl
    rw [activeEpoch, hstate] at hnone
    cases hnone
  | cancelAgingStrategyEpoch id =>
    obtain ⟨rfl, hstate, rfl⟩ := cancelAgingStrategyEpoch_ok h
    refine hO.keep (fun hnone => ?_) rfl
    rw [activeEpoch, hstate] at hnone
    cases hnone
  | cancelExpiredStrategyEpoch id n proof =>
    obtain ⟨rfl, ⟨hstate, rfl⟩ | ⟨hstate, _, _, _, _, _, _, _, rfl⟩⟩ :=
      cancelExpiredStrategyEpoch_ok h
    · refine hO.keep (fun hnone => ?_) rfl
      rw [activeEpoch, hstate] at hnone
      cases hnone
    · refine hO.keep (fun hnone => ?_) rfl
      rw [activeEpoch, hstate] at hnone
      cases hnone
  | _ => exact absurd rfl hmoves

theorem reachable_opened (h : (system fhe E cfg).Reachable w) : w.Opened cfg := by
  refine h.invariant (I := fun w => w.Opened cfg) ?_ ?_
  · rintro w ⟨nativeBalance, now, x, hinit⟩
    obtain ⟨_, _, _, gs, rfl⟩ := construct_ok hinit
    exact ⟨fun hne => absurd rfl hne, fun hne => absurd rfl hne⟩
  · intro w l w' _ hO hstep
    cases l with
    | call sender c => exact exec_opened hstep.1 hO hstep.2
    | tick now =>
      obtain ⟨_, rfl⟩ := hstep
      exact hO.congr (.refl _)
    | thirdParty ext =>
      obtain ⟨_, rfl⟩ := hstep
      exact hO.congr (.refl _)
    | forceNative amount =>
      obtain rfl := hstep
      exact hO.congr (.refl _)

/-- The active epoch waits for its unwrap and the deadline for the proof has passed. -/
def Expired (cfg : Config) (w : World E64 E128 EBool X) : Prop :=
  w.activeEpoch.state = .unwrapPending ∧
    w.activeEpoch.openedAt + cfg.minimumStrategyEpochAge + STRATEGY_PROOF_DEADLINE ≤ w.now

end

section

variable {X : Type} {E : Externals Nat Bool X} {O : Observables X} {cfg : Config}
  {w w' : PlainWorld X} {sender : Address}

/-- Cancelling the active epoch with the amount it burned brings the principal back. -/
def Recovers (E : Externals Nat Bool X) (cfg : Config) (w : PlainWorld X) : Prop :=
  ∃ w', cancelExpiredStrategyEpoch Fhe.plain E cfg w.vault.activeStrategyEpochId
      w.activeEpoch.amount ⟨true⟩ w = .ok w' ∧
    w'.activeEpoch.state = .cancelled ∧ w'.vault.principalInTransition = 0 ∧
    w'.vault.liquidPrincipal = w.vault.liquidPrincipal + w.activeEpoch.amount

/-- The wrapper still holds the unwrap request of the active epoch. -/
def Held (O : Observables X) (cfg : Config) (w : PlainWorld X) : Prop :=
  O.unwrapRequest w.ext w.activeEpoch.unwrapRequestId = .outstanding cfg.vault w.activeEpoch.amount

/-- Other accounts leave the unwrap request of a waiting epoch to the vault. -/
def LeavesRequest (O : Observables X) (w : PlainWorld X) (l : Label Nat Nat Bool X)
    (_ : PlainWorld X) : Prop :=
  ∀ ext, l = .thirdParty ext → w.activeEpoch.state = .unwrapPending →
    O.unwrapRequest ext w.activeEpoch.unwrapRequestId =
      O.unwrapRequest w.ext w.activeEpoch.unwrapRequestId

section

variable (hE : E.Lawful O cfg.vault cfg.asset)

include hE

/-- The underlying that the finalized request of the vault pays is wrapped again. -/
theorem wrapUnderlying_finalized {x x₁ : X} {id n : Nat} {proof : DecryptionProof}
    (hrate : 0 < E.rate) (hheld : O.unwrapRequest x id = .outstanding cfg.vault n)
    (hx : E.finalizeUnwrap x id n proof = some x₁) :
    ∃ x₂, Vault.wrapUnderlying E cfg (n * E.rate) x₁ = .ok (x₂, n) := by
  obtain ⟨hpaid, hmintable, _⟩ := hE.finalizeUnwrap_pays hx hheld
  obtain ⟨y₁, hy₁⟩ := Option.isSome_iff_exists.1
    (hE.forceApprove_isSome x₁ cfg.vault cfg.asset (n * E.rate))
  obtain ⟨⟨y₂, minted⟩, hy₂⟩ := Option.isSome_iff_exists.1
    (hE.wrap_isSome hy₁ hpaid (by rwa [Nat.mul_div_cancel _ hrate]))
  obtain ⟨y₃, hy₃⟩ := Option.isSome_iff_exists.1
    (hE.forceApprove_isSome y₂ cfg.vault cfg.asset 0)
  have hminted : minted = n := by
    rw [(hE.wrap hy₂).1, Nat.mul_div_cancel _ hrate]
  subst hminted
  refine ⟨y₃, ?_⟩
  simp only [Vault.wrapUnderlying, hy₁, hy₂, hy₃, orRevert, bind_ok, pure_eq_ok]

/-- An expired epoch whose request is held can be cancelled. -/
theorem recovers_of_held (hcfg : Deployed E cfg) (hB : w.Booked O cfg E) (hO : w.Opened cfg)
    (hexpired : w.Expired cfg) (hheld : w.Held O cfg) : w.Recovers E cfg := by
  obtain ⟨hstate, hdeadline⟩ := hexpired
  have hne : w.activeEpoch.state ≠ .none := by
    rw [hstate]
    nofun
  have htransit : w.vault.principalInTransition = w.activeEpoch.amount := by
    rw [hB.epoch.in_transit, if_pos hstate]
  have htotal : w.vault.totalPrincipal ≤ MAX_POOL_BASE_UNITS := hB.kept.total_le
  have hsplit : w.vault.totalPrincipal = w.vault.liquidPrincipal + w.vault.deployedPrincipal +
    w.vault.principalInTransition + w.vault.strategyShortfall := hB.kept.total_split
  have hcap := Vault.cap_lt
  have hle : w.activeEpoch.amount ≤ MAX_POOL_BASE_UNITS := by omega
  have hsigned : (⟨true⟩ : DecryptionProof).signed = true := rfl
  obtain ⟨x₁, hx₁⟩ := Option.isSome_iff_exists.1 (hE.finalizeUnwrap_isSome hheld hsigned)
  obtain ⟨x₂, hx₂⟩ := wrapUnderlying_finalized hE hcfg.rate_pos hheld hx₁
  have hfits := (hE.finalizeUnwrap_pays hx₁ hheld).2.2
  have hid : ¬ (w.vault.activeStrategyEpochId = 0 ∨
      w.vault.activeStrategyEpochId ≠ w.vault.activeStrategyEpochId) := by
    have := hO.id_pos hne
    omega
  have hguard : ¬ (w.activeEpoch.state ≠ .unwrapPending ∨
      w.activeEpoch.amount > MAX_POOL_BASE_UNITS) := by
    rw [not_or, not_not]
    exact ⟨hstate, Nat.not_lt.2 hle⟩
  have hother : w.activeEpoch.state ≠ .amountPending := by
    rw [hstate]
    nofun
  have hstrategy : ¬ cfg.hasStrategy = false := by
    rw [hO.hasStrategy hne]
    nofun
  have hok : ∃ w', cancelExpiredStrategyEpoch Fhe.plain E cfg w.vault.activeStrategyEpochId
      w.activeEpoch.amount ⟨true⟩ w = .ok w' := by
    simp only [activeEpoch] at hdeadline hother hguard hx₁ hx₂ hfits ⊢
    simp only [cancelExpiredStrategyEpoch, Vault.requireStrategy, revertIf_of_not hstrategy,
      revertIf_of_not hid, revertIf_of_not (Nat.not_lt.2 hdeadline), if_neg hother,
      revertIf_of_not hguard, hx₁, orRevert, Vault.mul, checkedMul, if_pos hfits, hx₂, bind_ok]
    exact ⟨_, rfl⟩
  obtain ⟨w', hw'⟩ := hok
  refine ⟨w', hw', ?_⟩
  obtain ⟨_, ⟨hamount, _⟩ | ⟨_, _, y₁, y₂, wrapped, gs, hy₁, hy₂, rfl⟩⟩ :=
    cancelExpiredStrategyEpoch_ok hw'
  · exact absurd hamount hother
  · obtain rfl : x₁ = y₁ := Option.some.inj (hx₁.symm.trans hy₁)
    obtain ⟨_, rfl⟩ := Prod.mk.inj (ok_eq_ok.1 (hx₂.symm.trans hy₂))
    refine ⟨?_, transit_cleared hle htransit.symm, Fhe.plain_add64 (by omega)⟩
    simp only [activeEpoch, Vault.grant, Vault.setEpoch, Function.update_self]

/-- An expired epoch is cancelled only while its request is held. -/
theorem held_of_recovers (hB : w.Booked O cfg E) (hstate : w.activeEpoch.state = .unwrapPending)
    (h : w.Recovers E cfg) : w.Held O cfg := by
  obtain ⟨w', hw', _⟩ := h
  rcases cancelExpiredStrategyEpoch_epochTo hw' with ⟨hamount, _⟩ | ⟨_, _, ⟨x, hx⟩, _⟩
  · rw [hstate] at hamount
    cases hamount
  · refine (hB.epoch.requested hstate).resolve_right fun hfinal => ?_
    obtain ⟨⟨_, hout⟩, _⟩ := hE.finalizeUnwrap hx
    rw [hfinal] at hout
    cases hout

/-- A waiting epoch keeps its request as long as others leave it. -/
theorem step_held (hw : (system Fhe.plain E cfg).Reachable w)
    {l : Label Nat Nat Bool X} (hheld : w.activeEpoch.state = .unwrapPending → w.Held O cfg)
    (hstep : Step Fhe.plain E cfg w l w') (hleaves : w.LeavesRequest O l w') :
    w'.activeEpoch.state = .unwrapPending → w'.Held O cfg := by
  obtain ⟨_, hB'⟩ := reachable_booked hE (hw.tail hstep)
  intro hstate'
  refine (hB'.epoch.requested hstate').resolve_right fun hfinal => ?_
  have hsame : w.vault.SameEpochs w'.vault →
      O.unwrapRequest w'.ext w.activeEpoch.unwrapRequestId =
        O.unwrapRequest w.ext w.activeEpoch.unwrapRequestId → False := by
    intro hv hreq
    have hepoch : w'.activeEpoch = w.activeEpoch := by
      rw [activeEpoch, activeEpoch, hv.strategyEpochs, hv.activeStrategyEpochId]
    rw [hepoch] at hfinal hstate'
    rw [hreq, hheld hstate'] at hfinal
    cases hfinal
  cases l with
  | call sender c =>
    obtain ⟨hsender, hstep⟩ := hstep
    by_cases hmoves : c.movesEpoch = false
    · exact hsame (exec_sameEpochs hsender hmoves hstep)
        (congrFun (exec_sameRequests hE hsender hmoves hstep) _)
    -- of the calls that move an epoch only a request makes it wait, and it opens its request
    have hnot : ∀ {epoch : StrategyEpoch Nat} {transit : Nat},
        w.vault.EpochTo epoch transit w'.vault → epoch.state ≠ .unwrapPending → False := by
      intro epoch transit hto hne
      rw [activeEpoch, hto.strategyEpochs, Function.update_self] at hstate'
      exact hne hstate'
    cases c with
    | openStrategyEpoch kind =>
      obtain ⟨⟨w₁, id⟩, hop, rfl⟩ := map_eq_ok.1 hstep
      obtain ⟨_, epoch, haging, hto⟩ := openStrategyEpoch_epochTo hop
      exact hnot hto (by rw [haging]; rintro ⟨⟩)
    | requestStrategyAmount id =>
      obtain ⟨_, ⟨n, req, _, hunwrap, hto⟩ | ⟨d, hto⟩⟩ := requestStrategyAmount_epochTo hstep
      · obtain ⟨_, hreq, _⟩ := hE.unwrap hunwrap
        rw [activeEpoch, hto.strategyEpochs, Function.update_self, hreq,
          Function.update_self] at hfinal
        cases hfinal
      · exact hnot hto (by rintro ⟨⟩)
    | finalizeStrategyDeployment id n proof =>
      obtain ⟨_, _, _, hto⟩ := finalizeStrategyDeployment_epochTo hstep
      exact hnot hto (by rintro ⟨⟩)
    | finalizeStrategyReplenishment id cl proof =>
      obtain ⟨_, epoch, hdone, hto⟩ := finalizeStrategyReplenishment_epochTo hstep
      exact hnot hto (by rw [hdone]; rintro ⟨⟩)
    | cancelAgingStrategyEpoch id =>
      obtain ⟨_, epoch, hdone, hto⟩ := cancelAgingStrategyEpoch_epochTo hstep
      exact hnot hto (by rw [hdone]; rintro ⟨⟩)
    | cancelExpiredStrategyEpoch id n proof =>
      rcases cancelExpiredStrategyEpoch_epochTo hstep with ⟨_, hto⟩ | ⟨_, _, _, hto⟩
      · exact hnot hto (by rintro ⟨⟩)
      · exact hnot hto (by rintro ⟨⟩)
    | _ => exact absurd rfl hmoves
  | tick now =>
    obtain ⟨_, rfl⟩ := hstep
    exact hsame (.refl _) rfl
  | thirdParty ext =>
    obtain ⟨_, rfl⟩ := hstep
    exact hsame (.refl _) (hleaves ext rfl hstate')
  | forceNative amount =>
    obtain rfl := hstep
    exact hsame (.refl _) rfl

/-! ## An epoch whose request somebody else finalized -/

/-- No call moves an epoch that waits for a request that is finalized. -/
theorem not_exec_of_finalized (hstate : w.activeEpoch.state = .unwrapPending)
    (hfinal : O.unwrapRequest w.ext w.activeEpoch.unwrapRequestId = .finalized)
    {c : Call Nat Nat Bool} (hmoves : c.movesEpoch = true) :
    exec Fhe.plain E cfg sender w c ≠ .ok w' := by
  intro h
  have hother : ∀ {s : StrategyEpochState}, w.activeEpoch.state = s → s ≠ .unwrapPending → False :=
    fun hs hne => hne (hs.symm.trans hstate)
  have hspent : ∀ {n : Nat} {proof : DecryptionProof},
      (∃ x, E.finalizeUnwrap w.ext w.activeEpoch.unwrapRequestId n proof = some x) → False := by
    rintro n proof ⟨x, hx⟩
    obtain ⟨⟨_, hout⟩, _⟩ := hE.finalizeUnwrap hx
    rw [hfinal] at hout
    cases hout
  cases c with
  | openStrategyEpoch kind =>
    obtain ⟨⟨w₁, id⟩, hop, rfl⟩ := map_eq_ok.1 h
    exact (openStrategyEpoch_epochTo hop).1 hstate
  | requestStrategyAmount id => exact hother (requestStrategyAmount_epochTo h).1 nofun
  | finalizeStrategyDeployment id n proof =>
    obtain ⟨_, _, hx, _⟩ := finalizeStrategyDeployment_epochTo h
    exact hspent hx
  | finalizeStrategyReplenishment id cl proof =>
    exact hother (finalizeStrategyReplenishment_epochTo h).1 nofun
  | cancelAgingStrategyEpoch id => exact hother (cancelAgingStrategyEpoch_epochTo h).1 nofun
  | cancelExpiredStrategyEpoch id n proof =>
    rcases cancelExpiredStrategyEpoch_epochTo h with ⟨hs, _⟩ | ⟨_, _, hx, _⟩
    · exact hother hs nofun
    · exact hspent hx
  | _ => cases hmoves

/-- Such an epoch waits for ever. -/
theorem run_finalized (hw : (system Fhe.plain E cfg).Reachable w)
    (hrun : (system Fhe.plain E cfg).Run w w') (hstate : w.activeEpoch.state = .unwrapPending)
    (hfinal : O.unwrapRequest w.ext w.activeEpoch.unwrapRequestId = .finalized) :
    w'.activeEpoch.state = .unwrapPending ∧
      O.unwrapRequest w'.ext w'.activeEpoch.unwrapRequestId = .finalized := by
  refine (hrun.preserves (I := fun u => u.activeEpoch.state = .unwrapPending ∧
    O.unwrapRequest u.ext u.activeEpoch.unwrapRequestId = .finalized) hw ?_ ⟨hstate, hfinal⟩).2
  rintro u l u' _ ⟨hs, hf⟩ hstep _
  have hkeep : u.vault.SameEpochs u'.vault →
      O.unwrapRequest u'.ext u.activeEpoch.unwrapRequestId = .finalized →
      u'.activeEpoch.state = .unwrapPending ∧
        O.unwrapRequest u'.ext u'.activeEpoch.unwrapRequestId = .finalized := by
    intro hv hreq
    have hepoch : u'.activeEpoch = u.activeEpoch := by
      rw [activeEpoch, activeEpoch, hv.strategyEpochs, hv.activeStrategyEpochId]
    rw [hepoch]
    exact ⟨hs, hreq⟩
  cases l with
  | call sender c =>
    obtain ⟨hsender, hstep⟩ := hstep
    by_cases hmoves : c.movesEpoch = false
    · refine hkeep (exec_sameEpochs hsender hmoves hstep) ?_
      rw [exec_sameRequests hE hsender hmoves hstep]
      exact hf
    · exact absurd hstep (not_exec_of_finalized hE hs hf (by simpa using hmoves))
  | tick now =>
    obtain ⟨_, rfl⟩ := hstep
    exact hkeep (.refl _) hf
  | thirdParty ext =>
    obtain ⟨hext, rfl⟩ := hstep
    exact hkeep (.refl _) (hE.thirdParty_finalized hext hf)
  | forceNative amount =>
    obtain rfl := hstep
    exact hkeep (.refl _) hf

/-- **When an expired epoch recovers.**  In the runs where other accounts leave the requests of
the vault alone, an expired epoch can always be cancelled, which brings its principal back.  In
any reachable state it can be exactly if the wrapper still holds its request; and an epoch whose
request was finalized by somebody else is never moved again, by no call of any later state. -/
theorem expired_epoch_recovers :
    (∀ w, (system Fhe.plain E cfg).ReachableVia (LeavesRequest O) w → w.Expired cfg →
      w.Recovers E cfg) ∧
    ∀ w, (system Fhe.plain E cfg).Reachable w → w.activeEpoch.state = .unwrapPending →
      (w.Expired cfg → (w.Recovers E cfg ↔ w.Held O cfg)) ∧
      (¬ w.Held O cfg → ∀ w', (system Fhe.plain E cfg).Run w w' →
        w'.activeEpoch.state = .unwrapPending ∧
        ∀ sender (c : Call Nat Nat Bool), c.movesEpoch = true →
          ∀ w'', exec Fhe.plain E cfg sender w' c ≠ .ok w'') := by
  refine ⟨fun w hw hexpired => ?_, fun w hw hstate => ⟨fun hexpired => ⟨?_, ?_⟩, ?_⟩⟩
  · obtain ⟨hcfg, hB⟩ := reachable_booked hE hw.reachable
    have hheld := hw.invariant (I := fun w => w.activeEpoch.state = .unwrapPending → w.Held O cfg)
      (fun w hinit => by
        obtain ⟨_, _, _, hinit⟩ := hinit
        obtain ⟨_, _, _, gs, rfl⟩ := construct_ok hinit
        exact fun hstate => nomatch hstate)
      (fun w l w' hs hheld hstep hleaves => step_held hE hs.reachable hheld hstep hleaves)
    exact recovers_of_held hE hcfg hB (reachable_opened hw.reachable) hexpired (hheld hexpired.1)
  · obtain ⟨_, hB⟩ := reachable_booked hE hw
    exact held_of_recovers hE hB hstate
  · obtain ⟨hcfg, hB⟩ := reachable_booked hE hw
    exact recovers_of_held hE hcfg hB (reachable_opened hw) hexpired
  · intro hlost w' hrun
    obtain ⟨_, hB⟩ := reachable_booked hE hw
    obtain ⟨hstate', hfinal'⟩ :=
      run_finalized hE hw hrun hstate ((hB.epoch.requested hstate).resolve_left hlost)
    exact ⟨hstate', fun sender c hmoves w'' => not_exec_of_finalized hE hstate' hfinal' hmoves⟩

omit hE in
/-- A held request of an expired epoch. -/
theorem expired_epoch_recovers_script : ∃ w,
    outcome Demo.strategyCfg Demo.token 100 Demo.chain (Demo.burnScript ++ [.tick 100000]) = .ok w ∧
    w.Expired Demo.strategyCfg ∧ w.Recovers Demo.strategyExternals Demo.strategyCfg := by
  have hends : endsWith (fun w => decide (w.activeEpoch.state = .unwrapPending ∧
      w.activeEpoch.openedAt + Demo.strategyCfg.minimumStrategyEpochAge +
        STRATEGY_PROOF_DEADLINE ≤ w.now ∧
      w.ext.request w.activeEpoch.unwrapRequestId = .outstanding Demo.strategyCfg.vault
        w.activeEpoch.amount))
      (outcome Demo.strategyCfg Demo.token 100 Demo.chain
        (Demo.burnScript ++ [.tick 100000])) = true := by decide +kernel
  obtain ⟨w, hw, hcheck⟩ := exists_of_endsWith hends
  obtain ⟨hstate, hdeadline, hheld⟩ := of_decide_eq_true hcheck
  exact ⟨w, hw, ⟨hstate, hdeadline⟩, (((expired_epoch_recovers Demo.strategyLawful).2 w
    (outcome_reachable hw) hstate).1 ⟨hstate, hdeadline⟩).2 hheld⟩

omit hE in
/-- Somebody else finalizes the request of the epoch, which then cannot be cancelled. -/
theorem expired_epoch_stuck : ∃ w,
    (system Fhe.plain Demo.strategyExternals Demo.strategyCfg).Reachable w ∧
    w.Expired Demo.strategyCfg ∧ ¬ w.Recovers Demo.strategyExternals Demo.strategyCfg := by
  have hends : endsWith (fun w => decide (w.activeEpoch.state = .unwrapPending ∧
      w.activeEpoch.openedAt + Demo.strategyCfg.minimumStrategyEpochAge +
        STRATEGY_PROOF_DEADLINE ≤ w.now) &&
      endsWith (fun _ => true) (cancelExpiredStrategyEpoch Fhe.plain Demo.strategyExternals
        Demo.strategyCfg w.vault.activeStrategyEpochId w.activeEpoch.amount ⟨true⟩ w) == false)
      (outcome Demo.strategyCfg Demo.token 100 Demo.chain
        (Demo.burnScript ++ [.finalizeUnwrap 0 16, .tick 100000])) = true := by decide +kernel
  obtain ⟨w, hw, hcheck⟩ := exists_of_endsWith hends
  rw [Bool.and_eq_true, decide_eq_true_eq, beq_iff_eq] at hcheck
  refine ⟨w, outcome_reachable hw, hcheck.1, ?_⟩
  rintro ⟨w', hw', _⟩
  rw [hw'] at hcheck
  cases hcheck.2

end

end

end World

end Leopold
