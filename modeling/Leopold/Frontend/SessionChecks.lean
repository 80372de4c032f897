import Leopold.Frontend.SessionRuns

/-!
# Checks of a financial session

`requireConnectedFinancialSession` reads the references, awaits a refresh and then the health
probe, and answers with a snapshot.  In every run the revisions that events carry are tied to the
one that was rendered, so what a check has read stays true as long as the epoch and the revision
do; which steps leave those alone is a condition on the steps between its start and its answer.
-/

namespace Leopold.Frontend

open Lib

/-- What the reducer makes of every control. -/
structure WalletSessionControl.Shaped (control : WalletSessionControl) : Prop where
  active : control.intent = .active →
    control.connectAttemptId = none ∧ ∃ revision, control.providerRevision = some revision
  connecting : control.intent = .connecting →
    control.status = .connecting ∧ control.providerRevision = none
  inactive : control.intent = .inactive →
    control.connectAttemptId = none ∧ control.providerRevision = none

theorem WalletSessionControl.Shaped.of_same {a b : WalletSessionControl} (h : SameSession a b)
    (ha : a.Shaped) : b.Shaped where
  active hintent := by
    rw [h.connectAttemptId, h.providerRevision]
    exact ha.active (h.intent ▸ hintent)
  connecting hintent := by
    obtain ⟨hstatus, hrevision⟩ := ha.connecting (h.intent ▸ hintent)
    rw [h.providerRevision]
    refine ⟨?_, hrevision⟩
    rcases h.status with hsame | ⟨-, hnow⟩
    · exact hsame.trans hstatus
    · exact hnow
  inactive hintent := by
    rw [h.connectAttemptId, h.providerRevision]
    exact ha.inactive (h.intent ▸ hintent)

theorem shaped_startAttempt {origin : ConnectOrigin} {attemptId : String} {now epoch : Nat} :
    (startAttempt origin attemptId now epoch).Shaped :=
  ⟨nofun, fun _ => ⟨rfl, rfl⟩, nofun⟩

theorem shaped_activate {control : WalletSessionControl} {status : WalletSessionState}
    {reason : WalletSessionReason} {revision : Nat} {epoch : Option Nat} :
    (activate control status reason revision epoch).Shaped :=
  ⟨fun _ => ⟨rfl, revision, rfl⟩, nofun, nofun⟩

theorem shaped_deactivate {status : WalletSessionState} {reason : WalletSessionReason}
    {epoch : Nat} : (deactivate status reason epoch).Shaped :=
  ⟨nofun, nofun, fun _ => ⟨rfl, rfl⟩⟩

theorem WalletSessionControl.Shaped.connecting_of_attempt {control : WalletSessionControl}
    (h : control.Shaped) {attemptId : String} (hattempt : control.connectAttemptId = some attemptId) :
    control.intent = .connecting := by
  cases hintent : control.intent with
  | connecting => rfl
  | active =>
    rw [(h.active hintent).1] at hattempt
    cases hattempt
  | inactive =>
    rw [(h.inactive hintent).1] at hattempt
    cases hattempt

namespace WalletProvider

/-- A control that has left an attempt does not see it completed. -/
theorem walletSessionReducer_completed_of_other {control : WalletSessionControl}
    {attemptId : String} {revision epoch : Nat} {connected : Bool}
    (hother : control.connectAttemptId ≠ some attemptId) :
    walletSessionReducer control
      (if connected then .connected (some attemptId) revision (some epoch)
      else .wrongNetwork (some attemptId) revision (some epoch)) = control := by
  cases connected with
  | false => exact walletSessionReducer_of_other rfl hother
  | true => exact walletSessionReducer_of_other rfl hother

/-- What ties the control, the last render, the provider and the work in flight together. -/
structure Tied (s : WalletProvider) : Prop where
  shaped : s.control.Shaped
  renderedShaped : s.rendered.control.Shaped
  /-- No revision is newer than the provider's. -/
  revision : ∀ r, s.control.providerRevision = some r → r ≤ s.provider.revision
  renderedRevision : ∀ r, s.rendered.control.providerRevision = some r → r ≤ s.provider.revision
  observed : s.rendered.provider.revision ≤ s.provider.revision
  flowRevision : ∀ flow ∈ s.flows, flow.revision ≤ s.provider.revision
  /-- The account that was rendered is the committed one while the revision is. -/
  account : s.rendered.provider.revision = s.provider.revision →
    s.rendered.provider.accountKnown = true →
      s.provider.known = true ∧ s.provider.account = s.rendered.provider.activeAccount
  /-- The control carries no older revision than the one that was rendered. -/
  newer : ∀ r r', s.rendered.control.providerRevision = some r →
    s.control.providerRevision = some r' → r ≤ r'
  /-- Nor does the attempt the control goes on with get one from the wallet. -/
  asked : ∀ flow ∈ s.flows, ∀ attempt continued, flow.work = .connect attempt continued →
    s.isActive attempt = true → s.control.connectAttemptId = some attempt.attemptId →
      ∀ r, s.rendered.control.providerRevision = some r → r ≤ flow.revision
  /-- The control goes on with the active attempt, unless it was opened meanwhile. -/
  attempt : ∀ attempt, s.isActive attempt = true →
    s.control.connectAttemptId = some attempt.attemptId ∨ s.control.intent = .active ∨
      s.rendered.control.intent ≠ .active
  /-- An authorized session is active, unless the render shows it otherwise. -/
  opened : s.sessionAuthorized = true →
    s.control.intent = .active ∨ s.rendered.control.intent ≠ .active

theorem Tied.init {runtime : WalletRuntimeObservation} {health : WalletRpcHealth}
    {marker : Option Address} : (init runtime health marker).Tied where
  shaped := ⟨nofun, nofun, fun _ => ⟨rfl, rfl⟩⟩
  renderedShaped := ⟨nofun, nofun, fun _ => ⟨rfl, rfl⟩⟩
  revision := nofun
  renderedRevision := nofun
  observed := Nat.zero_le 0
  flowRevision _ hflow := absurd hflow (by simp [WalletProvider.init])
  account := nofun
  newer := nofun
  asked _ hflow := absurd hflow (by simp [WalletProvider.init])
  attempt _ _ := .inr (.inr nofun)
  opened := nofun

section Change

variable {s : WalletProvider} {label : Label} {core : Core} {attempt : Attempt}

/-- The revision of a completed attempt is not newer than the provider's, nor older than the one
that was rendered. -/
theorem Tied.carries (hs : s.Tied) (henabled : s.Enabled label)
    (hactive : s.isActive attempt = true)
    (hcurrent : s.control.connectAttemptId = some attempt.attemptId)
    (hcontinues : Continues s label attempt) {revision : Nat} (h : Carries s label revision) :
    revision ≤ s.provider.revision ∧
      ∀ r, s.rendered.control.providerRevision = some r → r ≤ revision := by
  cases h with
  | @asked flow named continued _ _ _ hwork =>
    obtain ⟨hflow, hle, hnow⟩ := henabled
    have hsame : flow.work = .connect attempt continued := by
      cases hcontinues with
      | connect h =>
        obtain ⟨rfl, -⟩ := Work.connect.inj (hwork.symm.trans h)
        exact hwork
      | restore h => cases hwork.symm.trans h
    exact ⟨hnow,
      fun r hr => (hs.asked flow hflow attempt continued hsame hactive hcurrent r hr).trans hle⟩
  | current => exact ⟨Nat.le_refl _, hs.renderedRevision⟩
  | observed hcontrol =>
    refine ⟨hs.observed, fun r hr => ?_⟩
    rw [(hs.renderedShaped.connecting hcontrol).2] at hr
    cases hr

/-- A reopening observation carries the revision that was rendered. -/
theorem Reopens.newer {auth : AuthView} (h : Reopens s (.observeProvider auth)) :
    ∀ r, s.rendered.control.providerRevision = some r → r ≤ s.rendered.provider.revision := by
  intro r hr
  cases h with
  | observed _ _ hrevision =>
    rw [hrevision] at hr
    exact Nat.le_of_eq (Option.some.inj hr).symm

/-- What is kept of the session while nothing outside it changes. -/
structure CoreTied (s : WalletProvider) (core : Core) : Prop where
  shaped : core.control.Shaped
  revision : ∀ r, core.control.providerRevision = some r → r ≤ s.provider.revision
  newer : ∀ r r', s.rendered.control.providerRevision = some r →
    core.control.providerRevision = some r' → r ≤ r'
  attempt : ∀ attempt, core.activeAttempt = some attempt → attempt.epoch = core.sessionEpoch →
    core.control.connectAttemptId = some attempt.attemptId ∨ core.control.intent = .active ∨
      s.rendered.control.intent ≠ .active
  opened : core.sessionAuthorized = true →
    core.control.intent = .active ∨ s.rendered.control.intent ≠ .active

/-- A session that has just been opened. -/
theorem CoreTied.of_activate {status : WalletSessionState} {reason : WalletSessionReason}
    {control : WalletSessionControl} {revision : Nat} {epoch : Option Nat}
    (hcontrol : core.control = activate control status reason revision epoch)
    (hle : revision ≤ s.provider.revision)
    (hnewer : ∀ r, s.rendered.control.providerRevision = some r → r ≤ revision) :
    CoreTied s core where
  shaped := hcontrol ▸ shaped_activate
  revision r hr := by
    rw [hcontrol] at hr
    exact Option.some.inj hr ▸ hle
  newer r r' hr hr' := by
    rw [hcontrol] at hr'
    exact Option.some.inj hr' ▸ hnewer r hr
  attempt _ _ _ := .inr (.inl (by rw [hcontrol]; rfl))
  opened _ := .inl (by rw [hcontrol]; rfl)

/-- A session that is over, or not open yet. -/
theorem CoreTied.of_closed (hshaped : core.control.Shaped)
    (hrevision : core.control.providerRevision = none)
    (hattempt : ∀ attempt, core.activeAttempt = some attempt →
      attempt.epoch = core.sessionEpoch →
        core.control.connectAttemptId = some attempt.attemptId)
    (hauthorized : core.sessionAuthorized = true → s.rendered.control.intent ≠ .active) :
    CoreTied s core where
  shaped := hshaped
  revision r hr := by
    rw [hrevision] at hr
    cases hr
  newer r r' _ hr' := by
    rw [hrevision] at hr'
    cases hr'
  attempt attempt hsome hepoch := .inl (hattempt attempt hsome hepoch)
  opened h := .inr (hauthorized h)

/-- A session whose control at most moved on with its attempt. -/
theorem Tied.coreTied_of_same (hs : s.Tied) (hsame : SameSession s.control core.control)
    (hattempt : ∀ attempt, core.activeAttempt = some attempt →
      attempt.epoch = core.sessionEpoch → s.isActive attempt = true)
    (hopened : core.sessionAuthorized = true →
      s.control.intent = .active ∨ s.rendered.control.intent ≠ .active) : CoreTied s core where
  shaped := hs.shaped.of_same hsame
  revision r hr := hs.revision r (hsame.providerRevision ▸ hr)
  newer r r' hr hr' := hs.newer r r' hr (hsame.providerRevision ▸ hr')
  attempt attempt hsome hepoch := by
    rw [hsame.connectAttemptId, hsame.intent]
    exact hs.attempt attempt (hattempt attempt hsome hepoch)
  opened hauthorized := by
    rw [hsame.intent]
    exact hopened hauthorized

theorem Change.coreTied (hs : s.Tied) (hepochs : s.Epochs) (henabled : s.Enabled label)
    (h : Change s label core) : CoreTied s core := by
  -- An attempt of before is not of the next epoch.
  have hold : ∀ attempt, s.activeAttempt = some attempt → attempt.epoch ≠ s.sessionEpoch + 1 := by
    intro attempt hattempt
    have := hepochs.attempt attempt hattempt
    omega
  cases h with
  | quiet h =>
    exact hs.coreTied_of_same h
      (fun attempt hattempt hepoch => isActive_iff.2 ⟨hepoch.symm, hattempt⟩) hs.opened
  | bumped =>
    exact hs.coreTied_of_same (.refl _)
      (fun attempt hattempt hepoch => absurd hepoch (hold attempt hattempt)) hs.opened
  | ended hattempt =>
    refine .of_closed shaped_deactivate rfl (fun attempt hsome hepoch => ?_) (by rintro ⟨⟩)
    rcases hattempt with rfl | rfl
    · cases hsome
    · exact absurd hepoch (hold attempt hsome)
  | timedOut hintent hcontrol =>
    have hrendered : s.rendered.control.intent ≠ .active := by
      rw [hintent]
      decide
    rcases hcontrol with rfl | ⟨status, reason, rfl⟩
    · exact hs.coreTied_of_same (.refl _) (by rintro _ ⟨⟩) fun _ => .inr hrendered
    · exact .of_closed shaped_deactivate rfl (by rintro _ ⟨⟩) fun _ => hrendered
  | started h =>
    refine .of_closed (shaped_startAttempt.of_same h) (h.providerRevision.trans rfl)
      (fun attempt hsome _ => ?_) (by rintro ⟨⟩)
    obtain rfl := Option.some.inj hsome
    exact h.connectAttemptId.trans rfl
  | @failed attempt reason hactive =>
    by_cases hcurrent : s.control.connectAttemptId = some attempt.attemptId
    · have hcontrol : walletSessionReducer s.control
          (.connectFailed reason attempt.attemptId attempt.epoch) =
          deactivate (if reason = .accountSelectionRequired ∨ reason = .connectCancelled then
            .disconnected else .error) reason attempt.epoch := by
        simp only [walletSessionReducer, hcurrent, ne_eq, not_true_eq_false, ↓reduceIte]
      rw [hcontrol]
      refine .of_closed shaped_deactivate rfl (by rintro _ ⟨⟩) fun hauthorized => ?_
      refine (hs.opened hauthorized).resolve_left ?_
      rw [hs.shaped.connecting_of_attempt hcurrent]
      decide
    · -- The control has left the attempt, so its failure does not reach it.
      rw [walletSessionReducer_of_other rfl hcurrent]
      exact hs.coreTied_of_same (.refl _) (by rintro _ ⟨⟩) hs.opened
  | @completed attempt account revision control connected hactive hcontinues hcarries hsame =>
    by_cases hcurrent : s.control.connectAttemptId = some attempt.attemptId
    · have hnamed : isCurrentAttempt control (some attempt.attemptId) = true := by
        simp [isCurrentAttempt, hsame.connectAttemptId, hcurrent]
      obtain ⟨hle, hnewer⟩ := hs.carries henabled hactive hcurrent hcontinues hcarries
      cases connected with
      | false =>
        have hcontrol : walletSessionReducer control
            (.wrongNetwork (some attempt.attemptId) revision (some attempt.epoch)) =
            activate control .wrongNetwork .wrongNetwork revision (some attempt.epoch) := by
          simp [walletSessionReducer, hnamed]
        exact .of_activate hcontrol hle hnewer
      | true =>
        have hcontrol : walletSessionReducer control
            (.connected (some attempt.attemptId) revision (some attempt.epoch)) =
            activate control .connected .connected revision (some attempt.epoch) := by
          simp [walletSessionReducer, hnamed]
        exact .of_activate hcontrol hle hnewer
    · have hother : control.connectAttemptId ≠ some attempt.attemptId := by
        rw [hsame.connectAttemptId]
        exact hcurrent
      rw [walletSessionReducer_completed_of_other hother]
      exact hs.coreTied_of_same hsame (by rintro _ ⟨⟩)
        fun _ => (hs.attempt attempt hactive).resolve_left hcurrent
  | leftNetwork h =>
    rcases h with ⟨auth, rfl, hreopens, rfl⟩ | ⟨flow, reply, rfl, -, rfl⟩
    · exact .of_activate rfl hs.observed hreopens.newer
    · exact .of_activate rfl (Nat.le_refl _) hs.renderedRevision
  | returned hlabel h =>
    subst hlabel
    exact .of_activate rfl hs.observed h.newer
  | switched => exact .of_activate rfl (Nat.le_refl _) hs.renderedRevision

/-- A session in which an attempt stays active went on with it before as well. -/
theorem Change.current_before (h : Change s label core) (hepoch : core.sessionEpoch = s.sessionEpoch)
    (hattempt : core.activeAttempt = some attempt)
    (hcurrent : core.control.connectAttemptId = some attempt.attemptId) :
    s.control.connectAttemptId = some attempt.attemptId := by
  cases h with
  | quiet h => exact h.connectAttemptId ▸ hcurrent
  | failed | completed => cases hattempt
  | switched => cases hcurrent
  | bumped | ended | timedOut | started | leftNetwork | returned =>
    exact absurd hepoch (Nat.succ_ne_self _)

end Change

section Next

variable {s : WalletProvider} {label : Label}

theorem Tied.commit (hs : s.Tied) (account : Option Address) :
    Tied { s with provider := commitProviderAccount s.provider account } where
  shaped := hs.shaped
  renderedShaped := hs.renderedShaped
  revision r hr := (hs.revision r hr).trans le_commitProviderAccount_revision
  renderedRevision r hr := (hs.renderedRevision r hr).trans le_commitProviderAccount_revision
  observed := hs.observed.trans le_commitProviderAccount_revision
  flowRevision flow hflow :=
    (hs.flowRevision flow hflow).trans le_commitProviderAccount_revision
  account hrevision hknown := by
    -- The commit cannot have moved the count beyond the one that was rendered.
    have hle := @le_commitProviderAccount_revision s.provider account
    have hobserved := hs.observed
    dsimp only at hrevision
    obtain ⟨hnow, hsame⟩ := hs.account (by omega) hknown
    have hkept : s.provider.account = account := commitProviderAccount_same hnow (by omega)
    exact ⟨rfl, hkept.symm.trans hsame⟩
  newer := hs.newer
  asked := hs.asked
  attempt := hs.attempt
  opened := hs.opened

theorem Tied.render (hs : s.Tied) {auth : AuthView} {available : Bool}
    {runtime : WalletRuntimeObservation} {health : WalletRpcHealth} :
    (s.render auth available runtime health).Tied where
  shaped := hs.shaped
  renderedShaped := hs.shaped
  revision := hs.revision
  renderedRevision := hs.revision
  observed := Nat.le_refl _
  flowRevision := hs.flowRevision
  account _ hknown := ⟨hknown, rfl⟩
  newer r r' hr hr' := by
    have hsame : s.control.providerRevision = some r := hr
    have hsame' : s.control.providerRevision = some r' := hr'
    rw [hsame] at hsame'
    exact Nat.le_of_eq (Option.some.inj hsame')
  asked flow hflow attempt continued hwork hactive hcurrent r hr := by
    -- The control goes on with the attempt, and carries no revision yet.
    have hnone : s.control.providerRevision = some r := hr
    rw [(hs.shaped.connecting (hs.shaped.connecting_of_attempt hcurrent)).2] at hnone
    cases hnone
  attempt _ _ := by
    show _ ∨ s.control.intent = .active ∨ s.control.intent ≠ .active
    exact .inr (Classical.em _)
  opened _ := by
    show s.control.intent = .active ∨ s.control.intent ≠ .active
    exact Classical.em _

theorem Tied.session (hs : s.Tied) (hepochs : s.Epochs) (henabled : s.Enabled label)
    (hcore : CoreTied s (s.next label).core) (hsame : SameOutside s label (s.next label)) :
    (s.next label).Tied where
  shaped := hcore.shaped
  renderedShaped := hsame.rendered ▸ hs.renderedShaped
  revision := hsame.provider ▸ hcore.revision
  renderedRevision := hsame.rendered ▸ hsame.provider ▸ hs.renderedRevision
  observed := hsame.rendered ▸ hsame.provider ▸ hs.observed
  flowRevision flow hflow := by
    rw [hsame.provider]
    rcases hsame.flows flow hflow with hold | hnew
    · exact hs.flowRevision flow hold
    · cases hnew with
      | connect | restore | switchNetwork | check => exact Nat.le_refl _
      | switchAccount hlabel | switchChain hlabel | probe hlabel =>
        subst hlabel
        have hresumed := hs.flowRevision _ (mem_of_enabled henabled)
        exact hresumed
  account := hsame.rendered ▸ hsame.provider ▸ hs.account
  newer := hsame.rendered ▸ hcore.newer
  asked flow hflow attempt continued hwork hactive hcurrent r hr := by
    rw [hsame.rendered] at hr
    rcases hsame.flows flow hflow with hold | hnew
    · -- An attempt that is active now and was awaited before was active before.
      obtain ⟨hepoch, hattempt⟩ := isActive_iff.1 hactive
      obtain ⟨hstarted, hordered⟩ := hepochs.flows flow hold
      rw [Ordered, hwork] at hordered
      dsimp only at hordered
      have hle : s.sessionEpoch ≤ (s.next label).sessionEpoch := epoch_le_next
      rcases (change_next s label).attempt_cases hattempt with hbefore | ⟨hnew, -⟩
      · have := hepochs.attempt attempt hbefore
        have hstill : (s.next label).sessionEpoch = s.sessionEpoch := by omega
        exact hs.asked flow hold attempt continued hwork (isActive_iff.2 ⟨by omega, hbefore⟩)
          ((change_next s label).current_before hstill hattempt hcurrent) r hr
      · omega
    · cases hnew with
      | connect => exact hs.renderedRevision r hr
      | _ => cases hwork
  attempt attempt hactive := by
    obtain ⟨hepoch, hattempt⟩ := isActive_iff.1 hactive
    rw [hsame.rendered]
    exact hcore.attempt attempt hattempt hepoch.symm
  opened := hsame.rendered ▸ hcore.opened

end Next

theorem Tied.next {s : WalletProvider} {label : Label} (hs : s.Tied) (hepochs : s.Epochs)
    (henabled : s.Enabled label) : (s.next label).Tied := by
  have hcore := (change_next s label).coreTied hs hepochs henabled
  rcases outside_next s label with ⟨account, rfl, hnext⟩ | ⟨chainId, rfl, hnext⟩ |
    ⟨auth, available, runtime, health, rfl, hnext⟩ | hsame
  · exact hnext ▸ hs.commit account
  · exact { hs with }
  · exact hnext ▸ hs.render
  · exact hs.session hepochs henabled hcore hsame

theorem Tied.of_reachable {s : WalletProvider} (hs : system.Reachable s) : s.Tied := by
  refine Lib.TransitionSystem.Reachable.invariant ?_ ?_ hs
  · rintro s ⟨runtime, health, marker, rfl⟩
    exact .init
  · rintro s label s' hreach htied ⟨henabled, rfl⟩
    exact htied.next (.of_reachable hreach) henabled

/-! ### Checks in flight -/

/-- The work of a check, at its reads or at its probe. -/
def isCheck : Work → Bool
  | .check _ | .probe .. => true
  | _ => false

def isProbe : Work → Bool
  | .probe .. => true
  | _ => false

/-- What a check answers for, at the moment it answers. -/
structure StillTrue (s : WalletProvider) (flow : Flow) : Prop where
  epoch : s.sessionEpoch = flow.startedAt
  authorized : s.sessionAuthorized = true
  account : ∃ wallet, flow.auth.financialWallet = some wallet ∧ s.provider.account = some wallet
  revision : s.control.providerRevision = some s.provider.revision

/-- What a check has seen of the session and the provider. -/
structure Seen (s : WalletProvider) (flow : Flow) : Prop where
  active : s.control.intent = .active
  revision : s.control.providerRevision = some s.provider.revision
  rendered : s.rendered.control.providerRevision = some s.provider.revision
  known : s.provider.known = true
  account : isProbe flow.work = true →
    ∃ wallet, flow.auth.financialWallet = some wallet ∧ s.provider.account = some wallet

/-- What the checks of the present epoch and revision have seen is still so. -/
def Checks (s : WalletProvider) : Prop :=
  ∀ flow ∈ s.flows, isCheck flow.work = true → flow.startedAt = s.sessionEpoch →
    flow.revision = s.provider.revision → Seen s flow

section Seen

variable {s : WalletProvider} {label : Label} {flow : Flow}

/-- While the epoch stays, so does an active session, up to a new revision of the provider. -/
theorem Change.active_of_epoch {core : Core} (hs : s.Tied) (h : Change s label core)
    (hepoch : core.sessionEpoch = s.sessionEpoch) (hactive : s.control.intent = .active)
    (hrevision : s.control.providerRevision = some s.provider.revision) :
    core.control.intent = .active ∧
      core.control.providerRevision = some s.provider.revision := by
  have hother : ∀ attemptId, s.control.connectAttemptId ≠ some attemptId := by
    intro attemptId
    rw [(hs.shaped.active hactive).1]
    exact nofun
  cases h with
  | quiet h => exact ⟨h.intent.trans hactive, h.providerRevision.trans hrevision⟩
  | failed =>
    rw [walletSessionReducer_of_other rfl (hother _)]
    exact ⟨hactive, hrevision⟩
  | @completed attempt _ revision control connected _ _ _ hsame =>
    have hleft : control.connectAttemptId ≠ some attempt.attemptId := by
      rw [hsame.connectAttemptId]
      exact hother _
    rw [walletSessionReducer_completed_of_other hleft]
    exact ⟨hsame.intent.trans hactive, hsame.providerRevision.trans hrevision⟩
  | switched => exact ⟨rfl, rfl⟩
  | bumped | ended | timedOut | started | leftNetwork | returned =>
    exact absurd hepoch (Nat.succ_ne_self _)

/-- While the epoch and the revision stay, so does what a check has seen. -/
theorem Seen.next (hs : s.Tied) (hseen : Seen s flow)
    (hepoch : (s.next label).sessionEpoch = s.sessionEpoch)
    (hrevision : (s.next label).provider.revision = s.provider.revision) :
    Seen (s.next label) flow := by
  obtain ⟨hactive, hcarried⟩ :=
    (change_next s label).active_of_epoch hs hepoch hseen.active hseen.revision
  have hprovider : (s.next label).provider.known = true ∧
      (s.next label).provider.account = s.provider.account ∧
      (s.next label).rendered.control.providerRevision = some s.provider.revision := by
    rcases outside_next s label with ⟨account, rfl, hnext⟩ | ⟨_, rfl, hnext⟩ |
      ⟨_, _, _, _, rfl, hnext⟩ | hsame
    · rw [hnext] at hrevision ⊢
      exact ⟨rfl, (commitProviderAccount_same hseen.known hrevision).symm, hseen.rendered⟩
    · exact hnext ▸ ⟨hseen.known, rfl, hseen.rendered⟩
    · exact hnext ▸ ⟨hseen.known, rfl, hseen.revision⟩
    · rw [hsame.provider, hsame.rendered]
      exact ⟨hseen.known, rfl, hseen.rendered⟩
  obtain ⟨hknown, haccount, hrendered⟩ := hprovider
  exact {
    active := hactive
    revision := hrevision.symm ▸ hcarried
    rendered := hrevision.symm ▸ hrendered
    known := hknown
    account := by
      rw [haccount]
      exact hseen.account }

/-- A session that was rendered as connected at the present revision. -/
theorem Tied.account_of_connected (hs : s.Tied)
    (hrevision : s.rendered.control.providerRevision = some s.provider.revision)
    (hstatus : s.rendered.snapshot.status = .connected) :
    s.rendered.control.intent = .active ∧ s.provider.known = true ∧
      ∃ wallet, s.provider.account = some wallet ∧
        s.rendered.inputs.runtime.wagmiAccount = some wallet := by
  obtain ⟨hintent, hobserved, hknown, halign, -⟩ :=
    connected_spec (fun h => (hs.renderedShaped.connecting h).1) hstatus
  obtain ⟨wallet, -, haccount, -, hwagmi, -⟩ := runtimeAlignment_eq_none halign
  have hsame : s.rendered.provider.revision = s.provider.revision :=
    Option.some.inj (hobserved.symm.trans hrevision)
  obtain ⟨hnow, hcommitted⟩ := hs.account hsame hknown
  exact ⟨hintent, hnow, wallet, hcommitted.trans haccount, hwagmi⟩

/-- A check begins in an active session. -/
theorem seen_of_check (hs : s.Tied) (hread : isProbe flow.work = false)
    (hauthorized : s.sessionAuthorized = true)
    (hrevision : s.rendered.control.providerRevision = some s.provider.revision)
    (hstatus : s.rendered.snapshot.status = .connected) : Seen s flow := by
  obtain ⟨hintent, hknown, -⟩ := hs.account_of_connected hrevision hstatus
  have hactive : s.control.intent = .active :=
    (hs.opened hauthorized).resolve_right (not_not.2 hintent)
  obtain ⟨-, carried, hcarried⟩ := hs.shaped.active hactive
  have hexact : carried = s.provider.revision :=
    Nat.le_antisymm (hs.revision carried hcarried) (hs.newer _ carried hrevision hcarried)
  refine ⟨hactive, hexact ▸ hcarried, hrevision, hknown, fun hprobe => ?_⟩
  rw [hread] at hprobe
  cases hprobe

/-- A check that goes on to its probe has seen the committed account as well. -/
theorem Seen.goesOn (hs : s.Tied) (hseen : Seen s flow) {account : Option Address}
    {chainId : Option Nat} (hreads : s.GoesOn flow account chainId) {work : Work} :
    Seen s { flow with work } := by
  have haligned := hreads.aligned
  simp only [walletSessionRuntimeAligned, Bool.and_eq_true, decide_eq_true_eq] at haligned
  obtain ⟨-, -, wallet, hcommitted, hwagmi⟩ :=
    hs.account_of_connected hseen.rendered haligned.1.1.1
  obtain ⟨_, hsame, rfl⟩ := walletsMatch_iff.1 hreads.wagmi
  obtain ⟨_, hread, hwallet⟩ := walletsMatch_iff.1 hreads.wallet
  obtain rfl := Option.some.inj hread
  refine ⟨hseen.active, hseen.revision, hseen.rendered, hseen.known, fun _ => ⟨wallet, ?_, ?_⟩⟩
  · exact hwallet.trans (hsame.symm.trans hwagmi)
  · exact hcommitted

theorem revision_le_next : s.provider.revision ≤ (s.next label).provider.revision := by
  rcases outside_next s label with ⟨account, rfl, hnext⟩ | ⟨_, rfl, hnext⟩ |
    ⟨_, _, _, _, rfl, hnext⟩ | hsame
  · exact hnext ▸ le_commitProviderAccount_revision
  · exact hnext ▸ Nat.le_refl _
  · exact hnext ▸ Nat.le_refl _
  · exact hsame.provider ▸ Nat.le_refl _

/-- Work in flight after a step was in flight before, or is put there by a step that leaves the
provider as it was. -/
theorem flows_next (hflow : flow ∈ (s.next label).flows) :
    flow ∈ s.flows ∨ Suspends s label (s.next label).sessionEpoch flow ∧
      (s.next label).provider = s.provider := by
  rcases outside_next s label with ⟨_, rfl, -⟩ | ⟨_, rfl, -⟩ | ⟨_, _, _, _, rfl, -⟩ | hsame
  · exact .inl hflow
  · exact .inl hflow
  · exact .inl hflow
  · exact (hsame.flows flow hflow).imp_right fun hnew => ⟨hnew, hsame.provider⟩

theorem Checks.next (h : s.Checks) (hs : s.Tied) (hepochs : s.Epochs)
    (henabled : s.Enabled label) : (s.next label).Checks := by
  intro flow hflow hcheck hstarted hrevision
  have hepoch : s.sessionEpoch ≤ (s.next label).sessionEpoch := epoch_le_next
  rcases flows_next hflow with hold | ⟨hnew, hprovider⟩
  · -- The check would be older than the session or than the account, had either moved on.
    have := (hepochs.flows flow hold).1
    have := hs.flowRevision flow hold
    have hcount := @revision_le_next s label
    exact (h flow hold hcheck (by omega) (by omega)).next hs (by omega) (by omega)
  · cases hnew with
    | check hlabel hauthorized hseen hstatus hsame =>
      exact (seen_of_check hs rfl hauthorized hseen hstatus).next hs hsame (hprovider ▸ rfl)
    | @probe read account chainId hlabel hreads hsame =>
      subst hlabel
      have hread := mem_of_enabled henabled
      have hordered := (hepochs.flows read hread).2
      rw [Ordered, hreads.work] at hordered
      rw [hprovider] at hrevision
      have hseen : Seen s read := by
        refine h read hread ?_ hordered.symm hrevision
        rw [hreads.work]
        rfl
      exact (hseen.goesOn hs hreads).next hs hsame (hprovider ▸ rfl)
    | _ => cases hcheck

theorem Checks.of_reachable (hs : system.Reachable s) : s.Checks := by
  refine Lib.TransitionSystem.Reachable.invariant ?_ ?_ hs
  · rintro s ⟨runtime, health, marker, rfl⟩ flow hflow
    exact absurd hflow (by simp [WalletProvider.init])
  · rintro s label s' hreach hchecks ⟨henabled, rfl⟩
    exact hchecks.next (.of_reachable hreach) (.of_reachable hreach) henabled

end Seen

/-! ### From the start of a check to its answer -/

/-- The check that `requireConnectedFinancialSession` begins. -/
def startedCheck (s : WalletProvider) (auth : AuthView) : Flow :=
  ⟨.check s.sessionEpoch, auth, s.sessionEpoch, s.provider.revision⟩

/-- The check awaits its health probe. -/
def Probing (s : WalletProvider) (check : Flow) : Prop :=
  ∃ epoch current, { check with work := .probe epoch current } ∈ s.flows

/-- A step leaves a check alone. -/
structure Undisturbed (check : Flow) (s : WalletProvider) (label : Label) : Prop where
  /-- The reads it goes on with are of the revision it began with. -/
  reads : ∀ account chainId, label = .resume check (.refreshed account chainId) →
    s.GoesOn check account chainId → s.provider.revision = check.revision
  /-- During its probe the session is not replaced, -/
  session : s.Probing check → ¬ s.Replaces label
  /-- and no other account is committed. -/
  account : s.Probing check → ∀ account, label = .commit account → account = s.provider.account
  /-- No attempt that a reopened session has left open is gone on with. -/
  attempt : s.sessionEpoch = check.startedAt → ∀ attempt, Continues s label attempt →
    s.isActive attempt = false

/-- What is known of a check from its start on. -/
structure Begun (check : Flow) (s : WalletProvider) : Prop where
  epoch : check.startedAt ≤ s.sessionEpoch
  authorized : s.sessionEpoch = check.startedAt → s.sessionAuthorized = true
  probing : s.Probing check →
    s.sessionEpoch = check.startedAt ∧ s.provider.revision = check.revision

section Answer

variable {s s₀ s₁ : WalletProvider} {label : Label} {check : Flow} {auth : AuthView}

theorem Begun.of_start (hstep : system.step s₀ (.requireConnected auth) s₁) (hbegins : s₁ ≠ s₀) :
    Begun (s₀.startedCheck auth) s₁ := by
  obtain ⟨-, rfl⟩ := hstep
  change s₀.requireConnectedFinancialSession auth ≠ s₀ at hbegins
  show Begun _ (s₀.requireConnectedFinancialSession auth)
  unfold requireConnectedFinancialSession at hbegins ⊢
  split at hbegins
  · exact absurd rfl hbegins
  · rename_i hguard
    simp only [not_or] at hguard
    rw [if_neg (by simpa only [not_or] using hguard)]
    have hauthorized : s₀.sessionAuthorized = true := by simpa using hguard.2.2.1
    exact ⟨Nat.le_refl _, fun _ => hauthorized, fun _ => ⟨rfl, rfl⟩⟩

/-- While the epoch stays, an authorized session stays authorized, unless an open attempt ends on
a wrong network. -/
theorem Change.authorized_of_epoch {core : Core} (h : Change s label core)
    (hepoch : core.sessionEpoch = s.sessionEpoch) (hauthorized : s.sessionAuthorized = true)
    (hclosed : ∀ attempt, Continues s label attempt → s.isActive attempt = false) :
    core.sessionAuthorized = true := by
  cases h with
  | quiet | failed => exact hauthorized
  | @completed attempt _ _ _ _ hactive hcontinues =>
    rw [hclosed attempt hcontinues] at hactive
    cases hactive
  | switched => rfl
  | bumped | ended | timedOut | started | leftNetwork | returned =>
    exact absurd hepoch (Nat.succ_ne_self _)

theorem Begun.next (h : Begun check s) (hepochs : s.Epochs) (henabled : s.Enabled label)
    (hwork : check.work = .check check.startedAt) (hundisturbed : Undisturbed check s label) :
    Begun check (s.next label) := by
  have hle : s.sessionEpoch ≤ (s.next label).sessionEpoch := epoch_le_next
  have hbegun := h.epoch
  refine ⟨hbegun.trans hle, ?_, ?_⟩
  · intro hnow
    have hbefore : s.sessionEpoch = check.startedAt := by omega
    exact (change_next s label).authorized_of_epoch (hnow.trans hbefore.symm)
      (h.authorized hbefore) (hundisturbed.attempt hbefore)
  · rintro ⟨epoch, current, hprobe⟩
    rcases flows_next hprobe with hold | ⟨hnew, hprovider⟩
    · have hprobing : s.Probing check := ⟨epoch, current, hold⟩
      obtain ⟨hstarted, hrevision⟩ := h.probing hprobing
      refine ⟨(epoch_next_of_not_replaces (hundisturbed.session hprobing)).trans hstarted, ?_⟩
      rw [← hrevision]
      rcases outside_next s label with ⟨account, rfl, hnext⟩ | ⟨_, rfl, hnext⟩ |
        ⟨_, _, _, _, rfl, hnext⟩ | hsame
      · have hsame : account = s.provider.account := hundisturbed.account hprobing account rfl
        rw [hnext, commitProviderAccount_eq]
        exact if_neg fun hchanged => hchanged.2 hsame.symm
      · rw [hnext]
      · rw [hnext]
        rfl
      · rw [hsame.provider]
    · generalize hflow : ({ check with work := .probe epoch current } : Flow) = flow at hnew
      cases hnew with
      | @probe read account chainId hlabel hreads hsame =>
        subst hlabel
        have hordered := (hepochs.flows read (mem_of_enabled henabled)).2
        rw [Ordered, hreads.work] at hordered
        simp only [Flow.mk.injEq] at hflow
        obtain ⟨-, hauth, hstarted, hrevision⟩ := hflow
        -- The check that was read is this one.
        have hsameWork : read.work = check.work := by rw [hreads.work, hwork, hordered, hstarted]
        obtain rfl : read = check := by
          cases read
          cases check
          simp only [Flow.mk.injEq]
          exact ⟨hsameWork, hauth.symm, hstarted.symm, hrevision.symm⟩
        rw [hprovider, hsame]
        exact ⟨hordered, hundisturbed.reads account chainId rfl hreads⟩
      | _ => cases hflow

/-- A check that is left alone from its start to its answer and answers with financial actions
enabled does so in the epoch it began with, in an authorized session, with the verified wallet
committed at the revision of the control; otherwise it rejects. -/
theorem check_still_true {epoch : Nat} {current : WalletSessionSnapshot}
    (hs : system.Reachable s₀) (hstep : system.step s₀ (.requireConnected auth) s₁)
    (hbegins : s₁ ≠ s₀)
    (hrun : system.RunVia (fun s label _ => Undisturbed (s₀.startedCheck auth) s label) s₁ s)
    (hflow : { s₀.startedCheck auth with work := .probe epoch current } ∈ s.flows)
    (health : WalletRpcHealth) :
    match answerCheck current health with
    | .ok snapshot => snapshot.canUseFinancialActions = true ∧ StillTrue s (s₀.startedCheck auth)
    | .error _ => health.state ≠ .healthy := by
  have hbegun : system.Reachable s ∧ Begun (s₀.startedCheck auth) s := by
    refine hrun.preserves (hs.tail hstep) ?_ (.of_start hstep hbegins)
    rintro s label s' hreach hbegun ⟨henabled, rfl⟩ hundisturbed
    exact hbegun.next (.of_reachable hreach) henabled rfl hundisturbed
  obtain ⟨hreach, hbegun⟩ := hbegun
  obtain ⟨hstarted, hrevision⟩ := hbegun.probing ⟨epoch, current, hflow⟩
  have hseen := Checks.of_reachable hreach _ hflow rfl hstarted.symm hrevision.symm
  unfold answerCheck
  split_ifs with hhealth
  · exact hhealth
  · exact ⟨rfl, hstarted, hbegun.authorized hstarted, hseen.account rfl, hseen.revision⟩

end Answer

/-! ### A session that ends during the probe -/

open SessionHistory (walletA walletB alignedRuntime healthy)

/-- A session is opened and rendered. -/
def connected : List Label :=
  [.render { signedIn with accountStatus := .authLoading, financialWallet := none } false
      alignedRuntime healthy,
    .bootstrap signedIn 0, .commit (some walletA), .network (some LEOPOLD_CHAIN_ID),
    .render signedIn true alignedRuntime healthy, .connect signedIn 0,
    .resume ⟨.connect ⟨"connect-2-0", 2⟩ false, signedIn, 2, 0⟩
      (.connected walletA (some LEOPOLD_CHAIN_ID) 0),
    .render signedIn true alignedRuntime healthy]

def check : Flow := ⟨.check 2, signedIn, 2, 0⟩

/-- The reads of the check, with a render between its start and its probe, and another commit of
the same account during the probe. -/
def reads : List Label :=
  [.render signedIn true alignedRuntime healthy,
    .resume check (.refreshed (some walletA) (some LEOPOLD_CHAIN_ID)), .commit (some walletA)]

def probe (s : WalletProvider) : Flow := { check with work := .probe 2 s.rendered.snapshot }

/-- A step that leaves the check alone. -/
def leavesAlone (s : WalletProvider) : Label → Bool
  | .render .. => true
  | .resume flow (.refreshed _ _) =>
    flow = check && s.provider.revision = check.revision &&
      s.flows.all (fun flow => !isProbe flow.work)
  | .commit account => account = s.provider.account
  | _ => false

theorem undisturbed_of_leavesAlone (s : WalletProvider) (label : Label)
    (h : leavesAlone s label = true) : Undisturbed check s label := by
  unfold leavesAlone at h
  split at h
  · exact ⟨nofun, fun _ => id, fun _ => nofun, fun _ => nofun⟩
  · simp only [Bool.and_eq_true, decide_eq_true_eq, List.all_eq_true] at h
    obtain ⟨⟨rfl, hrevision⟩, hprobes⟩ := h
    have hnot : ¬ s.Probing check := by
      rintro ⟨epoch, current, hflow⟩
      exact absurd (hprobes _ hflow) (by simp [isProbe])
    refine ⟨fun _ _ _ _ => hrevision, fun hprobing => absurd hprobing hnot,
      fun hprobing => absurd hprobing hnot, ?_⟩
    intro _ attempt hcontinues
    cases hcontinues with
    | connect hwork | restore hwork => cases hwork
  · rename_i account
    refine ⟨nofun, fun _ => id, ?_, fun _ => nofun⟩
    rintro - _ ⟨⟩
    exact of_decide_eq_true h
  · cases h

theorem check_still_true_probing : ∃ s₀ s, loaded.run (fun _ _ => true) connected = some s₀ ∧
    (s₀.next (.requireConnected signedIn)).run leavesAlone reads = some s ∧
    match answerCheck s.rendered.snapshot healthy with
    | .ok snapshot =>
      snapshot.canUseFinancialActions = true ∧ StillTrue s (s₀.startedCheck signedIn)
    | .error _ => healthy.state ≠ .healthy := by
  obtain ⟨s₀, hrun₀, hbegins, hcheck, hany⟩ := exists_of_run loaded (fun _ _ => true)
    connected (p := fun s₀ => s₀.next (.requireConnected signedIn) ≠ s₀ ∧
      s₀.startedCheck signedIn = check ∧
      ((s₀.next (.requireConnected signedIn)).run leavesAlone reads).any
        (fun s => decide (probe s ∈ s.flows)) = true) (by decide +kernel)
  obtain ⟨s, hrun, hflow⟩ := exists_of_run _ leavesAlone reads hany
  have hprobe : { s₀.startedCheck signedIn with work := .probe 2 s.rendered.snapshot } ∈ s.flows :=
    hcheck ▸ hflow
  exact ⟨s₀, s, hrun₀, hrun, check_still_true
    (reachableVia_run (fun _ _ _ => trivial) (.init ⟨_, _, _, rfl⟩) hrun₀) ⟨trivial, rfl⟩ hbegins
    (hcheck ▸ runVia_run undisturbed_of_leavesAlone hrun) hprobe healthy⟩

/-- The user disconnects during the probe, and the check answers all the same. -/
theorem check_answers_after_disconnect : ∃ s flow epoch current snapshot,
    system.Reachable s ∧ flow ∈ s.flows ∧ flow.work = .probe epoch current ∧
      answerCheck current healthy = .ok snapshot ∧ snapshot.canUseFinancialActions = true ∧
      s.sessionEpoch ≠ flow.startedAt ∧ s.sessionAuthorized = false ∧ ¬ StillTrue s flow := by
  obtain ⟨s, hrun, hflow, hepoch, hauthorized⟩ := exists_of_run loaded (fun _ _ => true)
    (connected ++ [.requireConnected signedIn] ++ reads ++ [.disconnect])
    (p := fun s => probe s ∈ s.flows ∧ s.sessionEpoch ≠ 2 ∧ s.sessionAuthorized = false)
    (by decide +kernel)
  exact ⟨s, probe s, 2, s.rendered.snapshot, _,
    reachableVia_run (fun _ _ _ => trivial) (.init ⟨_, _, _, rfl⟩) hrun, hflow, rfl, rfl, rfl,
    hepoch, hauthorized, fun h => hepoch h.epoch⟩

end WalletProvider

end Leopold.Frontend
