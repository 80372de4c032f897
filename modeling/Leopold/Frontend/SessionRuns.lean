import Leopold.Frontend.SessionChanges

/-!
# Runs of the wallet identity provider

An operation that began before the session ended must not open it again, and a check of the
session must still be true when it answers.  Both hold of the runs in which the steps that have
not looked at the epoch again happen to be at their own epoch.
-/

namespace Leopold.Frontend

open Lib

/-- The attempt an event goes on with; a start makes its attempt the current one. -/
def WalletSessionEvent.attempt : WalletSessionEvent → Option String
  | .connectPhase attemptId _ _ | .connectFailed _ attemptId _ => some attemptId
  | .connected attemptId _ _ | .wrongNetwork attemptId _ _ => attemptId
  | _ => none

/-- An event of another attempt than the current one changes nothing. -/
theorem walletSessionReducer_of_other {control : WalletSessionControl} {event : WalletSessionEvent}
    {attemptId : String} (hattempt : event.attempt = some attemptId)
    (hother : control.connectAttemptId ≠ some attemptId) :
    walletSessionReducer control event = control := by
  cases event with
  | connectPhase | connectFailed =>
    obtain rfl : _ = attemptId := Option.some.inj hattempt
    simp [walletSessionReducer, hother]
  | connected named | wrongNetwork named =>
    obtain rfl : named = some attemptId := hattempt
    simp [walletSessionReducer, isCurrentAttempt, hother]
  | _ => cases hattempt

namespace WalletProvider

/-! ### Epochs -/

/-- What is awaited belongs to an attempt or an epoch that is not newer than its operation. -/
def Ordered (flow : Flow) : Prop :=
  match flow.work with
  | .connect attempt _ => attempt.epoch ≤ flow.startedAt
  | .restore attempt => attempt.epoch = flow.startedAt
  | .switchNetwork epoch | .switchAccount epoch | .switchChain epoch _ | .check epoch
  | .probe epoch _ => epoch = flow.startedAt

/-- No epoch is newer than the session's. -/
structure Epochs (s : WalletProvider) : Prop where
  control : s.control.epoch ≤ s.sessionEpoch
  attempt : ∀ attempt, s.activeAttempt = some attempt → attempt.epoch ≤ s.sessionEpoch
  rendered : s.rendered.epoch ≤ s.sessionEpoch
  renderedControl : s.rendered.control.epoch ≤ s.rendered.epoch
  flows : ∀ flow ∈ s.flows, flow.startedAt ≤ s.sessionEpoch ∧ Ordered flow

section Change

variable {s : WalletProvider} {label : Label} {core : Core}

theorem Change.epoch_le (h : Change s label core) : s.sessionEpoch ≤ core.sessionEpoch := by
  cases h <;> first | exact Nat.le_refl _ | exact Nat.le_succ _

theorem epoch_le_next : s.sessionEpoch ≤ (s.next label).sessionEpoch := (change_next s label).epoch_le

/-- The active attempt after a step is the one before, or a new one. -/
theorem Change.attempt_cases (h : Change s label core) {attempt : Attempt}
    (hattempt : core.activeAttempt = some attempt) :
    s.activeAttempt = some attempt ∨
      attempt.epoch = s.sessionEpoch + 1 ∧ core.sessionEpoch = s.sessionEpoch + 1 ∧
        ∀ auth, label ≠ .switchToSepolia auth := by
  cases h with
  | ended hold =>
    rcases hold with rfl | rfl
    · cases hattempt
    · exact .inl hattempt
  | started _ hlabel =>
    cases hattempt
    refine .inr ⟨rfl, rfl, ?_⟩
    rintro auth rfl
    rcases hlabel with ⟨_, _, hlabel⟩ | ⟨_, _, hlabel⟩ <;> cases hlabel
  | timedOut | failed | completed => cases hattempt
  | quiet | bumped | leftNetwork | returned | switched => exact .inl hattempt

/-- The epoch of the control after a step is the one before, or the session's now, unless the step
ends a switch. -/
theorem Change.control_cases (h : Change s label core) :
    core.control.epoch = s.control.epoch ∨ core.control.epoch = core.sessionEpoch ∨
      ∃ flow reply epoch account, label = .resume flow reply ∧
        flow.work = .switchChain epoch account ∧ Reopens s label ∧ core.control.epoch = epoch := by
  cases h with
  | quiet h => exact .inl h.epoch
  | bumped => exact .inl rfl
  | ended => exact .inr (.inl rfl)
  | timedOut _ hcontrol =>
    rcases hcontrol with rfl | ⟨status, reason, rfl⟩
    · exact .inl rfl
    · exact .inr (.inl rfl)
  | started h => exact .inr (.inl h.epoch)
  | failed hactive =>
    simp only [walletSessionReducer]
    split
    · exact .inl rfl
    · exact .inr (.inl (isActive_iff.1 hactive).1.symm)
  | @completed _ _ _ _ connected hactive _ _ hsame =>
    cases connected
    all_goals
      simp only [walletSessionReducer, Bool.false_eq_true, ↓reduceIte]
      split
      · exact .inl hsame.epoch
      · exact .inr (.inl (isActive_iff.1 hactive).1.symm)
  | leftNetwork => exact .inr (.inl rfl)
  | returned => exact .inr (.inl rfl)
  | @switched flow reply epoch account hlabel hwork h =>
    exact .inr (.inr ⟨flow, reply, epoch, account, hlabel, hwork, h, rfl⟩)

end Change

theorem Epochs.init {runtime : WalletRuntimeObservation} {health : WalletRpcHealth}
    {marker : Option Address} : (init runtime health marker).Epochs where
  control := Nat.zero_le 0
  attempt _ hattempt := absurd hattempt (by simp [WalletProvider.init])
  rendered := Nat.zero_le 0
  renderedControl := Nat.zero_le 0
  flows _ hflow := absurd hflow (by simp [WalletProvider.init])

theorem Epochs.next {s : WalletProvider} {label : Label} (h : s.Epochs)
    (henabled : s.Enabled label) : (s.next label).Epochs where
  control := by
    have hle : s.sessionEpoch ≤ (s.next label).sessionEpoch := epoch_le_next
    rcases (change_next s label).control_cases with hsame | hnow |
      ⟨flow, reply, epoch, account, rfl, hwork, -, hepoch⟩
    · exact (hsame.trans_le h.control).trans hle
    · exact Nat.le_of_eq hnow
    · obtain ⟨hstarted, hordered⟩ := h.flows flow (mem_of_enabled henabled)
      rw [Ordered, hwork] at hordered
      have : (s.next (.resume flow reply)).control.epoch = epoch := hepoch
      omega
  attempt attempt hattempt := by
    rcases (change_next s label).attempt_cases hattempt with hold | ⟨hnew, hepoch, -⟩
    · exact (h.attempt attempt hold).trans epoch_le_next
    · exact Nat.le_of_eq (hnew.trans hepoch.symm)
  rendered := by
    rcases outside_next s label with ⟨_, rfl, hnext⟩ | ⟨_, rfl, hnext⟩ | ⟨_, _, _, _, rfl, hnext⟩ |
      hsame
    · exact hnext ▸ h.rendered
    · exact hnext ▸ h.rendered
    · exact hnext ▸ Nat.le_refl _
    · exact hsame.rendered ▸ h.rendered.trans epoch_le_next
  renderedControl := by
    rcases outside_next s label with ⟨_, rfl, hnext⟩ | ⟨_, rfl, hnext⟩ | ⟨_, _, _, _, rfl, hnext⟩ |
      hsame
    · exact hnext ▸ h.renderedControl
    · exact hnext ▸ h.renderedControl
    · exact hnext ▸ h.control
    · exact hsame.rendered ▸ h.renderedControl
  flows flow hflow := by
    rcases outside_next s label with ⟨_, rfl, hnext⟩ | ⟨_, rfl, hnext⟩ | ⟨_, _, _, _, rfl, hnext⟩ |
      hsame
    · rw [hnext] at hflow ⊢
      exact h.flows flow hflow
    · rw [hnext] at hflow ⊢
      exact h.flows flow hflow
    · rw [hnext] at hflow ⊢
      exact h.flows flow hflow
    · have hle : s.sessionEpoch ≤ (s.next label).sessionEpoch := epoch_le_next
      rcases hsame.flows flow hflow with hold | hnew
      · exact ⟨(h.flows flow hold).1.trans hle, (h.flows flow hold).2⟩
      · cases hnew with
        | connect hepoch =>
          have := h.rendered
          have := h.renderedControl
          refine ⟨Nat.le_refl _, ?_⟩
          show _ ≤ _
          rcases hepoch with ⟨-, hattempt⟩ | ⟨hsame, hattempt⟩
          · exact Nat.le_of_eq hattempt
          · dsimp only
            omega
        | restore => exact ⟨Nat.le_refl _, rfl⟩
        | switchNetwork => exact ⟨Nat.le_refl _, rfl⟩
        | switchAccount hlabel hwork | switchChain hlabel hwork =>
          subst hlabel
          obtain ⟨hstarted, hordered⟩ := h.flows _ (mem_of_enabled henabled)
          rw [Ordered, hwork] at hordered
          exact ⟨hstarted.trans hle, hordered⟩
        | check => exact ⟨Nat.le_refl _, rfl⟩
        | probe hlabel hreads hsame =>
          subst hlabel
          obtain ⟨hstarted, hordered⟩ := h.flows _ (mem_of_enabled henabled)
          rw [Ordered, hreads.work, ← hsame] at hordered
          exact ⟨hstarted.trans hle, hordered⟩

theorem Epochs.of_reachable {P : WalletProvider → Label → WalletProvider → Prop}
    {s : WalletProvider} (hs : system.ReachableVia P s) : s.Epochs := by
  refine hs.invariant ?_ ?_
  · rintro s ⟨runtime, health, marker, rfl⟩
    exact .init
  · rintro s label s' _ h ⟨henabled, rfl⟩ -
    exact h.next henabled

/-! ### Ended sessions -/

/-- When the operation began that a step goes on with; a timer began with the render it reads. -/
def startedAt (s : WalletProvider) : Label → Option Nat
  | .resume flow _ => some flow.startedAt
  | .connectTimeout | .observeProvider _ | .verifyRuntime _ => some s.rendered.epoch
  | _ => none

/-- A step that would open an active session is one of an operation of the present epoch. -/
def Fresh (s : WalletProvider) (label : Label) : Prop :=
  Reopens s label → s.startedAt label = some s.sessionEpoch

/-- The step does not open a session again, and epochs do not go back. -/
structure KeepsEnded (s : WalletProvider) (label : Label) (s' : WalletProvider) : Prop where
  stale : ∀ epoch, s.startedAt label = some epoch → epoch < s.sessionEpoch →
    (s'.sessionAuthorized = true → s.sessionAuthorized = true) ∧
    (s'.marker = none ∨ s'.marker = s.marker) ∧
    (s'.control.intent = .active → s.control.intent = .active)
  epoch : s.control.epoch ≤ s'.control.epoch

section Stale

variable {s : WalletProvider} {label : Label} {core : Core} {attempt : Attempt}

/-- A step of an older operation has no active attempt to go on with. -/
theorem Epochs.startedAt_of_continues (h : s.Epochs) (henabled : s.Enabled label)
    (hcontinues : Continues s label attempt) (hactive : s.isActive attempt = true) :
    ∃ epoch, s.startedAt label = some epoch ∧ s.sessionEpoch ≤ epoch := by
  have hepoch := (isActive_iff.1 hactive).1
  cases hcontinues with
  | connect hwork | restore hwork =>
    obtain ⟨-, hordered⟩ := h.flows _ (mem_of_enabled henabled)
    rw [Ordered, hwork] at hordered
    exact ⟨_, rfl, by dsimp only at hordered; omega⟩
  | verifyRuntime =>
    have := h.renderedControl
    exact ⟨_, rfl, by dsimp only at hepoch; omega⟩

theorem Change.keeps_ended (hs : s.Epochs) (henabled : s.Enabled label) (hfresh : Fresh s label)
    (h : Change s label core) {epoch : Nat} (hstarted : s.startedAt label = some epoch)
    (hstale : epoch < s.sessionEpoch) :
    (core.sessionAuthorized = true → s.sessionAuthorized = true) ∧
    (core.marker = none ∨ core.marker = s.marker) ∧
    (core.control.intent = .active → s.control.intent = .active) := by
  have hnot : ¬ Reopens s label := by
    intro hreopens
    have := (hfresh hreopens).symm.trans hstarted
    simp only [Option.some.injEq] at this
    omega
  cases h with
  | quiet h => exact ⟨id, .inr rfl, fun hintent => h.intent ▸ hintent⟩
  | bumped => exact ⟨id, .inr rfl, id⟩
  | ended _ hmarker => exact ⟨(by rintro ⟨⟩), hmarker, (by rintro ⟨⟩)⟩
  | timedOut _ hcontrol =>
    refine ⟨id, .inl rfl, ?_⟩
    rcases hcontrol with rfl | ⟨status, reason, rfl⟩
    · exact id
    · rintro ⟨⟩
  | started _ hlabel =>
    rcases hlabel with ⟨_, _, rfl⟩ | ⟨_, _, rfl⟩ <;> cases hstarted
  | failed hactive =>
    refine ⟨id, .inl rfl, ?_⟩
    simp only [walletSessionReducer]
    split
    · exact id
    · rintro ⟨⟩
  | completed hactive hcontinues =>
    obtain ⟨_, hsome, hle⟩ := hs.startedAt_of_continues henabled hcontinues hactive
    have := hsome.symm.trans hstarted
    simp only [Option.some.injEq] at this
    omega
  | leftNetwork h =>
    rcases h with ⟨_, _, hreopens, -⟩ | ⟨flow, reply, rfl, hwork, -⟩
    · exact absurd hreopens hnot
    · -- A check looks at the epoch again.
      obtain ⟨-, hordered⟩ := hs.flows flow (mem_of_enabled henabled)
      rw [Ordered, hwork] at hordered
      have : flow.startedAt = epoch := Option.some.inj hstarted
      dsimp only at hordered
      omega
  | returned _ hreopens => exact absurd hreopens hnot
  | switched _ _ hreopens => exact absurd hreopens hnot

/-- In every run whose reopening steps are of the present epoch, no operation that began before
the session ended authorizes it, writes its marker or makes it active, and the epoch of the control
never decreases; an event of another attempt than the current one changes nothing. -/
theorem ended_sessions_stay_ended {s' : WalletProvider}
    (hs : system.ReachableVia (fun s label _ => Fresh s label) s)
    (hstep : system.step s label s') (hfresh : Fresh s label) :
    KeepsEnded s label s' ∧
      ∀ (control : WalletSessionControl) (event : WalletSessionEvent) (attemptId : String),
        event.attempt = some attemptId → control.connectAttemptId ≠ some attemptId →
          walletSessionReducer control event = control := by
  obtain ⟨henabled, rfl⟩ := hstep
  have hepochs := Epochs.of_reachable hs
  refine ⟨⟨fun epoch hstarted hstale =>
    (change_next s label).keeps_ended hepochs henabled hfresh hstarted hstale, ?_⟩,
    fun _ _ _ => walletSessionReducer_of_other⟩
  rcases (change_next s label).control_cases with hsame | hnow |
    ⟨flow, reply, epoch, account, rfl, hwork, hreopens, hepoch⟩
  · exact Nat.le_of_eq hsame.symm
  · have : (s.next label).control.epoch = (s.next label).sessionEpoch := hnow
    have := hepochs.control
    have : s.sessionEpoch ≤ (s.next label).sessionEpoch := epoch_le_next
    omega
  · obtain ⟨-, hordered⟩ := hepochs.flows flow (mem_of_enabled henabled)
    rw [Ordered, hwork] at hordered
    have hpresent : flow.startedAt = s.sessionEpoch := Option.some.inj (hfresh hreopens)
    have : (s.next (.resume flow reply)).control.epoch = epoch := hepoch
    have := hepochs.control
    dsimp only at hordered
    omega

end Stale

/-! ### A session that is opened again -/

open SessionHistory (walletA walletB alignedRuntime healthy)

def signedIn : AuthView where
  clientReady := true
  accountStatus := .signedInReady
  providerUserId := none
  metadataStatus := .present
  financialWallet := some walletA

def loaded : WalletProvider := init alignedRuntime healthy none

/-- The user disconnects while the wallet connects. -/
def disconnectedConnect : List Label :=
  [.bootstrap signedIn 0, .connect signedIn 0, .disconnect]

def lateConnect : Label :=
  .resume ⟨.connect ⟨"connect-2-0", 2⟩ false, signedIn, 2, 0⟩
    (.connected walletA (some LEOPOLD_CHAIN_ID) 0)

/-- A label that never opens a session again. -/
def neverReopens : Label → Bool
  | .resume _ (.chain _) | .observeProvider _ => false
  | _ => true

theorem fresh_of_neverReopens {s : WalletProvider} {label : Label}
    (h : neverReopens label = true) : Fresh s label := by
  intro hreopens
  cases hreopens <;> cases h

/-- What a decidable property of the state after a run says. -/
theorem exists_of_run (s : WalletProvider) (accepts : WalletProvider → Label → Bool)
    (labels : List Label) {p : WalletProvider → Prop} [DecidablePred p]
    (h : (s.run accepts labels).any (fun t => decide (p t)) = true) :
    ∃ t, s.run accepts labels = some t ∧ p t := by
  simpa [Option.any_eq_true] using h

theorem ended_sessions_stay_ended_disconnect : ∃ s,
    loaded.run (fun _ => neverReopens) disconnectedConnect = some s ∧
      KeepsEnded s lateConnect (s.next lateConnect) := by
  obtain ⟨s, hrun, henabled⟩ := exists_of_run loaded (fun _ => neverReopens)
    disconnectedConnect (p := fun s => s.Enabled lateConnect) (by decide +kernel)
  exact ⟨s, hrun, (ended_sessions_stay_ended
    (reachableVia_run (fun _ _ => fresh_of_neverReopens) (.init ⟨_, _, _, rfl⟩) hrun)
    ⟨henabled, rfl⟩ (fresh_of_neverReopens rfl)).1⟩

/-- A session on a wrong network is switched, and the user disconnects during the last read. -/
def disconnectedSwitch : List Label :=
  [.bootstrap signedIn 0, .commit (some walletA), .render signedIn true alignedRuntime healthy,
    .connect signedIn 0,
    .resume ⟨.connect ⟨"connect-2-0", 2⟩ false, signedIn, 2, 0⟩ (.connected walletA (some 1) 0),
    .render signedIn true alignedRuntime healthy, .switchToSepolia signedIn,
    .resume ⟨.switchNetwork 3, signedIn, 3, 0⟩ .switched, .network (some LEOPOLD_CHAIN_ID),
    .resume ⟨.switchAccount 3, signedIn, 3, 0⟩ (.account (some walletA)), .disconnect]

def lateSwitch : Label :=
  .resume ⟨.switchChain 3 (some walletA), signedIn, 3, 0⟩ (.chain (some LEOPOLD_CHAIN_ID))

/-- The switch opens the session again: it authorizes it, writes the marker, makes it active and
sets the epoch back. -/
theorem switch_revives_session : ∃ s, system.Reachable s ∧
    system.step s lateSwitch (s.next lateSwitch) ∧
    (s.startedAt lateSwitch = some 3 ∧ 3 < s.sessionEpoch ∧
      s.sessionAuthorized = false ∧ (s.next lateSwitch).sessionAuthorized = true ∧
      s.marker = none ∧ (s.next lateSwitch).marker = some walletA ∧
      s.control.intent = .inactive ∧ (s.next lateSwitch).control.intent = .active ∧
      (s.next lateSwitch).control.epoch < s.control.epoch) ∧
    ¬ KeepsEnded s lateSwitch (s.next lateSwitch) := by
  obtain ⟨s, hrun, henabled, h⟩ := exists_of_run loaded (fun _ _ => true)
    disconnectedSwitch (p := fun s => s.Enabled lateSwitch ∧ s.startedAt lateSwitch = some 3 ∧ 3 < s.sessionEpoch ∧
      s.sessionAuthorized = false ∧ (s.next lateSwitch).sessionAuthorized = true ∧
      s.marker = none ∧ (s.next lateSwitch).marker = some walletA ∧
      s.control.intent = .inactive ∧ (s.next lateSwitch).control.intent = .active ∧
      (s.next lateSwitch).control.epoch < s.control.epoch) (by decide +kernel)
  refine ⟨s, reachableVia_run (fun _ _ _ => trivial) (.init ⟨_, _, _, rfl⟩) hrun,
    ⟨henabled, rfl⟩, h, fun hkeeps => ?_⟩
  exact absurd hkeeps.epoch (Nat.not_le_of_lt h.2.2.2.2.2.2.2.2)

end WalletProvider

end Leopold.Frontend
