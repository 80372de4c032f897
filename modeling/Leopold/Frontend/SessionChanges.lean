import Leopold.Frontend.WalletProvider

/-!
# What a step does to a session

The part of the provider that makes up a session, and the few ways in which a step changes it.
Later proofs go through these and never unfold a step.
-/

namespace Leopold.Frontend

/-- Nothing but the phase of an attempt has changed. -/
structure SameSession (control control' : WalletSessionControl) : Prop where
  intent : control'.intent = control.intent
  epoch : control'.epoch = control.epoch
  providerRevision : control'.providerRevision = control.providerRevision
  connectAttemptId : control'.connectAttemptId = control.connectAttemptId
  status : control'.status = control.status ∨
    control.intent = .connecting ∧ control'.status = .connecting

namespace SameSession

variable {a b c : WalletSessionControl}

theorem refl (a : WalletSessionControl) : SameSession a a := ⟨rfl, rfl, rfl, rfl, .inl rfl⟩

theorem trans (hab : SameSession a b) (hbc : SameSession b c) : SameSession a c where
  intent := hbc.intent.trans hab.intent
  epoch := hbc.epoch.trans hab.epoch
  providerRevision := hbc.providerRevision.trans hab.providerRevision
  connectAttemptId := hbc.connectAttemptId.trans hab.connectAttemptId
  status := by
    rcases hbc.status with hsame | ⟨hconnecting, hstatus⟩
    · rw [hsame]
      exact hab.status
    · exact .inr ⟨hab.intent ▸ hconnecting, hstatus⟩

theorem connectPhase {attemptId : String} {phase : WalletConnectPhase}
    {reason : Option WalletSessionReason} :
    SameSession a (walletSessionReducer a (.connectPhase attemptId phase reason)) := by
  simp only [walletSessionReducer]
  split_ifs with hignored
  · exact refl a
  · rw [not_or, not_not, not_not] at hignored
    exact ⟨rfl, rfl, rfl, rfl, .inr ⟨hignored.2, rfl⟩⟩

end SameSession

namespace WalletProvider

/-- The part of the provider that makes up a session. -/
structure Core where
  sessionEpoch : Nat
  sessionAuthorized : Bool
  activeAttempt : Option Attempt
  marker : Option Address
  control : WalletSessionControl

variable (s : WalletProvider)

def core : Core where
  sessionEpoch := s.sessionEpoch
  sessionAuthorized := s.sessionAuthorized
  activeAttempt := s.activeAttempt
  marker := s.marker
  control := s.control

/-- The step goes on with this attempt. -/
inductive Continues : Label → Attempt → Prop
  | connect {flow : Flow} {reply : Reply} {attempt : Attempt} {continued : Bool}
      (h : flow.work = .connect attempt continued) : Continues (.resume flow reply) attempt
  | restore {flow : Flow} {reply : Reply} {attempt : Attempt} (h : flow.work = .restore attempt) :
      Continues (.resume flow reply) attempt
  | verifyRuntime {auth : AuthView} {attemptId : String}
      (hcontrol : s.rendered.control.intent = .connecting) :
      Continues (.verifyRuntime auth) ⟨attemptId, s.rendered.control.epoch⟩

/-- The revision a completed attempt carries. -/
inductive Carries : Label → Nat → Prop
  | asked {flow : Flow} {attempt : Attempt} {continued : Bool} {account : Address}
      {chainId : Option Nat} {revision : Nat} (h : flow.work = .connect attempt continued) :
      Carries (.resume flow (.connected account chainId revision)) revision
  | current {flow : Flow} {reply : Reply} {attempt : Attempt} (h : flow.work = .restore attempt) :
      Carries (.resume flow reply) s.provider.revision
  | observed {auth : AuthView} (hcontrol : s.rendered.control.intent = .connecting) :
      Carries (.verifyRuntime auth) s.rendered.provider.revision

/-- The provider was rendered on a network the session was not rendered for. -/
def NetworkMoved : Prop :=
  s.rendered.provider.chainId ≠ some LEOPOLD_CHAIN_ID ∧
      s.rendered.control.status ≠ .wrongNetwork ∨
    s.rendered.provider.chainId = some LEOPOLD_CHAIN_ID ∧
      s.rendered.control.status = .wrongNetwork ∧ s.rendered.snapshot.runtimeAligned = true

/-- A step that opens an active session and has not looked at the epoch since its operation
began. -/
inductive Reopens : Label → Prop
  | switched {flow : Flow} {epoch : Nat} {account : Option Address} {chainId : Option Nat}
      (hwork : flow.work = .switchChain epoch account)
      (haccount : walletsMatch account flow.auth.financialWallet = true)
      (hchain : chainId = some LEOPOLD_CHAIN_ID) : Reopens (.resume flow (.chain chainId))
  | observed {auth : AuthView} (hknown : s.rendered.provider.accountKnown = true)
      (hintent : s.rendered.control.intent = .active)
      (hrevision : s.rendered.control.providerRevision = some s.rendered.provider.revision)
      (haccount : walletsMatch s.rendered.provider.activeAccount auth.financialWallet = true)
      (hnetwork : s.NetworkMoved) : Reopens (.observeProvider auth)

/-- The ways in which a step changes a session. -/
inductive Change (label : Label) : Core → Prop
  /-- At most the phase of an attempt changes. -/
  | quiet {control : WalletSessionControl} (h : SameSession s.control control) :
      Change label { s.core with control }
  /-- `switchToSepolia` begins. -/
  | bumped : Change label { s.core with sessionEpoch := s.sessionEpoch + 1 }
  /-- The session ends. -/
  | ended {activeAttempt : Option Attempt} {marker : Option Address}
      {status : WalletSessionState} {reason : WalletSessionReason}
      (hattempt : activeAttempt = none ∨ activeAttempt = s.activeAttempt)
      (hmarker : marker = none ∨ marker = s.marker) :
      Change label {
        sessionEpoch := s.sessionEpoch + 1
        sessionAuthorized := false
        activeAttempt
        marker
        control := deactivate status reason (s.sessionEpoch + 1) }
  /-- An attempt takes too long. -/
  | timedOut {control : WalletSessionControl}
      (hintent : s.rendered.control.intent = .connecting)
      (hcontrol : control = s.control ∨
        ∃ status reason, control = deactivate status reason (s.sessionEpoch + 1)) :
      Change label {
        sessionEpoch := s.sessionEpoch + 1
        sessionAuthorized := s.sessionAuthorized
        activeAttempt := none
        marker := none
        control }
  /-- An attempt starts. -/
  | started {attemptId : String} {origin : ConnectOrigin} {now : Nat}
      {control : WalletSessionControl}
      (h : SameSession (startAttempt origin attemptId now (s.sessionEpoch + 1)) control)
      (hlabel : (∃ auth now, label = .connect auth now) ∨ ∃ auth now, label = .bootstrap auth now) :
      Change label {
        sessionEpoch := s.sessionEpoch + 1
        sessionAuthorized := false
        activeAttempt := some ⟨attemptId, s.sessionEpoch + 1⟩
        marker := s.marker
        control }
  /-- The active attempt fails at the wallet. -/
  | failed {attempt : Attempt} {reason : WalletSessionReason}
      (hactive : s.isActive attempt = true) :
      Change label { s.core with
        activeAttempt := none
        marker := none
        control := walletSessionReducer s.control
          (.connectFailed reason attempt.attemptId attempt.epoch) }
  /-- The active attempt is completed, on the right network or on a wrong one. -/
  | completed {attempt : Attempt} {account : Address} {revision : Nat}
      {control : WalletSessionControl} {connected : Bool}
      (hactive : s.isActive attempt = true) (hcontinues : Continues s label attempt)
      (hcarries : Carries s label revision) (hsame : SameSession s.control control) :
      Change label { s.core with
        sessionAuthorized := connected
        activeAttempt := none
        marker := some account
        control := walletSessionReducer control
          (if connected then .connected (some attempt.attemptId) revision (some attempt.epoch)
          else .wrongNetwork (some attempt.attemptId) revision (some attempt.epoch)) }
  /-- An active session is seen on a wrong network, by the observation or by a check. -/
  | leftNetwork {revision : Nat}
      (h : (∃ auth, label = .observeProvider auth ∧ Reopens s label ∧
          revision = s.rendered.provider.revision) ∨
        ∃ flow reply, label = .resume flow reply ∧ flow.work = .check s.sessionEpoch ∧
          revision = s.provider.revision) :
      Change label { s.core with
        sessionEpoch := s.sessionEpoch + 1
        sessionAuthorized := false
        control := walletSessionReducer s.control
          (.wrongNetwork none revision (some (s.sessionEpoch + 1))) }
  /-- The observation sees an active session back on the right network. -/
  | returned {auth : AuthView} (hlabel : label = .observeProvider auth)
      (h : Reopens s label) :
      Change label { s.core with
        sessionEpoch := s.sessionEpoch + 1
        sessionAuthorized := true
        control := walletSessionReducer s.control
          (.connected none s.rendered.provider.revision (some (s.sessionEpoch + 1))) }
  /-- `switchToSepolia` ends on the right network. -/
  | switched {flow : Flow} {reply : Reply} {epoch : Nat} {account : Option Address}
      (hlabel : label = .resume flow reply) (hwork : flow.work = .switchChain epoch account)
      (h : Reopens s label) :
      Change label { s.core with
        sessionAuthorized := true
        marker := account
        control := walletSessionReducer s.control
          (.connected none s.provider.revision (some epoch)) }

section Pieces

variable {s} {label : Label} {auth : AuthView} {attempt : Attempt}

theorem isActive_iff :
    s.isActive attempt = true ↔ s.sessionEpoch = attempt.epoch ∧ s.activeAttempt = some attempt := by
  simp [isActive]

theorem Change.refl : Change s label s.core := .quiet (.refl _)

theorem Change.phase {attemptId : String} {phase : WalletConnectPhase}
    {reason : Option WalletSessionReason} :
    Change s label (s.dispatch (.connectPhase attemptId phase reason)).core :=
  .quiet .connectPhase

theorem Change.invalidate {reason : WalletSessionReason} :
    Change s label (s.invalidateSession reason).core :=
  .ended (.inl rfl) (.inl rfl)

/-- Completing an attempt of which at most the phase has moved on. -/
theorem Change.complete {control : WalletSessionControl} {account : Address}
    {chainId : Option Nat} {revision : Nat} (hsame : SameSession s.control control)
    (hcontinues : Continues s label attempt) (hcarries : Carries s label revision) :
    Change s label ({ s with control }.completeAttemptFromObservations auth attempt account chainId
      revision).core := by
  unfold completeAttemptFromObservations
  split_ifs with hstale hother hchain halign
  · exact .quiet hsame
  · exact .quiet (hsame.trans .connectPhase)
  · have hactive : { s with control }.isActive attempt = true := by simpa using hstale
    exact @Change.completed _ _ _ _ _ _ false hactive hcontinues hcarries hsame
  · exact .quiet (hsame.trans .connectPhase)
  · have hactive : { s with control }.isActive attempt = true := by simpa using hstale
    exact @Change.completed _ _ _ _ _ _ true hactive hcontinues hcarries (hsame.trans .connectPhase)

theorem Change.runConnectAttempt {continued : Bool} :
    Change s label (s.runConnectAttempt auth attempt continued).core :=
  .quiet .connectPhase

theorem Change.connect {now : Nat} :
    Change s (.connect auth now) (s.connectVerifiedWallet auth now).core := by
  unfold connectVerifiedWallet
  split
  · exact .refl
  · split
    · split
      · exact .runConnectAttempt
      · exact .started .connectPhase (.inl ⟨_, _, rfl⟩)
    · exact .started .connectPhase (.inl ⟨_, _, rfl⟩)

theorem Change.bootstrap {now : Nat} :
    Change s (.bootstrap auth now) (s.bootstrap auth now).core := by
  unfold WalletProvider.bootstrap
  dsimp only
  split_ifs with hloading hsame hincomplete hout hwallet hnone hmarker
  · exact .refl
  · exact .refl
  · exact .ended (.inr rfl) (.inr rfl)
  · exact .ended (.inr rfl) (.inl rfl)
  · exact .ended (.inr rfl) (.inl rfl)
  · exact .ended (.inr rfl) (.inl rfl)
  · exact .ended (.inr rfl) (.inl rfl)
  · exact .started (.refl _) (.inr ⟨_, _, rfl⟩)

theorem Change.switchToSepolia : Change s label (s.switchToSepolia auth).core := by
  unfold WalletProvider.switchToSepolia
  split_ifs
  · exact .refl
  · exact .bumped

theorem Change.requireConnected :
    Change s label (s.requireConnectedFinancialSession auth).core := by
  unfold requireConnectedFinancialSession
  split_ifs
  · exact .refl
  · exact .refl

theorem Change.connectTimeout : Change s label s.connectTimeout.core := by
  unfold WalletProvider.connectTimeout
  split
  · exact .refl
  · split
    · exact .refl
    · rename_i hnot
      rw [not_or, not_not] at hnot
      refine .timedOut hnot.1 ?_
      dsimp only [dispatch]
      split
      · exact .inr ⟨_, _, rfl⟩
      · simp only [walletSessionReducer]
        split
        · exact .inl rfl
        · exact .inr ⟨_, _, rfl⟩

/-- The observation of an active session. -/
theorem Change.observeActive (hknown : s.rendered.provider.accountKnown = true)
    (hintent : s.rendered.control.intent = .active) :
    Change s (.observeProvider auth) (s.observeActive auth).core := by
  unfold WalletProvider.observeActive
  dsimp only
  split_ifs with hrevision hnone hother haway hback
  · exact .invalidate
  · exact .invalidate
  · exact .invalidate
  · exact .leftNetwork (.inl ⟨auth, rfl, .observed hknown hintent (not_not.1 hrevision)
      (by simpa using hother) (.inl haway), rfl⟩)
  · exact .returned rfl (.observed hknown hintent (not_not.1 hrevision) (by simpa using hother)
      (.inr hback))
  · exact .refl

theorem Change.observeProvider :
    Change s (.observeProvider auth) (s.observeProvider auth).core := by
  unfold WalletProvider.observeProvider
  split
  · exact .refl
  · rename_i hknown
    rw [not_or, Bool.not_eq_false] at hknown
    split
    · rename_i hintent
      exact .observeActive hknown.2 hintent
    · unfold observeConnecting
      dsimp only
      split
      · exact .refl
      · split
        · exact .quiet .connectPhase
        · exact .refl
    · exact .refl

theorem Change.verifyRuntime : Change s (.verifyRuntime auth) (s.verifyRuntime auth).core := by
  unfold WalletProvider.verifyRuntime
  dsimp only
  split
  · split
    · exact .refl
    · rename_i hnot
      rw [not_or, not_not] at hnot
      exact .complete (.refl _) (.verifyRuntime hnot.1) (.observed hnot.1)
  · exact .refl

/-- The continuations after an await. -/
theorem Change.resume {flow : Flow} {reply : Reply} :
    Change s (.resume flow reply) (s.resume flow reply).core := by
  unfold WalletProvider.resume
  split
  · rename_i attempt continued account chainId revision hwork
    have hfinish : Change s (.resume flow (.connected account chainId revision))
        (s.finishConnectAttempt flow.auth attempt account chainId revision).core := by
      unfold finishConnectAttempt
      split
      · exact .refl
      · exact .complete .connectPhase (.connect hwork) (.asked hwork)
    unfold settle
    split
    · exact hfinish
    · exact hfinish
  · rename_i attempt continued failure hwork
    have hfinish : Change s (.resume flow (.connectFailed failure))
        (s.failConnectAttempt attempt failure).core := by
      unfold failConnectAttempt
      split
      · exact .refl
      · rename_i hactive
        split
        · exact .phase
        · exact .failed (by simpa using hactive)
    unfold settle
    split
    · exact hfinish
    · exact hfinish
  · rename_i attempt account chainId hwork
    unfold finishRestore
    split
    · exact .refl
    · split
      · exact .invalidate
      · exact .invalidate
      · split
        · exact .invalidate
        · exact .complete (.refl _) (.restore hwork) (.current hwork)
  · unfold finishRestore
    split
    · exact .refl
    · exact .invalidate
  · split
    · exact .refl
    · exact .refl
  · exact .refl
  · rename_i epoch account chainId hwork
    unfold finishSwitch
    split
    · exact .invalidate
    · rename_i hother
      split
      · exact .refl
      · rename_i hchain
        exact .switched rfl hwork (.switched hwork (by simpa using hother) (not_not.1 hchain))
  · rename_i epoch account chainId hwork
    unfold continueCheck
    split_ifs with hstale
    · exact .refl
    · exact .invalidate
    · exact .invalidate
    · rw [← not_not.1 hstale] at hwork
      exact .leftNetwork (.inr ⟨flow, _, rfl, hwork, rfl⟩)
    · exact .refl
    · exact .refl
    · exact .refl
    · exact .refl
  · exact .refl

end Pieces

theorem Reopens.of_flows {s : WalletProvider} {flows : List Flow} {label : Label}
    (h : Reopens { s with flows } label) : Reopens s label := by
  cases h with
  | switched hwork haccount hchain => exact .switched hwork haccount hchain
  | observed hknown hintent hrevision haccount hnetwork =>
    exact .observed hknown hintent hrevision haccount hnetwork

/-- A change does not look at the work in flight. -/
theorem Change.of_flows {s : WalletProvider} {flows : List Flow} {label : Label} {core : Core}
    (h : Change { s with flows } label core) : Change s label core := by
  cases h with
  | quiet h => exact .quiet h
  | bumped => exact .bumped
  | ended hattempt hmarker => exact .ended hattempt hmarker
  | timedOut hintent hcontrol => exact .timedOut hintent hcontrol
  | started h hlabel => exact .started h hlabel
  | failed hactive => exact .failed hactive
  | completed hactive hcontinues hcarries hsame =>
    refine .completed hactive ?_ ?_ hsame
    · cases hcontinues with
      | connect h => exact .connect h
      | restore h => exact .restore h
      | verifyRuntime h => exact .verifyRuntime h
    · cases hcarries with
      | asked h => exact .asked h
      | current h => exact .current (s := s) h
      | observed h => exact .observed (s := s) h
  | leftNetwork h =>
    exact .leftNetwork (h.imp_left fun ⟨auth, hlabel, h, hrevision⟩ =>
      ⟨auth, hlabel, h.of_flows, hrevision⟩)
  | returned hlabel h => exact .returned hlabel h.of_flows
  | switched hlabel hwork h => exact .switched hlabel hwork h.of_flows

/-- Every step changes a session in one of these ways. -/
theorem change_next (s : WalletProvider) (label : Label) : Change s label (s.next label).core := by
  cases label with
  | commit => exact .refl
  | network => exact .refl
  | render => exact .refl
  | bootstrap => exact .bootstrap
  | connect => exact .connect
  | disconnect => exact .invalidate
  | switchToSepolia => exact .switchToSepolia
  | requireConnected => exact .requireConnected
  | connectTimeout => exact .connectTimeout
  | observeProvider => exact .observeProvider
  | verifyRuntime => exact .verifyRuntime
  | resume flow reply => exact Change.resume.of_flows

/-! ### Steps that replace a session -/

/-- What an operation of the present epoch has read ends the session or sends it to a wrong
network; the end of a switch does not look at the epoch. -/
def Rejects (flow : Flow) (reply : Reply) : Prop :=
  match flow.work, reply with
  | .restore attempt, .failed => s.sessionEpoch = attempt.epoch
  | .restore attempt, .refreshed account _ =>
    s.sessionEpoch = attempt.epoch ∧ walletsMatch account flow.auth.financialWallet = false
  | .switchChain _ account, .chain _ => walletsMatch account flow.auth.financialWallet = false
  | .check epoch, .refreshed account chainId =>
    s.sessionEpoch = epoch ∧
      (walletsMatch account flow.auth.financialWallet = false ∨ chainId ≠ some LEOPOLD_CHAIN_ID)
  | _, _ => False

/-- The step ends the session or puts another one in its place. -/
def Replaces : Label → Prop
  | .disconnect => True
  | .connect auth _ =>
    auth.accountStatus = .signedInReady ∧ auth.financialWallet ≠ none ∧
      (s.rendered.control.connectAttemptId = none ∨ s.rendered.control.intent ≠ .connecting)
  | .bootstrap auth _ =>
    auth.clientReady = true ∧ auth.accountStatus ≠ .authLoading ∧ auth.metadataStatus ≠ .loading ∧
      s.bootstrapKey ≠ some auth.bootstrapKey
  | .switchToSepolia _ =>
    s.rendered.snapshot.status = .wrongNetwork ∧ s.rendered.snapshot.intent = .active
  | .connectTimeout =>
    s.rendered.control.intent = .connecting ∧ s.rendered.control.connectStartedAt ≠ none ∧
      ∃ attempt, s.activeAttempt = some attempt ∧
        s.rendered.control.connectAttemptId = some attempt.attemptId
  | .observeProvider auth =>
    auth.financialWallet ≠ none ∧ s.rendered.provider.accountKnown = true ∧
      s.rendered.control.intent = .active ∧
      (s.rendered.control.providerRevision ≠ some s.rendered.provider.revision ∨
        walletsMatch s.rendered.provider.activeAccount auth.financialWallet = false ∨
        s.NetworkMoved)
  | .resume flow reply => s.Rejects flow reply
  | _ => False

section Epoch

variable {s} {label : Label} {auth : AuthView}

theorem epoch_complete {attempt : Attempt} {account : Address} {chainId : Option Nat}
    {revision : Nat} :
    (s.completeAttemptFromObservations auth attempt account chainId revision).sessionEpoch =
      s.sessionEpoch := by
  unfold completeAttemptFromObservations
  split_ifs <;> rfl

theorem epoch_observeProvider (h : ¬ s.Replaces (.observeProvider auth)) :
    (s.observeProvider auth).sessionEpoch = s.sessionEpoch := by
  unfold WalletProvider.observeProvider
  split
  · rfl
  · rename_i hknown
    rw [not_or, Bool.not_eq_false, Option.isNone_iff_eq_none] at hknown
    split
    · rename_i hintent
      have hkept : ¬ (_ ∨ _ ∨ _) := fun hmoved => h ⟨hknown.1, hknown.2, hintent, hmoved⟩
      rw [not_or, not_or, not_not, Bool.not_eq_false] at hkept
      obtain ⟨hrevision, haccount, hnetwork⟩ := hkept
      obtain ⟨_, hsome, -⟩ := walletsMatch_iff.1 haccount
      unfold observeActive
      dsimp only
      rw [if_neg (not_not.2 hrevision), if_neg (by simp [hsome]), if_neg (by simp [haccount]),
        if_neg (fun haway => hnetwork (.inl haway)), if_neg (fun hback => hnetwork (.inr hback))]
    · unfold observeConnecting
      dsimp only
      split
      · rfl
      · split <;> rfl
    · rfl

theorem epoch_resume {flow : Flow} {reply : Reply} (h : ¬ s.Rejects flow reply) :
    (s.resume flow reply).sessionEpoch = s.sessionEpoch := by
  have hsettle : ∀ (t : WalletProvider) (continued : Bool),
      (t.settle continued).sessionEpoch = t.sessionEpoch := by
    intro t continued
    unfold settle
    split <;> rfl
  unfold WalletProvider.resume
  unfold Rejects at h
  split
  · rw [hsettle]
    unfold finishConnectAttempt
    split
    · rfl
    · exact epoch_complete
  · rw [hsettle]
    unfold failConnectAttempt
    split_ifs <;> rfl
  · rename_i attempt account chainId hwork
    rw [hwork] at h
    unfold finishRestore
    split
    · rfl
    · rename_i hnow
      rw [not_not] at hnow
      have haccount : walletsMatch account flow.auth.financialWallet = true := by
        by_contra hother
        exact h ⟨hnow, by simpa using hother⟩
      cases account with
      | none => cases haccount
      | some account =>
        dsimp only
        rw [if_neg (by simp [haccount])]
        exact epoch_complete
  · rename_i attempt hwork
    rw [hwork] at h
    exact congrArg sessionEpoch (if_pos h)
  · split <;> rfl
  · rfl
  · rename_i epoch account chainId hwork
    rw [hwork] at h
    unfold finishSwitch
    rw [if_neg (by simpa using h)]
    split <;> rfl
  · rename_i epoch account chainId hwork
    rw [hwork] at h
    unfold continueCheck
    split
    · rfl
    · rename_i hnow
      rw [not_not] at hnow
      have hkept : ¬ (_ ∨ _) := fun hrejected => h ⟨hnow, hrejected⟩
      rw [not_or, not_not, Bool.not_eq_false] at hkept
      obtain ⟨haccount, hchain⟩ := hkept
      obtain ⟨_, rfl, -⟩ := walletsMatch_iff.1 haccount
      rw [if_neg (by simp), if_neg (by simp [haccount]), if_neg (not_not.2 hchain)]
      split_ifs <;> rfl
  · rfl

/-- A step that does not replace the session leaves its epoch as it was. -/
theorem epoch_next_of_not_replaces (h : ¬ s.Replaces label) :
    (s.next label).sessionEpoch = s.sessionEpoch := by
  cases label with
  | commit | network | render => rfl
  | disconnect => exact absurd trivial h
  | bootstrap auth now =>
    show (s.bootstrap auth now).sessionEpoch = _
    unfold WalletProvider.bootstrap
    by_cases hready : ¬ auth.clientReady = true ∨ auth.accountStatus = .authLoading ∨
        auth.metadataStatus = .loading
    · rw [if_pos (by simpa using hready)]
    · rw [not_or, not_or, not_not] at hready
      rw [if_neg (by simpa using hready), if_pos]
      by_contra hkey
      exact h ⟨hready.1, hready.2.1, hready.2.2, hkey⟩
  | connect auth now =>
    show (s.connectVerifiedWallet auth now).sessionEpoch = _
    unfold connectVerifiedWallet
    split
    · rfl
    · rename_i hready
      rw [not_or, not_not, Option.isNone_iff_eq_none] at hready
      have hkept : ¬ (_ ∨ _) := fun hstarts => h ⟨hready.1, hready.2, hstarts⟩
      rw [not_or, not_not] at hkept
      split
      · rw [if_pos hkept.2]
        rfl
      · rename_i hnone
        exact absurd hnone hkept.1
  | switchToSepolia auth =>
    refine congrArg sessionEpoch (if_pos ?_)
    by_contra hwrong
    rw [not_or, not_not, not_not] at hwrong
    exact h hwrong
  | requireConnected auth =>
    show (s.requireConnectedFinancialSession auth).sessionEpoch = _
    unfold requireConnectedFinancialSession
    split <;> rfl
  | connectTimeout =>
    show s.connectTimeout.sessionEpoch = _
    unfold WalletProvider.connectTimeout
    split
    · rfl
    · rename_i attemptId hid
      refine congrArg sessionEpoch (if_pos ?_)
      by_contra hopen
      simp only [not_or, not_not, Option.map_eq_some_iff, Option.isNone_iff_eq_none] at hopen
      obtain ⟨hintent, hstarted, attempt, hattempt, rfl⟩ := hopen
      exact h ⟨hintent, hstarted, attempt, hattempt, hid⟩
  | observeProvider => exact epoch_observeProvider h
  | verifyRuntime auth =>
    show (s.verifyRuntime auth).sessionEpoch = _
    unfold WalletProvider.verifyRuntime
    dsimp only
    split
    · split
      · rfl
      · exact epoch_complete
    · rfl
  | resume flow reply =>
    exact epoch_resume (s := { s with flows := s.flows.erase flow }) h

end Epoch

/-! ### What is outside a session -/

/-- The check goes on to its probe after these reads. -/
structure GoesOn (flow : Flow) (account : Option Address) (chainId : Option Nat) : Prop where
  work : flow.work = .check s.sessionEpoch
  wallet : walletsMatch account flow.auth.financialWallet = true
  chain : chainId = some LEOPOLD_CHAIN_ID
  wagmi : walletsMatch s.rendered.inputs.runtime.wagmiAccount account = true
  walletClient : walletsMatch s.rendered.inputs.runtime.walletClientAccount account = true
  aligned : walletSessionRuntimeAligned s.rendered.snapshot = true

/-- Work that a step puts in flight; after it the session has this epoch. -/
inductive Suspends (label : Label) (epoch : Nat) : Flow → Prop
  | connect {auth : AuthView} {attempt : Attempt} {continued : Bool}
      (h : epoch = s.sessionEpoch + 1 ∧ attempt.epoch = epoch ∨
        epoch = s.sessionEpoch ∧ attempt.epoch = s.rendered.control.epoch) :
      Suspends label epoch ⟨.connect attempt continued, auth, epoch, s.provider.revision⟩
  | restore {auth : AuthView} {attemptId : String} (h : epoch = s.sessionEpoch + 1) :
      Suspends label epoch ⟨.restore ⟨attemptId, epoch⟩, auth, epoch, s.provider.revision⟩
  | switchNetwork {auth : AuthView} (hlabel : label = .switchToSepolia auth)
      (h : epoch = s.sessionEpoch + 1) :
      Suspends label epoch ⟨.switchNetwork epoch, auth, epoch, s.provider.revision⟩
  | switchAccount {flow : Flow} {reply : Reply} {startedAt : Nat}
      (hlabel : label = .resume flow reply) (hwork : flow.work = .switchNetwork startedAt) :
      Suspends label epoch { flow with work := .switchAccount startedAt }
  | switchChain {flow : Flow} {reply : Reply} {startedAt : Nat} {account : Option Address}
      (hlabel : label = .resume flow reply) (hwork : flow.work = .switchAccount startedAt) :
      Suspends label epoch { flow with work := .switchChain startedAt account }
  | check {auth : AuthView} (hlabel : label = .requireConnected auth)
      (hauthorized : s.sessionAuthorized = true)
      (hrevision : s.rendered.control.providerRevision = some s.provider.revision)
      (hstatus : s.rendered.snapshot.status = .connected) (h : epoch = s.sessionEpoch) :
      Suspends label epoch ⟨.check epoch, auth, epoch, s.provider.revision⟩
  | probe {flow : Flow} {account : Option Address} {chainId : Option Nat}
      (hlabel : label = .resume flow (.refreshed account chainId))
      (hreads : s.GoesOn flow account chainId) (h : epoch = s.sessionEpoch) :
      Suspends label epoch { flow with work := .probe epoch s.rendered.snapshot }

/-- Only the work in flight changes outside the session. -/
structure SameOutside (label : Label) (t : WalletProvider) : Prop where
  provider : t.provider = s.provider
  rendered : t.rendered = s.rendered
  flows : ∀ flow ∈ t.flows, flow ∈ s.flows ∨ Suspends s label t.sessionEpoch flow

section Outside

variable {s} {label : Label} {auth : AuthView} {attempt : Attempt}

theorem SameOutside.of_eq {t : WalletProvider} (hprovider : t.provider = s.provider)
    (hrendered : t.rendered = s.rendered) (hflows : t.flows = s.flows) : SameOutside s label t :=
  ⟨hprovider, hrendered, fun _ h => .inl (hflows ▸ h)⟩

theorem SameOutside.refl : SameOutside s label s := .of_eq rfl rfl rfl

theorem SameOutside.push {flow : Flow} {t : WalletProvider} (hprovider : t.provider = s.provider)
    (hrendered : t.rendered = s.rendered) (hflows : t.flows = flow :: s.flows)
    (h : Suspends s label t.sessionEpoch flow) : SameOutside s label t := by
  refine ⟨hprovider, hrendered, fun other hother => ?_⟩
  rw [hflows] at hother
  rcases List.mem_cons.1 hother with rfl | hold
  · exact .inr h
  · exact .inl hold

theorem outside_complete {control : WalletSessionControl} {account : Address}
    {chainId : Option Nat} {revision : Nat} :
    SameOutside s label ({ s with control }.completeAttemptFromObservations auth attempt account
      chainId revision) := by
  unfold completeAttemptFromObservations
  split_ifs <;> exact .of_eq rfl rfl rfl

theorem outside_connect {now : Nat} :
    SameOutside s (.connect auth now) (s.connectVerifiedWallet auth now) := by
  unfold connectVerifiedWallet
  split
  · exact .refl
  · split
    · split
      · exact .push rfl rfl rfl (.connect (.inr ⟨rfl, rfl⟩))
      · exact .push rfl rfl rfl (.connect (.inl ⟨rfl, rfl⟩))
    · exact .push rfl rfl rfl (.connect (.inl ⟨rfl, rfl⟩))

theorem outside_bootstrap {now : Nat} :
    SameOutside s (.bootstrap auth now) (s.bootstrap auth now) := by
  unfold WalletProvider.bootstrap
  dsimp only
  split_ifs
  · exact .refl
  · exact .refl
  · exact .of_eq rfl rfl rfl
  · exact .of_eq rfl rfl rfl
  · exact .of_eq rfl rfl rfl
  · exact .of_eq rfl rfl rfl
  · exact .of_eq rfl rfl rfl
  · exact .push rfl rfl rfl (.restore rfl)

theorem outside_switchToSepolia :
    SameOutside s (.switchToSepolia auth) (s.switchToSepolia auth) := by
  unfold WalletProvider.switchToSepolia
  split
  · exact .refl
  · exact .push rfl rfl rfl (.switchNetwork rfl rfl)

theorem outside_requireConnected :
    SameOutside s (.requireConnected auth) (s.requireConnectedFinancialSession auth) := by
  unfold requireConnectedFinancialSession
  split
  · exact .refl
  · rename_i hready
    simp only [not_or, not_not, ne_eq, Bool.not_eq_false] at hready
    obtain ⟨-, -, hauthorized, hrevision, hstatus, -⟩ := hready
    exact .push rfl rfl rfl (.check rfl hauthorized hrevision hstatus rfl)

theorem outside_connectTimeout : SameOutside s label s.connectTimeout := by
  unfold WalletProvider.connectTimeout
  split
  · exact .refl
  · split
    · exact .refl
    · exact .of_eq rfl rfl rfl

theorem outside_observeProvider :
    SameOutside s (.observeProvider auth) (s.observeProvider auth) := by
  unfold WalletProvider.observeProvider
  split
  · exact .refl
  · split
    · unfold observeActive
      dsimp only
      split_ifs <;> exact .of_eq rfl rfl rfl
    · unfold observeConnecting
      dsimp only
      split
      · exact .refl
      · split
        · exact .push rfl rfl rfl (.connect (.inr ⟨rfl, rfl⟩))
        · exact .refl
    · exact .refl

theorem outside_verifyRuntime : SameOutside s label (s.verifyRuntime auth) := by
  unfold WalletProvider.verifyRuntime
  dsimp only
  split
  · split
    · exact .refl
    · exact outside_complete
  · exact .refl

theorem SameOutside.settle {t : WalletProvider} {continued : Bool} (h : SameOutside s label t) :
    SameOutside s label (t.settle continued) := by
  unfold WalletProvider.settle
  split
  · exact ⟨h.provider, h.rendered, h.flows⟩
  · exact h

theorem outside_resume {flow : Flow} {reply : Reply} :
    SameOutside s (.resume flow reply) (s.resume flow reply) := by
  unfold WalletProvider.resume
  split
  · refine .settle ?_
    unfold finishConnectAttempt
    split
    · exact .refl
    · exact outside_complete
  · refine .settle ?_
    unfold failConnectAttempt
    split_ifs <;> exact .of_eq rfl rfl rfl
  · unfold finishRestore
    split
    · exact .refl
    · split
      · exact .of_eq rfl rfl rfl
      · exact .of_eq rfl rfl rfl
      · split
        · exact .of_eq rfl rfl rfl
        · exact outside_complete
  · unfold finishRestore
    split
    · exact .refl
    · exact .of_eq rfl rfl rfl
  · rename_i hwork
    split
    · exact .refl
    · exact .push rfl rfl rfl (.switchAccount rfl hwork)
  · rename_i hwork
    exact .push rfl rfl rfl (.switchChain rfl hwork)
  · unfold finishSwitch
    split_ifs <;> exact .of_eq rfl rfl rfl
  · rename_i epoch account chainId hwork
    unfold continueCheck
    split_ifs with hstale hnone hother hchain hwagmi hclient haligned
    · exact .refl
    · exact .of_eq rfl rfl rfl
    · exact .of_eq rfl rfl rfl
    · exact .of_eq rfl rfl rfl
    · exact .refl
    · exact .refl
    · exact .refl
    · obtain rfl := not_not.1 hstale
      exact .push rfl rfl rfl (.probe rfl ⟨hwork, by simpa using hother, not_not.1 hchain,
        by simpa using hwagmi, by simpa using hclient, by simpa using haligned⟩ rfl)
  · exact .refl

theorem SameOutside.of_flows {flows : List Flow} {t : WalletProvider}
    (hflows : ∀ flow ∈ flows, flow ∈ s.flows) (h : SameOutside { s with flows } label t) :
    SameOutside s label t := by
  refine ⟨h.provider, h.rendered, fun flow hflow => ?_⟩
  rcases h.flows flow hflow with hold | hnew
  · exact .inl (hflows flow hold)
  · right
    cases hnew with
    | connect h => exact .connect h
    | restore h => exact .restore h
    | switchNetwork hlabel h => exact .switchNetwork hlabel h
    | switchAccount hlabel hwork => exact .switchAccount hlabel hwork
    | switchChain hlabel hwork => exact .switchChain hlabel hwork
    | check hlabel hauthorized hrevision hstatus h =>
      exact .check hlabel hauthorized hrevision hstatus h
    | probe hlabel hreads h =>
      exact .probe hlabel ⟨hreads.work, hreads.wallet, hreads.chain, hreads.wagmi,
        hreads.walletClient, hreads.aligned⟩ h

/-- Outside the session a step is a commit, a network event, a render, or puts work in flight. -/
theorem outside_next (s : WalletProvider) (label : Label) :
    (∃ account, label = .commit account ∧
      s.next label = { s with provider := commitProviderAccount s.provider account }) ∨
    (∃ chainId, label = .network chainId ∧ s.next label = { s with activeNetworkId := chainId }) ∨
    (∃ auth available runtime health, label = .render auth available runtime health ∧
      s.next label = s.render auth available runtime health) ∨
    SameOutside s label (s.next label) := by
  cases label with
  | commit account => exact .inl ⟨account, rfl, rfl⟩
  | network chainId => exact .inr (.inl ⟨chainId, rfl, rfl⟩)
  | render auth available runtime health =>
    exact .inr (.inr (.inl ⟨auth, available, runtime, health, rfl, rfl⟩))
  | bootstrap => exact .inr (.inr (.inr outside_bootstrap))
  | connect => exact .inr (.inr (.inr outside_connect))
  | disconnect => exact .inr (.inr (.inr (.of_eq rfl rfl rfl)))
  | switchToSepolia => exact .inr (.inr (.inr outside_switchToSepolia))
  | requireConnected => exact .inr (.inr (.inr outside_requireConnected))
  | connectTimeout => exact .inr (.inr (.inr outside_connectTimeout))
  | observeProvider => exact .inr (.inr (.inr outside_observeProvider))
  | verifyRuntime => exact .inr (.inr (.inr outside_verifyRuntime))
  | resume flow reply =>
    exact .inr (.inr (.inr (.of_flows (fun _ h => List.mem_of_mem_erase h) outside_resume)))

end Outside

end WalletProvider

end Leopold.Frontend
