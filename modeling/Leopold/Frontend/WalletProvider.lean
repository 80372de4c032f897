import Leopold.Frontend.SessionHistory

/-!
# The wallet identity provider

The provider as a step relation.  Its state holds the references of the component, the stored
session marker, the reducer's control, what the last render left in the references that effects
and callbacks read, and the asynchronous work in flight.  Every step is one synchronous piece of
code: a callback up to its first await, the continuation after an await, a timer, a render, or an
event of the wallet.  What an await answers is arbitrary.
-/

namespace Leopold.Frontend

inductive AccountStatus
  | authLoading
  | signedOut
  | signedInProfileIncomplete
  | signedInReady
  deriving DecidableEq, Repr

inductive FinancialWalletMetadataStatus
  | loading
  | unavailable
  | none
  | present
  | error
  deriving DecidableEq, Repr

/-- What a callback captured of the auth provider. -/
structure AuthView where
  clientReady : Bool
  accountStatus : AccountStatus
  providerUserId : Option String
  metadataStatus : FinancialWalletMetadataStatus
  financialWallet : Option Address
  deriving DecidableEq, Repr

namespace AuthView

def initialized (auth : AuthView) : Bool :=
  auth.clientReady && auth.accountStatus = .signedInReady && auth.metadataStatus ≠ .loading

/-- The key under which the bootstrap effect ran. -/
structure BootstrapKey where
  accountStatus : AccountStatus
  providerUserId : Option String
  metadataStatus : FinancialWalletMetadataStatus
  financialWallet : Option Address
  deriving DecidableEq, Repr

def bootstrapKey (auth : AuthView) : BootstrapKey where
  accountStatus := auth.accountStatus
  providerUserId := auth.providerUserId
  metadataStatus := auth.metadataStatus
  financialWallet := auth.financialWallet

end AuthView

structure Attempt where
  attemptId : String
  epoch : Nat
  deriving DecidableEq, Repr

inductive ConnectFailure
  | accountSelectionRequired
  | userCancelled
  | timeout
  | providerUnavailable
  deriving DecidableEq, Repr

/-- What is awaited, with what the continuation captured. -/
inductive Work
  /-- `runConnectAttempt`, at the wallet; continued by the provider observation or not. -/
  | connect (attempt : Attempt) (continued : Bool)
  /-- The bootstrap effect, at its two reads. -/
  | restore (attempt : Attempt)
  /-- `switchToSepolia`, at the switch, then at its two reads. -/
  | switchNetwork (epoch : Nat)
  | switchAccount (epoch : Nat)
  | switchChain (epoch : Nat) (account : Option Address)
  /-- `requireConnectedFinancialSession`, at its two reads, then at the health probe. -/
  | check (epoch : Nat)
  | probe (epoch : Nat) (current : WalletSessionSnapshot)
  deriving DecidableEq, Repr

/-- Work in flight; when its operation began, the session had an epoch and the provider a
revision. -/
structure Flow where
  work : Work
  auth : AuthView
  startedAt : Nat
  revision : Nat
  deriving DecidableEq, Repr

/-- What the last render left in the references, and the epoch of the session then. -/
structure Rendered where
  inputs : WalletSessionInputs
  epoch : Nat
  deriving DecidableEq, Repr

namespace Rendered

variable (rendered : Rendered)

/-- `controlRef.current`. -/
def control : WalletSessionControl := rendered.inputs.control

/-- `providerRef.current`. -/
def provider : ProviderObservation := rendered.inputs.provider

/-- `walletSessionRef.current`. -/
def snapshot : WalletSessionSnapshot := deriveWalletSession rendered.inputs

end Rendered

structure WalletProvider where
  provider : ProviderAccount
  activeNetworkId : Option Nat
  sessionEpoch : Nat
  sessionAuthorized : Bool
  activeAttempt : Option Attempt
  bootstrapKey : Option AuthView.BootstrapKey
  continuation : Option String
  /-- The address of the stored session marker. -/
  marker : Option Address
  control : WalletSessionControl
  rendered : Rendered
  flows : List Flow
  deriving DecidableEq, Repr

namespace WalletProvider

variable (s : WalletProvider)

def dispatch (event : WalletSessionEvent) : WalletProvider :=
  { s with control := walletSessionReducer s.control event }

/-- An await, of an operation that began at this epoch. -/
def suspend (work : Work) (auth : AuthView) (startedAt : Nat) : WalletProvider :=
  { s with flows := ⟨work, auth, startedAt, s.provider.revision⟩ :: s.flows }

def invalidateSession (reason : WalletSessionReason) : WalletProvider :=
  { s with
    sessionEpoch := s.sessionEpoch + 1
    sessionAuthorized := false
    activeAttempt := none
    continuation := none
    marker := none
    control := walletSessionReducer s.control (.invalidate reason (s.sessionEpoch + 1)) }

/-- The attempt is the active one and its epoch is the session's. -/
def isActive (attempt : Attempt) : Bool :=
  s.sessionEpoch == attempt.epoch && s.activeAttempt == some attempt

/-- The runtime of the last render is aligned with an account and a network. -/
def probeAligned (auth : AuthView) (account : Address) (chainId : Option Nat) : Bool :=
  isRuntimeAligned {
    initialized := auth.clientReady
    verifiedFinancialWallet := auth.financialWallet
    control := s.rendered.control
    provider := { s.rendered.provider with
      connected := true, accountKnown := true, activeAccount := some account, chainId }
    runtime := s.rendered.inputs.runtime
    networkHealth := s.rendered.inputs.networkHealth }

def completeAttemptFromObservations (auth : AuthView) (attempt : Attempt) (account : Address)
    (chainId : Option Nat) (providerRevision : Nat) : WalletProvider :=
  if !s.isActive attempt then s
  else if !walletsMatch (some account) auth.financialWallet then
    s.dispatch (.connectPhase attempt.attemptId .waitingForAccountSelection
      (some .accountSelectionRequired))
  else if chainId ≠ some LEOPOLD_CHAIN_ID then
    { s with marker := some account, sessionAuthorized := false, activeAttempt := none }.dispatch
      (.wrongNetwork (some attempt.attemptId) providerRevision (some attempt.epoch))
  else
    let verifying := s.dispatch (.connectPhase attempt.attemptId .verifyingRuntime none)
    if !s.probeAligned auth account chainId then verifying
    else
      { verifying with
        marker := some account, sessionAuthorized := true, activeAttempt := none }.dispatch
        (.connected (some attempt.attemptId) providerRevision (some attempt.epoch))

/-! ### Connecting -/

def runConnectAttempt (auth : AuthView) (attempt : Attempt) (continued : Bool) : WalletProvider :=
  (s.dispatch (.connectPhase attempt.attemptId .syncingProvider none)).suspend
    (.connect attempt continued) auth s.sessionEpoch

/-- The `finally` of a continued attempt. -/
def settle (continued : Bool) : WalletProvider :=
  if continued then { s with continuation := none } else s

def connectFailureReason : ConnectFailure → WalletSessionReason
  | .userCancelled => .connectCancelled
  | .timeout => .connectTimeout
  | .accountSelectionRequired | .providerUnavailable => .providerUnavailable

/-- The rest of `runConnectAttempt` after a failure at the wallet. -/
def failConnectAttempt (attempt : Attempt) (failure : ConnectFailure) : WalletProvider :=
  if !s.isActive attempt then s
  else if failure = .accountSelectionRequired then
    s.dispatch (.connectPhase attempt.attemptId .waitingForAccountSelection
      (some .accountSelectionRequired))
  else
    { s with marker := none, activeAttempt := none }.dispatch
      (.connectFailed (connectFailureReason failure) attempt.attemptId attempt.epoch)

/-- The rest of `runConnectAttempt` after the wallet answered. -/
def finishConnectAttempt (auth : AuthView) (attempt : Attempt) (account : Address)
    (chainId : Option Nat) (providerRevision : Nat) : WalletProvider :=
  if !s.isActive attempt then s
  else
    (s.dispatch (.connectPhase attempt.attemptId .verifyingNetwork none)).completeAttemptFromObservations
      auth attempt account chainId providerRevision

def startConnect (auth : AuthView) (now : Nat) : WalletProvider :=
  let epoch := s.sessionEpoch + 1
  let attemptId := "connect-" ++ toString epoch ++ "-" ++ toString now
  ({ s with
    sessionEpoch := epoch
    sessionAuthorized := false
    activeAttempt := some ⟨attemptId, epoch⟩ }.dispatch
    (.connectStarted attemptId now epoch)).runConnectAttempt auth ⟨attemptId, epoch⟩ false

def connectVerifiedWallet (auth : AuthView) (now : Nat) : WalletProvider :=
  if auth.accountStatus ≠ .signedInReady ∨ auth.financialWallet.isNone then s
  else
    match s.rendered.control.connectAttemptId with
    | some attemptId =>
      if s.rendered.control.intent = .connecting then
        s.runConnectAttempt auth ⟨attemptId, s.rendered.control.epoch⟩ false
      else s.startConnect auth now
    | none => s.startConnect auth now

/-! ### Switching the network -/

def switchToSepolia (auth : AuthView) : WalletProvider :=
  if s.rendered.snapshot.status ≠ .wrongNetwork ∨ s.rendered.snapshot.intent ≠ .active then s
  else
    { s with sessionEpoch := s.sessionEpoch + 1 }.suspend (.switchNetwork (s.sessionEpoch + 1)) auth
      (s.sessionEpoch + 1)

/-- The end of `switchToSepolia`; it does not look at the epoch again. -/
def finishSwitch (auth : AuthView) (epoch : Nat) (account : Option Address)
    (chainId : Option Nat) : WalletProvider :=
  if !walletsMatch account auth.financialWallet then
    s.invalidateSession (if account.isSome then .accountChanged else .providerDisconnected)
  else if chainId ≠ some LEOPOLD_CHAIN_ID then s
  else
    { s with marker := account, sessionAuthorized := true }.dispatch
      (.connected none s.provider.revision (some epoch))

/-! ### Restoring -/

def bootstrap (auth : AuthView) (now : Nat) : WalletProvider :=
  if !auth.clientReady ∨ auth.accountStatus = .authLoading ∨ auth.metadataStatus = .loading then s
  else if s.bootstrapKey = some auth.bootstrapKey then s
  else
    let epoch := s.sessionEpoch + 1
    let s := { s with
      bootstrapKey := some auth.bootstrapKey, sessionEpoch := epoch, sessionAuthorized := false }
    if auth.accountStatus = .signedInProfileIncomplete then
      s.dispatch (.invalidate .noActiveSession epoch)
    else if auth.accountStatus = .signedOut then
      { s with marker := none }.dispatch (.invalidate .noActiveSession epoch)
    else if auth.metadataStatus ≠ .present ∨ auth.financialWallet.isNone then
      { s with marker := none }.dispatch (.invalidate
        (if auth.metadataStatus = FinancialWalletMetadataStatus.none then .financialWalletNotLinked
          else .noActiveSession) epoch)
    else if !walletsMatch s.marker auth.financialWallet then
      { s with marker := none }.dispatch (.invalidate .noActiveSession epoch)
    else
      let attemptId := "restore-" ++ toString epoch ++ "-" ++ toString now
      ({ s with activeAttempt := some ⟨attemptId, epoch⟩ }.dispatch
        (.restoreStarted attemptId now epoch)).suspend (.restore ⟨attemptId, epoch⟩) auth epoch

/-- The continuation of the bootstrap effect; nothing was read where a read failed. -/
def finishRestore (auth : AuthView) (attempt : Attempt)
    (read : Option (Option Address × Option Nat)) : WalletProvider :=
  if s.sessionEpoch ≠ attempt.epoch then s
  else
    match read with
    | none => s.invalidateSession .providerTimeout
    | some (none, _) => s.invalidateSession .providerDisconnected
    | some (some account, chainId) =>
      if !walletsMatch (some account) auth.financialWallet then
        s.invalidateSession .sessionRestoreInvalid
      else
        s.completeAttemptFromObservations auth attempt account chainId s.provider.revision

/-! ### The timers of the effects

A render clears the timers of the renders before it, so a timer reads what the last one left. -/

def connectTimeout : WalletProvider :=
  match s.rendered.control.connectAttemptId with
  | none => s
  | some attemptId =>
    if s.rendered.control.intent ≠ .connecting ∨ s.rendered.control.connectStartedAt.isNone ∨
        s.activeAttempt.map (·.attemptId) ≠ some attemptId then s
    else
      let epoch := s.sessionEpoch + 1
      { s with sessionEpoch := epoch, activeAttempt := none, marker := none }.dispatch
        (if s.rendered.control.connectOrigin = some ConnectOrigin.restore then
          .invalidate .sessionRestoreInvalid epoch
        else .connectFailed .connectTimeout attemptId epoch)

/-- The provider observation of an active session. -/
def observeActive (auth : AuthView) : WalletProvider :=
  let control := s.rendered.control
  let provider := s.rendered.provider
  if control.providerRevision ≠ some provider.revision then s.invalidateSession .accountChanged
  else if provider.activeAccount.isNone then s.invalidateSession .providerDisconnected
  else if !walletsMatch provider.activeAccount auth.financialWallet then
    s.invalidateSession .accountChanged
  else if provider.chainId ≠ some LEOPOLD_CHAIN_ID ∧ control.status ≠ .wrongNetwork then
    { s with sessionEpoch := s.sessionEpoch + 1, sessionAuthorized := false }.dispatch
      (.wrongNetwork none provider.revision (some (s.sessionEpoch + 1)))
  else if provider.chainId = some LEOPOLD_CHAIN_ID ∧ control.status = .wrongNetwork ∧
      s.rendered.snapshot.runtimeAligned then
    { s with sessionEpoch := s.sessionEpoch + 1, sessionAuthorized := true }.dispatch
      (.connected none provider.revision (some (s.sessionEpoch + 1)))
  else s

/-- The provider observation while the user selects an account. -/
def observeConnecting (auth : AuthView) : WalletProvider :=
  let control := s.rendered.control
  match control.connectAttemptId with
  | none => s
  | some attemptId =>
    if control.connectPhase = some .waitingForAccountSelection ∧
        walletsMatch s.rendered.provider.activeAccount auth.financialWallet ∧
        s.continuation ≠ some attemptId then
      { s with continuation := some attemptId }.runConnectAttempt auth ⟨attemptId, control.epoch⟩
        true
    else s

def observeProvider (auth : AuthView) : WalletProvider :=
  if auth.financialWallet.isNone ∨ s.rendered.provider.accountKnown = false then s
  else
    match s.rendered.control.intent with
    | .active => s.observeActive auth
    | .connecting => s.observeConnecting auth
    | .inactive => s

def verifyRuntime (auth : AuthView) : WalletProvider :=
  let control := s.rendered.control
  match control.connectAttemptId, s.rendered.provider.activeAccount with
  | some attemptId, some account =>
    if control.intent ≠ .connecting ∨ control.connectPhase ≠ some .verifyingRuntime ∨
        auth.financialWallet.isNone then s
    else
      s.completeAttemptFromObservations auth ⟨attemptId, control.epoch⟩ account
        s.rendered.provider.chainId s.rendered.provider.revision
  | _, _ => s

/-! ### Checking a financial session -/

def requireConnectedFinancialSession (auth : AuthView) : WalletProvider :=
  if auth.accountStatus ≠ .signedInReady ∨ auth.metadataStatus ≠ .present ∨
      s.sessionAuthorized = false ∨
      s.rendered.control.providerRevision ≠ some s.provider.revision ∨
      s.rendered.snapshot.status ≠ .connected ∨ s.rendered.snapshot.intent ≠ .active then s
  else s.suspend (.check s.sessionEpoch) auth s.sessionEpoch

def walletSessionRuntimeAligned (snapshot : WalletSessionSnapshot) : Bool :=
  snapshot.status = .connected && snapshot.runtimeAligned &&
    walletsMatch snapshot.address snapshot.verifiedAddress &&
    snapshot.provider.chainId == some LEOPOLD_CHAIN_ID

/-- The check after its reads: it rejects, or it starts the health probe. -/
def continueCheck (flow : Flow) (epoch : Nat) (account : Option Address) (chainId : Option Nat) :
    WalletProvider :=
  if s.sessionEpoch ≠ epoch then s
  else if account.isNone then s.invalidateSession .providerDisconnected
  else if !walletsMatch account flow.auth.financialWallet then s.invalidateSession .accountChanged
  else if chainId ≠ some LEOPOLD_CHAIN_ID then
    { s with sessionEpoch := s.sessionEpoch + 1, sessionAuthorized := false }.dispatch
      (.wrongNetwork none s.provider.revision (some (s.sessionEpoch + 1)))
  else if !walletsMatch s.rendered.inputs.runtime.wagmiAccount account then s
  else if !walletsMatch s.rendered.inputs.runtime.walletClientAccount account then s
  else if !walletSessionRuntimeAligned s.rendered.snapshot then s
  else
    { s with flows := { flow with work := .probe epoch s.rendered.snapshot } :: s.flows }

/-- The answer of the check after its probe. -/
def answerCheck (current : WalletSessionSnapshot) (health : WalletRpcHealth) :
    Except WalletRpcHealthState WalletSessionSnapshot :=
  if health.state ≠ .healthy then .error health.state
  else .ok { current with networkHealth := health, canUseFinancialActions := true }

/-! ### Steps -/

/-- What an await answers. -/
inductive Reply
  | connected (account : Address) (chainId : Option Nat) (providerRevision : Nat)
  | connectFailed (failure : ConnectFailure)
  | refreshed (account : Option Address) (chainId : Option Nat)
  | switched
  | account (account : Option Address)
  | chain (chainId : Option Nat)
  | health (health : WalletRpcHealth)
  /-- The await threw. -/
  | failed
  deriving DecidableEq, Repr

/-- The continuation of work that is no longer in flight. -/
def resume (flow : Flow) (reply : Reply) : WalletProvider :=
  match flow.work, reply with
  | .connect attempt continued, .connected account chainId providerRevision =>
    (s.finishConnectAttempt flow.auth attempt account chainId providerRevision).settle continued
  | .connect attempt continued, .connectFailed failure =>
    (s.failConnectAttempt attempt failure).settle continued
  | .restore attempt, .refreshed account chainId =>
    s.finishRestore flow.auth attempt (some (account, chainId))
  | .restore attempt, .failed => s.finishRestore flow.auth attempt none
  | .switchNetwork epoch, .switched =>
    if s.sessionEpoch ≠ epoch then s
    else { s with flows := { flow with work := .switchAccount epoch } :: s.flows }
  | .switchAccount epoch, .account account =>
    { s with flows := { flow with work := .switchChain epoch account } :: s.flows }
  | .switchChain epoch account, .chain chainId => s.finishSwitch flow.auth epoch account chainId
  | .check epoch, .refreshed account chainId => s.continueCheck flow epoch account chainId
  | _, _ => s

/-- The provider as a render observes it; the provider is connected where an account is known. -/
def observation (available : Bool) : ProviderObservation where
  revision := s.provider.revision
  available := available
  connected := s.provider.known && s.provider.account.isSome
  accountKnown := s.provider.known
  activeAccount := s.provider.account
  chainId := s.activeNetworkId

def render (auth : AuthView) (available : Bool) (runtime : WalletRuntimeObservation)
    (health : WalletRpcHealth) : WalletProvider :=
  { s with
    rendered := {
      inputs := {
        initialized := auth.initialized
        verifiedFinancialWallet := auth.financialWallet
        control := s.control
        provider := s.observation available
        runtime
        networkHealth := health }
      epoch := s.sessionEpoch } }

inductive Label
  | commit (next : Option Address)
  | network (chainId : Option Nat)
  | render (auth : AuthView) (available : Bool) (runtime : WalletRuntimeObservation)
      (health : WalletRpcHealth)
  | bootstrap (auth : AuthView) (now : Nat)
  | connect (auth : AuthView) (now : Nat)
  | disconnect
  | switchToSepolia (auth : AuthView)
  | requireConnected (auth : AuthView)
  | connectTimeout
  | observeProvider (auth : AuthView)
  | verifyRuntime (auth : AuthView)
  | resume (flow : Flow) (reply : Reply)
  deriving DecidableEq, Repr

/-- The state after a step. -/
def next : Label → WalletProvider
  | .commit account => { s with provider := commitProviderAccount s.provider account }
  | .network chainId => { s with activeNetworkId := chainId }
  | .render auth available runtime health => s.render auth available runtime health
  | .bootstrap auth now => s.bootstrap auth now
  | .connect auth now => s.connectVerifiedWallet auth now
  | .disconnect => s.invalidateSession .userDisconnected
  | .switchToSepolia auth => s.switchToSepolia auth
  | .requireConnected auth => s.requireConnectedFinancialSession auth
  | .connectTimeout => s.connectTimeout
  | .observeProvider auth => s.observeProvider auth
  | .verifyRuntime auth => s.verifyRuntime auth
  | .resume flow reply => { s with flows := s.flows.erase flow }.resume flow reply

/-- Only work in flight is resumed, and the wallet answers with a revision that was current since
it was asked. -/
def Enabled : Label → Prop
  | .resume flow (.connected _ _ revision) =>
    flow ∈ s.flows ∧ flow.revision ≤ revision ∧ revision ≤ s.provider.revision
  | .resume flow _ => flow ∈ s.flows
  | _ => True

instance (label : Label) : Decidable (s.Enabled label) := by
  unfold Enabled
  split <;> infer_instance

theorem mem_of_enabled {s : WalletProvider} {flow : Flow} {reply : Reply}
    (h : s.Enabled (.resume flow reply)) : flow ∈ s.flows := by
  cases reply with
  | connected => exact h.1
  | _ => exact h

/-- What the references hold before the first render. -/
def initialRendered (runtime : WalletRuntimeObservation) (health : WalletRpcHealth) : Rendered where
  inputs := {
    initialized := false
    verifiedFinancialWallet := none
    control := initialWalletSessionControl
    provider := {
      revision := 0
      available := false
      connected := false
      accountKnown := false
      activeAccount := none
      chainId := none }
    runtime
    networkHealth := health }
  epoch := 0

/-- A page that was loaded; a marker may be stored from before. -/
def init (runtime : WalletRuntimeObservation) (health : WalletRpcHealth)
    (marker : Option Address) : WalletProvider where
  provider := initialProviderAccount
  activeNetworkId := none
  sessionEpoch := 0
  sessionAuthorized := false
  activeAttempt := none
  bootstrapKey := none
  continuation := none
  marker := marker
  control := initialWalletSessionControl
  rendered := initialRendered runtime health
  flows := []

def system : Lib.TransitionSystem WalletProvider Label where
  init s := ∃ runtime health marker, s = init runtime health marker
  step s label s' := s.Enabled label ∧ s' = s.next label

/-- The state after a list of steps, each of them enabled and accepted. -/
def run (accepts : WalletProvider → Label → Bool) (s : WalletProvider) :
    List Label → Option WalletProvider
  | [] => some s
  | label :: labels =>
    if s.Enabled label ∧ accepts s label = true then (s.next label).run accepts labels else none

/-- A run whose accepted steps all satisfy a condition. -/
theorem reachableVia_run {P : WalletProvider → Label → WalletProvider → Prop}
    {accepts : WalletProvider → Label → Bool} {s t : WalletProvider} {labels : List Label}
    (hP : ∀ s label, accepts s label = true → P s label (s.next label))
    (hs : system.ReachableVia P s) (h : s.run accepts labels = some t) :
    system.ReachableVia P t := by
  induction labels generalizing s with
  | nil => exact Option.some.inj h ▸ hs
  | cons label labels ih =>
    simp only [run] at h
    split_ifs at h with hstep
    exact ih (.step hs ⟨hstep.1, rfl⟩ (hP s label hstep.2)) h

theorem runVia_run {P : WalletProvider → Label → Prop} {accepts : WalletProvider → Label → Bool}
    {s t : WalletProvider} {labels : List Label}
    (hP : ∀ s label, accepts s label = true → P s label) (h : s.run accepts labels = some t) :
    system.RunVia (fun s label _ => P s label) s t := by
  induction labels generalizing s with
  | nil => exact Option.some.inj h ▸ .refl
  | cons label labels ih =>
    simp only [run] at h
    split_ifs at h with hstep
    exact .trans (.tail .refl ⟨hstep.1, rfl⟩ (hP s label hstep.2)) (ih h)

end WalletProvider

end Leopold.Frontend
