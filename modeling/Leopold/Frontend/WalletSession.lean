import Mathlib.Data.BitVec
import Mathlib.Algebra.Order.BigOperators.Group.Finset
import Mathlib.Tactic.Ring

/-!
# The wallet session

The control state of a wallet session with its reducer, and the session snapshot that is derived
from the control, the provider, the wallet runtime and the network health.
-/

namespace Leopold.Frontend

/-- A well-formed address, whatever its spelling; a malformed text is no address. -/
structure Address where
  bits : BitVec 160
  deriving DecidableEq, Repr

def LEOPOLD_CHAIN_ID : Nat := 11155111

/-- Both are addresses and they are the same. -/
def walletsMatch (left right : Option Address) : Bool :=
  left.isSome && right.isSome && left == right

theorem walletsMatch_iff {left right : Option Address} :
    walletsMatch left right = true ↔ ∃ a, left = some a ∧ right = some a := by
  rcases left with _ | a <;> rcases right with _ | b
  · simp [walletsMatch]
  · simp [walletsMatch]
  · simp [walletsMatch]
  · simp [walletsMatch, eq_comm (a := b)]

inductive WalletSessionState
  | bootstrapping
  | disconnected
  | connecting
  | wrongNetwork
  | connected
  | error
  deriving DecidableEq, Repr

inductive WalletSessionIntent
  | inactive
  | connecting
  | active
  deriving DecidableEq, Repr

inductive WalletConnectPhase
  | starting
  | syncingProvider
  | waitingForAccountSelection
  | verifyingAccount
  | verifyingNetwork
  | verifyingRuntime
  deriving DecidableEq, Repr

inductive WalletSessionReason
  | sdkInitializing
  | financialWalletNotLinked
  | noActiveSession
  | userDisconnected
  | accountChanged
  | providerDisconnected
  | accountSelectionRequired
  | providerUnavailable
  | providerTimeout
  | connectCancelled
  | connectTimeout
  | wrongNetwork
  | dynamicWalletUnavailable
  | dynamicPrimaryMismatch
  | wagmiAccountMismatch
  | walletClientAccountMismatch
  | walletClientNetworkMismatch
  | sessionRestoreInvalid
  | connected
  deriving DecidableEq, Repr

inductive WalletSessionRecoveryAction
  | linkWallet
  | connectVerifiedWallet
  | switchToSepolia
  | retryProvider
  | none
  deriving DecidableEq, Repr

inductive WalletRpcHealthState
  | notChecked
  | checking
  | healthy
  | appRpcUnavailable
  | walletRpcUnavailable
  | unknown
  deriving DecidableEq, Repr

structure WalletRpcHealth where
  state : WalletRpcHealthState
  checkedAt : Option Nat
  dynamicWalletChainId : Option Nat
  walletClientChainId : Option Nat
  appChainId : Option Nat
  technicalDetail : Option String
  deriving DecidableEq, Repr

structure DynamicWalletDescriptor where
  id : String
  address : Address
  deriving DecidableEq, Repr

structure ProviderObservation where
  revision : Nat
  available : Bool
  connected : Bool
  accountKnown : Bool
  activeAccount : Option Address
  chainId : Option Nat
  deriving DecidableEq, Repr

structure WalletRuntimeObservation where
  dynamicPrimaryWallet : Option Address
  dynamicLinkedWallets : List DynamicWalletDescriptor
  dynamicWalletObjectForVerifiedAddress : Option DynamicWalletDescriptor
  wagmiAccount : Option Address
  walletClientAccount : Option Address
  walletClientId : Option String
  walletClientChainId : Option Nat
  deriving DecidableEq, Repr

inductive ConnectOrigin
  | user
  | restore
  deriving DecidableEq, Repr

structure WalletSessionControl where
  intent : WalletSessionIntent
  status : WalletSessionState
  reason : WalletSessionReason
  epoch : Nat
  providerRevision : Option Nat
  connectOrigin : Option ConnectOrigin
  connectAttemptId : Option String
  connectStartedAt : Option Nat
  connectPhase : Option WalletConnectPhase
  deriving DecidableEq, Repr

def initialWalletSessionControl : WalletSessionControl where
  intent := .inactive
  status := .bootstrapping
  reason := .sdkInitializing
  epoch := 0
  providerRevision := none
  connectOrigin := none
  connectAttemptId := none
  connectStartedAt := none
  connectPhase := none

inductive WalletSessionEvent
  | sdkReady (reason : Option WalletSessionReason)
  | restoreStarted (attemptId : String) (startedAt epoch : Nat)
  | connectStarted (attemptId : String) (startedAt epoch : Nat)
  | connectPhase (attemptId : String) (phase : WalletConnectPhase)
      (reason : Option WalletSessionReason)
  | connected (attemptId : Option String) (providerRevision : Nat) (epoch : Option Nat)
  | wrongNetwork (attemptId : Option String) (providerRevision : Nat) (epoch : Option Nat)
  | invalidate (reason : WalletSessionReason) (epoch : Nat)
  | connectFailed (reason : WalletSessionReason) (attemptId : String) (epoch : Nat)
  deriving DecidableEq, Repr

def isCurrentAttempt (state : WalletSessionControl) (attemptId : Option String) : Bool :=
  attemptId.isNone || state.connectAttemptId == attemptId

section Reducer

variable (state : WalletSessionControl)

/-- The start of an attempt, by the user or from storage. -/
def startAttempt (origin : ConnectOrigin) (attemptId : String) (startedAt epoch : Nat) :
    WalletSessionControl where
  intent := .connecting
  status := .connecting
  reason := .noActiveSession
  epoch := epoch
  providerRevision := none
  connectOrigin := some origin
  connectAttemptId := some attemptId
  connectStartedAt := some startedAt
  connectPhase := some .starting

/-- An active session, connected or on a wrong network. -/
def activate (status : WalletSessionState) (reason : WalletSessionReason)
    (providerRevision : Nat) (epoch : Option Nat) : WalletSessionControl where
  intent := .active
  status := status
  reason := reason
  epoch := epoch.getD state.epoch
  providerRevision := some providerRevision
  connectOrigin := none
  connectAttemptId := none
  connectStartedAt := none
  connectPhase := none

/-- No session, for a reason. -/
def deactivate (status : WalletSessionState) (reason : WalletSessionReason) (epoch : Nat) :
    WalletSessionControl where
  intent := .inactive
  status := status
  reason := reason
  epoch := epoch
  providerRevision := none
  connectOrigin := none
  connectAttemptId := none
  connectStartedAt := none
  connectPhase := none

def walletSessionReducer (event : WalletSessionEvent) : WalletSessionControl :=
  match event with
  | .sdkReady reason =>
    if state.status = .bootstrapping then
      { state with status := .disconnected, reason := reason.getD .noActiveSession }
    else state
  | .restoreStarted attemptId startedAt epoch => startAttempt .restore attemptId startedAt epoch
  | .connectStarted attemptId startedAt epoch => startAttempt .user attemptId startedAt epoch
  | .connectPhase attemptId phase reason =>
    if state.connectAttemptId ≠ some attemptId ∨ state.intent ≠ .connecting then state
    else { state with
      status := .connecting
      reason := reason.getD state.reason
      connectPhase := some phase }
  | .connected attemptId providerRevision epoch =>
    if !isCurrentAttempt state attemptId then state
    else activate state .connected .connected providerRevision epoch
  | .wrongNetwork attemptId providerRevision epoch =>
    if !isCurrentAttempt state attemptId then state
    else activate state .wrongNetwork .wrongNetwork providerRevision epoch
  | .invalidate reason epoch => deactivate .disconnected reason epoch
  | .connectFailed reason attemptId epoch =>
    if state.connectAttemptId ≠ some attemptId then state
    else deactivate
      (if reason = .accountSelectionRequired ∨ reason = .connectCancelled then .disconnected
        else .error) reason epoch

end Reducer

/-! ### The derived session -/

/-- Nothing if the accounts and networks of the runtime are those of the provider, and else the
first reason why not. -/
def runtimeAlignment (verifiedAddress providerAccount : Option Address)
    (providerChainId : Option Nat) (runtime : WalletRuntimeObservation) :
    Option WalletSessionReason :=
  if !walletsMatch verifiedAddress providerAccount then some .accountChanged
  else if runtime.dynamicWalletObjectForVerifiedAddress.isNone then
    some .dynamicWalletUnavailable
  else if !walletsMatch runtime.dynamicPrimaryWallet verifiedAddress then
    some .dynamicPrimaryMismatch
  else if !walletsMatch runtime.wagmiAccount verifiedAddress then some .wagmiAccountMismatch
  else if !walletsMatch runtime.walletClientAccount verifiedAddress then
    some .walletClientAccountMismatch
  else if runtime.walletClientChainId ≠ providerChainId then some .walletClientNetworkMismatch
  else none

def recoveryFor (status : WalletSessionState) (reason : WalletSessionReason)
    (verifiedAddress : Option Address) : WalletSessionRecoveryAction × String :=
  if verifiedAddress.isNone then (.linkWallet, "Link your financial wallet to continue.")
  else
    match status with
    | .wrongNetwork => (.switchToSepolia, "Switch to Ethereum Sepolia to continue.")
    | .connecting =>
      (.none, if reason = .accountSelectionRequired then
          "Select your verified account in Rabby or MetaMask."
        else "Connecting your verified financial wallet…")
    | .error => (.retryProvider, "Your wallet connection could not be completed.")
    | .disconnected =>
      (.connectVerifiedWallet, if reason = .accountChanged then
          "Your wallet account changed. Reconnect your verified wallet to continue."
        else "Connect your verified financial wallet to continue.")
    | .bootstrapping | .connected => (.none, "")

structure WalletSessionInputs where
  initialized : Bool
  verifiedFinancialWallet : Option Address
  control : WalletSessionControl
  provider : ProviderObservation
  runtime : WalletRuntimeObservation
  networkHealth : WalletRpcHealth
  deriving DecidableEq, Repr

structure WalletSessionSnapshot where
  status : WalletSessionState
  intent : WalletSessionIntent
  reason : WalletSessionReason
  epoch : Nat
  connectAttemptId : Option String
  connectStartedAt : Option Nat
  connectPhase : Option WalletConnectPhase
  verifiedAddress : Option Address
  /-- The address of the session, while it is connected or on a wrong network. -/
  address : Option Address
  provider : ProviderObservation
  runtime : WalletRuntimeObservation
  networkHealth : WalletRpcHealth
  runtimeAligned : Bool
  canUseFinancialActions : Bool
  recoveryAction : WalletSessionRecoveryAction
  recoveryMessage : String
  deriving DecidableEq, Repr

/-- The status and the reason of an active session. -/
def activeStatus (inputs : WalletSessionInputs) : WalletSessionState × WalletSessionReason :=
  let provider := inputs.provider
  if inputs.control.providerRevision ≠ some provider.revision then (.disconnected, .accountChanged)
  else if !provider.accountKnown || !provider.connected || provider.activeAccount.isNone then
    (.disconnected, .providerDisconnected)
  else if !walletsMatch provider.activeAccount inputs.verifiedFinancialWallet then
    (.disconnected, .accountChanged)
  else if provider.chainId ≠ some LEOPOLD_CHAIN_ID then (.wrongNetwork, .wrongNetwork)
  else
    match runtimeAlignment inputs.verifiedFinancialWallet provider.activeAccount provider.chainId
      inputs.runtime with
    | some reason => (.error, reason)
    | none => (.connected, .connected)

def derivedStatus (inputs : WalletSessionInputs) : WalletSessionState × WalletSessionReason :=
  if !inputs.initialized then (.bootstrapping, .sdkInitializing)
  else if inputs.verifiedFinancialWallet.isNone then (.disconnected, .financialWalletNotLinked)
  else
    match inputs.control.intent with
    | .inactive =>
      (if inputs.control.status = .error then .error else .disconnected, inputs.control.reason)
    | .active => activeStatus inputs
    | .connecting => (inputs.control.status, inputs.control.reason)

def isRuntimeAligned (inputs : WalletSessionInputs) : Bool :=
  (runtimeAlignment inputs.verifiedFinancialWallet inputs.provider.activeAccount
      inputs.provider.chainId inputs.runtime).isNone &&
    inputs.provider.chainId == some LEOPOLD_CHAIN_ID

def deriveWalletSession (inputs : WalletSessionInputs) : WalletSessionSnapshot :=
  let status := (derivedStatus inputs).1
  let reason := (derivedStatus inputs).2
  let recovery := recoveryFor status reason inputs.verifiedFinancialWallet
  { status
    intent := inputs.control.intent
    reason
    epoch := inputs.control.epoch
    connectAttemptId := inputs.control.connectAttemptId
    connectStartedAt := inputs.control.connectStartedAt
    connectPhase := inputs.control.connectPhase
    verifiedAddress := inputs.verifiedFinancialWallet
    address :=
      if status = .connected ∨ status = .wrongNetwork then inputs.verifiedFinancialWallet else none
    provider := inputs.provider
    runtime := inputs.runtime
    networkHealth := inputs.networkHealth
    runtimeAligned := isRuntimeAligned inputs
    canUseFinancialActions :=
      status = .connected && isRuntimeAligned inputs && inputs.networkHealth.state = .healthy
    recoveryAction := recovery.1
    recoveryMessage := recovery.2 }

section Facts

variable {inputs : WalletSessionInputs}

theorem runtimeAlignment_eq_none {verified account : Option Address} {chainId : Option Nat}
    {runtime : WalletRuntimeObservation}
    (h : runtimeAlignment verified account chainId runtime = none) :
    ∃ wallet, verified = some wallet ∧ account = some wallet ∧
      runtime.dynamicPrimaryWallet = some wallet ∧ runtime.wagmiAccount = some wallet ∧
      runtime.walletClientAccount = some wallet ∧ runtime.walletClientChainId = chainId := by
  unfold runtimeAlignment at h
  split_ifs at h with haccount hobject hprimary hwagmi hclient hchain
  obtain ⟨wallet, rfl, rfl⟩ := walletsMatch_iff.1 (by simpa using haccount)
  obtain ⟨_, hprimary, ⟨⟩⟩ := walletsMatch_iff.1 (by simpa using hprimary)
  obtain ⟨_, hwagmi, ⟨⟩⟩ := walletsMatch_iff.1 (by simpa using hwagmi)
  obtain ⟨_, hclient, ⟨⟩⟩ := walletsMatch_iff.1 (by simpa using hclient)
  exact ⟨wallet, rfl, rfl, hprimary, hwagmi, hclient, not_not.1 hchain⟩

/-- A snapshot is connected only in an active session whose provider revision is current. -/
theorem connected_spec
    (hconnecting : inputs.control.intent = .connecting → inputs.control.status = .connecting)
    (h : (deriveWalletSession inputs).status = .connected) :
    inputs.control.intent = .active ∧
      inputs.control.providerRevision = some inputs.provider.revision ∧
      inputs.provider.accountKnown = true ∧
      runtimeAlignment inputs.verifiedFinancialWallet inputs.provider.activeAccount
        inputs.provider.chainId inputs.runtime = none ∧
      inputs.provider.chainId = some LEOPOLD_CHAIN_ID := by
  change (derivedStatus inputs).1 = .connected at h
  unfold derivedStatus at h
  split at h
  · cases h
  split at h
  · cases h
  cases hintent : inputs.control.intent with
  | inactive =>
    simp only [hintent] at h
    split at h <;> cases h
  | connecting =>
    simp only [hintent, hconnecting hintent] at h
    cases h
  | active =>
    simp only [hintent, activeStatus] at h
    split_ifs at h with hrevision hknown haccount hchain
    split at h
    · cases h
    · rename_i halign
      simp only [Bool.or_eq_true, not_or, Bool.not_eq_true'] at hknown
      exact ⟨rfl, not_not.1 hrevision, by simpa using hknown.1.1, halign, not_not.1 hchain⟩

/-- What it takes to use financial actions. -/
theorem canUse_spec
    (hconnecting : inputs.control.intent = .connecting → inputs.control.status = .connecting)
    (h : (deriveWalletSession inputs).canUseFinancialActions = true) :
    inputs.control.intent = .active ∧
      inputs.control.providerRevision = some inputs.provider.revision ∧
      inputs.provider.accountKnown = true ∧
      (∃ wallet, inputs.verifiedFinancialWallet = some wallet ∧
        inputs.provider.activeAccount = some wallet ∧
        inputs.runtime.dynamicPrimaryWallet = some wallet ∧
        inputs.runtime.wagmiAccount = some wallet ∧
        inputs.runtime.walletClientAccount = some wallet) ∧
      inputs.provider.chainId = some LEOPOLD_CHAIN_ID ∧
      inputs.runtime.walletClientChainId = some LEOPOLD_CHAIN_ID ∧
      inputs.networkHealth.state = .healthy := by
  simp only [deriveWalletSession, Bool.and_eq_true, decide_eq_true_eq] at h
  obtain ⟨⟨hstatus, -⟩, hhealth⟩ := h
  obtain ⟨hintent, hrevision, hknown, halign, hchain⟩ := connected_spec hconnecting hstatus
  obtain ⟨wallet, hverified, haccount, hprimary, hwagmi, hclient, hclientChain⟩ :=
    runtimeAlignment_eq_none halign
  exact ⟨hintent, hrevision, hknown, ⟨wallet, hverified, haccount, hprimary, hwagmi, hclient⟩,
    hchain, hclientChain.trans hchain, hhealth⟩

end Facts

end Leopold.Frontend
