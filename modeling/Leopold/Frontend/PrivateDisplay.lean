import Leopold.Frontend.FinancialProvider
import Leopold.Lib.Transition

/-!
# The private values on display, step by step
-/

namespace Leopold.Frontend

structure PrivateDisplay where
  /-- The dependencies of the clean-up effect at the last effects. -/
  cleanupKey : CleanupKey
  cleanupTimer : Bool
  /-- The session of the last clean-up; at first that of the first render. -/
  cleaned : Session
  /-- The clean-ups so far that followed a change of session. -/
  cleanups : Nat
  accountRef : Option Address
  publicClientRef : Bool
  walletClientRef : Option WalletClient
  /-- The window has an `ethereum` provider. -/
  ethereum : Bool
  privateRevealRun : Nat
  privateBalanceHandle : Option Handle
  privateBalance : Option Shown
  /-- Who marked the balance as revealed. -/
  privateBalanceRevealed : Option Origin
  privateBalanceStatus : PrivateBalanceStatus
  privateBalanceDiagnostic : Option PrivateBalanceDiagnostic
  vaultPositions : List (VaultId × Shown)
  revealedVaults : List (VaultId × Origin)
  privateResults : List (VaultId × Shown)
  revealedResults : List (VaultId × Origin)
  privateEligibility : List (VaultId × Shown)
  reveals : List Reveal
  deriving DecidableEq, Repr

namespace PrivateDisplay

variable (config : FinancialConfig) (s : PrivateDisplay)

def suspend (work : RevealWork) (view : View) : PrivateDisplay :=
  { s with reveals := ⟨work, view, s.cleanups⟩ :: s.reveals }

/-- The next await of a callback. -/
def goOn (reveal : Reveal) (work : RevealWork) : PrivateDisplay :=
  { s with reveals := { reveal with work } :: s.reveals }

def currentPrivateBalanceClients : Except String PrivateBalanceClients :=
  match s.accountRef, s.publicClientRef, s.walletClientRef with
  | some account, true, some walletClient => .ok { walletAccount := walletClient.account, account }
  | _, _, _ => .error "UNSUPPORTED_WALLET"

/-! ### The handle of the private balance -/

def invalidatePrivateBalance : PrivateDisplay :=
  { s with
    privateRevealRun := s.privateRevealRun + 1
    privateBalanceHandle := none
    privateBalance := none
    privateBalanceRevealed := none
    privateBalanceStatus := .unread
    privateBalanceDiagnostic := none }

def refreshPrivateBalanceHandle (view : View) : PrivateDisplay :=
  let s := { s with privateRevealRun := s.privateRevealRun + 1 }
  if !view.financialAuthorized then s.invalidatePrivateBalance
  else
    match s.currentPrivateBalanceClients, requireConfiguredAddress config.lcUsdc "Private USDC" with
    | .error _, _ => s.invalidatePrivateBalance
    | .ok _, .error _ => s
    | .ok clients, .ok token =>
      { s with privateBalanceStatus := .readingHandle }.suspend
        (.refresh s.privateRevealRun clients token) view

/-- The handle was read, or the read threw. -/
def finishRefresh (view : View) (runId : Nat) (token : Address) :
    Except String PrivateBalanceIdentity → PrivateDisplay
  | .ok identity =>
    if runId ≠ s.privateRevealRun then s
    else
      { s with
        privateBalanceHandle := some identity.handle
        privateBalance := none
        privateBalanceRevealed := none
        privateBalanceStatus := .notRevealed
        privateBalanceDiagnostic := some {
          chainId := some identity.chainId
          account := some identity.account
          token := some identity.token
          handle := some identity.handle
          stage := "HANDLE_READ"
          error := none } }
  | .error message =>
    if runId ≠ s.privateRevealRun then s
    else
      { s with
        privateBalanceHandle := none
        privateBalance := none
        privateBalanceRevealed := none
        privateBalanceStatus := .revealFailed
        privateBalanceDiagnostic := some {
          chainId := view.walletChainId
          account := s.accountRef
          token := some token
          handle := none
          stage := "READ"
          error := some (config.sanitizeTechnicalDetail message) } }

/-! ### `revealPrivateBalance` -/

def revealPrivateBalance (view : View) : PrivateDisplay :=
  let runId := s.privateRevealRun + 1
  { s with
    privateRevealRun := runId
    privateBalanceHandle := none
    privateBalanceStatus := .readingHandle
    privateBalanceDiagnostic := none }.suspend
    (.balance {
      runId
      chainId := none
      revealAccount := none
      token := none
      handle := none
      stage := .readingHandle } .access) view

/-- Its `catch`. -/
def failBalance (view : View) (locals : BalanceReveal) (message : String) : PrivateDisplay :=
  if locals.runId ≠ s.privateRevealRun then s
  else
    let technical := config.sanitizeTechnicalDetail message
    let s := { s with
      privateBalance := none
      privateBalanceRevealed := none
      privateBalanceStatus := .revealFailed
      privateBalanceDiagnostic := some {
        chainId := locals.chainId
        account := locals.revealAccount
        token := locals.token
        handle := locals.handle
        stage := locals.stage.text
        error := some technical } }
    if isStaleHandle technical then s.refreshPrivateBalanceHandle config view else s

/-- `onStage`, after the stage was stored. -/
def onStage (locals : BalanceReveal) : PrivateDisplay :=
  if locals.runId = s.privateRevealRun then { s with privateBalanceStatus := locals.stage.status }
  else s

/-- `onIdentity`, after the identity was stored. -/
def onIdentity (locals : BalanceReveal) : PrivateDisplay :=
  if locals.runId ≠ s.privateRevealRun then s
  else
    { s with
      privateBalanceHandle := locals.handle
      privateBalanceStatus := .notRevealed
      privateBalanceDiagnostic := some {
        chainId := locals.chainId
        account := locals.revealAccount
        token := locals.token
        handle := locals.handle
        stage := "HANDLE_READ"
        error := none } }

/-- The local variables after an identity was read. -/
def identified (locals : BalanceReveal) (identity : PrivateBalanceIdentity) : BalanceReveal :=
  { locals with
    chainId := some identity.chainId
    revealAccount := some identity.account
    token := some identity.token
    handle := some identity.handle }

/-- The rest of `revealPrivateBalance` after its reveal returned. -/
def settleBalance (reveal : Reveal) (locals : BalanceReveal) (identity : PrivateBalanceIdentity)
    (value : Nat) : PrivateDisplay :=
  if locals.runId ≠ s.privateRevealRun then
    s.failBalance config reveal.view locals "PRIVATE_BALANCE:STALE_REQUEST"
  else
    let origin : Origin :=
      { account := identity.account, session := reveal.view.session, begun := reveal.begun }
    { s with
      privateBalanceHandle := some identity.handle
      privateBalance := some { value, origin }
      privateBalanceRevealed := some origin
      privateBalanceStatus := .revealed
      privateBalanceDiagnostic := some {
        chainId := some identity.chainId
        account := some identity.account
        token := some identity.token
        handle := some identity.handle
        stage := "DECRYPTED"
        error := none } }

/-- What a read gave goes on, what it threw is caught. -/
def caught {α : Type} (reveal : Reveal) (locals : BalanceReveal) (result : Except String α)
    (next : α → PrivateDisplay) : PrivateDisplay :=
  match result with
  | .ok a => next a
  | .error message => s.failBalance config reveal.view locals message

/-- The continuation of `revealPrivateBalance`. -/
def resumeBalance (reveal : Reveal) (locals : BalanceReveal) :
    BalanceAwait → RevealReply → PrivateDisplay
  | .access, .done =>
    s.caught config reveal locals reveal.view.requireVerified fun _ =>
    s.caught config reveal locals (reveal.view.clients s.ethereum false) fun clients =>
    let locals := { locals with revealAccount := some clients.account }
    s.caught config reveal locals (requireConfiguredAddress config.lcUsdc "Private USDC") fun token =>
    s.goOn reveal (.balance { locals with token := some token } (.chainId clients token))
  | .chainId clients token, .chain chainId =>
    let locals := { locals with chainId := some chainId }
    if reveal.view.walletSession.verifiedAddress ≠ some clients.account then
      s.failBalance config reveal.view locals "PRIVATE_BALANCE:WRONG_ACCOUNT"
    else
      let locals := { locals with stage := .readingHandle }
      (s.onStage locals).goOn reveal (.balance locals (.requested clients token))
  | .requested clients token, .identity signerChainId publicChainId handle =>
    s.caught config reveal locals
      (readCurrentPrivateBalanceHandle config clients token signerChainId publicChainId handle)
      fun requested =>
    let locals := identified locals requested
    let s := s.onIdentity locals
    if isZeroBalanceHandle requested.handle then
      s.goOn reveal
        (.balance locals (.revalidating s.currentPrivateBalanceClients token requested 0))
    else
      let awaiting := { locals with stage := .awaitingDecryptAuthorization }
      let decrypting := { locals with stage := .decrypting }
      ((s.onStage awaiting).onStage decrypting).goOn reveal
        (.balance decrypting (.decrypting clients token requested))
  | .decrypting clients token requested, .decrypted signerChainId publicChainId value =>
    s.caught config reveal locals
      (decryptCurrentPrivateBalance config clients requested signerChainId publicChainId value)
      fun value =>
    let locals := { locals with stage := .revalidatingHandle }
    (s.onStage locals).goOn reveal
      (.balance locals (.revalidating s.currentPrivateBalanceClients token requested value))
  | .revalidating current token requested value, .identity signerChainId publicChainId handle =>
    s.caught config reveal locals
      (current.bind fun clients =>
        readCurrentPrivateBalanceHandle config clients token signerChainId publicChainId handle)
      fun identity =>
    if requested ≠ identity then
      s.failBalance config reveal.view locals "PRIVATE_BALANCE:STALE_HANDLE"
    else
      let locals := { locals with stage := .revealed }
      (s.onStage locals).goOn reveal (.balance locals (.settled identity value))
  | .settled identity value, .done => s.settleBalance config reveal locals identity value
  | _, .failed message => s.failBalance config reveal.view locals message
  | _, _ => s

/-! ### `revealVault`, `revealResult`, `revealEligibility` -/

/-- What a reveal of a vault awaits after the session was checked. -/
def prepareVault (view : View) (ethereum : Bool) (slug : VaultId) :
    VaultReveal → Except String VaultAwait
  | .vault =>
    match getVaultConfig config slug with
    | none => .error "CONFIGURATION_MISSING:vault"
    | some vault => do
      view.requireVerified
      let clients ← view.clients ethereum true
      let vaultAddress ← requireConfiguredAddress vault.vault (vault.name ++ " vault")
      .ok (.handle clients vaultAddress)
  | .result =>
    if slug ∉ view.enteredVaults then .error "NOT_ENTERED"
    else
      match getVaultConfig config slug with
      | none => .error "CONFIGURATION_MISSING:vault"
      | some vault =>
        if (view.publicVaultState.lookup slug).map (·.state) ≠ some 14 then
          .error "PRIVATE_RESULT_NOT_READY"
        else do
          view.requireVerified
          let clients ← view.clients ethereum true
          let vaultAddress ← requireConfiguredAddress vault.vault (vault.name ++ " vault")
          .ok (.handle clients vaultAddress)
  | .eligibility =>
    if slug ∉ view.enteredVaults then .error "NOT_ENTERED"
    else
      match getVaultConfig config slug, view.publicVaultState.lookup slug with
      | some vault, some state => do
        view.requireVerified
        let clients ← view.clients ethereum true
        let vaultAddress ← requireConfiguredAddress vault.vault (vault.name ++ " vault")
        .ok (.materializing clients vaultAddress state.roundId)
      | _, _ => .error "ROUND_STATE_UNAVAILABLE"

/-- The handle of the round weight among the events of the receipt. -/
def materializedHandle (clients : PrivateBalanceClients) (roundId : Nat)
    (logs : List RoundWeightMaterialized) : Except String Handle :=
  match logs.find? fun log => log.roundId = roundId ∧ log.account = clients.account with
  | some event => .ok event.handle
  | none => .error "PRIVATE_ELIGIBILITY_HANDLE_UNAVAILABLE"

/-- The writes of a decrypted value; nothing is looked at again. -/
def showVault (slug : VaultId) (shown : Shown) : VaultReveal → PrivateDisplay
  | .vault =>
    { s with
      vaultPositions := record s.vaultPositions slug shown
      revealedVaults := record s.revealedVaults slug shown.origin }
  | .result =>
    { s with
      privateResults := record s.privateResults slug shown
      revealedResults := record s.revealedResults slug shown.origin }
  | .eligibility => { s with privateEligibility := record s.privateEligibility slug shown }

/-- The next await of the reveal of a vault; what is thrown goes to the caller. -/
def goOnVault (reveal : Reveal) (kind : VaultReveal) (slug : VaultId) :
    Except String VaultAwait → PrivateDisplay
  | .ok await => s.goOn reveal (.vault kind slug await)
  | .error _ => s

/-- The continuation of the reveal of a vault. -/
def resumeVault (reveal : Reveal) (kind : VaultReveal) (slug : VaultId) :
    VaultAwait → RevealReply → PrivateDisplay
  | .access, .done =>
    s.goOnVault reveal kind slug (prepareVault config reveal.view s.ethereum slug kind)
  | .handle clients vaultAddress, .handle handle =>
    s.goOnVault reveal kind slug (.ok (.decrypting clients vaultAddress handle))
  | .materializing clients vaultAddress roundId, .hash hash =>
    s.goOnVault reveal kind slug (.ok (.receipt clients vaultAddress roundId hash))
  | .receipt clients vaultAddress roundId _, .receipt logs =>
    s.goOnVault reveal kind slug
      ((materializedHandle clients roundId logs).map (.decrypting clients vaultAddress))
  | .decrypting clients _ _, .clear value =>
    s.showVault slug {
      value
      origin := {
        account := clients.account, session := reveal.view.session, begun := reveal.begun } } kind
  | _, _ => s

/-! ### Steps -/

/-- The continuation of work that is no longer in flight. -/
def resume (reveal : Reveal) (reply : RevealReply) : PrivateDisplay :=
  match reveal.work with
  | .balance locals await => s.resumeBalance config reveal locals await reply
  | .vault kind slug await => s.resumeVault config reveal kind slug await reply
  | .refresh runId clients token =>
    match reply with
    | .identity signerChainId publicChainId handle =>
      s.finishRefresh config reveal.view runId token
        (readCurrentPrivateBalanceHandle config clients token signerChainId publicChainId handle)
    | .failed message => s.finishRefresh config reveal.view runId token (.error message)
    | _ => s

/-- The effects of a render: the references, and the timer of the clean-up. -/
def effects (view : View) : PrivateDisplay :=
  { s with
    accountRef := view.account
    publicClientRef := view.publicClient
    walletClientRef := view.walletClient
    cleanupKey := view.cleanupKey
    cleanupTimer := s.cleanupTimer || s.cleanupKey ≠ view.cleanupKey }

/-- The clean-up. -/
def cleanup : PrivateDisplay :=
  { s.invalidatePrivateBalance with
    cleanupTimer := false
    cleaned := s.cleanupKey.session
    cleanups := if s.cleanupKey.session = s.cleaned then s.cleanups else s.cleanups + 1
    vaultPositions := []
    revealedVaults := []
    privateResults := []
    revealedResults := []
    privateEligibility := [] }

inductive Label
  | effects (view : View)
  | ethereum (present : Bool)
  | cleanup
  | revealPrivateBalance (view : View)
  | revealVault (view : View) (kind : VaultReveal) (slug : VaultId)
  | refreshPrivateBalanceHandle (view : View)
  | invalidatePrivateBalance
  | hidePrivateBalance
  | hideVault (slug : VaultId)
  | resume (reveal : Reveal) (reply : RevealReply)
  deriving DecidableEq, Repr

/-- The state after a step. -/
def next : Label → PrivateDisplay
  | .effects view => s.effects view
  | .ethereum present => { s with ethereum := present }
  | .cleanup => s.cleanup
  | .revealPrivateBalance view => s.revealPrivateBalance view
  | .revealVault view kind slug => s.suspend (.vault kind slug .access) view
  | .refreshPrivateBalanceHandle view => s.refreshPrivateBalanceHandle config view
  | .invalidatePrivateBalance => s.invalidatePrivateBalance
  | .hidePrivateBalance =>
    { s with
      privateBalanceRevealed := none
      privateBalanceStatus := .notRevealed
      privateBalanceDiagnostic := none }
  | .hideVault slug => { s with revealedVaults := s.revealedVaults.filter (·.1 ≠ slug) }
  | .resume reveal reply => { s with reveals := s.reveals.erase reveal }.resume config reveal reply

/-- Only work in flight is resumed, and the clean-up runs when its timer is set. -/
def Enabled : Label → Prop
  | .cleanup => s.cleanupTimer = true
  | .resume reveal _ => reveal ∈ s.reveals
  | _ => True

instance (label : Label) : Decidable (s.Enabled label) := by
  unfold Enabled
  split <;> infer_instance

/-- The provider after its first effects. -/
def init (view : View) (ethereum : Bool) : PrivateDisplay where
  cleanupKey := view.cleanupKey
  cleanupTimer := true
  cleaned := view.session
  cleanups := 0
  accountRef := view.account
  publicClientRef := view.publicClient
  walletClientRef := view.walletClient
  ethereum := ethereum
  privateRevealRun := 0
  privateBalanceHandle := none
  privateBalance := none
  privateBalanceRevealed := none
  privateBalanceStatus := .unread
  privateBalanceDiagnostic := none
  vaultPositions := []
  revealedVaults := []
  privateResults := []
  revealedResults := []
  privateEligibility := []
  reveals := []

def system : Lib.TransitionSystem PrivateDisplay Label where
  init s := ∃ view ethereum, s = init view ethereum
  step s label s' := s.Enabled label ∧ s' = s.next config label

/-- The steps of a list of labels, one after the other. -/
def steps (s : PrivateDisplay) :
    List Label → List (Lib.TransitionSystem.Taken PrivateDisplay Label)
  | [] => []
  | label :: labels => ⟨s, label, s.next config label⟩ :: (s.next config label).steps labels

/-- Each of the labels is enabled when its turn comes. -/
def Enables (s : PrivateDisplay) : List Label → Prop
  | [] => True
  | label :: labels => s.Enabled label ∧ (s.next config label).Enables labels

instance decidableEnables : (s : PrivateDisplay) → (labels : List Label) →
    Decidable (s.Enables config labels)
  | _, [] => inferInstanceAs (Decidable True)
  | s, label :: labels =>
    have := decidableEnables (s.next config label) labels
    inferInstanceAs (Decidable (_ ∧ _))

theorem trace_steps (labels : List Label) (h : s.Enables config labels) :
    (system config).Trace s (s.steps config labels) (labels.foldl (next config) s) := by
  induction labels generalizing s with
  | nil => exact .nil
  | cons label labels ih => exact .cons ⟨h.1, rfl⟩ (ih _ h.2)

end PrivateDisplay

end Leopold.Frontend
