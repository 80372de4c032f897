import Leopold.Frontend.WalletProvider

/-!
# The reveals of the financial provider

The private values the provider shows, the reveals that write them and the clean-up that follows a
change of the wallet session.  Every step is one synchronous piece of code: a callback up to its
first await, the continuation after an await, the effects of a render, or a timer.  A callback
captured what some render had; the references are those of the last effects.
-/

namespace Leopold.Frontend

inductive VaultId
  | daily
  | weekly
  | monthly
  | boost
  deriving DecidableEq, Repr

/-- A handle of an encrypted value, whatever its spelling. -/
abbrev Handle := BitVec 256

/-! ### The current private balance -/

structure PrivateBalanceClients where
  /-- `walletClientAddress`. -/
  walletAccount : Option Address
  account : Address
  deriving DecidableEq, Repr

inductive PrivateBalanceRevealStage
  | readingHandle
  | awaitingDecryptAuthorization
  | decrypting
  | revalidatingHandle
  | revealed
  deriving DecidableEq, Repr

inductive PrivateBalanceStatus
  | unread
  | readingHandle
  | notRevealed
  | awaitingDecryptAuthorization
  | decrypting
  | revealed
  | revealFailed
  deriving DecidableEq, Repr

namespace PrivateBalanceRevealStage

def text : PrivateBalanceRevealStage → String
  | readingHandle => "READING_HANDLE"
  | awaitingDecryptAuthorization => "AWAITING_DECRYPT_AUTHORIZATION"
  | decrypting => "DECRYPTING"
  | revalidatingHandle => "REVALIDATING_HANDLE"
  | revealed => "REVEALED"

/-- The status a stage is shown as. -/
def status : PrivateBalanceRevealStage → PrivateBalanceStatus
  | readingHandle => .readingHandle
  | awaitingDecryptAuthorization => .awaitingDecryptAuthorization
  | decrypting | revalidatingHandle => .decrypting
  | revealed => .revealed

end PrivateBalanceRevealStage

structure PrivateBalanceIdentity where
  chainId : Nat
  account : Address
  token : Address
  handle : Handle
  deriving DecidableEq, Repr

def ZERO_BALANCE_HANDLE : Handle := 0

def isZeroBalanceHandle (handle : Handle) : Bool := handle = ZERO_BALANCE_HANDLE

/-- What `privateBalanceDiagnostic` puts into its text. -/
structure PrivateBalanceDiagnostic where
  chainId : Option Nat
  account : Option Address
  token : Option Address
  handle : Option Handle
  stage : String
  error : Option String
  deriving DecidableEq, Repr

structure LeopoldVaultConfig where
  slug : VaultId
  name : String
  /-- The address, where it is configured. -/
  vault : Option Address
  deriving DecidableEq, Repr

/-- The configuration, and the redaction of the texts of errors. -/
structure FinancialConfig where
  lcUsdc : Option Address
  vaults : List LeopoldVaultConfig
  sanitizeTechnicalDetail : String → String

/-- The error of a missing address. -/
def requireConfiguredAddress (item : Option Address) (label : String) : Except String Address :=
  match item with
  | some address => .ok address
  | none => .error ("CONFIGURATION_MISSING:" ++ label)

section PrivateBalance

variable (config : FinancialConfig) (clients : PrivateBalanceClients)

def getVaultConfig (slug : VaultId) : Option LeopoldVaultConfig :=
  config.vaults.find? (·.slug = slug)

def assertConfiguredIdentity (token : Address) : Except String Address := do
  let officialToken ← requireConfiguredAddress config.lcUsdc "Private USDC"
  if token ≠ officialToken then .error "PRIVATE_BALANCE:WRONG_TOKEN"
  else if clients.walletAccount ≠ some clients.account then .error "PRIVATE_BALANCE:WRONG_ACCOUNT"
  else .ok officialToken

/-- The chain of the signer; both chains were read. -/
def assertSepoliaClients (signerChainId publicChainId : Nat) : Except String Nat :=
  if signerChainId ≠ LEOPOLD_CHAIN_ID then
    .error ("PRIVATE_BALANCE:WRONG_NETWORK:wallet-client-" ++ toString signerChainId)
  else if publicChainId ≠ LEOPOLD_CHAIN_ID then
    .error ("PRIVATE_BALANCE:WRONG_NETWORK:public-client-" ++ toString publicChainId)
  else .ok signerChainId

def readCurrentPrivateBalanceHandle (token : Address) (signerChainId publicChainId : Nat)
    (handle : Handle) : Except String PrivateBalanceIdentity := do
  let officialToken ← assertConfiguredIdentity config clients token
  let chainId ← assertSepoliaClients signerChainId publicChainId
  .ok { chainId, account := clients.account, token := officialToken, handle }

/-- The value `decryptPrivateValue` answered, when the identity is still that of the clients. -/
def decryptCurrentPrivateBalance (identity : PrivateBalanceIdentity)
    (signerChainId publicChainId value : Nat) : Except String Nat := do
  let officialToken ← assertConfiguredIdentity config clients identity.token
  let chainId ← assertSepoliaClients signerChainId publicChainId
  if chainId ≠ identity.chainId ∨ clients.account ≠ identity.account ∨
      officialToken ≠ identity.token then .error "PRIVATE_BALANCE:IDENTITY_CHANGED"
  else .ok value

end PrivateBalance

/-! ### What a render has -/

structure WalletClient where
  uid : String
  account : Option Address
  deriving DecidableEq, Repr

/-- What the provider reads of a vault's public state. -/
structure VaultPublicState where
  state : Nat
  roundId : Nat
  deriving DecidableEq, Repr

/-- What a callback captured of a render. -/
structure View where
  authenticated : Bool
  identityKey : Option String
  clientReady : Bool
  accountStatus : AccountStatus
  walletSession : WalletSessionSnapshot
  publicClient : Bool
  walletClient : Option WalletClient
  deploymentVerified : Bool
  enteredVaults : List VaultId
  publicVaultState : List (VaultId × VaultPublicState)
  deriving DecidableEq, Repr

/-- The wallet session, as the clean-up effect sees it. -/
structure Session where
  authenticated : Bool
  identityKey : Option String
  epoch : Nat
  status : WalletSessionState
  verifiedAddress : Option Address
  deriving DecidableEq, Repr

/-- The dependencies of the clean-up effect. -/
structure CleanupKey where
  session : Session
  walletChainId : Option Nat
  walletClientId : Option String
  deriving DecidableEq, Repr

namespace View

variable (view : View)

def account : Option Address := view.walletSession.address

def walletChainId : Option Nat := view.walletSession.provider.chainId

def session : Session where
  authenticated := view.authenticated
  identityKey := view.identityKey
  epoch := view.walletSession.epoch
  status := view.walletSession.status
  verifiedAddress := view.walletSession.verifiedAddress

def cleanupKey : CleanupKey where
  session := view.session
  walletChainId := view.walletChainId
  walletClientId := view.walletClient.map (·.uid)

def financialAuthorized : Bool :=
  view.clientReady && view.accountStatus = .signedInReady &&
    view.walletSession.status = .connected

def requireVerified : Except String Unit :=
  if view.deploymentVerified then .ok ()
  else .error "CONFIGURATION_MISSING:deployment integrity not verified"

/-- The clients of the captured session. -/
def clients (ethereum requireEthereum : Bool) : Except String PrivateBalanceClients :=
  match view.publicClient, view.walletClient, view.account with
  | true, some walletClient, some account =>
    if requireEthereum && !ethereum then
      .error "UNSUPPORTED_WALLET:ethereum-provider-required"
    else .ok { walletAccount := walletClient.account, account }
  | _, _, _ => .error "UNSUPPORTED_WALLET"

end View

/-! ### What is on display -/

/-- Who revealed a value: the account it was decrypted for, the session the reveal captured and
how many clean-ups after a change of session had run when it began. -/
structure Origin where
  account : Address
  session : Session
  begun : Nat
  deriving DecidableEq, Repr

/-- A decrypted value on display. -/
structure Shown where
  value : Nat
  origin : Origin
  deriving DecidableEq, Repr

/-- A record of one value for each vault, after a write. -/
def record {α : Type} (items : List (VaultId × α)) (slug : VaultId) (item : α) :
    List (VaultId × α) :=
  (slug, item) :: items.filter (·.1 ≠ slug)

theorem mem_record {α : Type} {items : List (VaultId × α)} {slug : VaultId} {item : α}
    {entry : VaultId × α} (h : entry ∈ record items slug item) :
    entry = (slug, item) ∨ entry ∈ items := by
  rcases List.mem_cons.1 h with h | h
  · exact .inl h
  · exact .inr (List.mem_of_mem_filter h)

/-! ### What is awaited -/

/-- `/stale_handle/` in the lower-case text. -/
def isStaleHandle (technical : String) : Bool :=
  (technical.toLower.splitOn "stale_handle").length ≠ 1

/-- The local variables of `revealPrivateBalance`. -/
structure BalanceReveal where
  runId : Nat
  chainId : Option Nat
  revealAccount : Option Address
  token : Option Address
  handle : Option Handle
  stage : PrivateBalanceRevealStage
  deriving DecidableEq, Repr

/-- Where `revealPrivateBalance` awaits. -/
inductive BalanceAwait
  | access
  | chainId (clients : PrivateBalanceClients) (token : Address)
  | requested (clients : PrivateBalanceClients) (token : Address)
  | decrypting (clients : PrivateBalanceClients) (token : Address)
      (requested : PrivateBalanceIdentity)
  /-- The clients are the current ones of the call, if it had any. -/
  | revalidating (current : Except String PrivateBalanceClients) (token : Address)
      (requested : PrivateBalanceIdentity) (value : Nat)
  | settled (identity : PrivateBalanceIdentity) (value : Nat)
  deriving DecidableEq, Repr

/-- The reveals of one vault. -/
inductive VaultReveal
  | vault
  | result
  | eligibility
  deriving DecidableEq, Repr

/-- Where the reveal of a vault awaits. -/
inductive VaultAwait
  | access
  | handle (clients : PrivateBalanceClients) (vaultAddress : Address)
  | materializing (clients : PrivateBalanceClients) (vaultAddress : Address) (roundId : Nat)
  | receipt (clients : PrivateBalanceClients) (vaultAddress : Address) (roundId : Nat)
      (hash : String)
  | decrypting (clients : PrivateBalanceClients) (vaultAddress : Address) (handle : Handle)
  deriving DecidableEq, Repr

inductive RevealWork
  | balance (locals : BalanceReveal) (await : BalanceAwait)
  | vault (reveal : VaultReveal) (slug : VaultId) (await : VaultAwait)
  /-- `refreshPrivateBalanceHandle`, at its read. -/
  | refresh (runId : Nat) (clients : PrivateBalanceClients) (token : Address)
  deriving DecidableEq, Repr

/-- Work in flight of a callback that captured a render and began after so many clean-ups. -/
structure Reveal where
  work : RevealWork
  view : View
  begun : Nat
  deriving DecidableEq, Repr

/-- An event of `materializeMyRoundWeight`. -/
structure RoundWeightMaterialized where
  roundId : Nat
  account : Address
  handle : Handle
  deriving DecidableEq, Repr

/-- What an await answers. -/
inductive RevealReply
  | done
  | chain (chainId : Nat)
  /-- The chains of the signer and of the public client, and the handle. -/
  | identity (signerChainId publicChainId : Nat) (handle : Handle)
  /-- The chains, and the value. -/
  | decrypted (signerChainId publicChainId value : Nat)
  | handle (handle : Handle)
  | hash (hash : String)
  | receipt (logs : List RoundWeightMaterialized)
  | clear (value : Nat)
  /-- The await threw. -/
  | failed (message : String)
  deriving DecidableEq, Repr

end Leopold.Frontend
