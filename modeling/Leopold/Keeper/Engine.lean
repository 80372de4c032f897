import Leopold.Keeper.Journal
import Leopold.Keeper.Planner
import Leopold.Lib.Interaction

/-!
# The keeper engine

`runOnce` and the functions it is made of, as programs that ask the gateway, the journal and the
clock.  An exception is represented by the code `safeErrorCode` gives it; logging is left out.
-/

namespace Leopold.Keeper

open Lib

inductive BlockTag
  | latest
  | pending
  deriving DecidableEq

/-- The calls of the engine that are awaited or read the clock. -/
inductive Request
  | getChainId
  | getKeeperBalance
  | readSnapshot (hint : Option SnapshotReadHint)
  | encodeAction (action : LifecycleAction)
  | simulate (action : LifecycleAction) (data : String)
  | sign (action : LifecycleAction) (data : String)
  | broadcast (transaction : SignedLifecycleTransaction)
  | getReceipt (hash : String)
  | getTransaction (hash : String)
  | getTransactionCount (tag : BlockTag)
  | list
  | put (entry : JournalEntry)
  | now
  | sleep (milliseconds : Nat)

/-- What a call returns.  The clock returns milliseconds, `getTransaction` a nonce. -/
@[reducible] def Answer : Request → Type
  | .getChainId => Nat
  | .getKeeperBalance => Int
  | .readSnapshot _ => ProtocolSnapshot
  | .encodeAction _ => String
  | .simulate .. => Unit
  | .sign .. => SignedLifecycleTransaction
  | .broadcast _ => String
  | .getReceipt _ => Option ReceiptView
  | .getTransaction _ => Option Nat
  | .getTransactionCount _ => Nat
  | .list => List JournalEntry
  | .put _ => Unit
  | .now => Nat
  | .sleep _ => Unit

/-- A call returns or throws. -/
abbrev Response (r : Request) : Type := Except String (Answer r)

abbrev KeeperM (α : Type) : Type := ExceptT String (Program Request Response) α

def call (r : Request) : KeeperM (Answer r) := ExceptT.mk (.ask r .done)

/-- The options of the engine, and how dates are written and read. -/
structure EngineOptions where
  minimumBalanceWei : Int
  maximumBalanceWei : Int
  confirmations : Nat
  receiptWaitMs : Nat
  receiptPollMs : Nat
  toISOString : Nat → String
  getTime : String → Int

inductive KeeperRunResult
  | idle
  | blocked (actionKey : String) (status : JournalStatus)
  | submitted (actionKey txHash : String)
  | settled (outcome : JournalStatus) (actionKey txHash : String)
  deriving DecidableEq

/-- `unresolvedStatuses`. -/
def JournalStatus.isUnresolved : JournalStatus → Bool
  | .prepared | .submitted | .confirmed | .unknown | .reverted => true
  | .reconciled | .obsolete | .reorged => false

/-- The statuses of an attempt that is never retried. -/
def JournalStatus.isForensic : JournalStatus → Bool
  | .unknown | .reverted => true
  | _ => false

/-- What a reconciliation adds to an entry besides its status. -/
structure UpdateOptions where
  blockNumber : Option Int := none
  blockHash : Option String := none
  confirmations : Option Int := none
  errorCode : Option String := none

def balanceWithinLimits (balance minimum maximum : Int) : Bool :=
  0 ≤ minimum && 0 < maximum && minimum ≤ maximum && minimum ≤ balance && balance ≤ maximum

namespace Engine

variable (options : EngineOptions)

def updateEntry (entry : JournalEntry) (status : JournalStatus) (now : Nat)
    (update : UpdateOptions) : JournalEntry :=
  let transition : JournalTransition := {
    status
    «at» := options.toISOString now
    blockNumber := update.blockNumber
    blockHash := update.blockHash
    confirmations := update.confirmations
    errorCode := update.errorCode }
  { entry with
    status
    updatedAt := options.toISOString now
    blockNumber := update.blockNumber.or entry.blockNumber
    blockHash := update.blockHash.or entry.blockHash
    confirmations := update.confirmations.or entry.confirmations
    errorCode := update.errorCode.or entry.errorCode
    history := entry.history ++ [transition] }

def journalEntryForPrepared (action : LifecycleAction) (transaction : SignedLifecycleTransaction)
    (now : Nat) (replayOfAttemptId : Option String) : JournalEntry where
  attemptId := action.key ++ ":" ++ transaction.hash.toLower
  replayOfAttemptId := replayOfAttemptId
  actionKey := action.key
  vault := action.vault.address
  vaultName := action.vault.name
  roundId := toString action.roundId
  action := action.kind
  cursor := action.cursor.map toString
  account := action.account
  txHash := transaction.hash
  calldataHash := transaction.calldataHash
  nonce := transaction.nonce
  submittedAt := options.toISOString now
  updatedAt := options.toISOString now
  status := .prepared
  blockNumber := none
  blockHash := none
  confirmations := none
  errorCode := none
  history := [{
    status := .prepared
    «at» := options.toISOString now
    blockNumber := none
    blockHash := none
    confirmations := none
    errorCode := none }]

def preflight : KeeperM Int := do
  let chainId : Nat ← call .getChainId
  if chainId ≠ SEPOLIA_CHAIN_ID then throw "Error"
  let balance : Int ← call .getKeeperBalance
  if !balanceWithinLimits balance options.minimumBalanceWei options.maximumBalanceWei then
    throw "Error"
  return balance

/-- The hint of an entry: its vault and round, and its account for auto-entry work. -/
def entryHint (entry : JournalEntry) : SnapshotReadHint where
  vaultAddress := entry.vault
  account := if entry.action.isAccountAction then entry.account else none
  roundId := bigInt entry.roundId

def actionHint (action : LifecycleAction) : SnapshotReadHint where
  vaultAddress := action.vault.address
  account := if action.kind.isAccountAction then action.account else none
  roundId := some action.roundId

def actionFromEntry (snapshot : ProtocolSnapshot) (entry : JournalEntry) :
    Option LifecycleAction :=
  (findVault snapshot entry.vault).bind fun vault =>
    (bigInt entry.roundId).map fun roundId => {
      key := entry.actionKey
      kind := entry.action
      vault := vault.vault
      roundId
      cursor := entry.cursor.bind bigInt
      account := entry.account }

/-- The entry's action is still required. -/
def isEntryRequired (snapshot : ProtocolSnapshot) (entry : JournalEntry) : Bool :=
  (actionFromEntry snapshot entry).any (isActionRequired snapshot)

/-- The entry with a new status, after it is stored. -/
def store (entry : JournalEntry) (status : JournalStatus) (update : UpdateOptions) :
    KeeperM JournalEntry := do
  let now : Nat ← call .now
  let updated := updateEntry options entry status now update
  call (.put updated)
  return updated

def receiptUpdate (receipt : ReceiptView) (errorCode : Option String) : UpdateOptions where
  blockNumber := some receipt.blockNumber
  blockHash := some receipt.blockHash
  confirmations := some receipt.confirmations
  errorCode := errorCode

/-- The branch of `#reconcileEntry` for an attempt with a receipt. -/
def reconcileReceipt (entry : JournalEntry) (receipt : ReceiptView) (required : Bool) :
    KeeperM JournalEntry :=
  if receipt.confirmations < options.confirmations then
    store options entry .confirmed (receiptUpdate receipt (some "WAITING_CONFIRMATIONS"))
  else if receipt.status = 1 ∧ required = false then
    store options entry .reconciled (receiptUpdate receipt none)
  else if receipt.status = 0 ∧ required = false then
    store options entry .obsolete (receiptUpdate receipt none)
  else if receipt.status = 0 then
    store options entry .reverted (receiptUpdate receipt (some "TRANSACTION_REVERTED"))
  else
    store options entry .unknown (receiptUpdate receipt (some "CONFIRMED_STATE_UNCHANGED"))

/-- The branch of `#reconcileEntry` for an attempt without a receipt. -/
def reconcileMissing (entry : JournalEntry) (required : Bool) : KeeperM JournalEntry := do
  let transaction : Option Nat ← call (.getTransaction entry.txHash)
  if transaction.isSome then
    return ← store options entry .submitted {}
  let now : Nat ← call .now
  if (entry.status = .prepared ∨ entry.status = .submitted) ∧
      (now : Int) - options.getTime entry.submittedAt < options.receiptWaitMs then
    return entry
  if required = false then
    return ← store options entry .obsolete { errorCode := some "STATE_ADVANCED_EXTERNALLY" }
  if entry.status = .confirmed then
    return ← store options entry .reorged { errorCode := some "REORGED_TRANSACTION_DROPPED" }
  let latestNonce : Nat ← call (.getTransactionCount .latest)
  let pendingNonce : Nat ← call (.getTransactionCount .pending)
  store options entry .unknown {
    errorCode := some (if entry.nonce < latestNonce ∨ entry.nonce < pendingNonce then
      "NONCE_CONSUMED_OUTCOME_UNKNOWN" else "TX_OUTCOME_UNKNOWN") }

def reconcileEntry (entry : JournalEntry) : KeeperM JournalEntry := do
  let receipt : Option ReceiptView ← call (.getReceipt entry.txHash)
  let snapshot : ProtocolSnapshot ← call (.readSnapshot (some (entryHint entry)))
  let required := isEntryRequired snapshot entry
  -- Unknown and reverted attempts are never retried, but somebody else may complete the action.
  if entry.status.isForensic then
    if required then return entry
    else store options entry .obsolete { errorCode := some "STATE_ADVANCED_EXTERNALLY" }
  else
    match receipt with
    | some receipt => reconcileReceipt options entry receipt required
    | none => reconcileMissing options entry required

/-- The first entry that stays unresolved. -/
def reconcileAll : List JournalEntry → KeeperM (Option JournalEntry)
  | [] => return none
  | entry :: rest => do
    let reconciled ← reconcileEntry options entry
    if reconciled.status.isUnresolved then return some reconciled
    else reconcileAll rest

def reconcileOutstanding : KeeperM (Option JournalEntry) := do
  let entries : List JournalEntry ← call .list
  reconcileAll options (entries.filter (·.status.isUnresolved))

/-- The polling loop; where the rounds end, the process does. -/
def waitLoop (deadline : Nat) : Nat → JournalEntry → KeeperM JournalEntry
  | 0, _ => throw "SIGTERM"
  | rounds + 1, current => do
    let current ← reconcileEntry options current
    if current.status ≠ .submitted ∧ current.status ≠ .confirmed then return current
    let now : Nat ← call .now
    if deadline ≤ now then return current
    call (.sleep options.receiptPollMs)
    waitLoop deadline rounds current

def waitAndReconcile (rounds : Nat) (entry : JournalEntry) : KeeperM JournalEntry := do
  let now : Nat ← call .now
  waitLoop options (now + options.receiptWaitMs) rounds entry

/-- The calldata of the action, or nothing if the action became unnecessary. -/
def prepareData (action : LifecycleAction) : KeeperM (Option String) :=
  tryCatch
    (do
      let data : String ← call (.encodeAction action)
      call (.simulate action data)
      return some data)
    fun error => do
      let snapshot : ProtocolSnapshot ← call (.readSnapshot (some (actionHint action)))
      if isActionRequired snapshot action then throw error
      else return none

/-- The guarded broadcast: the submitted entry, or the entry and the error at the exception. -/
def broadcastEntry (entry : JournalEntry) (transaction : SignedLifecycleTransaction) :
    KeeperM (Except (JournalEntry × String) JournalEntry) := do
  let sent ← tryCatch
    (do
      let broadcastHash : String ← call (.broadcast transaction)
      if broadcastHash.toLower ≠ transaction.hash.toLower then throw "Error"
      return none)
    fun error => return some error
  match sent with
  | some error => return .error (entry, error)
  | none =>
    let now : Nat ← call .now
    let submitted := updateEntry options entry .submitted now {}
    tryCatch
      (do
        call (.put submitted)
        return .ok submitted)
      fun error => return .error (submitted, error)

/-- Signs, journals, broadcasts and follows one transaction. -/
def submit (rounds : Nat) (action : LifecycleAction) (data : String)
    (replayOfAttemptId : Option String) : KeeperM KeeperRunResult := do
  let transaction : SignedLifecycleTransaction ← call (.sign action data)
  let balance : Int ← call .getKeeperBalance
  if !balanceWithinLimits balance options.minimumBalanceWei options.maximumBalanceWei then
    throw "Error"
  if (transaction.maximumCostWei : Int) > balance - options.minimumBalanceWei then
    throw "Error"
  let now : Nat ← call .now
  let entry := journalEntryForPrepared options action transaction now replayOfAttemptId
  call (.put entry)
  match ← broadcastEntry options entry transaction with
  | .error (entry, error) =>
    let _ ← store options entry .unknown { errorCode := some error }
    return .blocked action.key .unknown
  | .ok entry =>
    let finalEntry ← waitAndReconcile options rounds entry
    if finalEntry.status = .reconciled ∨ finalEntry.status = .obsolete then
      return .settled finalEntry.status action.key transaction.hash
    else if finalEntry.status = .submitted then
      return .submitted action.key transaction.hash
    else
      return .blocked action.key finalEntry.status

/-- The last journalled attempt at the action. -/
def previousAttempt (entries : List JournalEntry) (action : LifecycleAction) :
    Option JournalEntry :=
  (entries.filter (·.actionKey = action.key)).getLast?

/-- Plans one action and carries it out. -/
def perform (rounds : Nat) : KeeperM KeeperRunResult := do
  let snapshot : ProtocolSnapshot ← call (.readSnapshot none)
  if snapshot.chainId ≠ SEPOLIA_CHAIN_ID then throw "Error"
  match planNextAction snapshot with
  | none => return .idle
  | some action =>
    let entries : List JournalEntry ← call .list
    let previous := previousAttempt entries action
    match previous.filter (·.status.isUnresolved) with
    | some unresolved => return .blocked unresolved.actionKey unresolved.status
    | none =>
      match ← prepareData action with
      | none => return .idle
      | some data => submit options rounds action data (previous.map (·.attemptId))

def runOnce (rounds : Nat) : KeeperM KeeperRunResult := do
  let _ ← preflight options
  match ← reconcileOutstanding options with
  | some outstanding => return .blocked outstanding.actionKey outstanding.status
  | none => perform options rounds

end Engine

end Leopold.Keeper
