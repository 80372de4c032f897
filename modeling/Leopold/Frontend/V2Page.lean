import Leopold.Frontend.Transactions
import Leopold.Lib.Transition

/-!
# The V2 page and its writes

The page as a step relation: its action state, the recovery of an Add Money operation, the records
it keeps in the browser and the asynchronous work in flight.  Every step is one synchronous piece
of code: a callback up to its first await, or the continuation after one.  The transactions of the
page are listed beside it; whether one will succeed is settled when it is broadcast and seen when
its receipt is read.
-/

namespace Leopold.Frontend

def V2_PREVIEW_CHAIN_ID : Nat := 11155111

/-- The kind under which Add Money runs. -/
def addMoneyKind : String := "v2-add-money"

/-- The kinds under which the other operations of the page run. -/
def otherKinds : List String :=
  ["v2-withdraw-savings", "v2-entry-balance-top-up", "v2-entry-balance-withdraw",
    "v2-prize-savings-enable", "v2-prize-savings-disable", "v2-reveal-savings", "v2-reveal-result"]

/-- `addMoneyTransactionStage(stage, "confirming")`, with `"confirming"` where there is no stage. -/
def confirmingStage : Option V2AddMoneyStage → TransactionStage
  | none => .confirming
  | some .approval => .approvalConfirming
  | some .wrap => .wrapConfirming
  | some .save => .saveConfirming

/-- What an operation throws, by what `runAction` makes of its text: the write it names and
whether the write was reverted. -/
inductive V2ActionError
  | write (stage : Option V2AddMoneyStage)
  | reverted (stage : Option V2AddMoneyStage)
  | other
  deriving DecidableEq, Repr

def addMoneyStageFromError : V2ActionError → Option V2AddMoneyStage
  | .write stage | .reverted stage => stage
  | .other => none

def V2ActionError.isReverted : V2ActionError → Bool
  | .reverted _ => true
  | _ => false

/-- The operation that `runAction` is given. -/
inductive V2Plan
  | addMoney (amount : Nat)
  | resumeAfterApproval (amount : Nat)
  | resumeSave (amount : Nat)
  | other
  deriving DecidableEq, Repr

def V2Plan.amount : V2Plan → Nat
  | addMoney amount | resumeAfterApproval amount | resumeSave amount => amount
  | other => 0

/-- Where a run awaits: the session, the reads of an operation, a write up to its signature, a
receipt; another operation awaits between its writes. -/
inductive V2Await
  | session
  | balances
  | allowance
  | allowanceAfter
  | encrypt
  | write (stage : V2AddMoneyStage)
  | receipt (stage : Option V2AddMoneyStage) (hash : Hash)
  | other
  deriving DecidableEq, Repr

inductive ResumeStage
  | wrap
  | save
  deriving DecidableEq, Repr

structure AddMoneyRecovery where
  operationId : String
  resumeStage : ResumeStage
  amount : Nat
  hashes : List Hash
  confirmedStages : List V2AddMoneyStage
  deriving DecidableEq, Repr

/-- The local variables of `runAction`. -/
structure V2Run where
  kind : String
  plan : V2Plan
  /-- `options.operationId` was given. -/
  resumed : Bool
  operationId : String
  operationAccount : Option String
  writeIndex : Nat
  hashes : List Hash
  confirmedStages : List V2AddMoneyStage
  lastWriteStage : Option V2AddMoneyStage
  await : V2Await
  /-- How many approvals of the operation were confirmed when it began. -/
  approvals : Nat
  deriving DecidableEq, Repr

/-- What `discoverAddMoneyRecovery` reads the chain for, and the runs that had begun by then. -/
structure V2Discovery where
  account : String
  operationId : String
  resumeStage : ResumeStage
  hash : Hash
  hashes : List Hash
  confirmedStages : List V2AddMoneyStage
  begun : Nat
  deriving DecidableEq, Repr

inductive V2ActionStatus
  | idle
  | running
  | pending
  | success
  | error
  deriving DecidableEq, Repr

structure V2ActionState where
  status : V2ActionStatus
  kind : Option String
  hashes : List Hash
  recoveryRequired : Bool
  deriving DecidableEq, Repr

def failureId (operationId : String) : String := operationId ++ ":failure"

def writeId (operationId : String) (writeIndex : Nat) : String :=
  operationId ++ ":write:" ++ toString writeIndex

/-- A transaction that was broadcast, with the write index its hash was stored under. -/
structure V2Write where
  index : Nat
  operationId : String
  stage : Option V2AddMoneyStage
  amount : Nat
  account : String
  hash : Hash
  /-- What its receipt says. -/
  success : Bool
  /-- Its receipt was read. -/
  read : Bool
  deriving DecidableEq, Repr

/-- The id of the record the hash was stored under. -/
def V2Write.id (write : V2Write) : String := writeId write.operationId write.index

structure V2Page where
  stored : List SafeTransactionRecord
  now : Nat
  readAccount : Option String
  writes : List V2Write
  /-- The operation ids that were drawn. -/
  operations : List String
  action : V2ActionState
  addMoneyRecovery : Option AddMoneyRecovery
  addMoneyRecoveryBlocked : Bool
  /-- The runs that have begun. -/
  begun : Nat
  runs : List V2Run
  discoveries : List V2Discovery
  /-- The records each reconciliation has yet to read. -/
  reconciliations : List (List SafeTransactionRecord)
  deriving DecidableEq, Repr

/-- The answer of an await. -/
inductive V2Reply
  | ready (account operationId : String)
  | balances (balance allowance : Nat)
  | allowance (allowance : Nat)
  | done
  | signed (hash : Hash) (success : Bool)
  | receipt
  /-- The await threw; a receipt could not be read. -/
  | failed
  deriving DecidableEq, Repr

namespace V2Page

variable (s : V2Page)

/-- The records of an account on this chain. -/
def records (account : String) : List SafeTransactionRecord :=
  (loadSafeTransactions s.stored account).filter (·.chainId = V2_PREVIEW_CHAIN_ID)

def isBusy : Bool := s.action.status = .running || s.action.status = .pending

def setAction (action : V2ActionState) : V2Page := { s with action }

/-! ### Records of a run -/

/-- The record that `persistRecord` stores for an account. -/
def runRecord (run : V2Run) (account : String) (stage : TransactionStage) (hash : Option Hash)
    (errorStage : Option TransactionStage) (operationStage : Option V2AddMoneyStage) :
    SafeTransactionRecord where
  id :=
    if errorStage.isSome then failureId run.operationId
    else if (givenHash hash).isSome then writeId run.operationId run.writeIndex
    else run.operationId
  kind := run.kind
  operationId := some run.operationId
  operationStage := operationStage
  hash := hash
  chainId := V2_PREVIEW_CHAIN_ID
  account := account
  stage := stage
  errorStage := errorStage
  updatedAt := s.now

/-- `persistRecord`; before the session was checked it does nothing. -/
def persistRecord (run : V2Run) (stage : TransactionStage) (hash : Option Hash)
    (errorStage : Option TransactionStage) (operationStage : Option V2AddMoneyStage) : V2Page :=
  { s with
    stored :=
      match run.operationAccount with
      | none => s.stored
      | some account =>
        persistSafeTransaction s.stored
          (s.runRecord run account stage hash errorStage operationStage) }

/-- The run awaits something else. -/
def goOn (run : V2Run) (await : V2Await) : V2Page :=
  { s with runs := { run with await } :: s.runs }

/-- The end of `runAction` after the operation returned. -/
def finish (run : V2Run) : V2Page :=
  let s := s.persistRecord run .complete run.hashes.getLast? none run.lastWriteStage
  let s :=
    if run.kind = addMoneyKind then
      { s with addMoneyRecovery := none, addMoneyRecoveryBlocked := false }
    else s
  s.setAction ⟨.success, some run.kind, run.hashes, false⟩

/-- The `catch` of `runAction`. -/
def fail (run : V2Run) (error : V2ActionError) : V2Page :=
  let s := s.persistRecord run .failed (if error.isReverted then run.hashes.getLast? else none)
    (some .failed) ((addMoneyStageFromError error).or run.lastWriteStage)
  let hasCompletedAddMoneyStage :=
    run.kind = addMoneyKind && !run.confirmedStages.isEmpty && !run.confirmedStages.contains .save
  { s with
    addMoneyRecoveryBlocked := s.addMoneyRecoveryBlocked || hasCompletedAddMoneyStage }.setAction
    ⟨.error, some run.kind, run.hashes, !run.hashes.isEmpty⟩

/-- The `catch` of `runAction`, when the receipt could not be read. -/
def pend (run : V2Run) (stage : Option V2AddMoneyStage) (hash : Hash) : V2Page :=
  let pendingStage := stage.or run.lastWriteStage
  (s.persistRecord run (confirmingStage pendingStage) (some hash) none pendingStage).setAction
    ⟨.pending, some run.kind, run.hashes, true⟩

/-! ### `runAction` -/

/-- `runAction` up to its first await. -/
def runAction (kind : String) (plan : V2Plan) (options : Option AddMoneyRecovery) : V2Page :=
  if s.isBusy then s
  else
    let unresolved := s.readAccount.bind fun account =>
      (s.records account).find? isUnresolvedV2Transaction
    match unresolved.bind fun record => (givenHash record.hash).map (record, ·) with
    | some (record, hash) => s.setAction ⟨.pending, some record.kind, [hash], true⟩
    | none =>
      let hashes := (options.map (·.hashes)).getD []
      let operationId := (options.map (·.operationId)).getD ""
      let confirmedStages := (options.map (·.confirmedStages)).getD []
      let confirmed := s.writes.filter fun write =>
        write.operationId = operationId ∧ write.stage = some .approval ∧ write.success
      { s with
        begun := s.begun + 1
        runs := {
          kind
          plan
          resumed := options.isSome
          operationId
          operationAccount := none
          writeIndex := hashes.length
          hashes
          confirmedStages
          lastWriteStage := none
          await := .session
          approvals := confirmed.length } :: s.runs }.setAction ⟨.running, some kind, hashes, false⟩

/-- The operation begins, in a checked session. -/
def operation (run : V2Run) : V2Page :=
  if run.plan ≠ .other ∧ run.plan.amount = 0 then s.fail run .other
  else
    match run.plan with
    | .addMoney _ => s.goOn run .balances
    | .resumeAfterApproval _ => s.goOn run .allowance
    | .resumeSave _ => s.goOn run .encrypt
    | .other => s.goOn run .other

/-- The session was checked; a new operation draws its id. -/
def ready (run : V2Run) (account operationId : String) : V2Page :=
  if run.resumed then s.operation { run with operationAccount := some account }
  else
    let run := { run with operationAccount := some account, operationId }
    let s := { s with operations := operationId :: s.operations }
    (s.persistRecord run .wallet none none none).operation run

/-- The local variables of a run after it got a hash. -/
def sent (run : V2Run) (stage : Option V2AddMoneyStage) (hash : Hash) : V2Run :=
  { run with
    writeIndex := run.writeIndex + 1
    hashes := run.hashes ++ [hash]
    lastWriteStage := stage }

/-- The transaction of the hash a run got last. -/
def sentWrite (run : V2Run) (stage : Option V2AddMoneyStage) (hash : Hash) (success : Bool) :
    V2Write where
  index := run.writeIndex
  operationId := run.operationId
  stage := stage
  amount := run.plan.amount
  account := run.operationAccount.getD ""
  hash := hash
  success := success
  read := false

/-- `onHash`. -/
def onHash (run : V2Run) (stage : Option V2AddMoneyStage) (hash : Hash) (success : Bool) : V2Page :=
  let run := sent run stage hash
  let s := { s with writes := sentWrite run stage hash success :: s.writes }
  let s := s.persistRecord run (confirmingStage stage) (some hash) none stage
  (s.setAction { s.action with hashes := run.hashes }).goOn run (.receipt stage hash)

/-- The receipt of a hash was read. -/
def noteRead (hash : Hash) : V2Page :=
  { s with
    writes := s.writes.map fun write => if write.hash = hash then { write with read := true } else write }

/-- The receipt of a hash says that it succeeded. -/
def succeeded (hash : Hash) : Bool :=
  s.writes.any fun write => write.hash = hash && write.success

/-- What an operation does after its write was confirmed. -/
def afterWrite (run : V2Run) : Option V2AddMoneyStage → V2Page
  | some .approval => s.goOn run .allowanceAfter
  | some .wrap => s.goOn run .encrypt
  | some .save => s.finish run
  | none => s.goOn run .other

/-- The receipt was read: `onReceipt`, or the write was reverted. -/
def onReceipt (run : V2Run) (stage : Option V2AddMoneyStage) (hash : Hash) : V2Page :=
  let s := s.noteRead hash
  if !s.succeeded hash then s.fail run (.reverted stage)
  else
    let run := { run with
      lastWriteStage := stage.or run.lastWriteStage
      confirmedStages := run.confirmedStages ++ stage.toList }
    (s.persistRecord run .complete (some hash) none stage).afterWrite run stage

/-- The continuation of a run that is no longer in flight. -/
def resume (run : V2Run) : V2Await → V2Reply → V2Page
  | .session, .ready account operationId => s.ready run account operationId
  | .balances, .balances balance allowance =>
    if balance < run.plan.amount then s.fail run .other
    else if allowance < run.plan.amount then s.goOn run (.write .approval)
    else s.goOn run (.write .wrap)
  | .allowance, .allowance allowance =>
    if allowance < run.plan.amount then s.goOn run .balances else s.goOn run (.write .wrap)
  | .allowanceAfter, .allowance allowance =>
    if allowance < run.plan.amount then s.fail run .other else s.goOn run (.write .wrap)
  | .encrypt, .done => s.goOn run (.write .save)
  | .write stage, .signed hash success => s.onHash run (some stage) hash success
  | .write stage, .failed => s.fail run (.write (some stage))
  | .receipt stage hash, .receipt => s.onReceipt run stage hash
  | .receipt stage hash, .failed => s.pend run stage hash
  | .other, .signed hash success => s.onHash run none hash success
  | .other, .done => s.finish run
  | _, .failed => s.fail run .other
  | await, _ => s.goOn run await

/-! ### `reconcilePendingTransactions` -/

def pendingTransactions : List SafeTransactionRecord :=
  match s.readAccount with
  | none => []
  | some account => (s.records account).filter isUnresolvedV2Transaction

def reconcilePendingTransactions : V2Page :=
  match s.pendingTransactions with
  | [] => s
  | first :: rest =>
    let pending := first :: rest
    let action : V2ActionState :=
      if s.action.status = .idle then ⟨.pending, some first.kind, pending.filterMap (givenHash ·.hash), true⟩
      else s.action
    { s with reconciliations := pending :: s.reconciliations }.setAction action

/-- The receipt of the first record was read, or it was not there. -/
def reconciled (record : SafeTransactionRecord) (rest : List SafeTransactionRecord)
    (receipt : Option Bool) : V2Page :=
  let s := if rest = [] then s else { s with reconciliations := rest :: s.reconciliations }
  match givenHash record.hash, receipt with
  | some hash, some success =>
    let s := s.noteRead hash
    let s := { s with
      stored := persistSafeTransaction s.stored { record with
        stage := if success then .complete else .failed
        errorStage := if success then none else some .failed
        updatedAt := s.now } }
    if s.action.status = .pending ∧ hash ∈ s.action.hashes then
      s.setAction { s.action with
        status := if success then .success else .error
        recoveryRequired := false }
    else s
  | _, _ => s

/-! ### `discoverAddMoneyRecovery` -/

/-- The hash of a record that is complete. -/
def completedHash (record : Option SafeTransactionRecord) : Option Hash :=
  (record.filter (·.stage = .complete)).bind (givenHash ·.hash)

/-- What the checkpoint asks to be read, if it asks for anything. -/
def askCheckpoint (account : String) (checkpoint : V2AddMoneyCheckpoint) : Option V2Discovery :=
  let unresolved (record : Option SafeTransactionRecord) := record.any isUnresolvedV2Transaction
  if (checkpoint.save.map (·.stage)) = some .complete then none
  else if unresolved checkpoint.approval || unresolved checkpoint.wrap || unresolved checkpoint.save
  then none
  else
    let completedApproval := completedHash checkpoint.approval
    let completedWrap := completedHash checkpoint.wrap
    let hashes := completedApproval.toList ++ completedWrap.toList
    match completedWrap, completedApproval with
    | some hash, _ => some {
        account
        operationId := checkpoint.operationId
        resumeStage := .save
        hash
        hashes
        confirmedStages := if completedApproval.isSome then [.approval, .wrap] else [.wrap]
        begun := s.begun }
    | none, some hash => some {
        account
        operationId := checkpoint.operationId
        resumeStage := .wrap
        hash
        hashes
        confirmedStages := [.approval]
        begun := s.begun }
    | none, none => none

/-- What the stored records ask to be read. -/
def ask (account : String) : Option V2Discovery :=
  (findLatestV2AddMoneyCheckpoint (s.records account)).bind (s.askCheckpoint account)

def discoverAddMoneyRecovery : V2Page :=
  match s.readAccount with
  | none => s
  | some account =>
    if s.isBusy then s
    else
      match findLatestV2AddMoneyCheckpoint (s.records account) with
      | none => { s with addMoneyRecoveryBlocked := false }
      | some checkpoint =>
        match s.askCheckpoint account checkpoint with
        | none => s
        | some discovery => { s with discoveries := discovery :: s.discoveries }

/-- `recoverConfirmedV2Wrap` and `recoverConfirmedV2Approval`: the amount of a transaction of the
account that did the stage and succeeded. -/
def recoverConfirmed (account : String) (stage : ResumeStage) (hash : Hash) : Option Nat :=
  ((s.writes.find? (·.hash = hash)).filter fun write =>
    write.success && sameAccount write.account account && 0 < write.amount &&
      write.stage = some (match stage with | .save => .wrap | .wrap => .approval)).map (·.amount)

/-- The chain was read, if it could be. -/
def discovered (discovery : V2Discovery) (readable : Bool) : V2Page :=
  match (if readable then s.recoverConfirmed discovery.account discovery.resumeStage discovery.hash
    else none) with
  | some amount =>
    { s with
      addMoneyRecoveryBlocked := false
      addMoneyRecovery := some {
        operationId := discovery.operationId
        resumeStage := discovery.resumeStage
        amount
        hashes := discovery.hashes
        confirmedStages := discovery.confirmedStages } }.setAction
      ⟨.error, some addMoneyKind, discovery.hashes, true⟩
  | none =>
    { s with addMoneyRecoveryBlocked := true, addMoneyRecovery := none }.setAction
      ⟨.error, some addMoneyKind, discovery.hashes, true⟩

/-- `submitDialog`, for Add Money. -/
def submitAddMoney (amount : Nat) : V2Page :=
  if s.addMoneyRecoveryBlocked then s
  else
    match s.addMoneyRecovery with
    | some recovery =>
      s.runAction addMoneyKind
        (match recovery.resumeStage with
        | .save => .resumeSave recovery.amount
        | .wrap => .resumeAfterApproval recovery.amount) (some recovery)
    | none => s.runAction addMoneyKind (.addMoney amount) none

/-! ### Steps -/

/-- A page that was loaded, with what the browser has stored. -/
def load (stored : List SafeTransactionRecord) (now : Nat) (readAccount : Option String) :
    V2Page where
  stored := stored
  now := now
  readAccount := readAccount
  writes := []
  operations := []
  action := ⟨.idle, none, [], false⟩
  addMoneyRecovery := none
  addMoneyRecoveryBlocked := false
  begun := 0
  runs := []
  discoveries := []
  reconciliations := []

/-- A reload ends what the page awaits; the wallet drops the request of a page that is gone. -/
def reload : V2Page :=
  { s with
    action := ⟨.idle, none, [], false⟩
    addMoneyRecovery := none
    addMoneyRecoveryBlocked := false
    runs := []
    discoveries := []
    reconciliations := [] }

inductive Label
  | tick (now : Nat)
  | account (readAccount : Option String)
  /-- Another part of the application stores a record. -/
  | persist (record : SafeTransactionRecord)
  | reload
  | submitAddMoney (amount : Nat)
  | run (kind : String)
  | resume (run : V2Run) (reply : V2Reply)
  | reconcile
  | reconciled (record : SafeTransactionRecord) (rest : List SafeTransactionRecord)
      (receipt : Option Bool)
  | discover
  | discovered (discovery : V2Discovery) (readable : Bool)
  deriving DecidableEq, Repr

/-- The state after a step. -/
def next : Label → V2Page
  | .tick now => { s with now }
  | .account readAccount => { s with readAccount }
  | .persist record => { s with stored := persistSafeTransaction s.stored record }
  | .reload => s.reload
  | .submitAddMoney amount => s.submitAddMoney amount
  | .run kind => s.runAction kind .other none
  | .resume run reply => { s with runs := s.runs.erase run }.resume run run.await reply
  | .reconcile => s.reconcilePendingTransactions
  | .reconciled record rest receipt =>
    { s with reconciliations := s.reconciliations.erase (record :: rest) }.reconciled record rest
      receipt
  | .discover => s.discoverAddMoneyRecovery
  | .discovered discovery readable =>
    { s with discoveries := s.discoveries.erase discovery }.discovered discovery readable

/-- What a run can be answered: an operation id that is new, a hash that is new, neither of them
empty. -/
def Answers (run : V2Run) : V2Reply → Prop
  | .ready _ operationId =>
    run.resumed = true ∨ operationId ∉ s.operations ∧ operationId ≠ ""
  | .signed hash _ => hash ≠ "" ∧ ∀ write ∈ s.writes, write.hash ≠ hash
  | _ => True

/-- The clock does not go back, only work in flight is resumed, and a receipt that is read says
what its transaction did. -/
def Enabled : Label → Prop
  | .tick now => s.now ≤ now
  | .run kind => kind ∈ otherKinds
  | .resume run reply => run ∈ s.runs ∧ s.Answers run reply
  | .reconciled record rest receipt =>
    record :: rest ∈ s.reconciliations ∧
      ∀ write ∈ s.writes, record.hash = some write.hash → ∀ success, receipt = some success →
        success = write.success
  | .discovered discovery _ => discovery ∈ s.discoveries
  | _ => True

instance (run : V2Run) (reply : V2Reply) : Decidable (s.Answers run reply) := by
  unfold Answers
  split <;> infer_instance

instance (label : Label) : Decidable (s.Enabled label) := by
  unfold Enabled
  split <;> infer_instance

def system (stored : List SafeTransactionRecord) (now : Nat) (readAccount : Option String) :
    Lib.TransitionSystem V2Page Label where
  init s := s = load stored now readAccount
  step s label s' := s.Enabled label ∧ s' = s.next label

end V2Page

end Leopold.Frontend
