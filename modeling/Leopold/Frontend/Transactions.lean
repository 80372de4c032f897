import Leopold.Lib.Recent
import Mathlib.Data.List.Sort

/-!
# Public transaction records

The browser keeps the public side of a transaction (never an amount or a handle) in one list
under one storage key.  `loadSafeTransactions` reads the rows of one account and
`persistSafeTransaction` puts a row in front of them and writes the list back.
-/

namespace Leopold.Frontend

/-- A transaction hash, a hexadecimal text. -/
abbrev Hash := String

inductive TransactionStage
  | ready
  | wallet
  | submitted
  | confirming
  | approvalSimulating
  | approvalSignature
  | approvalSubmitted
  | approvalConfirming
  | allowanceRefresh
  | wrapSimulating
  | wrapSignature
  | wrapSubmitted
  | wrapConfirming
  | saveEncrypting
  | saveSimulating
  | saveSignature
  | saveSubmitted
  | saveConfirming
  | saveReceipt
  | savePostRefresh
  | withdrawRoundCheck
  | withdrawRoundAdvanceSimulating
  | withdrawRoundAdvanceSignature
  | withdrawRoundAdvanceSubmitted
  | withdrawRoundAdvanceConfirming
  | withdrawRefresh
  | withdrawSimulating
  | withdrawSignature
  | withdrawSubmitted
  | withdrawConfirming
  | withdrawReceipt
  | privateProcessing
  | complete
  | failed
  deriving DecidableEq, Repr

/-- The writes of an Add Money operation. -/
inductive V2AddMoneyStage
  | approval
  | wrap
  | save
  deriving DecidableEq, Repr

structure SafeTransactionRecord where
  id : String
  kind : String
  operationId : Option String
  operationStage : Option V2AddMoneyStage
  hash : Option Hash
  chainId : Nat
  account : String
  stage : TransactionStage
  errorStage : Option TransactionStage
  updatedAt : Nat
  deriving DecidableEq, Repr

/-- Two texts name one account: hexadecimal digits compare without case. -/
def sameAccount (a b : String) : Bool := a.toLower == b.toLower

theorem sameAccount_iff {a b : String} : sameAccount a b = true ↔ a.toLower = b.toLower :=
  beq_iff_eq

@[simp]
theorem sameAccount_self (a : String) : sameAccount a a = true := sameAccount_iff.2 rfl

/-- The hash, unless there is none; the empty text counts as none. -/
def givenHash (hash : Option Hash) : Option Hash := hash.filter (· ≠ "")

@[simp]
theorem givenHash_none : givenHash none = none := rfl

theorem givenHash_eq_some {hash : Option Hash} {h : Hash} :
    givenHash hash = some h ↔ hash = some h ∧ h ≠ "" := by
  simp only [givenHash, Option.filter_eq_some_iff, decide_eq_true_eq]

theorem givenHash_some {h : Hash} (hne : h ≠ "") : givenHash (some h) = some h :=
  givenHash_eq_some.2 ⟨rfl, hne⟩

def isUnresolvedV2Transaction (record : SafeTransactionRecord) : Bool :=
  record.kind.startsWith "v2-" &&
    (givenHash record.hash).isSome &&
    (record.stage == .submitted || record.stage == .confirming)

section Storage

variable (stored : List SafeTransactionRecord) (record : SafeTransactionRecord)

def loadSafeTransactions (account : String) : List SafeTransactionRecord :=
  (stored.filter fun item => sameAccount item.account account).take 20

/-- The list written back under the storage key. -/
def persistSafeTransaction : List SafeTransactionRecord :=
  let existing := (loadSafeTransactions stored record.account).filter (·.id ≠ record.id)
  (record :: existing).take 20

end Storage

/-! ### Add Money checkpoints -/

structure V2AddMoneyCheckpoint where
  operationId : String
  records : List SafeTransactionRecord
  approval : Option SafeTransactionRecord
  wrap : Option SafeTransactionRecord
  save : Option SafeTransactionRecord

/-- The operation a record is grouped under; the empty text counts as none. -/
def addMoneyGroup (record : SafeTransactionRecord) : Option String :=
  if record.kind ≠ "v2-add-money" then none else record.operationId.filter (· ≠ "")

/-- `grouped.set(key, [...group, record])` for groups in insertion order. -/
def addToGroup (key : String) (record : SafeTransactionRecord) :
    List (String × List SafeTransactionRecord) → List (String × List SafeTransactionRecord)
  | [] => [(key, [record])]
  | (k, group) :: rest =>
    if k = key then (k, group ++ [record]) :: rest else (k, group) :: addToGroup key record rest

def groupByOperation (records : List SafeTransactionRecord) :
    List (String × List SafeTransactionRecord) :=
  records.foldl
    (fun grouped record =>
      match addMoneyGroup record with
      | none => grouped
      | some key => addToGroup key record grouped)
    []

/-- Newest first; equally old records keep their order. -/
def sortByUpdatedAt (group : List SafeTransactionRecord) : List SafeTransactionRecord :=
  group.mergeSort fun left right => decide (right.updatedAt ≤ left.updatedAt)

/-- The time of a group is that of its first record. -/
def groupUpdatedAt (group : List SafeTransactionRecord) : Nat :=
  (group.head?.map (·.updatedAt)).getD 0

def latestForStage (operation : List SafeTransactionRecord) (stage : V2AddMoneyStage) :
    Option SafeTransactionRecord :=
  (operation.find? fun record => record.operationStage = some stage ∧ (givenHash record.hash).isSome).or
    (operation.find? fun record => record.operationStage = some stage)

def findLatestV2AddMoneyCheckpoint (records : List SafeTransactionRecord) :
    Option V2AddMoneyCheckpoint := do
  let groups := (groupByOperation records).map fun group => sortByUpdatedAt group.2
  let sorted := groups.mergeSort fun left right =>
    decide (groupUpdatedAt right ≤ groupUpdatedAt left)
  let operation ← sorted.head?
  let first ← operation.head?
  let operationId ← first.operationId.filter (· ≠ "")
  return {
    operationId
    records := operation
    approval := latestForStage operation .approval
    wrap := latestForStage operation .wrap
    save := latestForStage operation .save }

/-! ### What a write keeps -/

variable {stored : List SafeTransactionRecord} {record x : SafeTransactionRecord} {a b : String}

@[simp]
theorem mem_loadSafeTransactions_account (h : x ∈ loadSafeTransactions stored a) :
    sameAccount x.account a = true :=
  (List.mem_filter.1 (List.mem_of_mem_take h)).2

/-- The rows of a store in which every row belongs to the account. -/
theorem loadSafeTransactions_of_all (h : ∀ x ∈ stored, sameAccount x.account a = true) :
    loadSafeTransactions stored a = stored.take 20 := by
  rw [loadSafeTransactions, List.filter_eq_self.2 h]

/-- Everything left in the store belongs to the account of the record just written. -/
theorem persistSafeTransaction_account (h : x ∈ persistSafeTransaction stored record) :
    sameAccount x.account record.account = true := by
  rcases List.mem_cons.1 (List.mem_of_mem_take h) with rfl | hx
  · exact sameAccount_self _
  · exact mem_loadSafeTransactions_account (List.mem_filter.1 hx).1

theorem mem_persistSafeTransaction_self : record ∈ persistSafeTransaction stored record := by
  rw [persistSafeTransaction, List.take_succ_cons]
  exact List.mem_cons_self

theorem length_persistSafeTransaction_le : (persistSafeTransaction stored record).length ≤ 20 :=
  List.length_take_le _ _

/-- What an account with the same hexadecimal digits reads after a write is the whole store. -/
theorem loadSafeTransactions_persist_self (ha : sameAccount record.account a = true) :
    loadSafeTransactions (persistSafeTransaction stored record) a =
      persistSafeTransaction stored record := by
  rw [loadSafeTransactions_of_all, List.take_of_length_le length_persistSafeTransaction_le]
  intro x hx
  have := sameAccount_iff.1 (persistSafeTransaction_account hx)
  exact sameAccount_iff.2 (this.trans (sameAccount_iff.1 ha))

/-- Any other account reads nothing after a write. -/
theorem loadSafeTransactions_persist_other (ha : sameAccount record.account a = false) :
    loadSafeTransactions (persistSafeTransaction stored record) a = [] := by
  rw [loadSafeTransactions, List.filter_eq_nil_iff.2, List.take_nil]
  intro x hx hxa
  have := sameAccount_iff.1 (persistSafeTransaction_account hx)
  rw [sameAccount_iff.2 (this.symm.trans (sameAccount_iff.1 hxa))] at ha
  cases ha

/-- A row with another id survives the write of `record` if and only if few enough rows of its
account stand before it. -/
theorem mem_persistSafeTransaction_iff (hx : x.id ≠ record.id) :
    x ∈ persistSafeTransaction stored record ↔ ∃ before after,
      (stored.filter fun item => sameAccount item.account record.account) =
        before ++ x :: after ∧
      before.length < 20 ∧ (before.filter (·.id ≠ record.id)).length < 19 := by
  have hne : x ≠ record := fun h => hx (h ▸ rfl)
  rw [persistSafeTransaction, List.take_succ_cons, List.mem_cons, or_iff_right hne,
    loadSafeTransactions, Lib.Recent.mem_take_filter_take_iff]
  exact and_iff_right (by simpa using hx)

end Leopold.Frontend
