import Leopold.Keeper.Engine
import Leopold.Keeper.Gateway

/-!
# Pruning an automatic entry

What the keeper makes of a prune that succeeded.  The hint of the journal entry brings the pruned
account back into the snapshot, and the planner asks only for its flags: the action counts as
required as long as its round stays active and open, and the entry is never reconciled there.
-/

namespace Leopold.Keeper

open Lib

/-! ### The entry of an action -/

/-- The entry was journalled for the action. -/
structure JournalEntry.IsFor (entry : JournalEntry) (action : LifecycleAction) : Prop where
  actionKey : entry.actionKey = action.key
  vault : entry.vault = action.vault.address
  roundId : entry.roundId = toString action.roundId
  kind : entry.action = action.kind
  cursor : entry.cursor = action.cursor.map toString
  account : entry.account = action.account

theorem isFor_journalEntryForPrepared {options : EngineOptions} {action : LifecycleAction}
    {transaction : SignedLifecycleTransaction} {now : Nat} {replayOf : Option String} :
    (Engine.journalEntryForPrepared options action transaction now replayOf).IsFor action :=
  ⟨rfl, rfl, rfl, rfl, rfl, rfl⟩

section Entry

variable {options : EngineOptions} {entry : JournalEntry} {action : LifecycleAction}
  {snapshot : ProtocolSnapshot}

theorem JournalEntry.IsFor.updateEntry (h : entry.IsFor action) {status : JournalStatus}
    {now : Nat} {update : UpdateOptions} :
    (Engine.updateEntry options entry status now update).IsFor action :=
  ⟨h.actionKey, h.vault, h.roundId, h.kind, h.cursor, h.account⟩

theorem JournalEntry.IsFor.entryHint (h : entry.IsFor action) :
    Engine.entryHint entry = Engine.actionHint action := by
  simp only [Engine.entryHint, Engine.actionHint, h.vault, h.kind, h.account, h.roundId,
    bigInt_toString]

/-- The engine asks the planner about the action the entry was made for. -/
theorem JournalEntry.IsFor.isEntryRequired (h : entry.IsFor action) :
    Engine.isEntryRequired snapshot entry = isActionRequired snapshot action := by
  have hcursor : (action.cursor.map toString).bind bigInt = action.cursor := by
    cases action.cursor with
    | none => rfl
    | some n => exact bigInt_toString n
  unfold Engine.isEntryRequired Engine.actionFromEntry isActionRequired
  rw [h.vault, h.roundId, h.cursor, h.kind, h.account, h.actionKey, hcursor, bigInt_toString]
  rcases hvault : findVault snapshot action.vault.address with _ | vault
  · rfl
  · have hsame : vault.vault.address.toLower = action.vault.address.toLower := by
      simpa using List.find?_some hvault
    have hagain : findVault snapshot vault.vault.address = some vault := by
      rw [← hvault, findVault, findVault, hsame]
    simp only [Option.bind_some, Option.map_some, Option.any_some, hagain]
    rfl

end Entry

/-! ### What the hinted read finds -/

section Read

variable {config : GatewayConfig} {checkpoint : String → Option String} {vault : VaultConfig}
  {view : VaultView} {hint : Option SnapshotReadHint} {shot : VaultSnapshot} {account : String}

/-- What a successful prune leaves of an account, whatever the spelling of the address. -/
structure VaultView.Pruned (view : VaultView) (account : String) : Prop where
  notListed : ∀ listed ∈ view.autoEntryAccounts, listed.toLower ≠ account.toLower
  notEnabled : view.isAutoEntryEnabled account.toLower view.activeRoundId = false
  notScheduled : view.isAutoEntryScheduled account.toLower = false

/-- The parts of a vault that was read. -/
theorem readVault_eq (h : readVault config checkpoint vault view hint = some shot) :
    shot.vault = vault ∧ shot.activeRoundId = view.activeRoundId ∧
    shot.bondAmount = view.bondAmount ∧
    (∃ page, shot.rounds = (readRoundIds vault view page hint).map (readRound view)) ∧
    (if vault.automaticEntry then readAutoEntryCandidates config checkpoint vault view hint
      else some []) = some shot.autoEntryCandidates := by
  simp only [readVault, Option.bind_eq_bind, Option.bind_eq_some_iff, Option.pure_def,
    Option.some.injEq] at h
  obtain ⟨page, -, candidates, hcandidates, rfl⟩ := h
  exact ⟨rfl, rfl, rfl, ⟨page, rfl⟩, hcandidates⟩

theorem mem_readRoundIds {page : ScanPage} :
    view.activeRoundId ∈ readRoundIds vault view page hint := by
  have hbase : view.activeRoundId ∈ page.indexes.map (· + 1) ++ [view.activeRoundId] := by simp
  unfold readRoundIds
  rcases hint with _ | ⟨address, account, _ | roundId⟩
  · exact hbase
  · exact hbase
  · dsimp only
    split_ifs
    · exact List.mem_append_left _ hbase
    · exact hbase

@[simp] theorem readRound_roundId {roundId : Nat} : (readRound view roundId).roundId = roundId :=
  rfl

/-- Rounds are found under the id they were read with. -/
theorem findRound_map_readRound {ids : List Nat} {roundId : Nat} {shot : VaultSnapshot}
    (hrounds : shot.rounds = ids.map (readRound view)) (h : roundId ∈ ids) :
    findRound shot roundId = some (readRound view roundId) := by
  unfold findRound
  rcases hfind : shot.rounds.find? (·.roundId = roundId) with _ | round
  · rw [List.find?_eq_none, hrounds] at hfind
    simpa using hfind _ (List.mem_map_of_mem h)
  · have hid : round.roundId = roundId := by simpa using List.find?_some hfind
    have hmem := List.mem_of_find?_eq_some hfind
    rw [hrounds] at hmem
    obtain ⟨id, -, rfl⟩ := List.mem_map.1 hmem
    rw [hfind, show id = roundId from hid]

/-- The active round of the snapshot is open exactly if the vault's is. -/
theorem isSome_openRound (h : readVault config checkpoint vault view hint = some shot) :
    (openRound shot).isSome = decide ((view.roundInfo view.activeRoundId).state = .open) := by
  obtain ⟨-, hactive, -, ⟨page, hrounds⟩, -⟩ := readVault_eq h
  have hfind := findRound_map_readRound hrounds (@mem_readRoundIds vault view hint page)
  rw [openRound, hactive, hfind, Option.filter]
  cases hopen : decide ((view.roundInfo view.activeRoundId).state = .open) <;>
    simp_all [readRound]

/-- A hinted account of an automatic vault is among the candidates, with the escrow's answers. -/
theorem candidateOf_hinted (hauto : vault.automaticEntry = true)
    (hspelling : ∀ a, (config.getAddress a).toLower = a.toLower) {action : LifecycleAction}
    (haccount : action.account = some account)
    (hhint : requiredAccount vault hint = some account)
    (h : readVault config checkpoint vault view hint = some shot) :
    ∃ spelled, spelled.toLower = account.toLower ∧
      candidateOf shot action = some (readCandidate view view.activeRoundId spelled) := by
  obtain ⟨-, -, -, -, hcandidates⟩ := readVault_eq h
  rw [if_pos hauto, readAutoEntryCandidates, Option.map_eq_some_iff] at hcandidates
  obtain ⟨page, -, hcandidates⟩ := hcandidates
  have hlisted : ∃ spelled ∈ candidateAccounts config vault view page hint,
      spelled.toLower = account.toLower := by
    simp only [candidateAccounts, hhint]
    split_ifs with hany
    · obtain ⟨spelled, hmem, hsame⟩ := List.any_eq_true.1 hany
      exact ⟨spelled, hmem, by simpa using hsame⟩
    · exact ⟨config.getAddress account, by simp, hspelling account⟩
  obtain ⟨spelled, hmem, hsame⟩ := hlisted
  unfold candidateOf
  rw [← hcandidates]
  rcases hfind : ((candidateAccounts config vault view page hint).map
      (readCandidate view view.activeRoundId)).find? (fun entry =>
        some entry.account.toLower = action.account.map String.toLower) with _ | candidate
  · rw [List.find?_eq_none] at hfind
    exact absurd hsame (by
      simpa [haccount, readCandidate] using hfind _ (List.mem_map_of_mem hmem))
  · have hfound : candidate.account.toLower = account.toLower := by
      simpa [haccount] using List.find?_some hfind
    obtain ⟨other, -, rfl⟩ := List.mem_map.1 (List.mem_of_find?_eq_some hfind)
    exact ⟨other, hfound, hfind⟩

/-- The vaults of a snapshot are the configured ones, each as it was read. -/
theorem readSnapshot_vaults {chain : ChainView} {snapshot : ProtocolSnapshot}
    (h : readSnapshot config checkpoint chain hint = some snapshot) :
    List.Forall₂ (fun entry shot => readVault config checkpoint entry.1 entry.2 hint = some shot)
      chain.vaults snapshot.vaults := by
  simp only [readSnapshot, Option.bind_eq_bind, Option.bind_eq_some_iff, Option.pure_def,
    Option.some.injEq] at h
  obtain ⟨shots, hshots, rfl⟩ := h
  show List.Forall₂ _ chain.vaults shots
  generalize chain.vaults = vaults at hshots
  induction vaults generalizing shots with
  | nil =>
    obtain rfl : [] = shots := by simpa using hshots
    exact .nil
  | cons first rest ih =>
    rw [List.mapM_cons] at hshots
    simp only [Option.bind_eq_bind, Option.bind_eq_some_iff, Option.pure_def,
      Option.some.injEq] at hshots
    obtain ⟨shot, hshot, others, hothers, rfl⟩ := hshots
    exact .cons hshot (ih others hothers)

theorem exists_readVault {vaults : List (VaultConfig × VaultView)} {shots : List VaultSnapshot}
    (h : List.Forall₂ (fun entry shot =>
      readVault config checkpoint entry.1 entry.2 hint = some shot) vaults shots)
    (hshot : shot ∈ shots) :
    ∃ entry ∈ vaults, readVault config checkpoint entry.1 entry.2 hint = some shot := by
  induction h with
  | nil => exact absurd hshot List.not_mem_nil
  | cons hread _ ih =>
    rcases List.mem_cons.1 hshot with rfl | hrest
    · exact ⟨_, List.mem_cons_self, hread⟩
    · obtain ⟨entry, hmem, hread⟩ := ih hrest
      exact ⟨entry, List.mem_cons_of_mem _ hmem, hread⟩

/-- The snapshot of a configured vault is found under its address. -/
theorem findVault_readSnapshot {chain : ChainView} {snapshot : ProtocolSnapshot}
    (hdistinct : (chain.vaults.map (·.1.address.toLower)).Nodup)
    (hmem : (vault, view) ∈ chain.vaults)
    (h : readSnapshot config checkpoint chain hint = some snapshot) :
    ∃ shot, findVault snapshot vault.address = some shot ∧
      readVault config checkpoint vault view hint = some shot := by
  have hvaults := readSnapshot_vaults h
  unfold findVault
  generalize chain.vaults = vaults, snapshot.vaults = shots at hdistinct hmem hvaults ⊢
  induction hvaults with
  | nil => exact absurd hmem List.not_mem_nil
  | @cons first shot rest shots hread _ ih =>
    rw [List.map_cons, List.nodup_cons] at hdistinct
    rcases List.mem_cons.1 hmem with rfl | hrest
    · refine ⟨shot, ?_, hread⟩
      rw [List.find?_cons_of_pos (by simp [(readVault_eq hread).1])]
    · obtain ⟨found, hfound, hfoundRead⟩ := ih hdistinct.2 hrest
      refine ⟨found, ?_, hfoundRead⟩
      rw [List.find?_cons_of_neg ?_, hfound]
      have hne : first.1.address.toLower ≠ vault.address.toLower := fun hsame =>
        hdistinct.1 (List.mem_map.2 ⟨_, hrest, hsame.symm⟩)
      simpa [(readVault_eq hread).1] using hne

end Read

/-! ### Planned prunes -/

/-- A planned prune is of a candidate of a configured vault that has automatic entry. -/
theorem planned_prune {config : GatewayConfig} {checkpoint : String → Option String}
    {chain : ChainView} {hint : Option SnapshotReadHint} {snapshot : ProtocolSnapshot}
    {action : LifecycleAction}
    (hread : readSnapshot config checkpoint chain hint = some snapshot)
    (hplan : planNextAction snapshot = some action) (hkind : action.kind = .pruneAutoEntry) :
    action.vault ∈ chain.vaults.map (·.1) ∧ action.vault.automaticEntry = true ∧
      ∃ account, action.account = some account := by
  have hsource : ∃ shot ∈ snapshot.vaults,
      autoEntryAction snapshot.blockTimestamp shot = some action := by
    rcases planNextAction_source hplan with ⟨shot, -, hdue⟩ | hauto | ⟨shot, -, round, -, hround⟩
    · obtain ⟨active, -, -, rfl⟩ := dueClosure_eq_some hdue
      cases hkind
    · exact hauto
    · obtain ⟨kind, version, cursor, hnot, rfl⟩ := actionForRound_eq_some hround
      exact absurd hnot (by simp [show kind = .pruneAutoEntry from hkind,
        LifecycleActionKind.isAccountAction])
  obtain ⟨shot, hshot, hauto⟩ := hsource
  obtain ⟨active, -, -, candidate, hcandidate, kind, -, rfl⟩ := autoEntryAction_eq_some hauto
  obtain ⟨entry, hmem, hvault⟩ := exists_readVault (readSnapshot_vaults hread) hshot
  obtain ⟨hsame, -, -, -, hcandidates⟩ := readVault_eq hvault
  rw [← hsame] at hcandidates
  refine ⟨List.mem_map.2 ⟨entry, hmem, hsame.symm⟩, ?_, candidate.account, rfl⟩
  show shot.vault.automaticEntry = true
  by_contra hmanual
  rw [if_neg hmanual, Option.some.injEq] at hcandidates
  exact List.not_mem_nil (hcandidates ▸ hcandidate)

/-- A prune that was planned from one read, and the read that judges it after it succeeded. -/
structure PruneRead (config : GatewayConfig) (before after : ChainView) (action : LifecycleAction)
    (view : VaultView) (snapshot : ProtocolSnapshot) : Prop where
  spelling : ∀ a, (config.getAddress a).toLower = a.toLower
  planned : ∃ checkpoint earlier, readSnapshot config checkpoint before none = some earlier ∧
    planNextAction earlier = some action
  kind : action.kind = .pruneAutoEntry
  configured : after.vaults.map (·.1) = before.vaults.map (·.1)
  distinct : (after.vaults.map (·.1.address.toLower)).Nodup
  asked : (action.vault, view) ∈ after.vaults
  pruned : ∀ account, action.account = some account → view.Pruned account
  read : ∃ checkpoint,
    readSnapshot config checkpoint after (some (Engine.actionHint action)) = some snapshot

/-- The prune counts as required exactly as long as its round is active and open. -/
theorem PruneRead.isActionRequired_eq {config : GatewayConfig} {before after : ChainView}
    {action : LifecycleAction} {view : VaultView} {snapshot : ProtocolSnapshot}
    (h : PruneRead config before after action view snapshot) :
    isActionRequired snapshot action =
      decide (action.roundId = view.activeRoundId ∧
        (view.roundInfo view.activeRoundId).state = .open) := by
  obtain ⟨checkpoint, earlier, hearlier, hplan⟩ := h.planned
  obtain ⟨-, hauto, account, haccount⟩ := planned_prune hearlier hplan h.kind
  obtain ⟨checkpoint, hread⟩ := h.read
  obtain ⟨shot, hfind, hshot⟩ := findVault_readSnapshot h.distinct h.asked hread
  have hhint : requiredAccount action.vault (some (Engine.actionHint action)) = some account := by
    simp [requiredAccount, Engine.actionHint, h.kind, LifecycleActionKind.isAccountAction,
      haccount]
  obtain ⟨spelled, hsame, hcandidate⟩ :=
    candidateOf_hinted hauto h.spelling haccount hhint hshot
  have hpruned := h.pruned account haccount
  obtain ⟨-, hactive, -, ⟨page, hrounds⟩, -⟩ := readVault_eq hshot
  have hopen := isSome_openRound hshot
  by_cases hround : action.roundId = view.activeRoundId
  · have hfound := findRound_map_readRound hrounds mem_readRoundIds
    simp [isActionRequired, hfind, hfound, requiredFor, h.kind, hactive, hround, hopen,
      hcandidate, readCandidate, hsame, hpruned.notEnabled, hpruned.notScheduled]
  · unfold isActionRequired
    rw [hfind]
    dsimp only
    split
    · simp [hround]
    · simp [requiredFor, h.kind, hactive, hround]

/-! ### What the engine makes of it -/

section Engine

open Engine

/-- Every call the reconciliation of the entry makes is answered: the receipt is of a success with
enough confirmations, and the read is this snapshot. -/
structure Confirms (options : EngineOptions) (oracle : (r : Request) → Response r)
    (entry : JournalEntry) (snapshot : ProtocolSnapshot) : Prop where
  receipt : ∃ receipt : ReceiptView, oracle (.getReceipt entry.txHash) = .ok (some receipt) ∧
    receipt.status = 1 ∧ options.confirmations ≤ receipt.confirmations
  read : oracle (.readSnapshot (some (entryHint entry))) = .ok snapshot
  clock : ∃ now : Nat, oracle .now = .ok now
  journal : ∀ e, oracle (.put e) = .ok ()

variable {options : EngineOptions} {oracle : (r : Request) → Response r} {entry : JournalEntry}
  {snapshot : ProtocolSnapshot}

theorem eval_call {r : Request} {answer : Answer r} (h : oracle r = .ok answer) :
    (call r).run.eval oracle = .ok answer := h

theorem eval_store {status : JournalStatus} {update : UpdateOptions} {now : Nat}
    (hclock : oracle .now = .ok now) (hjournal : ∀ e, oracle (.put e) = .ok ()) :
    (store options entry status update).run.eval oracle =
      .ok (updateEntry options entry status now update) := by
  unfold store
  rw [Program.eval_bindExcept_ok (eval_call hclock),
    Program.eval_bindExcept_ok (eval_call (hjournal _))]
  rfl

/-- A confirmed success is reconciled, or of unknown outcome if its action is still required. -/
theorem Confirms.reconcileEntry (h : Confirms options oracle entry snapshot)
    (hstatus : entry.status.isForensic = false) :
    ∃ settled, (reconcileEntry options entry).run.eval oracle = .ok settled ∧
      settled.status =
        if isEntryRequired snapshot entry then .unknown else .reconciled := by
  obtain ⟨receipt, hreceipt, hsuccess, hdepth⟩ := h.receipt
  obtain ⟨now, hclock⟩ := h.clock
  unfold Engine.reconcileEntry
  rw [Program.eval_bindExcept_ok (eval_call hreceipt),
    Program.eval_bindExcept_ok (eval_call h.read)]
  simp only [hstatus, Bool.false_eq_true, ↓reduceIte, reconcileReceipt, Nat.not_lt.2 hdepth,
    hsuccess, true_and, Nat.one_ne_zero, false_and]
  cases hrequired : isEntryRequired snapshot entry
  · exact ⟨_, eval_store hclock h.journal, rfl⟩
  · exact ⟨_, eval_store hclock h.journal, rfl⟩

/-- Where nothing listed is unresolved, nothing blocks. -/
theorem eval_reconcileOutstanding {entries : List JournalEntry}
    (hlist : oracle .list = .ok entries)
    (h : ∀ entry ∈ entries, entry.status.isUnresolved = false) :
    (reconcileOutstanding options).run.eval oracle = .ok none := by
  unfold reconcileOutstanding
  rw [Program.eval_bindExcept_ok (eval_call hlist)]
  have hnone : entries.filter (·.status.isUnresolved) = [] := by
    simpa [List.filter_eq_nil_iff] using h
  rw [hnone]
  rfl

/-- The prune is off the books: it is not required any more, its entry becomes reconciled, and the
next run gets past it to its planning. -/
structure Unblocked (options : EngineOptions) (action : LifecycleAction) (entry : JournalEntry)
    (snapshot : ProtocolSnapshot) : Prop where
  notRequired : isActionRequired snapshot action = false
  reconciled : ∀ oracle, Confirms options oracle entry snapshot →
    ∃ settled, (reconcileEntry options entry).run.eval oracle = .ok settled ∧
      settled.status = .reconciled ∧
      ∀ next entries balance rounds, next .list = .ok entries →
        (∀ other ∈ entries, other ≠ settled → other.status.isUnresolved = false) →
        (preflight options).run.eval next = .ok balance →
        (runOnce options rounds).run.eval next = (perform options rounds).run.eval next

/-- A successful prune is off the books exactly if by the time of the read its round is not active
any more or not open. -/
theorem prune_unblocked_iff {config : GatewayConfig} {before after : ChainView}
    {action : LifecycleAction} {view : VaultView}
    (h : PruneRead config before after action view snapshot) (hentry : entry.IsFor action)
    (hstatus : entry.status.isForensic = false) :
    Unblocked options action entry snapshot ↔
      ¬ (action.roundId = view.activeRoundId ∧
        (view.roundInfo view.activeRoundId).state = .open) := by
  constructor
  · intro hunblocked hopen
    have hrequired := h.isActionRequired_eq
    rw [hunblocked.notRequired, decide_eq_true hopen] at hrequired
    cases hrequired
  · intro hclosed
    have hnot : isActionRequired snapshot action = false := by
      rw [h.isActionRequired_eq, decide_eq_false hclosed]
    refine ⟨hnot, fun oracle hconfirms => ?_⟩
    obtain ⟨settled, heval, hsettled⟩ := hconfirms.reconcileEntry hstatus
    rw [hentry.isEntryRequired, hnot] at hsettled
    refine ⟨settled, heval, hsettled, fun next entries balance rounds hlist hothers hpre => ?_⟩
    have hresolved : ∀ other ∈ entries, other.status.isUnresolved = false := by
      intro other hother
      by_cases hsame : other = settled
      · rw [hsame, hsettled]
        rfl
      · exact hothers other hother hsame
    unfold runOnce
    rw [Program.eval_bindExcept_ok hpre,
      Program.eval_bindExcept_ok (eval_reconcileOutstanding hlist hresolved)]

/-! ### One pruned account -/

def autoVault : VaultConfig where
  id := 1
  name := "Weekly"
  address := "0xA1"
  bondEscrow := "0xB1"
  automaticEntry := true

/-- Rounds stay open until a hundred, and nobody is enabled. -/
def autoView (activeRoundId : Nat) (accounts : List String) : VaultView where
  activeRoundId
  bondAmount := 5
  roundInfo roundId := {
    roundId
    opensAt := 0
    closesAt := 100
    state := .open
    publicAggregateTwab := 0
    publicPrize := 0
    participantCount := 0
    selectionCursor := 0
    allocationCursor := 0
    candidateValidityHandle := none }
  candidateValidityHandle _ := ""
  autoEntryAccounts := accounts
  isAutoEntryEnabled _ _ := false
  automationBondCredit _ := 0
  isRegistered _ _ := false
  isAutoEntryScheduled _ := false

def autoChain (view : VaultView) : ChainView where
  blockNumber := 1
  blockHash := "0x1"
  blockTimestamp := 10
  vaults := [(autoVault, view)]

def autoGateway : GatewayConfig where
  autoEntryScanSize := 1
  historicalScanSize := 1
  getAddress a := a

def plannedPrune : LifecycleAction where
  key := "0xa1:1:prune-auto-entry:0xc1"
  kind := .pruneAutoEntry
  vault := autoVault
  roundId := 1
  cursor := none
  account := some "0xC1"

def autoOptions : EngineOptions where
  minimumBalanceWei := 1
  maximumBalanceWei := 9
  confirmations := 2
  receiptWaitMs := 0
  receiptPollMs := 0
  toISOString _ := ""
  getTime _ := 0

def pruneEntry : JournalEntry :=
  journalEntryForPrepared autoOptions plannedPrune {
    action := plannedPrune
    hash := "0xD1"
    nonce := 0
    serialized := ""
    calldataHash := "0xE1"
    maximumCostWei := 0 } 0 none

/-- The snapshot that is read with the hint of the entry. -/
def pruneSnapshot (view : VaultView) : ProtocolSnapshot :=
  (readSnapshot autoGateway (fun _ => none) (autoChain view)
    (some (entryHint pruneEntry))).getD {
      chainId := 0, blockNumber := 0, blockHash := "", blockTimestamp := 0, vaults := [] }

def pruneReceipt : ReceiptView where
  blockHash := "0xF1"
  blockNumber := 2
  status := 1
  confirmations := 2

/-- The receipt is of a success, and the journal lists these entries. -/
def pruneOracle (view : VaultView) (entries : List JournalEntry) : (r : Request) → Response r
  | .getChainId => .ok SEPOLIA_CHAIN_ID
  | .getKeeperBalance => .ok 1
  | .readSnapshot _ => .ok (pruneSnapshot view)
  | .getReceipt _ => .ok (some pruneReceipt)
  | .list => .ok entries
  | .put _ => .ok ()
  | .now => .ok 0
  | _ => .error "ERROR"

theorem pruneRead_plannedPrune (activeRoundId : Nat) :
    PruneRead autoGateway (autoChain (autoView 1 ["0xC1"])) (autoChain (autoView activeRoundId []))
      plannedPrune (autoView activeRoundId []) (pruneSnapshot (autoView activeRoundId [])) where
  spelling _ := rfl
  planned := by
    have hplan : (readSnapshot autoGateway (fun _ => none) (autoChain (autoView 1 ["0xC1"]))
        none).bind planNextAction = some plannedPrune := by decide +kernel
    exact ⟨_, Option.bind_eq_some_iff.1 hplan⟩
  kind := rfl
  configured := rfl
  distinct := List.nodup_singleton _
  asked := List.mem_singleton.2 rfl
  pruned _ _ := ⟨nofun, rfl, rfl⟩
  read := ⟨fun _ => none, rfl⟩

theorem prune_unblocked_iff_rolled :
    Unblocked autoOptions plannedPrune pruneEntry (pruneSnapshot (autoView 2 [])) ↔
      ¬ (plannedPrune.roundId = 2 ∧ RoundState.open = .open) :=
  prune_unblocked_iff (pruneRead_plannedPrune 2) isFor_journalEntryForPrepared rfl

/-- The prune succeeds and its round stays open: the entry ends as unknown, and the next run is
blocked. -/
theorem prune_blocks :
    PruneRead autoGateway (autoChain (autoView 1 ["0xC1"])) (autoChain (autoView 1 []))
      plannedPrune (autoView 1 []) (pruneSnapshot (autoView 1 [])) ∧
    Confirms autoOptions (pruneOracle (autoView 1 []) [pruneEntry]) pruneEntry
      (pruneSnapshot (autoView 1 [])) ∧
    (∃ blocked, (reconcileEntry autoOptions pruneEntry).run.eval
        (pruneOracle (autoView 1 []) [pruneEntry]) = .ok blocked ∧
      blocked.status = .unknown ∧
      (runOnce autoOptions 1).run.eval (pruneOracle (autoView 1 []) [blocked]) =
        .ok (.blocked plannedPrune.key .unknown)) ∧
    ¬ Unblocked autoOptions plannedPrune pruneEntry (pruneSnapshot (autoView 1 [])) := by
  refine ⟨pruneRead_plannedPrune 1, ⟨⟨_, rfl, rfl, by decide⟩, rfl, ⟨0, rfl⟩, fun _ => rfl⟩,
    ⟨updateEntry autoOptions pruneEntry .unknown 0
      (receiptUpdate pruneReceipt (some "CONFIRMED_STATE_UNCHANGED")), ?_, rfl, ?_⟩, fun h => ?_⟩
  · decide +kernel
  · decide +kernel
  · exact absurd h.notRequired (by decide +kernel)

end Engine

end Leopold.Keeper
