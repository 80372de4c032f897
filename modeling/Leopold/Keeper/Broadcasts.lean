import Leopold.Keeper.Attempts

/-!
# What a broadcast rests on

The engine resolves what is outstanding, reads a snapshot, plans, simulates, signs and checks the
funds of the keeper before it broadcasts.  Here the gateway, the journal and the clock may answer
anything, and every answer of a run is recorded: when a transaction is passed to `broadcast`, the
answers before it are those that justify it, in the order of the source, and nothing was broadcast
before in that run.
-/

namespace Leopold.Keeper

open Lib

/-- The answers of a run so far, latest first. -/
abbrev Answers : Type := Program.Transcript Request Response

def Request.isBroadcast : Request → Bool
  | .broadcast _ => true
  | _ => false

/-- What a run learned when it resolved an outstanding attempt.  `searched` is the time at which
its transaction was looked for and not found. -/
structure Resolution where
  entry : JournalEntry
  receipt : Option ReceiptView
  snapshot : ProtocolSnapshot
  searched : Option Nat
  now : Nat

namespace Resolution

variable (options : EngineOptions) (r : Resolution)

/-- The status the attempt gets; none of these is unresolved. -/
def status : JournalStatus :=
  if r.entry.status.isForensic then .obsolete
  else match r.receipt with
    | some receipt => if receipt.status = 1 then .reconciled else .obsolete
    | none => if Engine.isEntryRequired r.snapshot r.entry then .reorged else .obsolete

/-- What its entry records besides the status. -/
def update : UpdateOptions :=
  if r.entry.status.isForensic then { errorCode := some "STATE_ADVANCED_EXTERNALLY" }
  else match r.receipt with
    | some receipt => Engine.receiptUpdate receipt none
    | none => { errorCode := some (if Engine.isEntryRequired r.snapshot r.entry then
        "REORGED_TRANSACTION_DROPPED" else "STATE_ADVANCED_EXTERNALLY") }

/-- What became of the attempt. -/
def findings : Answers :=
  (r.searched.elim [] fun searched =>
      [⟨.now, .ok searched⟩, ⟨.getTransaction r.entry.txHash, .ok none⟩]) ++
    [⟨.readSnapshot (some (Engine.entryHint r.entry)), .ok r.snapshot⟩,
      ⟨.getReceipt r.entry.txHash, .ok r.receipt⟩]

/-- The last answer is that the resolved attempt is stored. -/
def answers : Answers :=
  ⟨.put (Engine.updateEntry options r.entry r.status r.now r.update), .ok ()⟩ ::
    ⟨.now, .ok r.now⟩ :: r.findings

/-- The answers resolve the attempt: its action is not required any more, or its block was reorged
and its transaction is lost.  A receipt has its confirmations, and without one the transaction was
not found and is not recent. -/
structure Valid : Prop where
  unneeded : Engine.isEntryRequired r.snapshot r.entry = false ∨
    (r.receipt = none ∧ r.entry.status = .confirmed)
  mined : r.entry.status.isForensic = false → ∀ receipt ∈ r.receipt,
    options.confirmations ≤ receipt.confirmations ∧ (receipt.status = 0 ∨ receipt.status = 1)
  missing : r.searched.isSome = true ↔ (r.entry.status.isForensic = false ∧ r.receipt = none)
  aged : ∀ searched ∈ r.searched, r.entry.status = .prepared ∨ r.entry.status = .submitted →
    options.receiptWaitMs ≤ (searched : Int) - options.getTime r.entry.submittedAt

theorem status_resolved : r.status.isUnresolved = false := by
  unfold status
  split
  · rfl
  · split
    · split <;> rfl
    · split <;> rfl

theorem answers_not_broadcast : ∀ asked ∈ r.answers options, asked.1.isBroadcast = false := by
  simp only [answers, findings, List.forall_mem_cons, List.forall_mem_append]
  refine ⟨rfl, rfl, ?_, rfl, rfl, by simp⟩
  cases r.searched with
  | none => simp
  | some searched => exact List.forall_mem_cons.2 ⟨rfl, List.forall_mem_singleton.2 rfl⟩

end Resolution

/-- What a run learned before it plans. -/
structure Preflight where
  funds : Int
  outstanding : List JournalEntry
  resolutions : List Resolution

/-- The answers of the preflight and of the reconciliation of what is outstanding. -/
def Preflight.answers (options : EngineOptions) (p : Preflight) : Answers :=
  p.resolutions.reverse.flatMap (·.answers options) ++
    [⟨.list, .ok p.outstanding⟩, ⟨.getKeeperBalance, .ok p.funds⟩,
      ⟨.getChainId, .ok SEPOLIA_CHAIN_ID⟩]

/-- The answers let the run plan: the funds are within the limits, and every unresolved attempt of
the journal was resolved, in its order. -/
structure Preflight.Valid (options : EngineOptions) (p : Preflight) : Prop where
  funds : balanceWithinLimits p.funds options.minimumBalanceWei options.maximumBalanceWei = true
  outstanding : p.resolutions.map (·.entry) = p.outstanding.filter (·.status.isUnresolved)
  resolutions : ∀ r ∈ p.resolutions, r.Valid options

/-- What a run learned before it broadcasts. -/
structure Clearance extends Preflight where
  snapshot : ProtocolSnapshot
  entries : List JournalEntry
  action : LifecycleAction
  data : String
  balance : Int
  now : Nat

namespace Clearance

variable (options : EngineOptions) (c : Clearance) (transaction : SignedLifecycleTransaction)

/-- The answers from which the action was planned and simulated. -/
def prepared : Answers :=
  ⟨.simulate c.action c.data, .ok ()⟩ :: ⟨.encodeAction c.action, .ok c.data⟩ ::
    ⟨.list, .ok c.entries⟩ :: ⟨.readSnapshot none, .ok c.snapshot⟩ ::
      c.toPreflight.answers options

/-- All answers before the broadcast: the last one is that its entry is stored. -/
def answers : Answers :=
  ⟨.put (Engine.journalEntryForPrepared options c.action transaction c.now
    ((Engine.previousAttempt c.entries c.action).map (·.attemptId))), .ok ()⟩ ::
    ⟨.now, .ok c.now⟩ :: ⟨.getKeeperBalance, .ok c.balance⟩ ::
    ⟨.sign c.action c.data, .ok transaction⟩ :: c.prepared options

/-- The answers let the run sign: the action is the one planned from the snapshot, and its last
attempt is not unresolved. -/
structure Planned : Prop extends c.toPreflight.Valid options where
  chain : c.snapshot.chainId = SEPOLIA_CHAIN_ID
  planned : planNextAction c.snapshot = some c.action
  previous : ∀ previous ∈ Engine.previousAttempt c.entries c.action,
    previous.status.isUnresolved = false

/-- The answers let the run broadcast: the keeper can pay for the transaction and keep its
minimum. -/
structure Valid : Prop extends c.Planned options where
  balance : balanceWithinLimits c.balance options.minimumBalanceWei options.maximumBalanceWei = true
  cost : (transaction.maximumCostWei : Int) ≤ c.balance - options.minimumBalanceWei

theorem answers_not_broadcast :
    ∀ asked ∈ c.answers options transaction, asked.1.isBroadcast = false := by
  have hresolutions : ∀ asked ∈ c.resolutions.reverse.flatMap (·.answers options),
      asked.1.isBroadcast = false := by
    intro asked h
    obtain ⟨r, _, hasked⟩ := List.mem_flatMap.1 h
    exact r.answers_not_broadcast options asked hasked
  simp only [answers, prepared, Preflight.answers, List.forall_mem_cons,
    List.forall_mem_append]
  exact ⟨rfl, rfl, rfl, rfl, rfl, rfl, rfl, rfl, hresolutions, rfl, rfl, rfl, by simp⟩

end Clearance

namespace Engine

variable (options : EngineOptions)

/-- A broadcast needs a valid clearance. -/
def Cleared : Request → Answers → Prop
  | .broadcast transaction, t =>
    ∃ c : Clearance, c.Valid options transaction ∧ t = c.answers options transaction
  | _, _ => True

/-- The program broadcasts only what is cleared, and where it returns the postcondition holds. -/
def Records {α : Type} (post : α → Answers → Prop) (p : KeeperM α) (t : Answers) : Prop :=
  (Protocol.recorded (Cleared options)).Returns post p t

variable {options} {entry : JournalEntry} {transaction : SignedLifecycleTransaction} {α β : Type}
  {t t' : Answers}

/-! ### Rules -/

theorem Records.mono {post post' : α → Answers → Prop} {p : KeeperM α}
    (hpost : ∀ a t, post a t → post' a t) (h : Records options post p t) :
    Records options post' p t :=
  Protocol.Returns.mono hpost h

theorem Records.bind {post : β → Answers → Prop} {p : KeeperM α} {f : α → KeeperM β}
    (h : Records options (fun a t' => Records options post (f a) t') p t) :
    Records options post (p >>= f) t :=
  Protocol.Returns.bind h

theorem Records.pure {post : α → Answers → Prop} {a : α} (h : post a t) :
    Records options post (pure a) t :=
  Protocol.Returns.pure h

theorem Records.throw {post : α → Answers → Prop} {error : String} :
    Records options post (throw error) t :=
  Protocol.Returns.throw

theorem Records.ask {r : Request} {post : Answer r → Answers → Prop}
    (hcleared : Cleared options r t) (h : ∀ a, post a (⟨r, .ok a⟩ :: t)) :
    Records options post (call r) t := by
  refine ⟨hcleared, ?_⟩
  rintro answer _ rfl
  refine ⟨trivial, ?_⟩
  rintro a rfl
  exact h a

theorem Records.guard {post : α → Answers → Prop} {c : Prop} [Decidable c] {error : String}
    {f : Unit → KeeperM α} (h : ¬ c → Records options post (f ()) t) :
    Records options post (if c then MonadExcept.throw error >>= f else f ()) t := by
  split_ifs with hc
  · exact .bind .throw
  · exact h hc

/-- A call whose failure is handled, and what comes after it under the same handler. -/
theorem Records.attempt {post : α → Answers → Prop} {r : Request} {next : Answer r → KeeperM α}
    {handler : String → KeeperM α} (hcleared : Cleared options r t)
    (hnext : ∀ a, Records options post (tryCatch (next a) handler) (⟨r, .ok a⟩ :: t))
    (hhandler : ∀ e, Records options post (handler e) (⟨r, .error e⟩ :: t)) :
    Records options post (tryCatch (call r >>= next) handler) t := by
  refine ⟨hcleared, ?_⟩
  rintro answer _ rfl
  refine ⟨trivial, ?_⟩
  cases answer with
  | ok a => exact hnext a
  | error e => exact hhandler e

/-! ### Reconciliation -/

/-- If the attempt comes out resolved, what was asked since `t` resolves it. -/
def Resolves (options : EngineOptions) (entry : JournalEntry) (t : Answers)
    (reconciled : JournalEntry) (t' : Answers) : Prop :=
  reconciled.status.isUnresolved = false →
    ∃ r : Resolution, r.entry = entry ∧ r.Valid options ∧ t' = r.answers options ++ t

theorem store_resolves {r : Resolution} (hr : r.Valid options) :
    Records options (Resolves options r.entry t) (store options r.entry r.status r.update)
      (r.findings ++ t) := by
  refine .bind (.ask trivial fun now => .bind (.ask trivial fun _ => .pure fun _ => ?_))
  exact ⟨{ r with now }, rfl, ⟨hr.unneeded, hr.mined, hr.missing, hr.aged⟩, rfl⟩

theorem store_unresolved {status : JournalStatus} {update : UpdateOptions}
    (hstatus : status.isUnresolved = true) :
    Records options (Resolves options entry t) (store options entry status update) t' := by
  refine .bind (.ask trivial fun now => .bind (.ask trivial fun _ => .pure fun hresolved => ?_))
  exact absurd (hstatus.symm.trans hresolved) (by decide)

/-- An attempt with a receipt is resolved when it has its confirmations and is not needed. -/
theorem reconcileReceipt_records {receipt : ReceiptView} {snapshot : ProtocolSnapshot}
    (hentry : entry.status.isForensic = false) :
    Records options (Resolves options entry t)
      (reconcileReceipt options entry receipt (isEntryRequired snapshot entry))
      (⟨.readSnapshot (some (entryHint entry)), .ok snapshot⟩ ::
        ⟨.getReceipt entry.txHash, .ok (some receipt)⟩ :: t) := by
  let r : Resolution := { entry, receipt := some receipt, snapshot, searched := none, now := 0 }
  have hvalid (hmined : ¬ receipt.confirmations < options.confirmations)
      (hstatus : receipt.status = 0 ∨ receipt.status = 1)
      (hneeded : isEntryRequired snapshot entry = false) : r.Valid options := by
    refine ⟨.inl hneeded, ?_, iff_of_false (by rintro ⟨⟩) (by rintro ⟨_, ⟨⟩⟩), by rintro _ ⟨⟩⟩
    rintro - _ ⟨⟩
    exact ⟨Nat.not_lt.1 hmined, hstatus⟩
  have hstored : r.status = if receipt.status = 1 then .reconciled else .obsolete := by
    simp only [r, Resolution.status, hentry, Bool.false_eq_true, if_false]
  have hupdate : r.update = receiptUpdate receipt none := by
    simp only [r, Resolution.update, hentry, Bool.false_eq_true, if_false]
  unfold reconcileReceipt
  split_ifs with hfew hdone hfailed
  · exact store_unresolved rfl
  · have hresolves := store_resolves (t := t) (hvalid hfew (.inr hdone.1) hdone.2)
    rwa [hstored, hupdate, if_pos hdone.1] at hresolves
  · have hresolves := store_resolves (t := t) (hvalid hfew (.inl hfailed.1) hfailed.2)
    rwa [hstored, hupdate, if_neg (by rw [hfailed.1]; decide)] at hresolves
  · exact store_unresolved rfl
  · exact store_unresolved rfl

/-- An attempt without a receipt is resolved when its transaction is not found, and it is not
needed or was confirmed before. -/
theorem reconcileMissing_records {snapshot : ProtocolSnapshot}
    (hentry : entry.status.isForensic = false) :
    Records options (Resolves options entry t)
      (reconcileMissing options entry (isEntryRequired snapshot entry))
      (⟨.readSnapshot (some (entryHint entry)), .ok snapshot⟩ ::
        ⟨.getReceipt entry.txHash, .ok none⟩ :: t) := by
  unfold reconcileMissing
  refine .bind (.ask trivial fun transaction => ?_)
  cases transaction with
  | some nonce => exact store_unresolved rfl
  | none =>
    refine .bind (.ask trivial fun searched => ?_)
    let r : Resolution := { entry, receipt := none, snapshot, searched, now := 0 }
    have hvalid (hrecent : ¬ ((entry.status = .prepared ∨ entry.status = .submitted) ∧
          (searched : Int) - options.getTime entry.submittedAt < options.receiptWaitMs))
        (hneeded : isEntryRequired snapshot entry = false ∨ entry.status = .confirmed) :
        r.Valid options := by
      refine ⟨hneeded.imp_right fun h => ⟨rfl, h⟩, by rintro - _ ⟨⟩,
        iff_of_true rfl ⟨hentry, rfl⟩, ?_⟩
      rintro _ ⟨⟩ hstatus
      exact Int.not_lt.1 fun h => hrecent ⟨hstatus, h⟩
    have hstored : r.status =
        if isEntryRequired snapshot entry then .reorged else .obsolete := by
      simp only [r, Resolution.status, hentry, Bool.false_eq_true, if_false]
    have hupdate : r.update = { errorCode := some (if isEntryRequired snapshot entry then
        "REORGED_TRANSACTION_DROPPED" else "STATE_ADVANCED_EXTERNALLY") } := by
      simp only [r, Resolution.update, hentry, Bool.false_eq_true, if_false]
    split
    · next hrecent =>
      refine .pure fun hresolved => ?_
      rcases hrecent.1 with hs | hs <;> rw [hs] at hresolved <;> cases hresolved
    next hrecent =>
    split
    · next hneeded =>
      have hresolves := store_resolves (t := t) (hvalid hrecent (.inl hneeded))
      rwa [hstored, hupdate, hneeded] at hresolves
    next hneeded =>
    split
    · next hconfirmed =>
      have hresolves := store_resolves (t := t) (hvalid hrecent (.inr hconfirmed))
      have hrequired : isEntryRequired snapshot entry = true := Bool.not_eq_false _ ▸ hneeded
      rwa [hstored, hupdate, hrequired] at hresolves
    · refine .bind (.ask trivial fun latestNonce => .bind (.ask trivial fun pendingNonce => ?_))
      exact store_unresolved rfl

theorem reconcileEntry_records :
    Records options (Resolves options entry t) (reconcileEntry options entry) t := by
  unfold reconcileEntry
  refine .bind (.ask trivial fun receipt => .bind (.ask trivial fun snapshot => ?_))
  dsimp only
  split
  · next hforensic =>
    split
    · refine .pure fun hresolved => ?_
      exact absurd ((JournalStatus.isUnresolved_of_isForensic hforensic).symm.trans hresolved)
        (by decide)
    · next hneeded =>
      let r : Resolution := { entry, receipt, snapshot, searched := none, now := 0 }
      have hvalid : r.Valid options := by
        refine ⟨.inl (Bool.not_eq_true _ ▸ hneeded), fun h => ?_,
          iff_of_false (by rintro ⟨⟩) fun h => ?_, by rintro _ ⟨⟩⟩
        · exact absurd (hforensic.symm.trans h) (by decide)
        · exact absurd (hforensic.symm.trans h.1) (by decide)
      have hresolves := store_resolves (t := t) hvalid
      simp only [r, Resolution.status, Resolution.update, hforensic, if_true] at hresolves
      exact hresolves
  · next hforensic =>
    have hentry : entry.status.isForensic = false := Bool.not_eq_true _ ▸ hforensic
    cases receipt with
    | some receipt => exact reconcileReceipt_records hentry
    | none => exact reconcileMissing_records hentry

/-- A reconciliation that is not blocked resolves every attempt, one after the other. -/
theorem reconcileAll_records {entries : List JournalEntry} :
    Records options
      (fun blocked t' => blocked = none → ∃ resolutions : List Resolution,
        resolutions.map (·.entry) = entries ∧ (∀ r ∈ resolutions, r.Valid options) ∧
        t' = resolutions.reverse.flatMap (·.answers options) ++ t)
      (reconcileAll options entries) t := by
  induction entries generalizing t with
  | nil => exact .pure fun _ => ⟨[], rfl, by simp, rfl⟩
  | cons entry rest ih =>
    refine .bind (reconcileEntry_records.mono fun reconciled t₁ h₁ => ?_)
    split
    · exact .pure (by rintro ⟨⟩)
    · next hresolved =>
      obtain ⟨r, rfl, hr, rfl⟩ := h₁ (Bool.not_eq_true _ ▸ hresolved)
      refine ih.mono fun blocked t₂ h₂ hblocked => ?_
      obtain ⟨resolutions, rfl, hall, rfl⟩ := h₂ hblocked
      refine ⟨r :: resolutions, rfl, List.forall_mem_cons.2 ⟨hr, hall⟩, ?_⟩
      rw [List.reverse_cons, List.flatMap_append, List.flatMap_singleton, List.append_assoc]

theorem waitLoop_records {deadline rounds : Nat} :
    Records options (fun _ _ => True) (waitLoop options deadline rounds entry) t := by
  induction rounds generalizing entry t with
  | zero => exact .throw
  | succ rounds ih =>
    unfold waitLoop
    refine .bind (reconcileEntry_records.mono fun current t₁ _ => ?_)
    split
    · exact .pure trivial
    · refine .bind (.ask trivial fun now => ?_)
      split
      · exact .pure trivial
      · exact .bind (.ask trivial fun _ => ih)

/-! ### The broadcast -/

/-- The entry is stored after the broadcast and followed; its hash is asked once. -/
theorem broadcastEntry_records
    (hcleared : Cleared options (.broadcast transaction) t) :
    Records options (fun _ _ => True) (broadcastEntry options entry transaction) t := by
  unfold broadcastEntry
  have hsent : Records options (fun _ _ => True)
      (tryCatch
        (do
          let broadcastHash : String ← call (.broadcast transaction)
          if broadcastHash.toLower ≠ transaction.hash.toLower then throw "Error"
          return none : KeeperM (Option String))
        fun error => return some error) t := by
    refine .attempt hcleared (fun broadcastHash => ?_) fun error => .pure trivial
    dsimp only
    split_ifs <;> exact .pure trivial
  refine .bind (hsent.mono fun sent t₁ _ => ?_)
  cases sent with
  | some error => exact .pure trivial
  | none =>
    refine .bind (.ask trivial fun now => ?_)
    exact .attempt trivial (fun _ => .pure trivial) fun _ => .pure trivial

/-- What is signed is affordable and stored before it is broadcast. -/
theorem submit_records {rounds : Nat} {c : Clearance} (hc : c.Planned options) :
    Records options (fun _ _ => True)
      (submit options rounds c.action c.data
        ((previousAttempt c.entries c.action).map (·.attemptId))) (c.prepared options) := by
  unfold submit
  refine .bind (.ask trivial fun transaction => .bind (.ask trivial fun balance => ?_))
  refine .guard fun hbalance => .guard fun hcost => .bind (.ask trivial fun now => ?_)
  have hvalid : Clearance.Valid options { c with balance, now } transaction :=
    { hc with balance := by simpa using hbalance, cost := Int.not_lt.1 hcost }
  refine .bind (.ask trivial fun _ => ?_)
  refine .bind ((broadcastEntry_records ⟨_, hvalid, rfl⟩).mono ?_)
  rintro (⟨entry, error⟩ | entry) t₁ -
  · exact .bind ((store_unresolved (t := []) rfl).mono fun _ _ _ => .pure trivial)
  · refine .bind (.bind (.ask trivial fun now => waitLoop_records.mono fun finalEntry _ _ => ?_))
    split_ifs <;> exact .pure trivial

/-- The calldata was encoded and simulated for the action, or the run ends. -/
theorem prepareData_records {action : LifecycleAction} :
    Records options
      (fun data t' => ∀ d ∈ data,
        t' = ⟨.simulate action d, .ok ()⟩ :: ⟨.encodeAction action, .ok d⟩ :: t)
      (prepareData action) t := by
  unfold prepareData
  have hhandler {error : String} {t' : Answers} : Records options
      (fun data t' => ∀ d ∈ data,
        t' = ⟨.simulate action d, .ok ()⟩ :: ⟨.encodeAction action, .ok d⟩ :: t)
      (do
        let snapshot : ProtocolSnapshot ← call (.readSnapshot (some (actionHint action)))
        if isActionRequired snapshot action then throw error
        else return none : KeeperM (Option String)) t' := by
    refine .bind (.ask trivial fun snapshot => ?_)
    split
    · exact .throw
    · exact .pure fun d hd => by cases hd
  refine .attempt trivial (fun data => ?_) fun error => hhandler
  refine .attempt trivial (fun _ => .pure ?_) fun error => hhandler
  rintro d hd
  obtain rfl := Option.some.inj hd
  rfl

/-- The action is the one that is planned from the snapshot. -/
theorem perform_records {rounds : Nat} {p : Preflight} (hp : p.Valid options) :
    Records options (fun _ _ => True) (perform options rounds) (p.answers options) := by
  unfold perform
  refine .bind (.ask trivial fun snapshot => .guard fun hchain => ?_)
  cases hplan : planNextAction snapshot with
  | none => exact .pure trivial
  | some action =>
    refine .bind (.ask trivial fun entries => ?_)
    dsimp only
    cases hprevious : (previousAttempt entries action).filter (·.status.isUnresolved) with
    | some unresolved => exact .pure trivial
    | none =>
      refine .bind (prepareData_records.mono fun data t₁ ht => ?_)
      cases data with
      | none => exact .pure trivial
      | some data =>
        obtain rfl := ht data rfl
        -- The balance and the time are answers still to come.
        have hplanned : Clearance.Planned options
            { p with snapshot, entries, action, data, balance := 0, now := 0 } :=
          { hp with
            chain := not_not.1 hchain
            planned := hplan
            previous := fun previous hmem => by
              simpa using Option.filter_eq_none_iff.1 hprevious previous hmem }
        exact submit_records hplanned

theorem runOnce_records {rounds : Nat} :
    Records options (fun _ _ => True) (runOnce options rounds) [] := by
  unfold runOnce preflight
  refine .bind (.bind (.ask trivial fun chainId => .guard fun hchain => ?_))
  obtain rfl := not_not.1 hchain
  refine .bind (.ask trivial fun funds => .guard fun hfunds => .pure ?_)
  refine .bind (.bind (.ask trivial fun outstanding => ?_))
  refine reconcileAll_records.mono fun blocked t ht => ?_
  cases blocked with
  | some blocked => exact .pure trivial
  | none =>
    obtain ⟨resolutions, hentries, hall, rfl⟩ := ht rfl
    exact perform_records (p := { funds, outstanding, resolutions })
      ⟨by simpa using hfunds, hentries, hall⟩

/-- **Broadcasts are cleared.**  Whatever the gateway, the journal and the clock answer, a run that
passes a transaction to `broadcast` got exactly the answers of a valid clearance before: every
attempt the journal had left unresolved was resolved, and then the action was planned, simulated,
signed and paid for.  It broadcasts for the first time. -/
theorem broadcast_cleared {rounds : Nat}
    (h : (runOnce options rounds).run.Asks (.broadcast transaction) [] t) :
    (∃ c : Clearance, c.Valid options transaction ∧ t = c.answers options transaction ∧
      ∀ r ∈ c.resolutions, r.status.isUnresolved = false) ∧
    ∀ asked ∈ t, asked.1.isBroadcast = false := by
  obtain ⟨c, hc, rfl⟩ : Cleared options (.broadcast transaction) t :=
    Protocol.Safe.allowed_of_asks runOnce_records h
  exact ⟨⟨c, hc, rfl, fun r _ => r.status_resolved⟩, c.answers_not_broadcast options transaction⟩

/-- An earlier attempt at an automatic entry, of a vault that is configured no more. -/
def abandonedEntry : JournalEntry :=
  { reorgedClosure with
    actionKey := "0xdddddddddddddddddddddddddddddddddddddddd:1:register-auto-entry:10:"
    vault := "0xdddddddddddddddddddddddddddddddddddddddd"
    action := .registerAutoEntry
    status := .submitted }

/-- The answers to a run that closes the round; no vault is shown to the reconciliation. -/
def closingOracle : (r : Request) → Response r
  | .readSnapshot (some _) => .ok { dueSnapshot with vaults := [] }
  | .list => .ok [abandonedEntry]
  | .put _ => .ok ()
  | r => (dueOracle dueWorld r).1

/-- The closure is broadcast after seventeen answers; the ninth of them is to the question that
stores the earlier attempt as obsolete. -/
theorem broadcast_cleared_closure :
    ∃ t, (∃ c : Clearance, c.Valid dueOptions (signedClosure closure) ∧
      t = c.answers dueOptions (signedClosure closure) ∧
      ∀ r ∈ c.resolutions, r.status.isUnresolved = false) ∧
      t.length = 17 ∧ t[8]?.map (·.1) = some (.put
        (updateEntry dueOptions abandonedEntry .obsolete 0
          { errorCode := some "STATE_ADVANCED_EXTERNALLY" })) := by
  have hasks : (runOnce dueOptions 1).run.Asks (.broadcast (signedClosure closure)) []
      (Program.follow closingOracle 17 (runOnce dueOptions 1).run []).2 :=
    .of_follow (by decide +kernel)
  exact ⟨_, (broadcast_cleared hasks).1, by decide +kernel, by decide +kernel⟩

end Engine

end Leopold.Keeper
