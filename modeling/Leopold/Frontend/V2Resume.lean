import Leopold.Frontend.V2Records

/-!
# Resuming an Add Money operation

The runs of an operation in which no step meets one of three defects: a write in a run that began
with two confirmed approvals (its write index is taken), a wrap or save that succeeds and whose
receipt is not read, and a discovery that a run has overtaken.  In these runs a confirmed wrap is
always resumed with a save, and nothing that was confirmed is done or written over again.
-/

namespace Leopold.Frontend

open Lib Lib.Recent

namespace V2Page

variable {account op : String} {s t : V2Page} {run : V2Run} {writes older : List V2Write}
  {w : V2Write} {ops : List SafeTransactionRecord}

/-! ### What is promised, and when -/

/-- What is promised of the operation. -/
structure Resumable (account op : String) (s : V2Page) : Prop where
  /-- No hash was stored under the record id of a confirmed one. -/
  ids : s.writes.Pairwise fun newer older => newer.id = older.id → older.success = false
  /-- No wrap followed a successful wrap, and no save a successful save. -/
  once : s.writes.Pairwise fun newer older =>
    older.success = true → older.stage ≠ some .approval → newer.stage ≠ older.stage
  /-- A confirmed wrap is offered to be resumed with a save of its amount until a save is. -/
  offered : ∀ wrap ∈ s.writes, wrap.stage = some .wrap → wrap.success = true → wrap.read = true →
    (∀ save ∈ s.writes, save.stage = some .save → ¬ (save.success = true ∧ save.read = true)) →
    ∃ discovery, s.ask account = some discovery ∧ discovery.operationId = op ∧
      discovery.resumeStage = .save ∧
      s.recoverConfirmed account .save discovery.hash = some wrap.amount

/-- The run awaits the receipt of a wrap or save that succeeds. -/
def AwaitsDeposit (s : V2Page) (run : V2Run) : Prop :=
  match run.await with
  | .receipt (some .wrap) hash | .receipt (some .save) hash => s.succeeded hash = true
  | _ => False

instance : Decidable (s.AwaitsDeposit run) := by
  unfold AwaitsDeposit
  split <;> infer_instance

/-- A write is broadcast only in a run that began with at most one confirmed approval, the receipt
of a wrap or save that succeeds is read, and a discovery ends before the next run begins. -/
def Spared (s : V2Page) : Label → Prop
  | .resume run (.signed _ _) => run.approvals ≤ 1
  | .resume run .failed => ¬ s.AwaitsDeposit run
  | .reload => ∀ run ∈ s.runs, ¬ s.AwaitsDeposit run
  | .discovered discovery _ => discovery.begun = s.begun
  | _ => True

instance : (label : Label) → Decidable (s.Spared label)
  | .resume run (.signed _ _) => inferInstanceAs (Decidable (run.approvals ≤ 1))
  | .resume run .failed => inferInstanceAs (Decidable (¬ s.AwaitsDeposit run))
  | .reload => inferInstanceAs (Decidable (∀ run ∈ s.runs, ¬ s.AwaitsDeposit run))
  | .discovered discovery _ => inferInstanceAs (Decidable (discovery.begun = s.begun))
  | .resume _ (.ready _ _) | .resume _ (.balances _ _) | .resume _ (.allowance _) | .resume _ .done
  | .resume _ .receipt | .tick _ | .account _ | .persist _ | .submitAddMoney _ | .run _
  | .reconcile | .reconciled _ _ _ | .discover => .isTrue trivial

/-! ### The invariant -/

/-- What holds between any two steps of the page. -/
structure Core (account op : String) (s : V2Page) : Prop where
  readAccount : s.readAccount = some account
  logged : Logged account op s
  tracks : Tracks op s.writes (s.log op)
  numbered : Numbered account op s.writes
  fresh : op ∉ s.operations → s.writes = [] ∧ s.log op = []
  started : op ∈ s.operations → op ≠ "" ∧ s.log op ≠ []
  reconciliations : ∀ batch ∈ s.reconciliations, ∀ record ∈ batch, record.operationId ≠ some op

/-- The writes have come to what the run awaits, and its write index is their number. -/
structure Reached (P : List V2Write → Prop) (writes : List V2Write) (run : V2Run) : Prop where
  reached : P writes
  index : run.approvals ≤ 1 → run.writeIndex = confirmed writes

/-- The run awaits the receipt of the latest write. -/
structure Broadcast (P : List V2Write → Prop) (stage : V2AddMoneyStage) (hash : Hash)
    (w : V2Write) (older : List V2Write) (run : V2Run) : Prop where
  before : P older
  hashed : w.hash = hash
  staged : w.stage = some stage
  unread : w.read = false
  index : w.index = run.writeIndex
  next : run.writeIndex = confirmed older + 1
  last : run.hashes.getLast? = some hash

/-- How far the operation is when a run awaits the session. -/
structure Opened (writes : List V2Write) (run : V2Run) : Prop where
  operationAccount : run.operationAccount = none
  seen : Seen writes
  plan : (run.resumed = false ∧ run.approvals = 0 ∧ run.writeIndex = 0 ∧
      ∃ amount, run.plan = .addMoney amount) ∨
    (run.resumed = true ∧ approvals writes = run.approvals ∧ 0 < run.plan.amount ∧
      ((∃ amount, run.plan = .resumeSave amount) ∧ Reached Between writes run ∨
        (∃ amount, run.plan = .resumeAfterApproval amount) ∧ Reached Before writes run))

/-- How far the operation is at each await. -/
def Phase (writes : List V2Write) (run : V2Run) : Prop :=
  match run.await with
  | .session => Opened writes run
  | .balances | .allowance | .write .approval =>
    Reached Before writes run ∧ approvals writes = run.approvals
  | .allowanceAfter | .write .wrap => Reached Before writes run
  | .encrypt | .write .save => Reached Between writes run
  | .receipt (some .approval) hash =>
    ∃ w older, writes = w :: older ∧ Broadcast Before .approval hash w older run
  | .receipt (some .wrap) hash =>
    ∃ w older, writes = w :: older ∧ Broadcast Before .wrap hash w older run
  | .receipt (some .save) hash =>
    ∃ w older, writes = w :: older ∧ Broadcast Between .save hash w older run
  | .receipt none _ | .other => False

/-- What a run is once its session was checked. -/
structure Checked (account op : String) (operations : List String) (run : V2Run) : Prop where
  operationId : run.operationId = op
  started : op ∈ operations
  operationAccount : ∃ own, run.operationAccount = some own ∧ sameAccount own account = true

structure Running (account op : String) (operations : List String) (run : V2Run) : Prop
    extends Checked account op operations run where
  amount : 0 < run.plan.amount

/-- What a run keeps from its beginning. -/
structure Begun (op : String) (s : V2Page) (run : V2Run) : Prop where
  kind : run.kind = addMoneyKind
  unsaved : .save ∉ run.confirmedStages
  resumed : run.resumed = true →
    run.confirmedStages ≠ [] ∧ run.operationId = op ∧ op ∈ s.operations
  fresh : run.resumed = false → s.addMoneyRecovery = none

structure RunInv (account op : String) (s : V2Page) (run : V2Run) : Prop where
  begun : Begun op s run
  running : run.await ≠ .session → Running account op s.operations run
  phase : Phase s.writes run

/-- What holds while no run is in flight. -/
structure RestInv (account op : String) (s : V2Page) : Prop where
  notRunning : s.action.status ≠ .running
  seen : Seen s.writes
  started : ∀ recovery, s.addMoneyRecovery = some recovery → recovery.operationId = op →
    op ∈ s.operations
  usable : ∀ recovery, s.addMoneyRecovery = some recovery → recovery.operationId = op →
    s.isBusy = false → s.addMoneyRecoveryBlocked = false →
    0 < recovery.amount ∧ ∃ discovery, s.ask account = some discovery ∧
      recovery.resumeStage = discovery.resumeStage ∧ recovery.hashes = discovery.hashes ∧
      recovery.confirmedStages = discovery.confirmedStages

structure Inv (account op : String) (s : V2Page) : Prop where
  core : Core account op s
  discoveries : ∀ discovery ∈ s.discoveries, discovery.begun ≤ s.begun ∧
    (discovery.begun = s.begun → s.runs = [] ∧ s.ask account = some discovery)
  runs : s.runs = [] ∧ RestInv account op s ∨
    ∃ run, s.runs = [run] ∧ s.action.status = .running ∧ RunInv account op s run

/-! ### What the records ask for, in terms of the writes -/

/-- A discovery knows how far the operation is. -/
theorem Asked.next {begun : Nat} {discovery : V2Discovery}
    (h : Asked account op begun ops discovery) (htracks : Tracks op writes ops)
    (hnumbered : Numbered account op writes) (hseen : Seen writes) :
    (discovery.resumeStage = .save ∧ Between writes ∨
        discovery.resumeStage = .wrap ∧ Before writes) ∧
      (approvals writes ≤ 1 → discovery.hashes.length = confirmed writes) := by
  have hunsaved : ∀ write ∈ writes, write.success = true → write.stage ≠ some .save := by
    intro write hwrite hsuccess hstage
    have hread := hseen write hwrite hsuccess (by simp [hstage])
    obtain ⟨r, hlatest, hcomplete, -⟩ := completedAt_eq_some.1
      (htracks.completedAt_of_deposit hnumbered hwrite hsuccess hread hstage (by decide))
    exact h.unsaved (by rw [hlatest, ← hcomplete]; rfl)
  have happroved {hash : Hash} (hcompleted : completedAt ops .approval = some hash) :
      0 < approvals writes := by
    obtain ⟨write, hwrite, hstage, -, hsuccess, -⟩ := htracks.completedAt_spec hcompleted
    exact List.countP_pos_iff.2 ⟨write, hwrite, by simp [hstage, hsuccess]⟩
  rcases h.stage with ⟨hstage, hwrap, hhashes⟩ | ⟨hstage, hwrap, happroval, hhashes⟩
  · obtain ⟨wrap, hmem, hwstage, -, hsuccess, hread⟩ := htracks.completedAt_spec hwrap
    have halive := hnumbered.alive wrap hmem hsuccess (by simp [hwstage])
    have hbetween : Between writes :=
      ⟨halive, ⟨wrap, hmem, hwstage, hsuccess, hread⟩,
        fun write hwrite hs hw => hseen write hwrite hs (by simp [hw]), hunsaved⟩
    refine ⟨.inl ⟨hstage, hbetween⟩, fun hle => ?_⟩
    rw [hbetween.confirmed_eq hnumbered, hhashes, List.length_append, List.length_singleton]
    congr 1
    cases hcompleted : completedAt ops .approval with
    | some hash =>
      have := happroved hcompleted
      simp only [Option.toList_some, List.length_singleton]
      omega
    | none =>
      -- An approval that was counted is confirmed, and then it is found complete.
      rcases Nat.eq_zero_or_pos (approvals writes) with hzero | hpos
      · simp [hzero]
      · obtain ⟨a, ha⟩ := exists_latest_of_approvals hpos
        obtain ⟨hasuccess, haread⟩ := halive a ha
        have hastage : a.stage = some .approval := by simpa using List.find?_some ha
        have hrecorded := htracks.recorded a (List.mem_of_find?_eq_some ha) hasuccess haread
          fun stage hs => by rwa [← Option.some.inj (hastage.symm.trans hs)]
        rw [hrecorded.completedAt hastage] at hcompleted
        cases hcompleted
  · have hbefore : Before writes := by
      refine ⟨htracks.alive_of_completedAt happroval, fun write hwrite hsuccess => ?_⟩
      cases hwstage : write.stage with
      | none => exact absurd hwstage (hnumbered.own write hwrite).stage
      | some stage =>
        cases stage with
        | approval => rfl
        | save => exact absurd hwstage (hunsaved write hwrite hsuccess)
        | wrap =>
          have hread := hseen write hwrite hsuccess (by simp [hwstage])
          rw [htracks.completedAt_of_deposit hnumbered hwrite hsuccess hread hwstage
            (by decide)] at hwrap
          cases hwrap
    refine ⟨.inr ⟨hstage, hbefore⟩, fun hle => ?_⟩
    have hpos := happroved happroval
    rw [hbefore.confirmed_eq, hhashes, List.length_singleton]
    omega

theorem Core.ask (h : Core account op s) (hstarted : op ∈ s.operations) :
    s.ask account = s.askCheckpoint account (checkpointOf op (s.log op)) :=
  h.logged.ask (h.started hstarted).2 (h.started hstarted).1

/-- A discovery of the operation is asked for by its own records. -/
theorem Core.asked (h : Core account op s) {discovery : V2Discovery}
    (hask : s.ask account = some discovery) (hid : discovery.operationId = op) :
    op ∈ s.operations ∧ Asked account op s.begun (s.log op) discovery := by
  have hstarted : op ∈ s.operations := by
    by_contra hnot
    obtain ⟨checkpoint, hfind, hcheckpoint⟩ := Option.bind_eq_some_iff.1 hask
    obtain ⟨r, hr, hrid⟩ := findLatest_operationId hfind
    have hop : discovery.operationId = checkpoint.operationId := by
      simp only [askCheckpoint] at hcheckpoint
      split at hcheckpoint
      · cases hcheckpoint
      split at hcheckpoint
      · cases hcheckpoint
      split at hcheckpoint
      · exact Option.some.inj hcheckpoint ▸ rfl
      · exact Option.some.inj hcheckpoint ▸ rfl
      · cases hcheckpoint
    have hmem : r ∈ s.log op := List.mem_filter.2
      ⟨List.mem_of_mem_filter (List.mem_of_mem_take (List.mem_of_mem_filter hr)),
        by simpa [← hop, hid] using hrid⟩
    simp [(h.fresh hnot).2] at hmem
  refine ⟨hstarted, askCheckpoint_spec (fun r hr => (h.logged.own r hr).resolved) ?_⟩
  rw [← h.ask hstarted, hask]

/-- What is promised follows from what holds between the steps. -/
theorem Core.resumable (h : Core account op s) : Resumable account op s where
  ids := h.numbered.ids.imp_of_mem fun {newer older} hnewer holder hids heq => by
    refine hids ?_
    rw [V2Write.id, V2Write.id, (h.numbered.own newer hnewer).operationId,
      (h.numbered.own older holder).operationId, writeId_inj] at heq
    exact heq
  once := h.numbered.once
  offered wrap hwrap hstage hsuccess hread hunsaved := by
    have hstarted : op ∈ s.operations := by
      by_contra hnot
      simp [(h.fresh hnot).1] at hwrap
    have hcompleted := h.tracks.completedAt_of_deposit h.numbered hwrap hsuccess hread hstage
      (by decide)
    have hsave : (latestForStage (s.log op) .save).map (·.stage) ≠ some .complete := by
      intro hcomplete
      obtain ⟨r, hlatest, hr⟩ := Option.map_eq_some_iff.1 hcomplete
      obtain ⟨hmem, hrstage⟩ := mem_of_latestForStage hlatest
      obtain ⟨save, hs, hof, -, hdone⟩ := h.tracks.complete r hmem hr
      exact hunsaved save hs (hof.symm.trans hrstage) hdone
    obtain ⟨discovery, hask, hid, hresume, hhash⟩ := askCheckpoint_of_wrap
      (s := s) (fun r hr => (h.logged.own r hr).resolved) hcompleted hsave
    refine ⟨discovery, by rw [h.ask hstarted, hask], hid, hresume, ?_⟩
    have hfind : s.writes.find? (·.hash = discovery.hash) = some wrap := by
      obtain ⟨newer, older, heq⟩ := List.append_of_mem hwrap
      refine List.find?_eq_some_iff_append.2 ⟨by simp [hhash], newer, older, heq, fun v hv => ?_⟩
      have hne := (List.pairwise_append.1 (heq ▸ h.numbered.hashes)).2.2 v hv wrap
        List.mem_cons_self
      simpa [hhash] using hne
    have hown := h.numbered.own wrap hwrap
    simp [recoverConfirmed, hfind, Option.filter, hsuccess, hown.account, hown.amount, hstage]

end V2Page

end Leopold.Frontend
