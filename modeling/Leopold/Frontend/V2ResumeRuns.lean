import Leopold.Frontend.V2Resume

/-!
# The steps of the operation

One lemma for each way a run goes on, then the steps of the page, then the runs.
-/

namespace Leopold.Frontend

open Lib Lib.Recent

namespace V2Page

variable {account op : String} {s t : V2Page} {run : V2Run} {writes older : List V2Write}
  {w : V2Write} {error : V2ActionError} {stage : V2AddMoneyStage} {hash : Hash}

/-! ### What stays -/

theorem Core.same (h : Core account op s) (hstored : t.stored = s.stored) (hnow : s.now ≤ t.now)
    (hread : t.readAccount = s.readAccount) (hwrites : t.writes = s.writes)
    (hops : t.operations = s.operations)
    (hrec : ∀ batch ∈ t.reconciliations, ∀ record ∈ batch, record.operationId ≠ some op) :
    Core account op t := by
  have hlog : t.log op = s.log op := by rw [log, log, hstored]
  exact ⟨hread.trans h.readAccount, h.logged.later hstored hnow,
    by rw [hwrites, hlog]; exact h.tracks, by rw [hwrites]; exact h.numbered,
    by rw [hwrites, hlog, hops]; exact h.fresh, by rw [hlog, hops]; exact h.started, hrec⟩

/-- A record of the operation was stored. -/
theorem Core.persist (h : Core account op s) {record : SafeTransactionRecord}
    (hown : OwnRecord account op record) (hnow : record.updatedAt = s.now)
    (hstarted : op ∈ t.operations) (hop : op ≠ "")
    (hstored : t.stored = persistSafeTransaction s.stored record) (htime : t.now = s.now)
    (hread : t.readAccount = s.readAccount) (hrec : t.reconciliations = s.reconciliations)
    (htracks : Tracks op t.writes (put SafeTransactionRecord.id record (s.log op)))
    (hnumbered : Numbered account op t.writes) : Core account op t := by
  have hshort := htracks.short hnumbered (nodup_put h.logged.nodup)
  obtain ⟨hlog, hlogged⟩ := logged_persist h.logged hown hnow hshort hstored htime
  exact ⟨hread.trans h.readAccount, hlogged, hlog.symm ▸ htracks, hnumbered,
    fun hnot => absurd hstarted hnot, fun _ => ⟨hop, by rw [hlog]; exact List.cons_ne_nil _ _⟩,
    hrec ▸ h.reconciliations⟩

/-- The record of a run of the operation is its own. -/
theorem ownRecord_runRecord (hkind : run.kind = addMoneyKind) (hid : run.operationId = op)
    {own : String} (hown : sameAccount own account = true) {stage : TransactionStage}
    (hstage : stage ≠ .submitted ∧ stage ≠ .confirming) {hash : Option Hash}
    {errorStage : Option TransactionStage} {operationStage : Option V2AddMoneyStage} :
    OwnRecord account op (s.runRecord run own stage hash errorStage operationStage) where
  kind := hkind
  operationId := congrArg some hid
  chainId := rfl
  account := hown
  resolved := by simp [isUnresolvedV2Transaction, runRecord, hstage.1, hstage.2]
  id := by
    simp only [runRecord, hid, failureId, writeId]
    split
    · exact ⟨_, rfl⟩
    split
    · exact ⟨_, String.append_assoc⟩
    · exact ⟨"", (String.append_empty).symm⟩

/-- The record of a write has the id of the write. -/
theorem runRecord_id (hhash : hash ≠ "") {own : String} {stage : TransactionStage}
    {operationStage : Option V2AddMoneyStage} :
    (s.runRecord run own stage (some hash) none operationStage).id =
      writeId run.operationId run.writeIndex := by
  simp [runRecord, givenHash_some hhash]

theorem confirmingStage_ne (stage : V2AddMoneyStage) :
    confirmingStage (some stage) ≠ .submitted ∧ confirmingStage (some stage) ≠ .confirming ∧
      confirmingStage (some stage) ≠ .complete := by
  cases stage <;> decide

/-! ### Between runs -/

/-- The discoveries in flight began before the last run. -/
def Stale (s : V2Page) : Prop := ∀ discovery ∈ s.discoveries, discovery.begun < s.begun

theorem Inv.stale (h : Inv account op s) (hruns : s.runs ≠ []) : s.Stale := fun discovery hd =>
  lt_of_le_of_ne (h.discoveries discovery hd).1
    fun heq => hruns ((h.discoveries discovery hd).2 heq).1

theorem inv_of_stale (hcore : Core account op s) (hstale : s.Stale)
    (hruns : s.runs = [] ∧ RestInv account op s ∨
      ∃ run, s.runs = [run] ∧ s.action.status = .running ∧ RunInv account op s run) :
    Inv account op s where
  core := hcore
  discoveries discovery hd := ⟨(hstale discovery hd).le, fun heq =>
    absurd heq (hstale discovery hd).ne⟩
  runs := hruns

/-- A run that was taken out of the page goes on. -/
structure Taken (account op : String) (s : V2Page) (run : V2Run) : Prop where
  core : Core account op s
  stale : s.Stale
  alone : s.runs = []
  status : s.action.status = .running
  begun : Begun op s run

/-- The run awaits something else. -/
theorem Taken.goOn (h : Taken account op s run) {await : V2Await}
    (hrunning : await ≠ .session → Running account op s.operations run)
    (hphase : Phase s.writes { run with await }) : Inv account op (s.goOn run await) := by
  refine inv_of_stale (h.core.same rfl le_rfl rfl rfl rfl h.core.reconciliations) h.stale
    (.inr ⟨{ run with await }, by simp [V2Page.goOn, h.alone], h.status, ?_, fun hawait => ?_,
      hphase⟩)
  · exact ⟨h.begun.kind, h.begun.unsaved, h.begun.resumed, h.begun.fresh⟩
  · have hrun := hrunning hawait
    exact ⟨⟨hrun.operationId, hrun.started, hrun.operationAccount⟩, hrun.amount⟩

/-- A run begins with a recovery of the operation, or with none. -/
theorem Begun.started (h : Begun op s run) {recovery : AddMoneyRecovery}
    (hrecovery : s.addMoneyRecovery = some recovery) : op ∈ s.operations := by
  cases hresumed : run.resumed with
  | true => exact (h.resumed hresumed).2.2
  | false =>
    rw [h.fresh hresumed] at hrecovery
    cases hrecovery

/-- After a failure an operation that confirmed a stage is blocked. -/
theorem rest_fail (hbegun : Begun op s run) (hseen : Seen s.writes) :
    RestInv account op (s.fail run error) where
  notRunning := by simp [fail, setAction]
  seen := hseen
  started recovery hrecovery _ := hbegun.started hrecovery
  usable recovery hrecovery _ _ hblocked := by
    cases hresumed : run.resumed with
    | true =>
      have hne := (hbegun.resumed hresumed).1
      simp [fail, setAction, hbegun.kind, hbegun.unsaved, hne] at hblocked
    | false =>
      have hnone : s.addMoneyRecovery = some recovery := hrecovery
      rw [hbegun.fresh hresumed] at hnone
      cases hnone

/-- A failure without a hash. -/
theorem Taken.fail (h : Taken account op s run) (hrunning : Checked account op s.operations run)
    (halive : Alive s.writes) (hseen : Seen s.writes) (herror : error.isReverted = false) :
    Inv account op (s.fail run error) := by
  obtain ⟨own, hown, hsame⟩ := hrunning.operationAccount
  refine inv_of_stale ?_ h.stale (.inl ⟨h.alone, rest_fail h.begun hseen⟩)
  have hrecord : OwnRecord account op (s.runRecord run own .failed none (some .failed)
      ((addMoneyStageFromError error).or run.lastWriteStage)) :=
    ownRecord_runRecord h.begun.kind hrunning.operationId hsame (by decide)
  refine h.core.persist hrecord rfl hrunning.started (h.core.started hrunning.started).1 ?_ rfl rfl
    rfl ?_ h.core.numbered
  · simp [V2Page.fail, persistRecord, setAction, hown, herror]
  · exact h.core.tracks.quiet h.core.numbered
      (.inr (by simp [runRecord, hrunning.operationId])) rfl (by simp [runRecord]) halive

/-- A failure before the session was checked stores nothing. -/
theorem Taken.failOpened (h : Taken account op s run) (hopened : Opened s.writes run) :
    Inv account op (s.fail run error) := by
  refine inv_of_stale (h.core.same ?_ le_rfl rfl rfl rfl h.core.reconciliations) h.stale
    (.inl ⟨h.alone, rest_fail h.begun hopened.seen⟩)
  simp [V2Page.fail, persistRecord, setAction, hopened.operationAccount]

/-! ### Writes -/

/-- A write is broadcast. -/
theorem Taken.onHash (h : Taken account op s run) (hrunning : Running account op s.operations run)
    {success : Bool} (hsigned : s.Answers run (.signed hash success)) (hle : run.approvals ≤ 1)
    {P : List V2Write → Prop} (hreached : Reached P s.writes run)
    (honce : ∀ write ∈ s.writes, write.success = true → write.stage ≠ some .approval →
      some stage ≠ write.stage)
    (happroval : stage = .approval → approvals s.writes ≤ 1 ∧
      ∀ write ∈ s.writes, write.success = true → write.stage = some .approval)
    (halive : Alive s.writes)
    (hphase : ∀ w, Broadcast P stage hash w s.writes (sent run (some stage) hash) →
      Phase (w :: s.writes)
        { sent run (some stage) hash with await := .receipt (some stage) hash }) :
    Inv account op (s.onHash run (some stage) hash success) := by
  obtain ⟨own, hown, hsame⟩ := hrunning.operationAccount
  have hindex := hreached.index hle
  have hne := confirmingStage_ne stage
  have hkind : (sent run (some stage) hash).kind = addMoneyKind := h.begun.kind
  have hid : (sent run (some stage) hash).operationId = op := hrunning.operationId
  have hruns : (s.onHash run (some stage) hash success).runs =
      [{ sent run (some stage) hash with await := .receipt (some stage) hash }] :=
    congrArg (_ :: ·) h.alone
  have hnumbered : Numbered account op
      (sentWrite (sent run (some stage) hash) (some stage) hash success :: s.writes) := by
    refine h.core.numbered.broadcast ⟨hrunning.operationId, Option.some_ne_none _, hrunning.amount,
      hsigned.1, ?_⟩ hsigned.2 (congrArg (· + 1) hindex) honce (fun hw => happroval (Option.some.inj hw))
      fun _ => halive
    simpa [sentWrite, sent, hown] using hsame
  refine inv_of_stale ?_ h.stale (.inr ⟨_, hruns, h.status, ?_, fun _ => ?_, ?_⟩)
  · have hrecord : OwnRecord account op (s.runRecord (sent run (some stage) hash) own
        (confirmingStage (some stage)) (some hash) none (some stage)) :=
      ownRecord_runRecord hkind hid hsame ⟨hne.1, hne.2.1⟩
    refine h.core.persist hrecord rfl hrunning.started (h.core.started hrunning.started).1 ?_ rfl
      rfl rfl ?_ hnumbered
    · simp [V2Page.onHash, V2Page.goOn, persistRecord, setAction, hown, runRecord, sent]
    · exact h.core.tracks.broadcast hnumbered (runRecord_id hsigned.1) rfl rfl hne.2.2 rfl
        fun _ => halive
  · exact ⟨h.begun.kind, h.begun.unsaved, h.begun.resumed, h.begun.fresh⟩
  · exact ⟨⟨hrunning.operationId, hrunning.started, hrunning.operationAccount⟩, hrunning.amount⟩
  · refine hphase _ ⟨hreached.reached, rfl, rfl, rfl, rfl, congrArg (· + 1) hindex, ?_⟩
    simp [sent]

/-! ### Receipts -/

/-- What is recorded under the hash of the latest write has the id of the write. -/
theorem Broadcast.runRecord_id {P : List V2Write → Prop} (h : Broadcast P stage hash w older run)
    (hown : OwnWrite account op w) (hid : run.operationId = op) {own : String}
    {recorded : TransactionStage} {operationStage : Option V2AddMoneyStage} :
    (t.runRecord run own recorded (some hash) none operationStage).id = w.id := by
  rw [V2Page.runRecord_id (h.hashed ▸ hown.hash), V2Write.id, h.index, hown.operationId, hid]

/-- The receipt of the latest write is read. -/
theorem noteRead_writes (hnumbered : Numbered account op (w :: older))
    (hs : s.writes = w :: older) (hhash : w.hash = hash) :
    (s.noteRead hash).writes = { w with read := true } :: older := by
  have holder : ∀ write ∈ older, write.hash ≠ hash := fun write hwrite heq =>
    (List.pairwise_cons.1 hnumbered.hashes).1 write hwrite (hhash.trans heq.symm)
  have hsame : older.map (fun write => if write.hash = hash then { write with read := true }
      else write) = older := by
    refine (List.map_congr_left fun write hwrite => ?_).trans (List.map_id older)
    exact if_neg (holder write hwrite)
  rw [noteRead, hs, List.map_cons, hsame, if_pos hhash]

theorem succeeded_head (hnumbered : Numbered account op (w :: older)) (hhash : w.hash = hash)
    (hs : s.writes = w :: older) : s.succeeded hash = w.success := by
  have holder : (older.any fun write => write.hash = hash && write.success) = false := by
    refine List.any_eq_false.2 fun write hwrite => ?_
    have hne := (List.pairwise_cons.1 hnumbered.hashes).1 write hwrite
    simp [← hhash, hne.symm]
  rw [succeeded, hs, List.any_cons, holder, decide_eq_true hhash, Bool.true_and, Bool.or_false]

/-- A record of the latest write is stored, once its receipt was read. -/
theorem Core.settle (h : Core account op s) (hs : s.writes = w :: older) {w' : V2Write}
    (hw : w' = w ∨ w' = { w with read := true }) (hnumbered : Numbered account op (w' :: older))
    {record : SafeTransactionRecord} (hown : OwnRecord account op record)
    (hnow : record.updatedAt = s.now) (hstarted : op ∈ s.operations)
    (hid : record.id = w.id ∨ record.id = failureId op) (hhash : record.hash = some w.hash)
    (hat : record.operationStage = w.stage)
    (hcomplete : record.stage = .complete → w'.success = true ∧ w'.read = true)
    (hdone : w'.success = true → w'.read = true → record.stage = .complete ∧ record.id = w.id)
    (halive : w.stage ≠ some .approval → Alive older)
    (hstored : t.stored = persistSafeTransaction s.stored record) (htime : t.now = s.now)
    (hread : t.readAccount = s.readAccount) (hrec : t.reconciliations = s.reconciliations)
    (hops : t.operations = s.operations) (hwrites : t.writes = w' :: older) :
    Core account op t := by
  refine h.persist hown hnow (hops ▸ hstarted) (h.started hstarted).1 hstored htime hread hrec ?_
    (hwrites ▸ hnumbered)
  rw [hwrites]
  exact (hs ▸ h.tracks).goOn (hs ▸ h.numbered) hw hid hhash hat hcomplete hdone halive

theorem Seen.readHead (h : Seen older) : Seen ({ w with read := true } :: older) :=
  List.forall_mem_cons.2 ⟨fun _ _ => rfl, h⟩

/-- The receipt says that the latest write was reverted. -/
theorem Taken.reverted {P : List V2Write → Prop} (h : Taken account op s run)
    (hrunning : Running account op s.operations run) (hs : s.writes = w :: older)
    (hbroadcast : Broadcast P stage hash w older run) (halive : Alive older) (hseen : Seen older)
    (hfailed : w.success = false) :
    Inv account op ((s.noteRead hash).fail run (.reverted (some stage))) := by
  obtain ⟨own, hown, hsame⟩ := hrunning.operationAccount
  have hnumbered := hs ▸ h.core.numbered
  have hwrites := noteRead_writes hnumbered hs hbroadcast.hashed
  have hrecord : OwnRecord account op ((s.noteRead hash).runRecord run own .failed
      run.hashes.getLast? (some .failed) (some stage)) :=
    ownRecord_runRecord h.begun.kind hrunning.operationId hsame (by decide)
  have hbegun : Begun op (s.noteRead hash) run :=
    ⟨h.begun.kind, h.begun.unsaved, h.begun.resumed, h.begun.fresh⟩
  refine inv_of_stale ?_ h.stale (.inl ⟨h.alone, rest_fail hbegun (hwrites ▸ hseen.readHead)⟩)
  refine h.core.settle hs (.inr rfl) hnumbered.readHead hrecord rfl hrunning.started
    (.inr (by simp [runRecord, hrunning.operationId]))
    (hbroadcast.last.trans (congrArg some hbroadcast.hashed.symm)) hbroadcast.staged.symm
    (by simp [runRecord]) (fun hsuccess => ?_) (fun _ => halive) ?_ rfl rfl rfl rfl hwrites
  · exact absurd hsuccess (by simp [hfailed])
  · simp [V2Page.fail, persistRecord, setAction, noteRead, hown, V2ActionError.isReverted,
      addMoneyStageFromError, runRecord]

/-- The local variables of a run after a receipt that says its write succeeded. -/
def noted (run : V2Run) (stage : V2AddMoneyStage) : V2Run :=
  { run with
    lastWriteStage := some stage
    confirmedStages := run.confirmedStages ++ [stage] }

/-- The receipt says that the latest write succeeded. -/
theorem Taken.confirmed {P : List V2Write → Prop} (h : Taken account op s run)
    (hrunning : Running account op s.operations run) (hs : s.writes = w :: older)
    (hbroadcast : Broadcast P stage hash w older run) (halive : Alive older)
    (hsuccess : w.success = true) :
    Core account op ((s.noteRead hash).persistRecord (noted run stage) .complete (some hash) none
      (some stage)) := by
  obtain ⟨own, hown, hsame⟩ := hrunning.operationAccount
  have hnumbered := hs ▸ h.core.numbered
  have hwrites := noteRead_writes hnumbered hs hbroadcast.hashed
  have hkind : (noted run stage).kind = addMoneyKind := h.begun.kind
  have hid : (noted run stage).operationId = op := hrunning.operationId
  have hown' : (noted run stage).operationAccount = some own := hown
  have hrecord : OwnRecord account op ((s.noteRead hash).runRecord (noted run stage) own .complete
      (some hash) none (some stage)) := ownRecord_runRecord hkind hid hsame (by decide)
  have hwid : ((s.noteRead hash).runRecord (noted run stage) own .complete (some hash) none
      (some stage)).id = w.id :=
    hbroadcast.runRecord_id (hnumbered.own w List.mem_cons_self) hrunning.operationId
  refine h.core.settle hs (.inr rfl) hnumbered.readHead hrecord rfl hrunning.started
    (.inl hwid) (congrArg some hbroadcast.hashed.symm) hbroadcast.staged.symm
    (fun _ => ⟨hsuccess, rfl⟩) (fun _ _ => ⟨rfl, hwid⟩) (fun _ => halive) ?_ rfl rfl rfl rfl
    hwrites
  simp [persistRecord, noteRead, hown', runRecord]

/-- A run whose approval or wrap was confirmed goes on. -/
theorem Taken.noted (h : Taken account op s run)
    (hcore : Core account op ((s.noteRead hash).persistRecord (noted run stage) .complete (some hash)
      none (some stage))) (hne : stage ≠ .save) :
    Taken account op ((s.noteRead hash).persistRecord (V2Page.noted run stage) .complete (some hash)
      none (some stage)) (V2Page.noted run stage) := by
  refine ⟨hcore, h.stale, h.alone, h.status, h.begun.kind, ?_, fun hresumed => ?_, h.begun.fresh⟩
  · have hother : .save ∉ [stage] := by
      rw [List.mem_singleton]
      exact hne.symm
    exact fun hmem => (List.mem_append.1 hmem).elim h.begun.unsaved hother
  · exact ⟨List.append_ne_nil_of_right_ne_nil _ (List.cons_ne_nil _ _), (h.begun.resumed hresumed).2⟩

theorem Running.noted {operations : List String} (h : Running account op operations run) :
    Running account op operations (V2Page.noted run stage) :=
  ⟨⟨h.operationId, h.started, h.operationAccount⟩, h.amount⟩

/-- The latest write was confirmed: how far the operation is then. -/
theorem Broadcast.approved (hb : Broadcast Before .approval hash w older run)
    (hsuccess : w.success = true) {run' : V2Run} (hindex : run'.writeIndex = run.writeIndex) :
    Reached Before ({ w with read := true } :: older) run' := by
  refine ⟨⟨fun a ha => ?_, ?_⟩, fun _ => ?_⟩
  · rw [latestWrite_cons_of_eq (w := { w with read := true }) hb.staged] at ha
    exact Option.some.inj ha ▸ ⟨hsuccess, rfl⟩
  · exact List.forall_mem_cons.2 ⟨fun _ => hb.staged, hb.before.2⟩
  · rw [hindex, hb.next, confirmed_cons, if_pos hsuccess]

theorem Broadcast.wrapped (hb : Broadcast Before .wrap hash w older run)
    (hsuccess : w.success = true) {run' : V2Run} (hindex : run'.writeIndex = run.writeIndex) :
    Reached Between ({ w with read := true } :: older) run' := by
  have hstage : w.stage ≠ some .approval := by
    rw [hb.staged]
    decide
  refine ⟨⟨hb.before.1.cons hstage, ⟨_, List.mem_cons_self, hb.staged, hsuccess, rfl⟩, ?_, ?_⟩,
    fun _ => ?_⟩
  · refine List.forall_mem_cons.2 ⟨fun _ _ => rfl, fun write hwrite hs hwrap => ?_⟩
    rw [hb.before.2 write hwrite hs] at hwrap
    cases hwrap
  · refine List.forall_mem_cons.2 ⟨fun _ => ?_, fun write hwrite hs => ?_⟩
    · show w.stage ≠ some .save
      rw [hb.staged]
      decide
    · rw [hb.before.2 write hwrite hs]
      decide
  · rw [hindex, hb.next, confirmed_cons, if_pos hsuccess]

/-- What a run stores that returned after its last write. -/
theorem finish_eq (hkind : run.kind = addMoneyKind) {own : String}
    (hown : run.operationAccount = some own) (hlast : run.hashes.getLast? = some hash)
    (hstage : run.lastWriteStage = some stage) :
    s.finish run = { s with
      stored := persistSafeTransaction s.stored
        (s.runRecord run own .complete (some hash) none (some stage))
      addMoneyRecovery := none
      addMoneyRecoveryBlocked := false
      action := ⟨.success, some run.kind, run.hashes, false⟩ } := by
  simp only [finish, persistRecord, setAction, if_pos hkind, hown, hlast, hstage]

/-- A save was confirmed: the operation is done. -/
theorem Taken.finish (h : Taken account op s run) (hrunning : Running account op s.operations run)
    (hs : s.writes = w :: older) (hbroadcast : Broadcast Between .save hash w older run)
    (hsuccess : w.success = true) :
    Inv account op (((s.noteRead hash).persistRecord (V2Page.noted run .save) .complete (some hash)
      none (some .save)).finish (V2Page.noted run .save)) := by
  have hcore := h.confirmed hrunning hs hbroadcast hbroadcast.before.alive hsuccess
  obtain ⟨own, hown, hsame⟩ := hrunning.operationAccount
  have hnumbered := hs ▸ h.core.numbered
  have hwrites := noteRead_writes hnumbered hs hbroadcast.hashed
  generalize ht : (s.noteRead hash).persistRecord (V2Page.noted run .save) .complete (some hash)
    none (some .save) = t at hcore ⊢
  have htwrites : t.writes = { w with read := true } :: older := by rw [← ht]; exact hwrites
  have htops : t.operations = s.operations := by rw [← ht]; rfl
  have hkind : (V2Page.noted run .save).kind = addMoneyKind := h.begun.kind
  have hid : (V2Page.noted run .save).operationId = op := hrunning.operationId
  have hown' : (V2Page.noted run .save).operationAccount = some own := hown
  have hlast : (V2Page.noted run .save).hashes.getLast? = some hash := hbroadcast.last
  have hrecord : OwnRecord account op (t.runRecord (V2Page.noted run .save) own .complete
      (some hash) none (some .save)) := ownRecord_runRecord hkind hid hsame (by decide)
  have hwid : (t.runRecord (V2Page.noted run .save) own .complete (some hash) none
      (some .save)).id = w.id :=
    hbroadcast.runRecord_id (hnumbered.own w List.mem_cons_self) hrunning.operationId
  have hseen : Seen ({ w with read := true } :: older) :=
    (hbroadcast.before.allSeen fun write hwrite =>
      hnumbered.own write (List.mem_cons_of_mem _ hwrite)).readHead
  rw [finish_eq hkind hown' hlast rfl]
  refine inv_of_stale ?_ (ht ▸ h.stale) (.inl ⟨ht ▸ h.alone, ?_⟩)
  · exact hcore.settle htwrites (.inl rfl) hnumbered.readHead hrecord rfl
      (htops ▸ hrunning.started) (.inl hwid) (congrArg some hbroadcast.hashed.symm)
      hbroadcast.staged.symm (fun _ => ⟨hsuccess, rfl⟩) (fun _ _ => ⟨rfl, hwid⟩)
      (fun _ => hbroadcast.before.alive) rfl rfl rfl rfl rfl htwrites
  · refine ⟨?_, htwrites ▸ hseen, ?_, ?_⟩
    · exact V2ActionStatus.noConfusion
    · rintro recovery ⟨⟩
    · rintro recovery ⟨⟩

theorem Between.seen_older (h : Between older) (hnumbered : Numbered account op (w :: older)) :
    Seen older :=
  h.allSeen fun write hwrite => hnumbered.own write (List.mem_cons_of_mem _ hwrite)

/-- A receipt: a reverted write ends the run, after a confirmed one the operation goes on. -/
theorem Taken.onReceipt_of {P : List V2Write → Prop} (h : Taken account op s run)
    (hrunning : Running account op s.operations run) (hs : s.writes = w :: older)
    (hbroadcast : Broadcast P stage hash w older run) (halive : Alive older) (hseen : Seen older)
    (hok : w.success = true →
      Inv account op (((s.noteRead hash).persistRecord (V2Page.noted run stage) .complete
        (some hash) none (some stage)).afterWrite (V2Page.noted run stage) (some stage))) :
    Inv account op (s.onReceipt run (some stage) hash) := by
  have hnumbered := hs ▸ h.core.numbered
  have hsucceeded : (s.noteRead hash).succeeded hash = w.success :=
    succeeded_head (w := { w with read := true }) hnumbered.readHead hbroadcast.hashed
      (noteRead_writes hnumbered hs hbroadcast.hashed)
  rw [V2Page.onReceipt]
  dsimp only
  rw [hsucceeded]
  cases hsuccess : w.success with
  | false => exact h.reverted hrunning hs hbroadcast halive hseen hsuccess
  | true => exact hok hsuccess

/-- The receipt of the latest write was read. -/
theorem Taken.onReceipt (h : Taken account op s run)
    (hrunning : Running account op s.operations run)
    (hawait : run.await = .receipt (some stage) hash) (hphase : Phase s.writes run) :
    Inv account op (s.onReceipt run (some stage) hash) := by
  rw [Phase, hawait] at hphase
  cases stage with
  | approval =>
    obtain ⟨w, older, hs, hb⟩ := hphase
    refine h.onReceipt_of hrunning hs hb hb.before.1 hb.before.seen fun hsuccess => ?_
    have hcore := h.confirmed hrunning hs hb hb.before.1 hsuccess
    refine (h.noted hcore (by decide)).goOn (fun _ => hrunning.noted) ?_
    have hread := noteRead_writes (hs ▸ h.core.numbered) hs hb.hashed
    exact hread.symm ▸ hb.approved hsuccess rfl
  | wrap =>
    obtain ⟨w, older, hs, hb⟩ := hphase
    refine h.onReceipt_of hrunning hs hb hb.before.1 hb.before.seen fun hsuccess => ?_
    have hcore := h.confirmed hrunning hs hb hb.before.1 hsuccess
    refine (h.noted hcore (by decide)).goOn (fun _ => hrunning.noted) ?_
    have hread := noteRead_writes (hs ▸ h.core.numbered) hs hb.hashed
    exact hread.symm ▸ hb.wrapped hsuccess rfl
  | save =>
    obtain ⟨w, older, hs, hb⟩ := hphase
    exact h.onReceipt_of hrunning hs hb hb.before.alive
      (hb.before.seen_older (hs ▸ h.core.numbered)) fun hsuccess => h.finish hrunning hs hb hsuccess

/-- The receipt of the latest write could not be read. -/
theorem Taken.pend {P : List V2Write → Prop} (h : Taken account op s run)
    (hrunning : Running account op s.operations run) (hs : s.writes = w :: older)
    (hbroadcast : Broadcast P stage hash w older run) (halive : Alive older) (hseen : Seen older)
    (happroval : w.success = true → stage = .approval) :
    Inv account op (s.pend run (some stage) hash) := by
  obtain ⟨own, hown, hsame⟩ := hrunning.operationAccount
  have hnumbered := hs ▸ h.core.numbered
  have hne := confirmingStage_ne stage
  have hrecord : OwnRecord account op (s.runRecord run own (confirmingStage (some stage))
      (some hash) none (some stage)) :=
    ownRecord_runRecord h.begun.kind hrunning.operationId hsame ⟨hne.1, hne.2.1⟩
  have hwid : (s.runRecord run own (confirmingStage (some stage)) (some hash) none
      (some stage)).id = w.id :=
    hbroadcast.runRecord_id (hnumbered.own w List.mem_cons_self) hrunning.operationId
  refine inv_of_stale ?_ h.stale (.inl ⟨h.alone, ?_, ?_, ?_, ?_⟩)
  · refine h.core.settle hs (.inl rfl) hnumbered hrecord rfl hrunning.started (.inl hwid)
      (congrArg some hbroadcast.hashed.symm) hbroadcast.staged.symm (fun hcomplete => ?_)
      (fun _ hread => ?_) (fun _ => halive) ?_ rfl rfl rfl rfl hs
    · exact absurd hcomplete hne.2.2
    · rw [hbroadcast.unread] at hread
      cases hread
    · simp [V2Page.pend, persistRecord, setAction, hown]
  · exact V2ActionStatus.noConfusion
  · refine hs ▸ List.forall_mem_cons.2 ⟨fun hsuccess hstage => ?_, hseen⟩
    exact absurd (hbroadcast.staged.trans (congrArg some (happroval hsuccess))) hstage
  · exact fun recovery hrecovery _ => h.begun.started hrecovery
  · rintro recovery - - ⟨⟩

/-! ### The session -/

/-- A new operation draws its id. -/
theorem Taken.readyFresh (h : Taken account op s run) (hopened : Opened s.writes run)
    (hfresh : run.resumed = false) {own : String} (hsame : sameAccount own account = true)
    (hnew : op ∉ s.operations) (hop : op ≠ "") : Inv account op (s.ready run own op) := by
  obtain ⟨hwrites, hlog⟩ := h.core.fresh hnew
  obtain ⟨-, happrovals, hindex, amount, hplan⟩ : run.resumed = false ∧ run.approvals = 0 ∧
      run.writeIndex = 0 ∧ ∃ amount, run.plan = .addMoney amount := by
    rcases hopened.plan with hplan | ⟨hresumed, -⟩
    · exact hplan
    · rw [hfresh] at hresumed
      cases hresumed
  -- the page once the first record of the operation is stored
  let run' : V2Run := { run with operationAccount := some own, operationId := op }
  let t := { s with operations := op :: s.operations }.persistRecord run' .wallet none none none
  have hchecked : Checked account op t.operations run' :=
    ⟨rfl, List.mem_cons_self, own, rfl, hsame⟩
  have hrecord : OwnRecord account op (s.runRecord run' own .wallet none none none) :=
    @ownRecord_runRecord account op s run' h.begun.kind rfl own hsame .wallet (by decide) _ _ _
  have hcore : Core account op t := by
    have hshort : Tracks op s.writes
        (put SafeTransactionRecord.id (s.runRecord run' own .wallet none none none) (s.log op)) :=
      h.core.tracks.quiet h.core.numbered (.inl rfl) rfl (by simp [runRecord])
        (hwrites ▸ fun a ha => by cases ha)
    have hstored := logged_persist h.core.logged hrecord rfl
      (hshort.short h.core.numbered (nodup_put h.core.logged.nodup)) (t := t) rfl rfl
    refine ⟨h.core.readAccount, hstored.2, hstored.1.symm ▸ hshort, h.core.numbered,
      fun hnot => absurd List.mem_cons_self hnot, fun _ => ⟨hop, ?_⟩, h.core.reconciliations⟩
    rw [hstored.1]
    exact List.cons_ne_nil _ _
  have htaken : Taken account op t run' := by
    refine ⟨hcore, h.stale, h.alone, h.status, h.begun.kind, h.begun.unsaved, fun hresumed => ?_,
      h.begun.fresh⟩
    exact absurd hresumed (by simp [run', hfresh])
  have hreached : Reached Before t.writes run' := by
    show Reached Before s.writes run'
    rw [hwrites]
    exact ⟨⟨fun a ha => (by cases ha), fun write hwrite => absurd hwrite List.not_mem_nil⟩,
      fun _ => hindex⟩
  have hplan' : run'.plan = .addMoney amount := hplan
  rw [ready, if_neg (by simp [hfresh])]
  show Inv account op (t.operation run')
  rw [operation]
  split_ifs with hzero
  · exact htaken.fail hchecked hreached.reached.1 hreached.reached.seen rfl
  · rw [hplan']
    refine htaken.goOn (fun _ => ⟨hchecked, ?_⟩) ⟨⟨hreached.reached, hreached.index⟩, ?_⟩
    · rw [hplan'] at hzero ⊢
      exact Nat.pos_of_ne_zero fun h => hzero ⟨by simp, h⟩
    · show approvals s.writes = run.approvals
      rw [hwrites, happrovals]
      rfl

/-- A resumed operation goes on where it was. -/
theorem Taken.readyResumed (h : Taken account op s run) (hopened : Opened s.writes run)
    (hresumed : run.resumed = true) {own operationId : String}
    (hsame : sameAccount own account = true) : Inv account op (s.ready run own operationId) := by
  obtain ⟨-, hid, hstarted⟩ := h.begun.resumed hresumed
  obtain ⟨happrovals, hamount, hplan⟩ : approvals s.writes = run.approvals ∧ 0 < run.plan.amount ∧
      ((∃ amount, run.plan = .resumeSave amount) ∧ Reached Between s.writes run ∨
        (∃ amount, run.plan = .resumeAfterApproval amount) ∧ Reached Before s.writes run) := by
    rcases hopened.plan with ⟨hfresh, -⟩ | ⟨-, hplan⟩
    · rw [hresumed] at hfresh
      cases hfresh
    · exact hplan
  let run' : V2Run := { run with operationAccount := some own }
  have htaken : Taken account op s run' :=
    ⟨h.core, h.stale, h.alone, h.status, h.begun.kind, h.begun.unsaved, h.begun.resumed,
      h.begun.fresh⟩
  have hrunning : Running account op s.operations run' :=
    ⟨⟨hid, hstarted, own, rfl, hsame⟩, hamount⟩
  rw [ready, if_pos hresumed]
  show Inv account op (s.operation run')
  have hpos : ¬ (run'.plan ≠ .other ∧ run'.plan.amount = 0) := fun h => by
    have hzero : run.plan.amount = 0 := h.2
    omega
  rw [operation, if_neg hpos]
  rcases hplan with ⟨⟨amount, hplan⟩, hreached⟩ | ⟨⟨amount, hplan⟩, hreached⟩
  · have hplan' : run'.plan = .resumeSave amount := hplan
    rw [hplan']
    exact htaken.goOn (fun _ => hrunning) ⟨hreached.reached, hreached.index⟩
  · have hplan' : run'.plan = .resumeAfterApproval amount := hplan
    rw [hplan']
    exact htaken.goOn (fun _ => hrunning) ⟨⟨hreached.reached, hreached.index⟩, happrovals⟩

/-! ### Continuations -/

/-- A signed write. -/
theorem Taken.signed (h : Taken account op s run) (hrunning : Running account op s.operations run)
    (hawait : run.await = .write stage) (hphase : Phase s.writes run) {success : Bool}
    (hsigned : s.Answers run (.signed hash success)) (hle : run.approvals ≤ 1) :
    Inv account op (s.onHash run (some stage) hash success) := by
  rw [Phase, hawait] at hphase
  have honly (hbefore : Before s.writes) : ∀ write ∈ s.writes, write.success = true →
      write.stage ≠ some .approval → some stage ≠ write.stage :=
    fun write hwrite hsuccess hne => absurd (hbefore.2 write hwrite hsuccess) hne
  cases stage with
  | approval =>
    obtain ⟨hreached, happrovals⟩ := hphase
    exact h.onHash hrunning hsigned hle hreached (honly hreached.reached)
      (fun _ => ⟨happrovals.trans_le hle, hreached.reached.2⟩) hreached.reached.1
      fun w hb => ⟨w, s.writes, rfl, hb.before, hb.hashed, hb.staged, hb.unread, hb.index, hb.next,
        hb.last⟩
  | wrap =>
    exact h.onHash hrunning hsigned hle hphase (honly hphase.reached) (by rintro ⟨⟩)
      hphase.reached.1
      fun w hb => ⟨w, s.writes, rfl, hb.before, hb.hashed, hb.staged, hb.unread, hb.index, hb.next,
        hb.last⟩
  | save =>
    exact h.onHash hrunning hsigned hle hphase
      (fun write hwrite hsuccess _ => (hphase.reached.unsaved write hwrite hsuccess).symm)
      (by rintro ⟨⟩) hphase.reached.alive
      fun w hb => ⟨w, s.writes, rfl, hb.before, hb.hashed, hb.staged, hb.unread, hb.index, hb.next,
        hb.last⟩

/-- The receipt could not be read. -/
theorem Taken.unread (h : Taken account op s run) (hrunning : Running account op s.operations run)
    (hawait : run.await = .receipt (some stage) hash) (hphase : Phase s.writes run)
    (hspared : ¬ s.AwaitsDeposit run) : Inv account op (s.pend run (some stage) hash) := by
  rw [Phase, hawait] at hphase
  rw [AwaitsDeposit, hawait] at hspared
  have hreverted {w : V2Write} {older : List V2Write} (hs : s.writes = w :: older)
      (hhash : w.hash = hash) (hsucceeded : ¬ s.succeeded hash = true) (hsuccess : w.success = true) : stage = .approval :=
    absurd (by rw [succeeded_head (hs ▸ h.core.numbered) hhash hs, hsuccess]) hsucceeded
  cases stage with
  | approval =>
    obtain ⟨w, older, hs, hb⟩ := hphase
    exact h.pend hrunning hs hb hb.before.1 hb.before.seen fun _ => rfl
  | wrap =>
    obtain ⟨w, older, hs, hb⟩ := hphase
    exact h.pend hrunning hs hb hb.before.1 hb.before.seen (hreverted hs hb.hashed hspared)
  | save =>
    obtain ⟨w, older, hs, hb⟩ := hphase
    exact h.pend hrunning hs hb hb.before.alive (hb.before.seen_older (hs ▸ h.core.numbered))
      (hreverted hs hb.hashed hspared)

/-- Before a write is signed the wraps and saves of the operation are known. -/
theorem RunInv.written (h : RunInv account op s run) (hawait : run.await = .write stage)
    (hnumbered : Numbered account op s.writes) : Alive s.writes ∧ Seen s.writes := by
  have hphase := h.phase
  rw [Phase, hawait] at hphase
  cases stage with
  | approval => exact ⟨hphase.1.reached.1, hphase.1.reached.seen⟩
  | wrap => exact ⟨hphase.reached.1, hphase.reached.seen⟩
  | save => exact ⟨hphase.reached.alive, hphase.reached.allSeen hnumbered.own⟩

/-- The run is answered. -/
theorem Taken.resume (h : Taken account op s run) (hrun : RunInv account op s run) {reply : V2Reply}
    (hof : OfOperation account op s (.resume run reply)) (hanswers : s.Answers run reply)
    (hspared : s.Spared (.resume run reply)) : Inv account op (s.resume run run.await reply) := by
  have hstay : Inv account op (s.goOn run run.await) := h.goOn hrun.running hrun.phase
  have hphase := hrun.phase
  have hrunning := hrun.running
  cases hawait : run.await with
  | session =>
    have hopened : Opened s.writes run := by
      rw [Phase, hawait] at hphase
      exact hphase
    rw [hawait] at hstay
    cases reply with
    | ready own operationId =>
      obtain ⟨hsame, hid⟩ := hof
      cases hresumed : run.resumed with
      | true => exact h.readyResumed hopened hresumed hsame
      | false =>
        rw [hresumed] at hid
        obtain rfl := hid.resolve_left Bool.false_ne_true
        obtain ⟨hnew, hop⟩ := Or.resolve_left hanswers (by rw [hresumed]; exact Bool.false_ne_true)
        exact h.readyFresh hopened hresumed hsame hnew hop
    | failed => exact h.failOpened hopened
    | balances balance allowance => exact hstay
    | allowance allowance => exact hstay
    | done => exact hstay
    | signed hash success => exact hstay
    | receipt => exact hstay
  | balances =>
    have hrunning := hrunning (by rw [hawait]; decide)
    rw [Phase, hawait] at hphase
    rw [hawait] at hstay
    obtain ⟨hreached, happrovals⟩ := hphase
    have hfail : Inv account op (s.fail run .other) :=
      h.fail hrunning.toChecked hreached.reached.1 hreached.reached.seen rfl
    cases reply with
    | balances balance allowance =>
      rw [V2Page.resume]
      split_ifs
      · exact hfail
      · exact h.goOn (fun _ => hrunning) ⟨⟨hreached.reached, hreached.index⟩, happrovals⟩
      · exact h.goOn (fun _ => hrunning) ⟨hreached.reached, hreached.index⟩
    | failed => exact hfail
    | ready own operationId => exact hstay
    | allowance allowance => exact hstay
    | done => exact hstay
    | signed hash success => exact hstay
    | receipt => exact hstay
  | allowance =>
    have hrunning := hrunning (by rw [hawait]; decide)
    rw [Phase, hawait] at hphase
    rw [hawait] at hstay
    obtain ⟨hreached, happrovals⟩ := hphase
    cases reply with
    | allowance allowance =>
      rw [V2Page.resume]
      split_ifs
      · exact h.goOn (fun _ => hrunning) ⟨⟨hreached.reached, hreached.index⟩, happrovals⟩
      · exact h.goOn (fun _ => hrunning) ⟨hreached.reached, hreached.index⟩
    | failed => exact h.fail hrunning.toChecked hreached.reached.1 hreached.reached.seen rfl
    | ready own operationId => exact hstay
    | balances balance allowance => exact hstay
    | done => exact hstay
    | signed hash success => exact hstay
    | receipt => exact hstay
  | allowanceAfter =>
    have hrunning := hrunning (by rw [hawait]; decide)
    rw [Phase, hawait] at hphase
    rw [hawait] at hstay
    have hfail : Inv account op (s.fail run .other) :=
      h.fail hrunning.toChecked hphase.reached.1 hphase.reached.seen rfl
    cases reply with
    | allowance allowance =>
      rw [V2Page.resume]
      split_ifs
      · exact hfail
      · exact h.goOn (fun _ => hrunning) ⟨hphase.reached, hphase.index⟩
    | failed => exact hfail
    | ready own operationId => exact hstay
    | balances balance allowance => exact hstay
    | done => exact hstay
    | signed hash success => exact hstay
    | receipt => exact hstay
  | encrypt =>
    have hrunning := hrunning (by rw [hawait]; decide)
    rw [Phase, hawait] at hphase
    rw [hawait] at hstay
    cases reply with
    | done => exact h.goOn (fun _ => hrunning) ⟨hphase.reached, hphase.index⟩
    | failed =>
      exact h.fail hrunning.toChecked hphase.reached.alive
        (hphase.reached.allSeen h.core.numbered.own) rfl
    | ready own operationId => exact hstay
    | balances balance allowance => exact hstay
    | allowance allowance => exact hstay
    | signed hash success => exact hstay
    | receipt => exact hstay
  | write stage =>
    have hrunning := hrunning (by rw [hawait]; simp)
    rw [hawait] at hstay
    cases reply with
    | signed hash success => exact h.signed hrunning hawait hphase hanswers hspared
    | failed =>
      obtain ⟨halive, hseen⟩ := hrun.written hawait h.core.numbered
      exact h.fail hrunning.toChecked halive hseen rfl
    | ready own operationId => exact hstay
    | balances balance allowance => exact hstay
    | allowance allowance => exact hstay
    | done => exact hstay
    | receipt => exact hstay
  | receipt stage hash =>
    have hrunning := hrunning (by rw [hawait]; simp)
    cases stage with
    | none =>
      rw [Phase, hawait] at hphase
      exact hphase.elim
    | some stage =>
      rw [hawait] at hstay
      cases reply with
      | receipt => exact h.onReceipt hrunning hawait hphase
      | failed => exact h.unread hrunning hawait hphase hspared
      | ready own operationId => exact hstay
      | balances balance allowance => exact hstay
      | allowance allowance => exact hstay
      | done => exact hstay
      | signed hash success => exact hstay
  | other =>
    rw [Phase, hawait] at hphase
    exact hphase.elim

/-! ### The steps of the page -/

/-- While no run is in flight, nothing but the action and what was offered changes. -/
theorem Inv.rest (h : Inv account op s) (hstored : t.stored = s.stored) (hnow : s.now ≤ t.now)
    (hread : t.readAccount = s.readAccount) (hwrites : t.writes = s.writes)
    (hops : t.operations = s.operations) (hbegun : t.begun = s.begun) (hruns : t.runs = [])
    (hdiscoveries : ∀ discovery ∈ t.discoveries, discovery ∈ s.discoveries ∨
      discovery.begun = s.begun ∧ s.ask account = some discovery)
    (hrec : ∀ batch ∈ t.reconciliations, ∀ record ∈ batch, record.operationId ≠ some op)
    (hrest : RestInv account op t) : Inv account op t := by
  have hcheckpoint : t.askCheckpoint account = s.askCheckpoint account := by
    funext checkpoint
    simp only [askCheckpoint, hbegun]
  have hask : t.ask account = s.ask account := by
    rw [V2Page.ask, V2Page.ask, records, records, hstored, hcheckpoint]
  refine ⟨h.core.same hstored hnow hread hwrites hops hrec, fun discovery hd => ?_,
    .inl ⟨hruns, hrest⟩⟩
  rw [hask, hbegun, hruns]
  rcases hdiscoveries discovery hd with hd | ⟨hd, hasked⟩
  · exact ⟨(h.discoveries discovery hd).1, fun heq => ⟨rfl, ((h.discoveries discovery hd).2 heq).2⟩⟩
  · exact ⟨hd.le, fun _ => ⟨rfl, hasked⟩⟩

/-- A page that is not running awaits nothing for the operation. -/
theorem Inv.idle (h : Inv account op s) (hstatus : s.action.status ≠ .running) :
    s.runs = [] ∧ RestInv account op s := by
  rcases h.runs with hrest | ⟨run, -, hrunning, -⟩
  · exact hrest
  · exact absurd hrunning hstatus

theorem not_running_of_not_busy (h : s.isBusy = false) : s.action.status ≠ .running := by
  intro hrunning
  simp [isBusy, hrunning] at h

/-- The page shows that something is pending. -/
theorem Inv.pending (h : Inv account op s) (hstatus : s.action.status ≠ .running)
    {action : V2ActionState} (haction : action.status = .pending) :
    Inv account op (s.setAction action) := by
  obtain ⟨hruns, hrest⟩ := h.idle hstatus
  refine h.rest rfl le_rfl rfl rfl rfl rfl hruns (fun _ hd => .inl hd) h.core.reconciliations
    ⟨?_, hrest.seen, hrest.started, fun recovery _ _ hbusy => ?_⟩
  · rw [setAction, haction]
    decide
  · simp [isBusy, setAction, haction] at hbusy

/-- How many approvals of the operation were confirmed. -/
theorem Core.approvals_eq (h : Core account op s) :
    (s.writes.filter fun write =>
      write.operationId = op ∧ write.stage = some .approval ∧ write.success).length =
      approvals s.writes := by
  rw [approvals, List.countP_eq_length_filter]
  refine congrArg List.length (List.filter_congr fun write hwrite => ?_)
  simp [(h.numbered.own write hwrite).operationId]

/-- No write has the id of an operation that has not begun. -/
theorem Core.no_approvals (h : Core account op s) :
    (s.writes.filter fun write =>
      write.operationId = "" ∧ write.stage = some .approval ∧ write.success) = [] := by
  refine List.filter_eq_nil_iff.2 fun write hwrite => ?_
  have hne : write.operationId ≠ "" := by
    rw [(h.numbered.own write hwrite).operationId]
    have hstarted : op ∈ s.operations := by
      by_contra hnot
      simp [(h.fresh hnot).1] at hwrite
    exact (h.started hstarted).1
  simp [hne]

/-- A run begins. -/
theorem Inv.begin (h : Inv account op s) (hbusy : s.isBusy = false) {run : V2Run}
    (hkind : run.kind = addMoneyKind) (hawait : run.await = .session)
    (hbegun : Begun op s run) (hopened : Opened s.writes run) {action : V2ActionState}
    (haction : action.status = .running) :
    Inv account op ({ s with begun := s.begun + 1, runs := run :: s.runs }.setAction action) := by
  obtain ⟨hruns, -⟩ := h.idle (not_running_of_not_busy hbusy)
  refine inv_of_stale (h.core.same rfl le_rfl rfl rfl rfl h.core.reconciliations)
    (fun discovery hd => Nat.lt_succ_of_le (h.discoveries discovery hd).1)
    (.inr ⟨run, congrArg (run :: ·) hruns, haction, ?_, fun hne => absurd hawait hne, ?_⟩)
  · exact ⟨hkind, hbegun.unsaved, hbegun.resumed, hbegun.fresh⟩
  · rw [Phase, hawait]
    exact hopened

/-- `submitDialog` with nothing to recover. -/
theorem Inv.submitFresh (h : Inv account op s) (hnone : s.addMoneyRecovery = none) (amount : Nat) :
    Inv account op (s.runAction addMoneyKind (.addMoney amount) none) := by
  rw [runAction]
  cases hbusy : s.isBusy with
  | true => exact h
  | false =>
    have hrest := (h.idle (not_running_of_not_busy hbusy)).2
    simp only [Bool.false_eq_true, if_false]
    split
    · exact h.pending (not_running_of_not_busy hbusy) rfl
    · refine h.begin hbusy rfl rfl ⟨rfl, List.not_mem_nil, by rintro ⟨⟩, fun _ => hnone⟩
        ⟨rfl, hrest.seen, .inl ⟨rfl, ?_, rfl, amount, rfl⟩⟩ rfl
      exact congrArg List.length h.core.no_approvals

/-- `submitDialog` with a recovery of the operation. -/
theorem Inv.submitResumed (h : Inv account op s) {recovery : AddMoneyRecovery}
    (hrecovery : s.addMoneyRecovery = some recovery) (hid : recovery.operationId = op)
    (hblocked : s.addMoneyRecoveryBlocked = false) {plan : V2Plan}
    (hplan : plan = match recovery.resumeStage with
      | .save => .resumeSave recovery.amount
      | .wrap => .resumeAfterApproval recovery.amount) :
    Inv account op (s.runAction addMoneyKind plan (some recovery)) := by
  rw [runAction]
  cases hbusy : s.isBusy with
  | true => exact h
  | false =>
    have hrest := (h.idle (not_running_of_not_busy hbusy)).2
    simp only [Bool.false_eq_true, if_false]
    split
    · exact h.pending (not_running_of_not_busy hbusy) rfl
    · have hstarted := hrest.started recovery hrecovery hid
      obtain ⟨hamount, discovery, hask, hresume, hhashes, hconfirmed⟩ :=
        hrest.usable recovery hrecovery hid hbusy hblocked
      rw [h.core.ask hstarted] at hask
      have hasked := askCheckpoint_spec (fun r hr => (h.core.logged.own r hr).resolved) hask
      obtain ⟨hnext, hindex⟩ := hasked.next h.core.tracks h.core.numbered hrest.seen
      have happrovals : (s.writes.filter fun write => write.operationId = recovery.operationId ∧
          write.stage = some .approval ∧ write.success).length = approvals s.writes := by
        rw [hid]
        exact h.core.approvals_eq
      have hcount : approvals s.writes ≤ 1 → recovery.hashes.length = confirmed s.writes := by
        rw [hhashes]
        exact hindex
      have hstages : recovery.confirmedStages ≠ [] ∧ .save ∉ recovery.confirmedStages := by
        rw [hconfirmed]
        exact hasked.confirmedStages
      refine h.begin hbusy rfl rfl ⟨rfl, ?_, fun _ => ⟨?_, hid, hstarted⟩, by rintro ⟨⟩⟩
        ⟨rfl, hrest.seen, .inr ⟨rfl, happrovals.symm, ?_, ?_⟩⟩ rfl
      · exact hstages.2
      · exact hstages.1
      · rw [hplan]
        cases recovery.resumeStage <;> exact hamount
      · rcases hnext with ⟨hsave, hbetween⟩ | ⟨hwrap, hbefore⟩
        · refine .inl ⟨⟨recovery.amount, ?_⟩, hbetween, fun hle => hcount (happrovals ▸ hle)⟩
          rw [hplan, hresume, hsave]
        · refine .inr ⟨⟨recovery.amount, ?_⟩, hbefore, fun hle => hcount (happrovals ▸ hle)⟩
          rw [hplan, hresume, hwrap]

/-- A run that awaits no receipt of a deposit leaves none unseen. -/
theorem RunInv.seen (h : RunInv account op s run) (hcore : Core account op s)
    (hspared : ¬ s.AwaitsDeposit run) : Seen s.writes := by
  have hphase := h.phase
  cases hawait : run.await with
  | session =>
    rw [Phase, hawait] at hphase
    exact hphase.seen
  | balances =>
    rw [Phase, hawait] at hphase
    exact hphase.1.reached.seen
  | allowance =>
    rw [Phase, hawait] at hphase
    exact hphase.1.reached.seen
  | allowanceAfter =>
    rw [Phase, hawait] at hphase
    exact hphase.reached.seen
  | encrypt =>
    rw [Phase, hawait] at hphase
    exact hphase.reached.allSeen hcore.numbered.own
  | write stage => exact (h.written hawait hcore.numbered).2
  | other =>
    rw [Phase, hawait] at hphase
    exact hphase.elim
  | receipt stage hash =>
    rw [Phase, hawait] at hphase
    rw [AwaitsDeposit, hawait] at hspared
    have hhead {w : V2Write} {older : List V2Write} (hs : s.writes = w :: older)
        (holder : Seen older) (hw : w.success = true → w.stage = some .approval) :
        Seen s.writes := by
      rw [hs]
      exact List.forall_mem_cons.2 ⟨fun hsuccess hne => absurd (hw hsuccess) hne, holder⟩
    have hreverted {w : V2Write} {older : List V2Write} (hs : s.writes = w :: older)
        (hhash : w.hash = hash) (hsucceeded : ¬ s.succeeded hash = true)
        (hsuccess : w.success = true) : w.stage = some .approval :=
      absurd (by rw [succeeded_head (hs ▸ hcore.numbered) hhash hs, hsuccess]) hsucceeded
    match stage with
    | none => exact hphase.elim
    | some .approval =>
      obtain ⟨w, older, hs, hb⟩ := hphase
      exact hhead hs hb.before.seen fun _ => hb.staged
    | some .wrap =>
      obtain ⟨w, older, hs, hb⟩ := hphase
      exact hhead hs hb.before.seen (hreverted hs hb.hashed hspared)
    | some .save =>
      obtain ⟨w, older, hs, hb⟩ := hphase
      exact hhead hs (hb.before.seen_older (hs ▸ hcore.numbered)) (hreverted hs hb.hashed hspared)

theorem Inv.reload (h : Inv account op s) (hspared : s.Spared .reload) :
    Inv account op s.reload := by
  have hseen : Seen s.writes := by
    rcases h.runs with ⟨-, hrest⟩ | ⟨run, hruns, -, hrun⟩
    · exact hrest.seen
    · exact hrun.seen h.core (hspared run (hruns ▸ List.mem_singleton_self run))
  refine h.rest rfl le_rfl rfl rfl rfl rfl rfl (fun _ hd => absurd hd List.not_mem_nil)
    (fun _ hbatch => absurd hbatch List.not_mem_nil)
    ⟨V2ActionStatus.noConfusion, hseen, by rintro recovery ⟨⟩, by rintro recovery ⟨⟩⟩

/-- No record of the operation is ever reconciled. -/
theorem Core.pendingTransactions (h : Core account op s) {record : SafeTransactionRecord}
    (hr : record ∈ s.pendingTransactions) : record.operationId ≠ some op := by
  rw [V2Page.pendingTransactions, h.readAccount] at hr
  obtain ⟨hr, hopen⟩ := List.mem_filter.1 hr
  have hstored : record ∈ s.stored :=
    List.mem_of_mem_filter (List.mem_of_mem_take (List.mem_of_mem_filter hr))
  exact h.logged.foreign_of_unresolved hstored hopen

theorem Inv.reconcile (h : Inv account op s) : Inv account op s.reconcilePendingTransactions := by
  rw [reconcilePendingTransactions]
  cases hpending : s.pendingTransactions with
  | nil => exact h
  | cons first rest =>
    have hrec : ∀ batch ∈ (first :: rest) :: s.reconciliations, ∀ record ∈ batch,
        record.operationId ≠ some op := by
      refine List.forall_mem_cons.2 ⟨fun record hr => ?_, h.core.reconciliations⟩
      exact h.core.pendingTransactions (hpending ▸ hr)
    have hcore : Inv account op
        { s with reconciliations := (first :: rest) :: s.reconciliations } :=
      ⟨h.core.same rfl le_rfl rfl rfl rfl hrec, h.discoveries,
        h.runs.imp (fun ⟨hruns, hrest⟩ => ⟨hruns, hrest.notRunning, hrest.seen, hrest.started,
          hrest.usable⟩) fun ⟨run, hruns, hstatus, hrun⟩ => ⟨run, hruns, hstatus,
            ⟨hrun.begun.kind, hrun.begun.unsaved, hrun.begun.resumed, hrun.begun.fresh⟩,
            hrun.running, hrun.phase⟩⟩
    dsimp only
    split_ifs with hidle
    · exact hcore.pending (by show s.action.status ≠ .running; rw [hidle]; decide) rfl
    · exact hcore

theorem Inv.discover (h : Inv account op s) : Inv account op s.discoverAddMoneyRecovery := by
  rw [discoverAddMoneyRecovery, h.core.readAccount]
  dsimp only
  cases hbusy : s.isBusy with
  | true => exact h
  | false =>
    obtain ⟨hruns, hrest⟩ := h.idle (not_running_of_not_busy hbusy)
    simp only [Bool.false_eq_true, if_false]
    cases hlatest : findLatestV2AddMoneyCheckpoint (s.records account) with
    | none =>
      -- the operation has not begun, or its records would be found
      have hnot (recovery : AddMoneyRecovery) (hrecovery : s.addMoneyRecovery = some recovery)
          (hid : recovery.operationId = op) : False := by
        obtain ⟨hop, hlog⟩ := h.core.started (hrest.started recovery hrecovery hid)
        rw [h.core.logged.findLatest hlog hop] at hlatest
        cases hlatest
      exact h.rest rfl le_rfl h.core.readAccount.symm rfl rfl rfl hruns (fun _ hd => .inl hd)
        h.core.reconciliations ⟨hrest.notRunning, hrest.seen, hrest.started,
          fun recovery hrecovery hid => (hnot recovery hrecovery hid).elim⟩
    | some checkpoint =>
      dsimp only
      cases hask : s.askCheckpoint account checkpoint with
      | none => exact h
      | some discovery =>
        have hasked : s.ask account = some discovery := by
          rw [V2Page.ask, hlatest]
          exact hask
        have hbegun : discovery.begun = s.begun := by
          simp only [askCheckpoint] at hask
          split at hask
          · cases hask
          split at hask
          · cases hask
          split at hask
          · exact Option.some.inj hask ▸ rfl
          · exact Option.some.inj hask ▸ rfl
          · cases hask
        refine h.rest rfl le_rfl h.core.readAccount.symm rfl rfl rfl hruns (fun d hd => ?_)
          h.core.reconciliations ⟨hrest.notRunning, hrest.seen, hrest.started, hrest.usable⟩
        rcases List.mem_cons.1 hd with rfl | hd
        · exact .inr ⟨hbegun, hasked⟩
        · exact .inl hd

/-- The chain was read for a discovery that no run has overtaken. -/
theorem Inv.discovered (h : Inv account op s) {discovery : V2Discovery} {readable : Bool}
    (hd : discovery ∈ s.discoveries) (hspared : discovery.begun = s.begun) :
    Inv account op ({ s with discoveries := s.discoveries.erase discovery }.discovered discovery
      readable) := by
  obtain ⟨hruns, hask⟩ := (h.discoveries discovery hd).2 hspared
  have hseen : Seen s.writes := by
    rcases h.runs with ⟨-, hrest⟩ | ⟨run, hrun, -, -⟩
    · exact hrest.seen
    · rw [hruns] at hrun
      cases hrun
  have hfewer : ∀ d ∈ s.discoveries.erase discovery, d ∈ s.discoveries :=
    fun d hd => List.mem_of_mem_erase hd
  rw [V2Page.discovered]
  split
  · next amount hamount =>
    have hpositive : 0 < amount := by
      split_ifs at hamount
      obtain ⟨write, hwrite, rfl⟩ := Option.map_eq_some_iff.1 hamount
      have hp := (Option.filter_eq_some_iff.1 hwrite).2
      simp only [Bool.and_eq_true, decide_eq_true_eq] at hp
      exact hp.1.2
    refine h.rest rfl le_rfl rfl rfl rfl rfl hruns (fun d hd => .inl (hfewer d hd))
      h.core.reconciliations ⟨V2ActionStatus.noConfusion, hseen, ?_, ?_⟩
    · rintro recovery ⟨⟩ hid
      exact (h.core.asked hask hid).1
    · rintro recovery ⟨⟩ - - -
      exact ⟨hpositive, discovery, hask, rfl, rfl, rfl⟩
  · exact h.rest rfl le_rfl rfl rfl rfl rfl hruns (fun d hd => .inl (hfewer d hd))
      h.core.reconciliations
      ⟨V2ActionStatus.noConfusion, hseen, by rintro recovery ⟨⟩, by rintro recovery ⟨⟩⟩

/-- A run is answered. -/
theorem Inv.resume (h : Inv account op s) {reply : V2Reply} (hrun : run ∈ s.runs)
    (hof : OfOperation account op s (.resume run reply)) (hanswers : s.Answers run reply)
    (hspared : s.Spared (.resume run reply)) :
    Inv account op ({ s with runs := s.runs.erase run }.resume run run.await reply) := by
  rcases h.runs with ⟨hruns, -⟩ | ⟨run', hruns, hstatus, hinv⟩
  · rw [hruns] at hrun
    exact absurd hrun List.not_mem_nil
  · rw [hruns] at hrun
    obtain rfl := List.mem_singleton.1 hrun
    have hstale := h.stale (by rw [hruns]; exact List.cons_ne_nil _ _)
    have htaken : Taken account op { s with runs := s.runs.erase run } run := by
      refine ⟨h.core.same rfl le_rfl rfl rfl rfl h.core.reconciliations, hstale, ?_, hstatus,
        hinv.begun.kind, hinv.begun.unsaved, hinv.begun.resumed, hinv.begun.fresh⟩
      show s.runs.erase run = []
      rw [hruns, List.erase_cons_head]
    refine htaken.resume ⟨htaken.begun, hinv.running, hinv.phase⟩ hof hanswers ?_
    cases reply <;> exact hspared

/-- **Step.** -/
theorem Inv.next (h : Inv account op s) {label : Label} (hof : OfOperation account op s label)
    (henabled : s.Enabled label) (hspared : s.Spared label) : Inv account op (s.next label) := by
  cases label with
  | tick now =>
    rcases h.runs with ⟨hruns, hrest⟩ | ⟨run, hruns, hstatus, hrun⟩
    · exact h.rest rfl henabled rfl rfl rfl rfl hruns (fun _ hd => .inl hd) h.core.reconciliations
        ⟨hrest.notRunning, hrest.seen, hrest.started, hrest.usable⟩
    · exact inv_of_stale (h.core.same rfl henabled rfl rfl rfl h.core.reconciliations)
        (h.stale (by rw [hruns]; exact List.cons_ne_nil _ _))
        (.inr ⟨run, hruns, hstatus, ⟨hrun.begun.kind, hrun.begun.unsaved, hrun.begun.resumed,
          hrun.begun.fresh⟩, hrun.running, hrun.phase⟩)
  | account readAccount => exact hof.elim
  | persist record => exact hof.elim
  | reload => exact h.reload hspared
  | submitAddMoney amount =>
    show Inv account op (s.submitAddMoney amount)
    rw [submitAddMoney]
    split_ifs with hblocked
    · exact h
    cases hrecovery : s.addMoneyRecovery with
    | none => exact h.submitFresh hrecovery amount
    | some recovery =>
      exact h.submitResumed hrecovery (hof recovery hrecovery) (Bool.eq_false_iff.2 hblocked) rfl
  | run kind => exact hof.elim
  | resume run reply => exact h.resume henabled.1 hof henabled.2 hspared
  | reconcile => exact h.reconcile
  | reconciled record rest receipt =>
    exact absurd hof (h.core.reconciliations _ henabled.1 record (List.mem_cons_self ..))
  | discover => exact h.discover
  | discovered discovery readable => exact h.discovered henabled hspared

/-- The page that was loaded before the operation began. -/
theorem Inv.init (h : (history account op).init s) : Inv account op s := by
  obtain ⟨stored, now, hforeign, rfl⟩ := h
  have hlog : (load stored now (some account)).log op = [] :=
    List.filter_eq_nil_iff.2 fun r hr => by simpa using (hforeign r hr).1.1
  have hcore : Core account op (load stored now (some account)) := by
    refine ⟨rfl, ⟨⟨stored, by rw [hlog]; rfl, fun r hr => ⟨(hforeign r hr).1, fun o ho => ?_⟩⟩, ?_,
      ?_, fun r hr => (hforeign r hr).2, ?_, ?_⟩, ?_, .nil, fun _ => ⟨rfl, hlog⟩,
      fun hstarted => absurd hstarted List.not_mem_nil,
      fun _ hbatch => absurd hbatch List.not_mem_nil⟩
    · rw [hlog] at ho
      exact absurd ho List.not_mem_nil
    all_goals rw [hlog]
    · exact fun r hr => absurd hr List.not_mem_nil
    · exact .nil
    · exact .nil
    · exact Nat.zero_le _
    · exact .nil
  refine ⟨hcore, fun discovery hd => absurd hd List.not_mem_nil, .inl ⟨rfl, ?_, ?_, ?_, ?_⟩⟩
  · exact V2ActionStatus.noConfusion
  · exact fun write hwrite => absurd hwrite List.not_mem_nil
  · rintro recovery ⟨⟩
  · rintro recovery ⟨⟩

end V2Page

end Leopold.Frontend
