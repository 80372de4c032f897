import Leopold.Frontend.Checkpoints
import Leopold.Frontend.V2Page

/-!
# One Add Money operation

The history of one operation of an account: its runs, with reloads and discoveries between them.
Its records stand in front of the others in the store and follow the list of its writes.
-/

namespace Leopold.Frontend

open Lib Lib.Recent

namespace V2Page

variable {account op : String} {s : V2Page} {record r : SafeTransactionRecord}

/-! ### The history of an operation -/

/-- No operation `op` wrote the record. -/
def Foreign (op : String) (record : SafeTransactionRecord) : Prop :=
  record.operationId ≠ some op ∧ ∀ suffix, record.id ≠ op ++ suffix

/-- A step that concerns the operation, or none. -/
def OfOperation (account op : String) (s : V2Page) : Label → Prop
  | .account _ | .persist _ | .run _ => False
  | .submitAddMoney _ => ∀ recovery, s.addMoneyRecovery = some recovery → recovery.operationId = op
  | .resume run (.ready account' operationId) =>
    sameAccount account' account = true ∧ (run.resumed = true ∨ operationId = op)
  | .reconciled record _ _ => record.operationId = some op
  | _ => True

/-- The runs of an account with one operation, from the page that was loaded before it began. -/
def history (account op : String) : TransitionSystem V2Page Label where
  init s := ∃ stored now, (∀ r ∈ stored, Foreign op r ∧ r.updatedAt ≤ now) ∧
    s = load stored now (some account)
  step s label s' := OfOperation account op s label ∧ s.Enabled label ∧ s' = s.next label

/-! ### The records of the operation -/

def log (op : String) (s : V2Page) : List SafeTransactionRecord :=
  s.stored.filter (·.operationId = some op)

structure OwnRecord (account op : String) (record : SafeTransactionRecord) : Prop where
  kind : record.kind = addMoneyKind
  operationId : record.operationId = some op
  chainId : record.chainId = V2_PREVIEW_CHAIN_ID
  account : sameAccount record.account account = true
  resolved : isUnresolvedV2Transaction record = false
  id : ∃ suffix, record.id = op ++ suffix

/-- The records of the operation stand in front, newest first. -/
structure Logged (account op : String) (s : V2Page) : Prop where
  front : ∃ rest, s.stored = s.log op ++ rest ∧
    ∀ r ∈ rest, Foreign op r ∧ ∀ o ∈ s.log op, r.updatedAt ≤ o.updatedAt
  own : ∀ r ∈ s.log op, OwnRecord account op r
  sorted : (s.log op).Pairwise fun newer older => older.updatedAt ≤ newer.updatedAt
  clock : ∀ r ∈ s.stored, r.updatedAt ≤ s.now
  nodup : ((s.log op).map (·.id)).Nodup
  short : (s.log op).length ≤ 20

theorem log_append {ops rest : List SafeTransactionRecord}
    (hown : ∀ r ∈ ops, OwnRecord account op r) (hrest : ∀ r ∈ rest, Foreign op r)
    (hs : s.stored = ops ++ rest) : s.log op = ops := by
  have hops : ops.filter (·.operationId = some op) = ops :=
    List.filter_eq_self.2 fun r hr => by simpa using (hown r hr).operationId
  have hnone : rest.filter (·.operationId = some op) = [] :=
    List.filter_eq_nil_iff.2 fun r hr => by simpa using (hrest r hr).1
  rw [log, hs, List.filter_append, hops, hnone, List.append_nil]

/-- A new record of the operation goes in front. -/
theorem logged_persist (h : Logged account op s) (hown : OwnRecord account op record)
    (hnow : record.updatedAt = s.now)
    (hshort : (put SafeTransactionRecord.id record (s.log op)).length ≤ 20)
    {t : V2Page} (ht : t.stored = persistSafeTransaction s.stored record) (htime : t.now = s.now) :
    t.log op = put SafeTransactionRecord.id record (s.log op) ∧ Logged account op t := by
  obtain ⟨rest, hstored, hrest⟩ := h.front
  obtain ⟨suffix, hid⟩ := hown.id
  have hsame : ∀ r ∈ s.log op, sameAccount r.account record.account = true := fun r hr =>
    sameAccount_iff.2 ((sameAccount_iff.1 (h.own r hr).account).trans
      (sameAccount_iff.1 hown.account).symm)
  obtain ⟨kept, hpersist, hsub⟩ := persistSafeTransaction_append hsame
    (fun r hr => hid ▸ (hrest r hr).1.2 suffix) h.short hshort
  have hputOwn : ∀ r ∈ put SafeTransactionRecord.id record (s.log op),
      OwnRecord account op r := fun r hr => by
    rcases mem_put.1 hr with rfl | ⟨hr, -⟩
    · exact hown
    · exact h.own r hr
  have ht : t.stored = put SafeTransactionRecord.id record (s.log op) ++ kept := by
    rw [ht, ← hpersist, ← hstored]
  have hlog : t.log op = put SafeTransactionRecord.id record (s.log op) :=
    log_append hputOwn (fun r hr => (hrest r (hsub.subset hr)).1) ht
  have hclock : ∀ r ∈ s.log op, r.updatedAt ≤ record.updatedAt := fun r hr =>
    hnow ▸ h.clock r (List.mem_of_mem_filter hr)
  refine ⟨hlog, ?_⟩
  refine ⟨⟨kept, hlog.symm ▸ ht, fun r hr => ⟨(hrest r (hsub.subset hr)).1, fun o ho => ?_⟩⟩,
    hlog.symm ▸ hputOwn, hlog.symm ▸ pairwise_put h.sorted hclock, fun r hr => ?_,
    hlog.symm ▸ nodup_put h.nodup, hlog.symm ▸ hshort⟩
  · rw [hlog] at ho
    rcases mem_put.1 ho with rfl | ⟨ho, -⟩
    · exact hnow ▸ h.clock r (hstored ▸ List.mem_append_right _ (hsub.subset hr))
    · exact (hrest r (hsub.subset hr)).2 o ho
  · rw [ht] at hr
    rw [htime]
    rcases List.mem_append.1 hr with hr | hr
    · rcases mem_put.1 hr with rfl | ⟨hr, -⟩
      · exact hnow.le
      · exact h.clock r (List.mem_of_mem_filter hr)
    · exact h.clock r (hstored ▸ List.mem_append_right _ (hsub.subset hr))

/-- The store is as it was, and the clock has not gone back. -/
theorem Logged.later (h : Logged account op s) {t : V2Page} (ht : t.stored = s.stored)
    (hnow : s.now ≤ t.now) : Logged account op t := by
  have hlog : t.log op = s.log op := by rw [log, log, ht]
  exact ⟨by rw [ht, hlog]; exact h.front, by rw [hlog]; exact h.own, by rw [hlog]; exact h.sorted,
    fun r hr => (h.clock r (ht ▸ hr)).trans hnow, by rw [hlog]; exact h.nodup,
    by rw [hlog]; exact h.short⟩

/-- The latest checkpoint is that of the operation's records. -/
theorem Logged.findLatest (h : Logged account op s) (hne : s.log op ≠ []) (hop : op ≠ "") :
    findLatestV2AddMoneyCheckpoint (s.records account) = some (checkpointOf op (s.log op)) := by
  obtain ⟨rest, hstored, hrest⟩ := h.front
  obtain ⟨kept, hload, hsub⟩ := @loadSafeTransactions_append _ rest _
    (fun r hr => (h.own r hr).account) h.short
  have hchain : (s.log op).filter (·.chainId = V2_PREVIEW_CHAIN_ID) = s.log op :=
    List.filter_eq_self.2 fun r hr => by simpa using (h.own r hr).chainId
  have hrecords : s.records account =
      s.log op ++ kept.filter (·.chainId = V2_PREVIEW_CHAIN_ID) := by
    rw [records, hstored, hload, List.filter_append, hchain]
  have hkept : ∀ r ∈ kept.filter (·.chainId = V2_PREVIEW_CHAIN_ID), r ∈ rest := fun r hr =>
    hsub.subset (List.mem_of_mem_filter hr)
  have hgroup : ∀ r ∈ s.log op, addMoneyGroup r = some op := fun r hr => by
    have hown := h.own r hr
    simp [addMoneyGroup, hown.kind, hown.operationId, hop, addMoneyKind]
  rw [hrecords]
  exact findLatest_append hne hgroup
    (fun r hr hgroup => (hrest r (hkept r hr)).1.1 (operationId_of_group hgroup).1) h.sorted
    (fun r hr => (hrest r (hkept r hr)).2)

/-- What the page asks the chain for is what the operation's records ask for. -/
theorem Logged.ask (h : Logged account op s) (hne : s.log op ≠ []) (hop : op ≠ "") :
    s.ask account = s.askCheckpoint account (checkpointOf op (s.log op)) := by
  rw [V2Page.ask, h.findLatest hne hop]
  rfl

/-- A record that is unresolved is none of the operation's. -/
theorem Logged.foreign_of_unresolved (h : Logged account op s) (hr : r ∈ s.stored)
    (hopen : isUnresolvedV2Transaction r = true) : r.operationId ≠ some op := by
  intro hid
  have hmem : r ∈ s.log op := List.mem_filter.2 ⟨hr, by simpa using hid⟩
  simp [(h.own r hmem).resolved] at hopen

end V2Page

end Leopold.Frontend
