import Leopold.Frontend.Transactions

/-!
# The checkpoint of the newest operation

The records of an operation that runs stand in front of the others in the store.  A write puts
the new record before them, and the latest Add Money checkpoint is made of them.
-/

namespace Leopold.Frontend

open Lib.Recent

variable {ops rest : List SafeTransactionRecord} {record : SafeTransactionRecord}
  {account op : String}

/-! ### Records in front -/

/-- The operation's records are read first, and some of the others after them. -/
theorem loadSafeTransactions_append (hown : ∀ r ∈ ops, sameAccount r.account account = true)
    (hshort : ops.length ≤ 20) :
    ∃ kept, loadSafeTransactions (ops ++ rest) account = ops ++ kept ∧ kept.Sublist rest := by
  refine ⟨(rest.filter fun r => sameAccount r.account account).take (20 - ops.length), ?_, ?_⟩
  · rw [loadSafeTransactions, List.filter_append, List.filter_eq_self.2 hown, List.take_append,
      List.take_of_length_le hshort]
  · exact (List.take_sublist _ _).trans List.filter_sublist

/-- A record of the operation goes in front of them, in place of the one with its id. -/
theorem persistSafeTransaction_append
    (hown : ∀ r ∈ ops, sameAccount r.account record.account = true)
    (hrest : ∀ r ∈ rest, r.id ≠ record.id) (hops : ops.length ≤ 20)
    (hshort : (put SafeTransactionRecord.id record ops).length ≤ 20) :
    ∃ kept, persistSafeTransaction (ops ++ rest) record =
      put SafeTransactionRecord.id record ops ++ kept ∧ kept.Sublist rest := by
  obtain ⟨loaded, hload, hsub⟩ := @loadSafeTransactions_append _ rest _ hown hops
  have hkeep : loaded.filter (·.id ≠ record.id) = loaded :=
    List.filter_eq_self.2 fun r hr => by simpa using hrest r (hsub.subset hr)
  refine ⟨loaded.take (20 - (put SafeTransactionRecord.id record ops).length), ?_,
    (List.take_sublist _ _).trans hsub⟩
  rw [persistSafeTransaction, hload, List.filter_append, hkeep, ← List.cons_append,
    List.take_append]
  exact congrArg (· ++ _) (List.take_of_length_le hshort)

/-! ### The first group -/

theorem addToGroup_self {groups : List (String × List SafeTransactionRecord)}
    {group : List SafeTransactionRecord} :
    addToGroup op record ((op, group) :: groups) = (op, group ++ [record]) :: groups := by
  simp [addToGroup]

theorem addToGroup_other {groups : List (String × List SafeTransactionRecord)}
    {group : List SafeTransactionRecord} {key : String} (hkey : key ≠ op) :
    addToGroup key record ((op, group) :: groups) =
      (op, group) :: addToGroup key record groups := by
  simp [addToGroup, hkey.symm]

/-- One record more, in its group. -/
def groupStep (groups : List (String × List SafeTransactionRecord))
    (record : SafeTransactionRecord) : List (String × List SafeTransactionRecord) :=
  match addMoneyGroup record with
  | none => groups
  | some key => addToGroup key record groups

theorem groupByOperation_eq (records : List SafeTransactionRecord) :
    groupByOperation records = records.foldl groupStep [] := rfl

theorem foldl_groupStep_own {group : List SafeTransactionRecord}
    (hown : ∀ r ∈ ops, addMoneyGroup r = some op) :
    ops.foldl groupStep [(op, group)] = [(op, group ++ ops)] := by
  induction ops generalizing group with
  | nil => simp
  | cons r ops ih =>
    have hstep : groupStep [(op, group)] r = [(op, group ++ [r])] := by
      rw [groupStep, hown r List.mem_cons_self]
      exact addToGroup_self
    rw [List.foldl_cons, hstep, ih fun r hr => hown r (List.mem_cons_of_mem _ hr)]
    simp

theorem foldl_groupStep_rest {groups : List (String × List SafeTransactionRecord)}
    {group : List SafeTransactionRecord} (hrest : ∀ r ∈ rest, addMoneyGroup r ≠ some op) :
    rest.foldl groupStep ((op, group) :: groups) = (op, group) :: rest.foldl groupStep groups := by
  induction rest generalizing groups with
  | nil => rfl
  | cons r rest ih =>
    have hr := hrest r List.mem_cons_self
    have hstep : groupStep ((op, group) :: groups) r = (op, group) :: groupStep groups r := by
      unfold groupStep
      cases hkey : addMoneyGroup r with
      | none => rfl
      | some key =>
        exact addToGroup_other fun h => hr (h ▸ hkey)
    rw [List.foldl_cons, List.foldl_cons, hstep,
      ih fun r hr => hrest r (List.mem_cons_of_mem _ hr)]

theorem groupByOperation_append (hne : ops ≠ []) (hown : ∀ r ∈ ops, addMoneyGroup r = some op)
    (hrest : ∀ r ∈ rest, addMoneyGroup r ≠ some op) :
    groupByOperation (ops ++ rest) = (op, ops) :: groupByOperation rest := by
  obtain ⟨first, ops, rfl⟩ := List.exists_cons_of_ne_nil hne
  have hfirst : groupStep [] first = [(op, [first])] := by
    rw [groupStep, hown first List.mem_cons_self]
    rfl
  rw [groupByOperation_eq, List.foldl_append, List.foldl_cons, hfirst,
    foldl_groupStep_own fun r hr => hown r (List.mem_cons_of_mem _ hr),
    foldl_groupStep_rest hrest]
  rfl

/-- A record of a group is one of the records, and the group is its own. -/
def Grouped (records : List SafeTransactionRecord)
    (groups : List (String × List SafeTransactionRecord)) : Prop :=
  ∀ entry ∈ groups, ∀ r ∈ entry.2, r ∈ records ∧ addMoneyGroup r = some entry.1

theorem grouped_addToGroup {records : List SafeTransactionRecord}
    {groups : List (String × List SafeTransactionRecord)} (h : Grouped records groups)
    (hr : record ∈ records) (hkey : addMoneyGroup record = some op) :
    Grouped records (addToGroup op record groups) := by
  induction groups with
  | nil =>
    intro entry hentry r hr'
    obtain rfl := List.mem_singleton.1 hentry
    obtain rfl := List.mem_singleton.1 hr'
    exact ⟨hr, hkey⟩
  | cons first groups ih =>
    have htail := ih fun entry hentry => h entry (List.mem_cons_of_mem _ hentry)
    intro entry hentry r hr'
    unfold addToGroup at hentry
    split at hentry
    · next heq =>
      rcases List.mem_cons.1 hentry with rfl | hentry
      · rcases List.mem_append.1 hr' with hold | hnew
        · exact h first List.mem_cons_self r hold
        · obtain rfl := List.mem_singleton.1 hnew
          exact ⟨hr, heq ▸ hkey⟩
      · exact h entry (List.mem_cons_of_mem _ hentry) r hr'
    · rcases List.mem_cons.1 hentry with rfl | hentry
      · exact h _ List.mem_cons_self r hr'
      · exact htail entry hentry r hr'

theorem grouped_groupByOperation (records : List SafeTransactionRecord) :
    Grouped records (groupByOperation records) := by
  suffices hfold : ∀ (l : List SafeTransactionRecord) groups, (∀ r ∈ l, r ∈ records) →
      Grouped records groups → Grouped records (l.foldl groupStep groups) by
    exact hfold records [] (fun _ h => h) (fun _ h => absurd h List.not_mem_nil)
  intro l
  induction l with
  | nil => exact fun _ _ h => h
  | cons r l ih =>
    intro groups hl h
    refine ih _ (fun r hr => hl r (List.mem_cons_of_mem _ hr)) ?_
    unfold groupStep
    split
    · exact h
    · next hkey => exact grouped_addToGroup h (hl r List.mem_cons_self) hkey

/-! ### The latest checkpoint -/

/-- The checkpoint of the records of an operation. -/
def checkpointOf (op : String) (ops : List SafeTransactionRecord) : V2AddMoneyCheckpoint where
  operationId := op
  records := ops
  approval := latestForStage ops .approval
  wrap := latestForStage ops .wrap
  save := latestForStage ops .save

theorem operationId_of_group (h : addMoneyGroup record = some op) :
    record.operationId = some op ∧ op ≠ "" := by
  unfold addMoneyGroup at h
  split at h
  · cases h
  · exact ⟨(Option.filter_eq_some_iff.1 h).1, by simpa using (Option.filter_eq_some_iff.1 h).2⟩

/-- The operation whose records were written last has the latest checkpoint. -/
theorem findLatest_append (hne : ops ≠ []) (hown : ∀ r ∈ ops, addMoneyGroup r = some op)
    (hrest : ∀ r ∈ rest, addMoneyGroup r ≠ some op)
    (hsorted : ops.Pairwise fun newer older => older.updatedAt ≤ newer.updatedAt)
    (hnewer : ∀ r ∈ rest, ∀ o ∈ ops, r.updatedAt ≤ o.updatedAt) :
    findLatestV2AddMoneyCheckpoint (ops ++ rest) = some (checkpointOf op ops) := by
  obtain ⟨first, later, rfl⟩ := List.exists_cons_of_ne_nil hne
  have hsort : sortByUpdatedAt (first :: later) = first :: later :=
    List.mergeSort_of_pairwise (hsorted.imp fun h => by simpa using h)
  let newerFirst (left right : List SafeTransactionRecord) : Bool :=
    groupUpdatedAt right ≤ groupUpdatedAt left
  obtain ⟨earlier, others, hmerge, -, hearlier⟩ := @List.mergeSort_cons _ newerFirst
    (fun a b c => by simpa [newerFirst] using fun h h' => Nat.le_trans h' h)
    (fun a b => by simpa [newerFirst] using Nat.le_total _ _) (first :: later)
    ((groupByOperation rest).map fun group => sortByUpdatedAt group.2)
  -- No other group is newer, so the operation's group stays first.
  have hfirst : earlier = [] := by
    refine List.eq_nil_iff_forall_not_mem.2 fun group hgroup => ?_
    have hmem : group ∈ (groupByOperation rest).map fun group => sortByUpdatedAt group.2 := by
      have hsub : group ∈ (first :: later) ::
          (groupByOperation rest).map fun group => sortByUpdatedAt group.2 :=
        (List.mergeSort_perm _ _).subset (hmerge ▸ List.mem_append_left _ hgroup)
      rcases List.mem_cons.1 hsub with rfl | h
      · simpa [newerFirst] using hearlier _ hgroup
      · exact h
    obtain ⟨entry, hentry, rfl⟩ := List.mem_map.1 hmem
    have hle : groupUpdatedAt (sortByUpdatedAt entry.2) ≤ groupUpdatedAt (first :: later) := by
      cases hsorted' : sortByUpdatedAt entry.2 with
      | nil => exact Nat.zero_le _
      | cons r group =>
        have hr : r ∈ entry.2 := by
          have : r ∈ sortByUpdatedAt entry.2 := hsorted' ▸ List.mem_cons_self
          exact (List.mergeSort_perm _ _).subset this
        exact hnewer r (grouped_groupByOperation rest entry hentry r hr).1 first
          List.mem_cons_self
    simpa [newerFirst, hle] using hearlier _ hgroup
  obtain ⟨hid, hop⟩ := operationId_of_group (hown first List.mem_cons_self)
  rw [hfirst, List.nil_append] at hmerge
  have hfilter : (some op).filter (· ≠ "") = some op := by simp [hop]
  rw [findLatestV2AddMoneyCheckpoint, groupByOperation_append (List.cons_ne_nil _ _) hown hrest,
    List.map_cons, hsort, hmerge]
  simp only [List.head?_cons, Option.bind_eq_bind, Option.bind_some, hid]
  rw [hfilter]
  rfl

/-- The operation of a checkpoint is named by a record. -/
theorem findLatest_operationId {records : List SafeTransactionRecord}
    {checkpoint : V2AddMoneyCheckpoint}
    (h : findLatestV2AddMoneyCheckpoint records = some checkpoint) :
    ∃ r ∈ records, r.operationId = some checkpoint.operationId := by
  simp only [findLatestV2AddMoneyCheckpoint, Option.bind_eq_bind, Option.bind_eq_some_iff,
    Option.pure_def, Option.some.injEq] at h
  obtain ⟨operation, hoperation, first, hfirst, operationId, hid, rfl⟩ := h
  have hmem := List.mem_of_mem_head? hoperation
  obtain ⟨entry, hentry, rfl⟩ := List.mem_map.1 ((List.mergeSort_perm _ _).subset hmem)
  have hr : first ∈ entry.2 :=
    (List.mergeSort_perm _ _).subset (List.mem_of_mem_head? hfirst)
  exact ⟨first, (grouped_groupByOperation records entry hentry first hr).1,
    (Option.filter_eq_some_iff.1 hid).1⟩

end Leopold.Frontend
