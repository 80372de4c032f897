import Leopold.Frontend.V2Operation

/-!
# The writes of an operation and their records

What holds of the list of an operation's writes, newest first: the write indices of the confirmed
ones stay below their number, so the record of a confirmed write is never written over, and none
is done a second time.  What the records say follows the list, one lemma for each way a write goes
on.
-/

namespace Leopold.Frontend

open Lib Lib.Recent

/-! ### Record ids -/

theorem writeId_inj {op : String} {i j : Nat} : writeId op i = writeId op j ↔ i = j := by
  constructor
  · intro h
    have hdigits (n : Nat) : Nat.ofDigitChars 10 (toString n).toList 0 = n := by
      simp [Nat.toString_eq_repr, Nat.repr]
    have hlist := congrArg String.toList h
    simp only [writeId, String.toList_append, List.append_assoc,
      List.append_cancel_left_eq] at hlist
    rw [← hdigits i, hlist, hdigits j]
  · rintro rfl
    rfl

theorem writeId_ne_failureId {op : String} {i : Nat} : writeId op i ≠ failureId op := by
  intro h
  have hlist := congrArg String.toList h
  simp [writeId, failureId] at hlist

theorem writeId_ne_self {op : String} {i : Nat} : writeId op i ≠ op := by
  intro h
  have hlist := congrArg String.toList h
  simp [writeId] at hlist

namespace V2Page

variable {account op : String} {writes : List V2Write} {write w : V2Write}
  {ops : List SafeTransactionRecord} {record r : SafeTransactionRecord} {stage : V2AddMoneyStage}

/-! ### The writes -/

def latestWrite (writes : List V2Write) (stage : V2AddMoneyStage) : Option V2Write :=
  writes.find? (·.stage = some stage)

def confirmed (writes : List V2Write) : Nat := writes.countP (·.success)

def approvals (writes : List V2Write) : Nat :=
  writes.countP fun write => write.stage = some .approval ∧ write.success

/-- The latest approval, if there is one, was confirmed. -/
def Alive (writes : List V2Write) : Prop :=
  ∀ a, latestWrite writes .approval = some a → a.success = true ∧ a.read = true

structure OwnWrite (account op : String) (write : V2Write) : Prop where
  operationId : write.operationId = op
  stage : write.stage ≠ none
  amount : 0 < write.amount
  hash : write.hash ≠ ""
  account : sameAccount write.account account = true

/-- The writes of an operation, newest first. -/
structure Numbered (account op : String) (writes : List V2Write) : Prop where
  own : ∀ write ∈ writes, OwnWrite account op write
  hashes : writes.Pairwise fun newer older => newer.hash ≠ older.hash
  le_confirmed : ∀ write ∈ writes, write.success = true → write.index ≤ confirmed writes
  le_succ : ∀ write ∈ writes, write.index ≤ confirmed writes + 1
  ids : writes.Pairwise fun newer older => newer.index = older.index → older.success = false
  once : writes.Pairwise fun newer older =>
    older.success = true → older.stage ≠ some .approval → newer.stage ≠ older.stage
  approvals_le : approvals writes ≤ 2
  alive : ∀ write ∈ writes, write.success = true → write.stage ≠ some .approval → Alive writes

@[simp]
theorem confirmed_nil : confirmed [] = 0 := rfl

theorem confirmed_cons : confirmed (w :: writes) = confirmed writes + if w.success then 1 else 0 :=
  List.countP_cons

theorem approvals_cons : approvals (w :: writes) =
    approvals writes + if w.stage = some .approval ∧ w.success = true then 1 else 0 := by
  simp [approvals, List.countP_cons]

theorem latestWrite_cons_of_eq (h : w.stage = some stage) :
    latestWrite (w :: writes) stage = some w :=
  List.find?_cons_of_pos (by simpa using h)

theorem latestWrite_cons_of_ne (h : w.stage ≠ some stage) :
    latestWrite (w :: writes) stage = latestWrite writes stage :=
  List.find?_cons_of_neg (by simpa using h)

theorem Alive.cons (h : Alive writes) (hw : w.stage ≠ some .approval) : Alive (w :: writes) := by
  rwa [Alive, latestWrite_cons_of_ne hw]

theorem Alive.tail (h : Alive (w :: writes)) (hw : w.stage ≠ some .approval) : Alive writes := by
  rwa [Alive, latestWrite_cons_of_ne hw] at h

/-- The confirmed writes that are not approvals. -/
def deposits (writes : List V2Write) : List V2Write :=
  writes.filter fun write => write.success && write.stage ≠ some .approval

theorem mem_deposits : write ∈ deposits writes ↔
    write ∈ writes ∧ write.success = true ∧ write.stage ≠ some .approval := by
  simp [deposits]

theorem confirmed_eq (writes : List V2Write) :
    confirmed writes = approvals writes + (deposits writes).length := by
  rw [deposits, ← List.countP_eq_length_filter, confirmed, approvals,
    List.countP_eq_countP_filter_add writes _ fun write => write.stage = some .approval,
    List.countP_filter, List.countP_filter]
  congr 1
  · exact List.countP_congr fun write _ => by simp [and_comm]
  · exact List.countP_congr fun write _ => by simp

namespace Numbered

theorem nil : Numbered account op [] where
  own _ h := absurd h List.not_mem_nil
  hashes := .nil
  le_confirmed _ h := absurd h List.not_mem_nil
  le_succ _ h := absurd h List.not_mem_nil
  ids := .nil
  once := .nil
  approvals_le := Nat.zero_le _
  alive _ h := absurd h List.not_mem_nil

/-- No two of them are of the same stage. -/
theorem nodup_deposits (h : Numbered account op writes) :
    ((deposits writes).map (·.stage)).Nodup := by
  refine List.pairwise_map.2 ((h.once.filter _).imp_of_mem fun {newer older} _ holder hne => ?_)
  have hmem := mem_deposits.1 holder
  exact hne hmem.2.1 hmem.2.2

/-- Of the confirmed writes two may be approvals, one a wrap and one a save. -/
theorem confirmed_le_four (h : Numbered account op writes) : confirmed writes ≤ 4 := by
  have hsub : (deposits writes).map (·.stage) ⊆ [some .wrap, some .save] := fun stage hstage => by
    obtain ⟨write, hwrite, rfl⟩ := List.mem_map.1 hstage
    obtain ⟨hmem, -, hne⟩ := mem_deposits.1 hwrite
    have hsome := (h.own write hmem).stage
    cases hstage : write.stage with
    | none => exact absurd hstage hsome
    | some stage => cases stage <;> simp_all
  have hle := h.nodup_deposits.length_le_of_subset hsub
  rw [List.length_map] at hle
  have hsplit := confirmed_eq writes
  have htwo := h.approvals_le
  simp only [List.length_cons, List.length_nil] at hle
  omega

/-- A new write with the next index. -/
theorem broadcast (h : Numbered account op writes) (hown : OwnWrite account op w)
    (hhash : ∀ write ∈ writes, write.hash ≠ w.hash) (hindex : w.index = confirmed writes + 1)
    (honce : ∀ write ∈ writes, write.success = true → write.stage ≠ some .approval →
      w.stage ≠ write.stage)
    (happroval : w.stage = some .approval → approvals writes ≤ 1 ∧
      ∀ write ∈ writes, write.success = true → write.stage = some .approval)
    (halive : w.stage ≠ some .approval → Alive writes) : Numbered account op (w :: writes) where
  own := List.forall_mem_cons.2 ⟨hown, h.own⟩
  hashes := List.pairwise_cons.2 ⟨fun write hwrite => (hhash write hwrite).symm, h.hashes⟩
  le_confirmed := by
    rw [confirmed_cons]
    refine List.forall_mem_cons.2 ⟨fun hsuccess => ?_, fun write hwrite hsuccess => ?_⟩
    · rw [hindex, if_pos hsuccess]
    · exact (h.le_confirmed write hwrite hsuccess).trans (Nat.le_add_right _ _)
  le_succ := by
    rw [confirmed_cons]
    refine List.forall_mem_cons.2 ⟨?_, fun write hwrite => ?_⟩
    · omega
    · have := h.le_succ write hwrite
      omega
  ids := by
    refine List.pairwise_cons.2 ⟨fun write hwrite heq => ?_, h.ids⟩
    by_contra hsuccess
    have := h.le_confirmed write hwrite (by simpa using hsuccess)
    omega
  once := List.pairwise_cons.2 ⟨honce, h.once⟩
  approvals_le := by
    rw [approvals_cons]
    split
    · next hw => exact Nat.succ_le_succ (happroval hw.1).1
    · exact h.approvals_le
  alive := by
    by_cases hw : w.stage = some .approval
    · refine List.forall_mem_cons.2 ⟨fun _ hne => absurd hw hne, ?_⟩
      exact fun write hwrite hsuccess hne => absurd ((happroval hw).2 write hwrite hsuccess) hne
    · exact fun _ _ _ _ => (halive hw).cons hw

/-- The receipt of the latest write was read. -/
theorem readHead (h : Numbered account op (w :: writes)) :
    Numbered account op ({ w with read := true } :: writes) := by
  have hown := List.forall_mem_cons.1 h.own
  have hids := List.pairwise_cons.1 h.ids
  have honce := List.pairwise_cons.1 h.once
  have hhashes := List.pairwise_cons.1 h.hashes
  refine ⟨List.forall_mem_cons.2 ⟨⟨hown.1.operationId, hown.1.stage, hown.1.amount,
      hown.1.hash, hown.1.account⟩, hown.2⟩, List.pairwise_cons.2 ⟨hhashes.1, hhashes.2⟩,
    List.forall_mem_cons.2 (List.forall_mem_cons.1 h.le_confirmed),
    List.forall_mem_cons.2 (List.forall_mem_cons.1 h.le_succ),
    List.pairwise_cons.2 ⟨hids.1, hids.2⟩, List.pairwise_cons.2 ⟨honce.1, honce.2⟩,
    h.approvals_le, ?_⟩
  have halive : Alive (w :: writes) → Alive ({ w with read := true } :: writes) := by
    intro halive a ha
    by_cases hw : w.stage = some .approval
    · have hold := halive w (latestWrite_cons_of_eq hw)
      rw [latestWrite_cons_of_eq (w := { w with read := true }) hw] at ha
      obtain rfl := Option.some.inj ha
      exact ⟨hold.1, rfl⟩
    · rw [latestWrite_cons_of_ne (w := { w with read := true }) hw] at ha
      exact halive.tail hw a ha
  have hall := List.forall_mem_cons.1 h.alive
  refine List.forall_mem_cons.2 ⟨fun hsuccess hne => ?_, fun write hwrite hsuccess hne => ?_⟩
  · exact halive (hall.1 hsuccess hne)
  · exact halive (hall.2 write hwrite hsuccess hne)

/-- A confirmed write has an index of its own. -/
theorem index_ne (h : Numbered account op (w :: writes)) (hwrite : write ∈ writes)
    (hsuccess : write.success = true) : w.index ≠ write.index := fun heq => by
  have := (List.pairwise_cons.1 h.ids).1 write hwrite heq
  simp [this] at hsuccess

theorem id_ne (h : Numbered account op (w :: writes)) (hwrite : write ∈ writes)
    (hsuccess : write.success = true) : write.id ≠ w.id := by
  have hown := List.forall_mem_cons.1 h.own
  rw [V2Write.id, V2Write.id, hown.1.operationId, (hown.2 write hwrite).operationId, Ne,
    writeId_inj]
  exact (h.index_ne hwrite hsuccess).symm

end Numbered

/-! ### How far the operation is -/

/-- Only approvals have succeeded, and the latest was confirmed. -/
def Before (writes : List V2Write) : Prop :=
  Alive writes ∧ ∀ write ∈ writes, write.success = true → write.stage = some .approval

/-- A wrap was confirmed, and no save has succeeded. -/
structure Between (writes : List V2Write) : Prop where
  alive : Alive writes
  wrapped : ∃ write ∈ writes, write.stage = some .wrap ∧ write.success = true ∧ write.read = true
  seen : ∀ write ∈ writes, write.success = true → write.stage = some .wrap → write.read = true
  unsaved : ∀ write ∈ writes, write.success = true → write.stage ≠ some .save

/-- The receipt of every wrap and save that succeeded was read. -/
def Seen (writes : List V2Write) : Prop :=
  ∀ write ∈ writes, write.success = true → write.stage ≠ some .approval → write.read = true

theorem Before.seen (h : Before writes) : Seen writes := fun write hwrite hsuccess hne =>
  absurd (h.2 write hwrite hsuccess) hne

theorem Between.allSeen (h : Between writes) (hown : ∀ write ∈ writes, OwnWrite account op write) :
    Seen writes := by
  intro write hwrite hsuccess hne
  cases hstage : write.stage with
  | none => exact absurd hstage (hown write hwrite).stage
  | some stage =>
    cases stage with
    | approval => exact absurd hstage hne
    | wrap => exact h.seen write hwrite hsuccess hstage
    | save => exact absurd hstage (h.unsaved write hwrite hsuccess)

theorem Before.confirmed_eq (h : Before writes) : confirmed writes = approvals writes := by
  have hnone : deposits writes = [] := by
    refine List.filter_eq_nil_iff.2 fun write hwrite => ?_
    simpa using h.2 write hwrite
  rw [V2Page.confirmed_eq, hnone, List.length_nil, Nat.add_zero]

theorem Between.confirmed_eq (h : Between writes) (hnumbered : Numbered account op writes) :
    confirmed writes = approvals writes + 1 := by
  obtain ⟨wrap, hwrap, hstage, hsuccess, -⟩ := h.wrapped
  have hsub : (deposits writes).map (·.stage) ⊆ [some .wrap] := fun stage hstage => by
    obtain ⟨write, hwrite, rfl⟩ := List.mem_map.1 hstage
    obtain ⟨hmem, hsuccess, hne⟩ := mem_deposits.1 hwrite
    have hsome := (hnumbered.own write hmem).stage
    have hsave := h.unsaved write hmem hsuccess
    cases hstage : write.stage with
    | none => exact absurd hstage hsome
    | some stage => cases stage <;> simp_all
  have hle := hnumbered.nodup_deposits.length_le_of_subset hsub
  have hpos := List.length_pos_of_mem (mem_deposits.2 ⟨hwrap, hsuccess, by simp [hstage]⟩)
  rw [List.length_map, List.length_singleton] at hle
  rw [V2Page.confirmed_eq]
  omega

/-- There is an approval when one was counted, and then a latest one. -/
theorem exists_latest_of_approvals (h : 0 < approvals writes) :
    ∃ a, latestWrite writes .approval = some a := by
  obtain ⟨write, hwrite, hp⟩ := List.countP_pos_iff.1 h
  simp only [decide_eq_true_eq] at hp
  exact Option.isSome_iff_exists.1 (List.find?_isSome.2 ⟨write, hwrite, by simpa using hp.1⟩)

end V2Page

end Leopold.Frontend
