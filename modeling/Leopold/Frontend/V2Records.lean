import Leopold.Frontend.V2Writes

/-!
# What the records of an operation say of its writes

A record is complete only for a write that was confirmed and read, and the latest write of a stage
is found complete once it was.  The moves are those of a run: a write is broadcast, confirmed,
reverted or left open, or something fails without a hash.
-/

namespace Leopold.Frontend

open Lib Lib.Recent

namespace V2Page

variable {account op : String} {writes : List V2Write} {write w : V2Write}
  {ops : List SafeTransactionRecord} {record r : SafeTransactionRecord} {stage : V2AddMoneyStage}

/-- A record of the stage, with a hash. -/
def hashedAt (stage : V2AddMoneyStage) (record : SafeTransactionRecord) : Bool :=
  record.operationStage = some stage ∧ (givenHash record.hash).isSome

/-- The first record of the write's stage is its own, and complete. -/
def Recorded (ops : List SafeTransactionRecord) (write : V2Write) : Prop :=
  ∀ stage, write.stage = some stage → ∃ r, ops.find? (hashedAt stage) = some r ∧
    r.id = write.id ∧ r.stage = .complete ∧ r.hash = some write.hash

structure Tracks (op : String) (writes : List V2Write) (ops : List SafeTransactionRecord) :
    Prop where
  ids : ∀ r ∈ ops, r.id = op ∨ r.id = failureId op ∨ ∃ write ∈ writes, r.id = write.id
  complete : ∀ r ∈ ops, r.stage = .complete → ∃ write ∈ writes,
    r.operationStage = write.stage ∧ r.hash = some write.hash ∧
      write.success = true ∧ write.read = true
  recorded : ∀ write ∈ writes, write.success = true → write.read = true →
    (∀ stage, write.stage = some stage → latestWrite writes stage = some write) →
    Recorded ops write
  pending : ¬ Alive writes → ∀ r, ops.find? (hashedAt .approval) = some r → r.stage ≠ .complete

/-- The ids of an operation's records are few. -/
theorem Tracks.short (h : Tracks op writes ops) (hnumbered : Numbered account op writes)
    (hnodup : (ops.map (·.id)).Nodup) : ops.length ≤ 20 := by
  have hsub : ops.map (·.id) ⊆ op :: failureId op :: (List.range 6).map (writeId op) :=
    fun id hid => by
      obtain ⟨r, hr, rfl⟩ := List.mem_map.1 hid
      rcases h.ids r hr with hid | hid | ⟨write, hwrite, hid⟩
      · simp [hid]
      · simp [hid]
      · have hindex := hnumbered.le_succ write hwrite
        have hfour := hnumbered.confirmed_le_four
        rw [hid, V2Write.id, (hnumbered.own write hwrite).operationId]
        exact List.mem_cons_of_mem _ (List.mem_cons_of_mem _
          (List.mem_map.2 ⟨write.index, List.mem_range.2 (by omega), rfl⟩))
  have hle := hnodup.length_le_of_subset hsub
  simp only [List.length_map, List.length_cons, List.length_range] at hle
  omega

theorem Recorded.put (h : Recorded ops write) (hid : write.id ≠ record.id)
    (hother : ∀ stage, write.stage = some stage → hashedAt stage record = false) :
    Recorded (put SafeTransactionRecord.id record ops) write := by
  intro stage hstage
  obtain ⟨r, hfind, hrid, hcomplete, hhash⟩ := h stage hstage
  exact ⟨r, find?_put_of_neg (hother stage hstage) hfind (by rw [hrid]; exact hid), hrid,
    hcomplete, hhash⟩

theorem hashedAt_of_stage (hstage : record.operationStage = some stage)
    (hhash : (givenHash record.hash).isSome = true) : hashedAt stage record = true := by
  simp [hashedAt, hstage, hhash]

theorem hashedAt_of_ne (h : record.operationStage ≠ some stage) : hashedAt stage record = false := by
  simp [hashedAt, h]

/-- The record names a write of the operation. -/
theorem OwnWrite.hashedAt (h : OwnWrite account op w) (hhash : record.hash = some w.hash)
    (hstage : record.operationStage = some stage) : V2Page.hashedAt stage record = true :=
  hashedAt_of_stage hstage (by rw [hhash, givenHash_some h.hash, Option.isSome_some])

theorem hashedAt_of_none (h : record.hash = none) : hashedAt stage record = false := by
  simp [hashedAt, h]

namespace Tracks

theorem nil : Tracks op [] [] :=
  ⟨fun _ h => absurd h List.not_mem_nil, fun _ h => absurd h List.not_mem_nil,
    fun _ h => absurd h List.not_mem_nil, fun _ _ h => by simp at h⟩

/-- Something without a hash: the start of the operation, or a failure. -/
theorem quiet (h : Tracks op writes ops) (hnumbered : Numbered account op writes)
    (hid : record.id = op ∨ record.id = failureId op) (hhash : record.hash = none)
    (hstage : record.stage ≠ .complete) (halive : Alive writes) :
    Tracks op writes (put SafeTransactionRecord.id record ops) where
  ids r hr := by
    rcases mem_put.1 hr with rfl | ⟨hr, -⟩
    · exact hid.imp_right .inl
    · exact h.ids r hr
  complete r hr hcomplete := by
    rcases mem_put.1 hr with rfl | ⟨hr, -⟩
    · exact absurd hcomplete hstage
    · exact h.complete r hr hcomplete
  recorded write hwrite hsuccess hread hlatest := by
    refine (h.recorded write hwrite hsuccess hread hlatest).put ?_ fun _ _ => hashedAt_of_none hhash
    rw [V2Write.id, (hnumbered.own write hwrite).operationId]
    rcases hid with hid | hid
    · exact hid ▸ writeId_ne_self
    · exact hid ▸ writeId_ne_failureId
  pending hdead := absurd halive hdead

/-- A write is broadcast. -/
theorem broadcast (h : Tracks op writes ops) (hnumbered : Numbered account op (w :: writes))
    (hid : record.id = w.id) (hhash : record.hash = some w.hash)
    (hat : record.operationStage = w.stage) (hstage : record.stage ≠ .complete)
    (hread : w.read = false) (halive : w.stage ≠ some .approval → Alive writes) :
    Tracks op (w :: writes) (put SafeTransactionRecord.id record ops) where
  ids r hr := by
    rcases mem_put.1 hr with rfl | ⟨hr, -⟩
    · exact .inr (.inr ⟨w, List.mem_cons_self, hid⟩)
    · exact (h.ids r hr).imp_right (.imp_right fun ⟨write, hwrite, hid⟩ =>
        ⟨write, List.mem_cons_of_mem _ hwrite, hid⟩)
  complete r hr hcomplete := by
    rcases mem_put.1 hr with rfl | ⟨hr, -⟩
    · exact absurd hcomplete hstage
    · obtain ⟨write, hwrite, hof⟩ := h.complete r hr hcomplete
      exact ⟨write, List.mem_cons_of_mem _ hwrite, hof⟩
  recorded write hwrite hsuccess hdone hlatest := by
    rcases List.mem_cons.1 hwrite with rfl | hwrite
    · simp [hread] at hdone
    -- The new write is the latest of its stage, so this one is of another.
    · have hne : ∀ stage, write.stage = some stage → w.stage ≠ some stage := by
        intro stage hstage hw
        have hfirst := hlatest stage hstage
        rw [latestWrite_cons_of_eq hw] at hfirst
        obtain rfl := Option.some.inj hfirst
        simp [hread] at hdone
      refine (h.recorded write hwrite hsuccess hdone fun stage hstage => ?_).put ?_
        fun stage hstage => hashedAt_of_ne (hat ▸ hne stage hstage)
      · rw [← latestWrite_cons_of_ne (hne stage hstage)]
        exact hlatest stage hstage
      · exact hid ▸ hnumbered.id_ne hwrite hsuccess
  pending hdead r hr := by
    by_cases hw : w.stage = some .approval
    · have hown := hnumbered.own w List.mem_cons_self
      rw [find?_put_of_pos (hown.hashedAt hhash (hat.trans hw))] at hr
      exact Option.some.inj hr ▸ hstage
    · exact absurd ((halive hw).cons hw) hdead

/-- The latest write goes on: its record is written again, or a failure that names it.  The record
is complete exactly when the write was confirmed and its receipt read. -/
theorem goOn {w' : V2Write} (h : Tracks op (w :: writes) ops)
    (hnumbered : Numbered account op (w :: writes)) (hw : w' = w ∨ w' = { w with read := true })
    (hid : record.id = w.id ∨ record.id = failureId op) (hhash : record.hash = some w.hash)
    (hat : record.operationStage = w.stage)
    (hcomplete : record.stage = .complete → w'.success = true ∧ w'.read = true)
    (hdone : w'.success = true → w'.read = true → record.stage = .complete ∧ record.id = w.id)
    (halive : w.stage ≠ some .approval → Alive writes) :
    Tracks op (w' :: writes) (put SafeTransactionRecord.id record ops) := by
  obtain ⟨hstage', hid', hhash', hread'⟩ : w'.stage = w.stage ∧ w'.id = w.id ∧ w'.hash = w.hash ∧
      (w.success = true → w.read = true → w'.success = true ∧ w'.read = true) := by
    rcases hw with rfl | rfl
    · exact ⟨rfl, rfl, rfl, fun hs hr => ⟨hs, hr⟩⟩
    · exact ⟨rfl, rfl, rfl, fun hs _ => ⟨hs, rfl⟩⟩
  have hown := List.forall_mem_cons.1 hnumbered.own
  refine ⟨fun r hr => ?_, fun r hr hr' => ?_, fun write hwrite hsuccess hread hlatest => ?_,
    fun hdead r hr => ?_⟩
  · rcases mem_put.1 hr with rfl | ⟨hr, -⟩
    · rcases hid with hid | hid
      · exact .inr (.inr ⟨w', List.mem_cons_self, hid.trans hid'.symm⟩)
      · exact .inr (.inl hid)
    · rcases h.ids r hr with hr | hr | ⟨write, hwrite, hr⟩
      · exact .inl hr
      · exact .inr (.inl hr)
      · rcases List.mem_cons.1 hwrite with rfl | hwrite
        · exact .inr (.inr ⟨w', List.mem_cons_self, hr.trans hid'.symm⟩)
        · exact .inr (.inr ⟨write, List.mem_cons_of_mem _ hwrite, hr⟩)
  · rcases mem_put.1 hr with rfl | ⟨hr, -⟩
    · exact ⟨w', List.mem_cons_self, hat.trans hstage'.symm, hhash' ▸ hhash, hcomplete hr'⟩
    · obtain ⟨write, hwrite, hof, hofHash, hs, hd⟩ := h.complete r hr hr'
      rcases List.mem_cons.1 hwrite with rfl | hwrite
      · exact ⟨w', List.mem_cons_self, hof.trans hstage'.symm, hhash' ▸ hofHash, hread' hs hd⟩
      · exact ⟨write, List.mem_cons_of_mem _ hwrite, hof, hofHash, hs, hd⟩
  · rcases List.mem_cons.1 hwrite with rfl | hwrite
    · obtain ⟨hstage, hrid⟩ := hdone hsuccess hread
      intro stage hwstage
      refine ⟨record, find?_put_of_pos ?_, hrid.trans hid'.symm, hstage, hhash' ▸ hhash⟩
      exact hown.1.hashedAt hhash (hat.trans (hstage' ▸ hwstage))
    -- The latest write of its stage is this one, so the head is of another stage.
    · have hne : ∀ stage, write.stage = some stage → w.stage ≠ some stage := by
        intro stage hstage hw
        have hfirst := hlatest stage hstage
        rw [latestWrite_cons_of_eq (hstage'.trans hw)] at hfirst
        have heq : w' = write := Option.some.inj hfirst
        exact (List.pairwise_cons.1 hnumbered.hashes).1 write hwrite (heq ▸ hhash'.symm)
      refine (h.recorded write (List.mem_cons_of_mem _ hwrite) hsuccess hread
        fun stage hstage => ?_).put ?_ fun stage hstage => hashedAt_of_ne (hat ▸ hne stage hstage)
      · have hfirst := hlatest stage hstage
        rw [latestWrite_cons_of_ne (hstage' ▸ hne stage hstage)] at hfirst
        exact (latestWrite_cons_of_ne (hne stage hstage)).trans hfirst
      · rcases hid with hid | hid
        · exact hid ▸ hnumbered.id_ne hwrite hsuccess
        · rw [hid, V2Write.id, (hown.2 write hwrite).operationId]
          exact writeId_ne_failureId
  · by_cases hw : w.stage = some .approval
    · rw [find?_put_of_pos (hown.1.hashedAt hhash (hat.trans hw))] at hr
      obtain rfl := Option.some.inj hr
      refine fun hrecord => hdead fun a ha => ?_
      rw [latestWrite_cons_of_eq (hstage'.trans hw)] at ha
      exact Option.some.inj ha ▸ hcomplete hrecord
    · exact absurd ((halive hw).cons (hstage' ▸ hw)) hdead

end Tracks

/-! ### What the records ask for -/

/-- The hash of the latest record of a stage, where it is complete. -/
def completedAt (ops : List SafeTransactionRecord) (stage : V2AddMoneyStage) : Option Hash :=
  completedHash (latestForStage ops stage)

theorem latestForStage_of_find (h : ops.find? (hashedAt stage) = some r) :
    latestForStage ops stage = some r := by
  have hfind : (ops.find? fun record =>
      record.operationStage = some stage ∧ (givenHash record.hash).isSome) = some r := h
  rw [latestForStage, hfind, Option.some_or]

theorem mem_of_latestForStage (h : latestForStage ops stage = some r) :
    r ∈ ops ∧ r.operationStage = some stage := by
  rcases Option.or_eq_some_iff.1 h with h | ⟨-, h⟩
  · have hp := List.find?_some h
    simp only [decide_eq_true_eq] at hp
    exact ⟨List.mem_of_find?_eq_some h, hp.1⟩
  · exact ⟨List.mem_of_find?_eq_some h, by simpa using List.find?_some h⟩

theorem completedAt_eq_some {hash : Hash} : completedAt ops stage = some hash ↔
    ∃ r, latestForStage ops stage = some r ∧ r.stage = .complete ∧ r.hash = some hash ∧
      hash ≠ "" := by
  simp only [completedAt, completedHash, Option.bind_eq_some_iff, Option.filter_eq_some_iff,
    decide_eq_true_eq, givenHash_eq_some, and_assoc]

theorem Recorded.completedAt (h : Recorded ops write) (hstage : write.stage = some stage) :
    completedAt ops stage = some write.hash := by
  obtain ⟨r, hfind, -, hcomplete, hhash⟩ := h stage hstage
  have hhashed : hashedAt stage r = true := List.find?_some hfind
  simp only [hashedAt, hhash, decide_eq_true_eq] at hhashed
  obtain ⟨hash, hgiven⟩ := Option.isSome_iff_exists.1 hhashed.2
  obtain ⟨hsame, hne⟩ := givenHash_eq_some.1 hgiven
  exact completedAt_eq_some.2 ⟨r, latestForStage_of_find hfind, hcomplete, hhash,
    Option.some.inj hsame ▸ hne⟩

namespace Tracks

theorem completedAt_spec (h : Tracks op writes ops) {hash : Hash}
    (hcompleted : completedAt ops stage = some hash) : ∃ write ∈ writes,
      write.stage = some stage ∧ write.hash = hash ∧ write.success = true ∧ write.read = true := by
  obtain ⟨r, hlatest, hcomplete, hhash, -⟩ := completedAt_eq_some.1 hcompleted
  obtain ⟨hr, hstage⟩ := mem_of_latestForStage hlatest
  obtain ⟨write, hwrite, hof, hofHash, hsuccess, hread⟩ := h.complete r hr hcomplete
  exact ⟨write, hwrite, hof.symm.trans hstage, Option.some.inj (hofHash.symm.trans hhash),
    hsuccess, hread⟩

theorem alive_of_completedAt (h : Tracks op writes ops) {hash : Hash}
    (hcompleted : completedAt ops .approval = some hash) : Alive writes := by
  by_contra hdead
  obtain ⟨r, hlatest, hcomplete, hhash, hne⟩ := completedAt_eq_some.1 hcompleted
  cases hfind : ops.find? (hashedAt .approval) with
  | some first =>
    rw [latestForStage_of_find hfind] at hlatest
    exact h.pending hdead first hfind (Option.some.inj hlatest ▸ hcomplete)
  | none =>
    obtain ⟨hr, hstage⟩ := mem_of_latestForStage hlatest
    refine List.find?_eq_none.1 hfind r hr (hashedAt_of_stage hstage ?_)
    rw [hhash, givenHash_some hne, Option.isSome_some]

/-- A confirmed wrap or save is found complete. -/
theorem completedAt_of_deposit (h : Tracks op writes ops) (hnumbered : Numbered account op writes)
    (hwrite : write ∈ writes) (hsuccess : write.success = true) (hread : write.read = true)
    (hstage : write.stage = some stage) (hne : stage ≠ .approval) :
    completedAt ops stage = some write.hash := by
  refine (h.recorded write hwrite hsuccess hread fun stage' hstage' => ?_).completedAt hstage
  obtain rfl : stage = stage' := Option.some.inj (hstage.symm.trans hstage')
  -- A later write of the stage would repeat a confirmed one.
  obtain ⟨newer, older, rfl⟩ := List.append_of_mem hwrite
  have honce := (List.pairwise_append.1 hnumbered.once).2.2
  refine List.find?_eq_some_iff_append.2 ⟨by simpa using hstage, newer, older, rfl, fun v hv => ?_⟩
  have hdiffer := honce v hv write List.mem_cons_self hsuccess (by simpa [hstage] using hne)
  simpa [hstage] using hdiffer

end Tracks

/-- What the checkpoint of the operation's records may ask for. -/
structure Asked (account op : String) (begun : Nat) (ops : List SafeTransactionRecord)
    (discovery : V2Discovery) : Prop where
  account : discovery.account = account
  operationId : discovery.operationId = op
  begun : discovery.begun = begun
  confirmedStages : discovery.confirmedStages ≠ [] ∧ .save ∉ discovery.confirmedStages
  unsaved : (latestForStage ops .save).map (·.stage) ≠ some .complete
  stage : discovery.resumeStage = .save ∧ completedAt ops .wrap = some discovery.hash ∧
      discovery.hashes = (completedAt ops .approval).toList ++ [discovery.hash] ∨
    discovery.resumeStage = .wrap ∧ completedAt ops .wrap = none ∧
      completedAt ops .approval = some discovery.hash ∧ discovery.hashes = [discovery.hash]

section Ask

variable {s : V2Page}

theorem latest_resolved (hown : ∀ r ∈ ops, isUnresolvedV2Transaction r = false)
    (stage : V2AddMoneyStage) :
    (latestForStage ops stage).any isUnresolvedV2Transaction = false := by
  cases hlatest : latestForStage ops stage with
  | none => rfl
  | some r => exact hown r (mem_of_latestForStage hlatest).1

theorem askCheckpoint_spec (hown : ∀ r ∈ ops, isUnresolvedV2Transaction r = false)
    {discovery : V2Discovery}
    (h : s.askCheckpoint account (checkpointOf op ops) = some discovery) :
    Asked account op s.begun ops discovery := by
  simp only [askCheckpoint, checkpointOf, latest_resolved hown, Bool.or_self, Bool.false_eq_true,
    if_false] at h
  split at h
  · cases h
  next hsave =>
  split at h
  · next hash hwrap =>
    obtain rfl := Option.some.inj h
    refine ⟨rfl, rfl, rfl, ?_, hsave, .inl ⟨rfl, hwrap, ?_⟩⟩
    · by_cases happroval :
        (completedHash (latestForStage ops .approval)).isSome = true <;> simp [happroval]
    · simp [hwrap, completedAt]
  · next hash hwrap happroval =>
    obtain rfl := Option.some.inj h
    exact ⟨rfl, rfl, rfl, by simp, hsave, .inr ⟨rfl, hwrap, happroval, by simp [hwrap, happroval]⟩⟩
  · cases h

/-- A wrap that is found complete is asked for as long as no save is. -/
theorem askCheckpoint_of_wrap (hown : ∀ r ∈ ops, isUnresolvedV2Transaction r = false)
    {hash : Hash} (hwrap : completedAt ops .wrap = some hash)
    (hsave : (latestForStage ops .save).map (·.stage) ≠ some .complete) :
    ∃ discovery, s.askCheckpoint account (checkpointOf op ops) = some discovery ∧
      discovery.operationId = op ∧ discovery.resumeStage = .save ∧ discovery.hash = hash := by
  simp only [completedAt] at hwrap
  simp only [askCheckpoint, checkpointOf, latest_resolved hown, Bool.or_self, Bool.false_eq_true,
    if_false, hsave, hwrap]
  exact ⟨_, rfl, rfl, rfl, rfl⟩

end Ask

end V2Page

end Leopold.Frontend
