import Leopold.Keeper.JournalRuns

/-!
# The journal as a history

Calls issued concurrently on one store have the effect of the successful ones applied one after
the other, and the document they build only grows.  A file-system step that fails late, when the
temporary file already exists, leaves a residue that the later calls run into.
-/

namespace Leopold.Keeper

open Lib Lib.PromiseQueue

namespace FileJournalStore

variable {store : FileJournalStore} {x y : Option Content} {w₀ w w' : JournalWorld}
  {l : List StoreCall}

/-- The calls that resolved, in the order they were issued. -/
def succeeded (l : List StoreCall) : List JournalCall :=
  (l.filter fun c => c.turn = .settled (.ok ())).map (·.tag.call)

/-- The calls one at a time, each of them successful. -/
def serialAll (store : FileJournalStore) (calls : List JournalCall) (x : Option Content) :
    Except JournalError (Option Content) :=
  calls.foldlM (fun x call => store.serial call x) x

/-- No file-system step fails. -/
def NoFailures (_ : JournalWorld) (event : JournalEvent) (_ : JournalWorld) : Prop :=
  ∀ i residue, event ≠ .advance i (.failed residue)

theorem NoFailures.early {event : JournalEvent} (h : NoFailures w event w') :
    EarlyFailures w event w' :=
  fun i residue hevent => absurd hevent (h i residue)

theorem early_of_noFailures (h : store.system.RunVia NoFailures w w') :
    store.system.RunVia EarlyFailures w w' :=
  h.weaken fun _ _ _ hno => hno.early

/-- Calls that lost no file-system step build the document of the successful ones, and the others
are invalid in their place. -/
theorem Served.serialAll (h : store.Served x l y) (hio : ∀ c ∈ l, c.tag.ioFailed = false) :
    store.serialAll (succeeded l) x = .ok y ∧
      ∀ before c after e, l = before ++ c :: after → c.turn = .settled (.error e) →
        ∃ z, store.serialAll (succeeded before) x = .ok z ∧
          store.serial c.tag.call z = .error e := by
  induction h with
  | @nil x => exact ⟨rfl, fun before _ _ _ h => by simp at h⟩
  | @resolved x y z c rest hc hserial _ ih =>
    have ih := ih fun c hmem => hio c (List.mem_cons_of_mem _ hmem)
    have hcons : ∀ l, FileJournalStore.serialAll store (succeeded (c :: l)) x =
        FileJournalStore.serialAll store (succeeded l) y := by
      intro l
      rw [succeeded, List.filter_cons_of_pos (by rw [hc]; rfl), List.map_cons,
        FileJournalStore.serialAll, List.foldlM_cons, hserial]
      rfl
    refine ⟨(hcons rest).trans ih.1, ?_⟩
    intro before c' after e hsplit hc'
    cases before with
    | nil =>
      obtain ⟨rfl, -⟩ := List.cons.inj hsplit
      rw [hc] at hc'
      cases hc'
    | cons b before =>
      obtain ⟨rfl, hrest⟩ := List.cons.inj hsplit
      rw [hcons]
      exact ih.2 before c' after e hrest hc'
  | @rejected x z c rest e hc hbad _ ih =>
    have ih := ih fun c hmem => hio c (List.mem_cons_of_mem _ hmem)
    have hcons : ∀ l, succeeded (c :: l) = succeeded l := by
      intro l
      rw [succeeded, List.filter_cons_of_neg (by rw [hc]; simp)]
      rfl
    rw [hcons]
    refine ⟨ih.1, ?_⟩
    intro before c' after e' hsplit hc'
    cases before with
    | nil =>
      obtain ⟨rfl, -⟩ := List.cons.inj hsplit
      rw [hc] at hc'
      obtain ⟨⟩ := hc'
      refine ⟨x, rfl, ?_⟩
      rcases hbad with hbad | hfailed
      · exact hbad
      · rw [hio c List.mem_cons_self] at hfailed
        cases hfailed
    | cons b before =>
      obtain ⟨rfl, hrest⟩ := List.cons.inj hsplit
      rw [hcons]
      exact ih.2 before c' after e' hrest hc'

/-- Without failures no call is marked with one. -/
theorem ioFailed_of_noFailures (h₀ : store.system.init w₀)
    (h : store.system.RunVia NoFailures w₀ w) : ∀ c ∈ w.queue.items, c.tag.ioFailed = false := by
  refine (h.preserves (I := fun w => ∀ c ∈ w.queue.items, c.tag.ioFailed = false) (.of_init h₀)
    ?_ ?_).2
  · intro w event w' _ hI hstep hno c hc
    rcases step_cases hstep with ⟨_, _, -, -, rfl⟩ | ⟨_, -, -, rfl⟩ |
      ⟨i, _, tag, _, _, -, hi, -, rfl⟩ | ⟨i, outcome, tag, _, _, _, _, rfl, hi, -, rfl⟩ |
      ⟨i, outcome, tag, _, _, _, _, rfl, hi, -, rfl⟩
    · rcases List.mem_append.1 hc with hc | hc
      · exact hI c hc
      · rw [List.mem_singleton.1 hc]
    · rcases List.mem_append.1 hc with hc | hc
      · exact hI c hc
      · rw [List.mem_singleton.1 hc]
    · rcases List.mem_or_eq_of_mem_set hc with hc | rfl
      · exact hI c hc
      · have htag := hI _ (List.mem_of_getElem? hi)
        exact htag
    all_goals
      rcases List.mem_or_eq_of_mem_set hc with hc | rfl
      · exact hI c hc
      · have htag := hI _ (List.mem_of_getElem? hi)
        cases outcome with
        | ok =>
          change (tag.ioFailed || false) = false
          rw [Bool.or_false]
          exact htag
        | failed residue => exact absurd rfl (hno i residue)
  · rw [h₀.1]
    exact fun c hc => absurd hc List.not_mem_nil

/-- **The journal is an append-only, linearizable store.**  The changes of the calls that resolved
are in it from then on, but for cursors under the dropped key. -/
theorem journal_linearizable (h₀ : store.system.init w₀)
    (h : store.system.RunVia NoFailures w₀ w) :
    (AllSettled w.queue.items →
      store.serialAll (succeeded w.queue.items) (store.content w₀) = .ok (store.content w) ∧
      LastChangesStored store w.queue.items (store.content w) ∧
      ∀ before c after e, w.queue.items = before ++ c :: after → c.turn = .settled (.error e) →
        ∃ x, store.serialAll (succeeded before) (store.content w₀) = .ok x ∧
          store.serial c.tag.call x = .error e) ∧
    ChangesKept store w.queue.items (store.content w) ∧
    (∀ document, store.read (store.content w) = .ok document → WellFormed document) ∧
    (∀ w', store.system.RunVia NoFailures w w' → Grows store (store.content w) (store.content w')) ∧
    (¬ AllSettled w.queue.items →
      ∃ i, ∀ outcome, (store.step w (.advance i outcome)).isSome) := by
  have hserial := Serial.of_run h₀ (early_of_noFailures h)
  refine ⟨?_, hserial.changesKept, fun document hread => read_wellFormed hread, ?_, hserial.ready⟩
  · intro hsettled
    have hserved := hserial.served hsettled
    obtain ⟨hall, hrejected⟩ := hserved.serialAll (ioFailed_of_noFailures h₀ h)
    exact ⟨hall, hserved.lastChangesStored, hrejected⟩
  · intro w' h'
    exact hserial.run_grows (early_of_noFailures h')

/-- **Failures before the temporary file exists are contained.** -/
theorem failures_contained (h₀ : store.system.init w₀)
    (h : store.system.RunVia EarlyFailures w₀ w) :
    (AllSettled w.queue.items →
      store.Served (store.content w₀) w.queue.items (store.content w) ∧
      LastChangesStored store w.queue.items (store.content w)) ∧
    ChangesKept store w.queue.items (store.content w) ∧
    (¬ AllSettled w.queue.items →
      ∃ i, ∀ outcome, (store.step w (.advance i outcome)).isSome) ∧
    (∀ i outcome w', store.step w (.advance i outcome) = some w' → remaining w' < remaining w) := by
  have hserial := Serial.of_run h₀ h
  exact ⟨fun hsettled => ⟨hserial.served hsettled, (hserial.served hsettled).lastChangesStored⟩,
    hserial.changesKept, hserial.ready, fun _ _ _ => step_remaining⟩

/-! ### Played events -/

/-- The events one after the other. -/
def play (store : FileJournalStore) (w : JournalWorld) (events : List JournalEvent) :
    Option JournalWorld :=
  events.foldlM store.step w

theorem play_append {events events' : List JournalEvent}
    (h : store.play w (events ++ events') = some w') :
    ∃ middle, store.play w events = some middle ∧ store.play middle events' = some w' := by
  rw [play, List.foldlM_append] at h
  exact Option.bind_eq_some_iff.1 h

theorem play_cons {event : JournalEvent} {events : List JournalEvent}
    (h : store.play w (event :: events) = some w') :
    ∃ middle, store.step w event = some middle ∧ store.play middle events = some w' := by
  rw [play, List.foldlM_cons] at h
  exact Option.bind_eq_some_iff.1 h

theorem play_run {P : JournalWorld → JournalEvent → JournalWorld → Prop}
    {events : List JournalEvent} (hP : ∀ event ∈ events, ∀ w w', P w event w')
    (h : store.play w events = some w') : store.system.RunVia P w w' := by
  induction events generalizing w with
  | nil =>
    obtain rfl : w = w' := Option.some.inj h
    exact .refl
  | cons event events ih =>
    obtain ⟨middle, hstep, hrest⟩ := play_cons h
    have hrun := ih (fun event' hmem => hP event' (List.mem_cons_of_mem _ hmem)) hrest
    exact .trans (.tail .refl hstep (hP event List.mem_cons_self _ _)) hrun

namespace Demo

/-- `n` steps of the call at place `i`, all successful. -/
def steps (i n : Nat) : List JournalEvent := List.replicate n (.advance i .ok)

def daily : JournalCall := .putCheckpoint "daily" "1"

def weekly : JournalCall := .putCheckpoint "weekly" "2"

/-- Two cursors are saved concurrently with an invalid one. -/
def concurrent : List JournalEvent :=
  [.issue daily, .issue (.putCheckpoint "" "0"), .issue weekly] ++ steps 0 11 ++ steps 2 11

/-- The write of the first call fails; the second call comes later. -/
def failedWrite : List JournalEvent :=
  [.issue daily] ++ steps 0 4 ++ [.advance 0 (.failed (.other "\x7b"))] ++ steps 0 1 ++
    [.issue weekly] ++ steps 1 4

/-- The directory is not synced after the rename. -/
def failedSync : List JournalEvent :=
  [.issue daily] ++ steps 0 9 ++ [.advance 0 (.failed (.other ""))] ++ steps 0 1

/-- A cursor is saved under the dropped key. -/
def dropped : List JournalEvent := [.issue (.putCheckpoint droppedKey "1")] ++ steps 0 11

/-- The directory of the first call is not made; the second call comes later. -/
def failedDirectory : List JournalEvent :=
  ([.issue daily] ++ steps 0 2) ++ (.advance 0 (.failed (.other "")) ::
    ([.issue weekly] ++ steps 1 11))

/-- A fresh store whose file does not exist yet. -/
def start : JournalWorld := ⟨fun _ => none, .empty⟩

/-- The store of the process with number 7. -/
def journal : FileJournalStore := ⟨"journal.json", 7, fun _ => true⟩

theorem start_init : journal.system.init start := ⟨rfl, rfl⟩

/-- The calls and the stored text after some events. -/
def outcome (events : List JournalEvent) : Option (List StoreCall × Option Content) :=
  (journal.play start events).map fun w => (w.queue.items, journal.content w)

theorem exists_of_outcome (events : List JournalEvent) (items : List StoreCall)
    {x : Option Content} (h : outcome events = some (items, x)) :
    ∃ w, journal.play start events = some w ∧ w.queue.items = items ∧ journal.content w = x := by
  obtain ⟨w, hw, hpair⟩ := Option.map_eq_some_iff.1 h
  injection hpair with hitems hcontent
  exact ⟨w, hw, hitems, hcontent⟩

end Demo

open FileJournalStore.Demo

/-- Two cursors that are saved concurrently are both stored. -/
theorem journal_linearizable_two : ∃ w, journal.play start concurrent = some w ∧
    journal.serialAll [daily, weekly] none = .ok (journal.content w) ∧
    ∃ document, journal.read (journal.content w) = .ok document ∧
      daily.StoredIn document ∧ weekly.StoredIn document := by
  obtain ⟨w, hw, hitems, -⟩ := exists_of_outcome concurrent
    [⟨⟨daily, false⟩, .settled (.ok ())⟩,
      ⟨⟨.putCheckpoint "" "0", false⟩, .settled (.error .emptyCheckpointKey)⟩,
      ⟨⟨weekly, false⟩, .settled (.ok ())⟩]
    (x := some (.journal ⟨"leopold.keeper-journal.v3", [], [("daily", "1"), ("weekly", "2")]⟩))
    (by decide +kernel)
  have hno : ∀ event ∈ concurrent, ∀ w w', NoFailures w event w' := by
    intro event hevent w w' i residue heq
    have hok : ∀ event ∈ concurrent, event ≠ .advance i (.failed residue) := by
      simp [concurrent, steps]
    exact hok event hevent heq
  have hsettled : AllSettled w.queue.items := by
    rw [hitems]
    simp [AllSettled]
  obtain ⟨h, hlast, -⟩ := (journal_linearizable start_init (play_run hno hw)).1 hsettled
  rw [hitems] at h hlast
  obtain ⟨document, hread, hdaily⟩ := hlast [] _ _ rfl rfl (by decide)
  obtain ⟨document', hread', hweekly⟩ := hlast [_, _] _ [] rfl rfl (by decide)
  obtain rfl : document = document' := Except.ok.inj (hread.symm.trans hread')
  exact ⟨w, hw, h, document, hread, hdaily, hweekly⟩

/-- A cursor that was saved under the dropped key is lost, although the call resolved. -/
theorem dropped_checkpoint_lost : ∃ w, journal.play start dropped = some w ∧
    w.queue.items =
      [⟨⟨.putCheckpoint "__proto__" "1", false⟩, .settled (.ok ())⟩] ∧
    journal.content w = some (.journal emptyJournal) ∧
    ¬ ∃ document, journal.read (journal.content w) = .ok document ∧
      document.storedCheckpoint "__proto__" = some "1" := by
  obtain ⟨w, hw, hitems, hcontent⟩ := exists_of_outcome dropped
    [⟨⟨.putCheckpoint "__proto__" "1", false⟩, .settled (.ok ())⟩]
    (x := some (.journal emptyJournal)) (by decide +kernel)
  refine ⟨w, hw, hitems, hcontent, ?_⟩
  rintro ⟨document, hread, hstored⟩
  rw [hcontent] at hread
  obtain rfl : emptyJournal = document := Except.ok.inj hread
  cases hstored

/-- A cursor is stored although the directory for the one before it could not be made. -/
theorem failures_contained_directory : ∃ w, journal.play start failedDirectory = some w ∧
    journal.Served none [⟨⟨daily, true⟩, .settled (.error .io)⟩,
      ⟨⟨weekly, false⟩, .settled (.ok ())⟩] (journal.content w) ∧
    ∃ document, journal.read (journal.content w) = .ok document ∧ weekly.StoredIn document := by
  obtain ⟨w, hw, hitems, -⟩ := exists_of_outcome failedDirectory
    [⟨⟨daily, true⟩, .settled (.error .io)⟩, ⟨⟨weekly, false⟩, .settled (.ok ())⟩]
    (x := some (.journal ⟨"leopold.keeper-journal.v3", [], [("weekly", "2")]⟩))
    (by decide +kernel)
  obtain ⟨m, hm, hmitems, -⟩ := exists_of_outcome ([.issue daily] ++ steps 0 2)
    [⟨⟨daily, false⟩, .running 1 (.preparing
      ⟨"leopold.keeper-journal.v3", [], [("daily", "1")]⟩)⟩]
    (x := none) (by decide +kernel)
  have hok : ∀ events : List JournalEvent,
      (∀ event ∈ events, ∀ i residue, event ≠ JournalEvent.advance i (.failed residue)) →
      ∀ event ∈ events, ∀ w w', EarlyFailures w event w' :=
    fun events h event hmem w w' => NoFailures.early (h event hmem)
  have hrun : journal.system.RunVia EarlyFailures start w := by
    obtain ⟨m', hm', hrest⟩ := play_append hw
    obtain rfl : m = m' := Option.some.inj (hm.symm.trans hm')
    obtain ⟨m'', hstep, hrest⟩ := play_cons hrest
    have hearly : EarlyFailures m (.advance 0 (.failed (.other ""))) m'' := by
      rintro i residue heq tag own progress hi
      injection heq with hi'
      subst hi'
      rw [hmitems] at hi
      obtain ⟨-, -, rfl⟩ : _ ∧ _ ∧ progress = _ := by
        injection hi with hi
        injection hi with htag hturn
        injection hturn with hown hprogress
        exact ⟨htag, hown, hprogress.symm⟩
      rfl
    refine .trans (.tail (play_run (hok _ ?_) hm) hstep hearly) (play_run (hok _ ?_) hrest)
    · simp [steps]
    · simp [steps]
  have hsettled : AllSettled w.queue.items := by
    rw [hitems]
    simp [AllSettled]
  obtain ⟨h, hlast⟩ := (failures_contained start_init hrun).1 hsettled
  rw [hitems] at h hlast
  exact ⟨w, hw, h, hlast [_] _ [] rfl rfl (by decide)⟩

/-- After a failed write the next call runs into the temporary file, and a call that fails after
the rename has stored its change. -/
theorem late_failures_not_contained :
    (∃ w, journal.play start failedWrite = some w ∧
      w.queue.items = [⟨⟨daily, true⟩, .settled (.error .io)⟩,
        ⟨⟨weekly, false⟩, .settled (.error .temporaryFileExists)⟩] ∧
      ¬ journal.Served (journal.content start) w.queue.items (journal.content w)) ∧
    ∃ w, journal.play start failedSync = some w ∧
      w.queue.items = [⟨⟨daily, true⟩, .settled (.error .io)⟩] ∧
      ¬ journal.Served (journal.content start) w.queue.items (journal.content w) := by
  constructor
  · obtain ⟨w, hw, hitems, -⟩ := exists_of_outcome failedWrite
      [⟨⟨daily, true⟩, .settled (.error .io)⟩,
        ⟨⟨weekly, false⟩, .settled (.error .temporaryFileExists)⟩]
      (x := none) (by decide +kernel)
    refine ⟨w, hw, hitems, ?_⟩
    rw [hitems]
    intro h
    cases h with
    | resolved hc => cases hc
    | rejected _ _ hs =>
      cases hs with
      | resolved hc => cases hc
      | rejected hc hbad _ =>
        have hvalid : (journal.serial weekly none).isOk = true := by decide +kernel
        rcases hbad with hbad | hfailed
        · have hnone : journal.content start = none := rfl
          rw [hnone] at hbad
          rw [hbad] at hvalid
          cases hvalid
        · cases hfailed
  · obtain ⟨w, hw, hitems, hcontent⟩ := exists_of_outcome failedSync
      [⟨⟨daily, true⟩, .settled (.error .io)⟩]
      (x := some (.journal ⟨"leopold.keeper-journal.v3", [], [("daily", "1")]⟩))
      (by decide +kernel)
    refine ⟨w, hw, hitems, ?_⟩
    rw [hitems, hcontent]
    intro h
    cases h with
    | resolved hc => cases hc
    | rejected _ _ hs => cases hs

end FileJournalStore

end Leopold.Keeper
