import Leopold.Keeper.Gateway
import Leopold.Keeper.JournalRuns
import Leopold.Lib.Circular

/-!
# The persistent scan

One scan of the gateway over a journal: it asks for its cursor, takes the page from there on, and
stores the next cursor before the page is returned.  Other calls on the journal go on in between,
the process may be stopped at any point, and the count may change from page to page.
-/

namespace Leopold.Keeper

open Lib

/-- The call sets the cursor of a scan. -/
def JournalCall.sets (key : String) : JournalCall → Bool
  | .put _ => false
  | .putCheckpoint key' _ => key' == key

/-- The text of the journal, and the page whose cursor is being stored with its count. -/
structure ScanWorld where
  content : Option Content
  reading : Option (Nat × ScanPage)
  deriving DecidableEq

inductive ScanEvent
  /-- The cursor was read, and the page was computed from it. -/
  | ask (count : Nat)
  /-- The next cursor was stored, and the page is returned. -/
  | page (count : Nat) (page : ScanPage)
  /-- The page in flight, if there is one, is not returned: the process is stopped, or the call on
  the journal rejects.  The cursor may have been stored all the same. -/
  | interrupted (stored : Bool)
  /-- Another call on the journal takes effect. -/
  | other (call : JournalCall)
  deriving DecidableEq

namespace FileJournalStore

variable (store : FileJournalStore) (key : String) (maximumPageSize : Nat)

/-- The next cursor of a page is stored. -/
def saveCursor (w : ScanWorld) (page : ScanPage) : Option ScanWorld :=
  match store.serial (.putCheckpoint key (toString page.nextCursor)) w.content with
  | .ok content => some ⟨content, none⟩
  | .error _ => none

/-- `persistentCircularScanPage`, one await after the other. -/
def scanStep (w : ScanWorld) : ScanEvent → Option ScanWorld
  | .ask count =>
    match w.reading, store.read w.content with
    | none, .ok document =>
      (persistentCircularScanPage count (document.getCheckpoint key) maximumPageSize).map
        fun page => { w with reading := some (count, page) }
    | _, _ => none
  | .page count page =>
    if w.reading = some (count, page) then store.saveCursor key w page else none
  | .interrupted false => some { w with reading := none }
  | .interrupted true => w.reading.bind fun reading => store.saveCursor key w reading.2
  | .other call =>
    if call.sets key then none
    else
      match store.serial call w.content with
      | .ok content => some { w with content }
      | .error _ => none

/-- The runs of a scan, from any text of the journal. -/
def scan : TransitionSystem ScanWorld ScanEvent where
  init w := w.reading = none
  step w event w' := store.scanStep key maximumPageSize w event = some w'

/-- The pages that were returned, with their counts. -/
def pages (steps : List (TransitionSystem.Taken ScanWorld ScanEvent)) : List (Nat × ScanPage) :=
  steps.filterMap fun step =>
    match step.label with
    | .page count page => some (count, page)
    | _ => none

variable {store key maximumPageSize} {w w' : ScanWorld} {event : ScanEvent} {count position : Nat}
  {page : ScanPage} {steps : List (TransitionSystem.Taken ScanWorld ScanEvent)}

/-! ### Pages -/

theorem circularScanPage_indexes : (circularScanPage count position maximumPageSize).indexes =
    arc count position (min count maximumPageSize) := by
  rw [circularScanPage]
  split
  · next hcount => rw [hcount, Nat.zero_min]; rfl
  · exact arc_mod

theorem circularScanPage_nextCursor (hcount : count ≠ 0) :
    (circularScanPage count position maximumPageSize).nextCursor =
      (position + min count maximumPageSize) % count := by
  rw [circularScanPage, if_neg hcount]
  exact Nat.mod_add_mod _ _ _

/-- A page of as many different indexes as there are, at most as many as it holds. -/
structure FullPage (maximumPageSize count : Nat) (page : ScanPage) : Prop where
  length : page.indexes.length = min count maximumPageSize
  nodup : page.indexes.Nodup
  lt : ∀ index ∈ page.indexes, index < count

theorem fullPage : FullPage maximumPageSize count (circularScanPage count position maximumPageSize) := by
  refine ⟨?_, ?_, fun index hindex => ?_⟩
  · rw [circularScanPage_indexes, length_arc]
  · rw [circularScanPage_indexes]
    exact nodup_arc (Nat.min_le_left _ _)
  · rw [circularScanPage_indexes] at hindex
    rcases Nat.eq_zero_or_pos count with rfl | hpos
    · rw [Nat.zero_min] at hindex
      exact absurd hindex List.not_mem_nil
    · exact lt_of_mem_arc hpos hindex

/-! ### The stored cursor -/

variable (store key) in
/-- The cursor a scan would go on from: zero before the first page. -/
def storedCursor (content : Option Content) : Option Nat :=
  match store.read content with
  | .ok document => (document.getCheckpoint key).elim (some 0) bigInt
  | .error _ => none

theorem persistentCircularScanPage_eq {encodedCursor : Option String} :
    persistentCircularScanPage count encodedCursor maximumPageSize =
      (encodedCursor.elim (some 0) bigInt).map fun position =>
        circularScanPage count position maximumPageSize := by
  cases encodedCursor <;> rfl

theorem cursor_eq {document : JournalDocument} {content : Option Content}
    (h : store.read content = .ok document) :
    storedCursor store key content = (document.getCheckpoint key).elim (some 0) bigInt := by
  rw [storedCursor, h]

/-- Under the dropped key no cursor is read: what is inherited there is none. -/
theorem storedCursor_dropped {content : Option Content} :
    storedCursor store droppedKey content = none := by
  rw [storedCursor]
  split
  · next document hread =>
    have hnone : document.storedCheckpoint droppedKey = none := by
      rcases content with - | ⟨raw⟩ | text
      · obtain rfl := Except.ok.inj hread
        rfl
      · have hparse : parseJournal store.isDatetime raw = .ok document := hread
        rw [storedCheckpoint_parsed hparse, if_pos rfl]
      · cases hread
    rw [JournalDocument.getCheckpoint, hnone]
    decide +kernel
  · rfl

/-- A stored cursor is the cursor of the next page. -/
theorem cursor_saved (h : store.saveCursor key w page = some w') :
    (key ≠ droppedKey → storedCursor store key w'.content = some page.nextCursor) ∧
      w'.reading = none := by
  rw [saveCursor] at h
  split at h
  · next content hserial =>
    obtain rfl := Option.some.inj h
    obtain ⟨document, next, -, happly, hnext⟩ := serial_eq_ok hserial
    refine ⟨fun hkey => ?_, rfl⟩
    rw [cursor_eq hnext, JournalDocument.getCheckpoint,
      JournalDocument.putCheckpoint_checkpoint happly hkey, if_pos rfl, Option.some_or]
    exact bigInt_toString _
  · cases h

/-- Other calls leave the cursor alone. -/
theorem cursor_other {call : JournalCall} {content : Option Content}
    (hkey : call.sets key = false) (h : store.serial call w.content = .ok content) :
    storedCursor store key content = storedCursor store key w.content := by
  by_cases hdropped : key = droppedKey
  · rw [hdropped, storedCursor_dropped, storedCursor_dropped]
  obtain ⟨document, next, hread, happly, hnext⟩ := serial_eq_ok h
  have hsame : next.storedCheckpoint key = document.storedCheckpoint key := by
    cases call with
    | put entry => exact JournalDocument.put_checkpoint happly hdropped
    | putCheckpoint key' value =>
      have hne : key ≠ key' := by
        rintro rfl
        simp [JournalCall.sets] at hkey
      rw [JournalDocument.putCheckpoint_checkpoint happly hdropped, if_neg hne]
  rw [cursor_eq hnext, cursor_eq hread, JournalDocument.getCheckpoint, hsame,
    JournalDocument.getCheckpoint]

/-! ### Steps -/

/-- What a step does to the cursor and to the page in flight. -/
inductive ScanStep (store : FileJournalStore) (key : String) (maximumPageSize : Nat)
    (w : ScanWorld) : ScanEvent → ScanWorld → Prop
  | ask {count position : Nat} (hcursor : storedCursor store key w.content = some position) :
      ScanStep store key maximumPageSize w (.ask count)
        { w with reading := some (count, circularScanPage count position maximumPageSize) }
  | saved {event : ScanEvent} {count : Nat} {page : ScanPage} {w' : ScanWorld}
      (hreading : w.reading = some (count, page))
      (hevent : event = .page count page ∨ event = .interrupted true)
      (hcursor : key ≠ droppedKey → storedCursor store key w'.content = some page.nextCursor)
      (hnone : w'.reading = none) :
      ScanStep store key maximumPageSize w event w'
  | dropped : ScanStep store key maximumPageSize w (.interrupted false) { w with reading := none }
  | other {call : JournalCall} {content : Option Content}
      (hcursor : storedCursor store key content = storedCursor store key w.content) :
      ScanStep store key maximumPageSize w (.other call) { w with content }

theorem scanStep_cases (h : store.scanStep key maximumPageSize w event = some w') :
    ScanStep store key maximumPageSize w event w' := by
  cases event with
  | ask count =>
    rw [scanStep] at h
    split at h
    · next document _ hread =>
      obtain ⟨page, hpage, rfl⟩ := Option.map_eq_some_iff.1 h
      rw [persistentCircularScanPage_eq, ← cursor_eq hread] at hpage
      obtain ⟨position, hposition, rfl⟩ := Option.map_eq_some_iff.1 hpage
      exact .ask hposition
    · cases h
  | page count page =>
    rw [scanStep] at h
    split at h
    · next hreading =>
      obtain ⟨hcursor, hnone⟩ := cursor_saved h
      exact .saved hreading (.inl rfl) hcursor hnone
    · cases h
  | interrupted stored =>
    cases stored with
    | false =>
      obtain rfl := Option.some.inj h
      exact .dropped
    | true =>
      obtain ⟨⟨count, page⟩, hreading, hsave⟩ := Option.bind_eq_some_iff.1 h
      obtain ⟨hcursor, hnone⟩ := cursor_saved hsave
      exact .saved hreading (.inr rfl) hcursor hnone
  | other call =>
    rw [scanStep] at h
    split at h
    · cases h
    · next hkey =>
      split at h
      · next content hserial =>
        obtain rfl := Option.some.inj h
        exact .other (cursor_other (by simpa using hkey) hserial)
      · cases h

/-- A page in flight is the one from the stored cursor on. -/
def Reads (store : FileJournalStore) (key : String) (maximumPageSize : Nat) (w : ScanWorld) : Prop :=
  ∀ count page, w.reading = some (count, page) → ∃ position,
    storedCursor store key w.content = some position ∧
      page = circularScanPage count position maximumPageSize

theorem reads_step (hw : Reads store key maximumPageSize w)
    (h : ScanStep store key maximumPageSize w event w') : Reads store key maximumPageSize w' := by
  intro count page hreading
  cases h with
  | ask hcursor =>
    obtain ⟨rfl, rfl⟩ := Prod.mk.inj (Option.some.inj hreading)
    exact ⟨_, hcursor, rfl⟩
  | saved _ _ _ hnone =>
    rw [hnone] at hreading
    cases hreading
  | dropped => cases hreading
  | other hcursor =>
    obtain ⟨position, hposition, hpage⟩ := hw count page hreading
    exact ⟨position, hcursor.trans hposition, hpage⟩

theorem Reachable.reads (hw : (store.scan key maximumPageSize).Reachable w) :
    Reads store key maximumPageSize w := by
  refine hw.invariant ?_ ?_
  · intro w hinit count page hreading
    rw [hinit] at hreading
    cases hreading
  · exact fun w event w' _ hreads h => reads_step hreads (scanStep_cases h)

/-! ### Runs -/

theorem pages_snoc {step : TransitionSystem.Taken ScanWorld ScanEvent} :
    pages (steps ++ [step]) = pages steps ++ pages [step] := List.filterMap_append

theorem pages_page : pages [⟨w, .page count page, w'⟩] = [(count, page)] := rfl

/-- How far the scan has gone round: the pages that were returned follow each other, from the
cursor that was stored at the start. -/
structure Swept (store : FileJournalStore) (key : String) (maximumPageSize count : Nat)
    (w : ScanWorld) (steps : List (TransitionSystem.Taken ScanWorld ScanEvent)) (w' : ScanWorld) :
    Prop where
  indexes : ∀ position, storedCursor store key w.content = some position →
    (pages steps).flatMap (·.2.indexes) =
      arc count position ((pages steps).length * min count maximumPageSize)
  cursor : (storedCursor store key w'.content).map (· % count) =
    (storedCursor store key w.content).map fun position =>
      (position + (pages steps).length * min count maximumPageSize) % count
  stuck : storedCursor store key w.content = none → pages steps = []

theorem swept_nil : Swept store key maximumPageSize count w [] w where
  indexes _ _ := by simp [pages, arc]
  cursor := by simp [pages]
  stuck _ := rfl

/-- A step that returns no page and stores no cursor. -/
theorem Swept.quiet (h : Swept store key maximumPageSize count w steps w') {w'' : ScanWorld}
    (hcursor : storedCursor store key w''.content =
      storedCursor store key w'.content)
    (hpages : pages [⟨w', event, w''⟩] = []) :
    Swept store key maximumPageSize count w (steps ++ [⟨w', event, w''⟩]) w'' := by
  have hsame : pages (steps ++ [⟨w', event, w''⟩]) = pages steps := by
    rw [pages_snoc, hpages, List.append_nil]
  exact ⟨hsame ▸ h.indexes, by rw [hcursor, hsame, h.cursor], hsame ▸ h.stuck⟩

/-- A page goes on where the pages before it ended. -/
theorem Swept.returned (h : Swept store key maximumPageSize count w steps w') (hcount : 0 < count)
    (hreads : Reads store key maximumPageSize w') (hreading : w'.reading = some (count, page))
    {w'' : ScanWorld}
    (hcursor : key ≠ droppedKey → storedCursor store key w''.content = some page.nextCursor) :
    Swept store key maximumPageSize count w (steps ++ [⟨w', .page count page, w''⟩]) w'' := by
  obtain ⟨position, hposition, rfl⟩ := hreads _ _ hreading
  have hkey : key ≠ droppedKey := by
    rintro rfl
    rw [storedCursor_dropped] at hposition
    cases hposition
  have hwhere := h.cursor
  rw [hposition, Option.map_some] at hwhere
  obtain ⟨start, hstart, hat⟩ := Option.map_eq_some_iff.1 hwhere.symm
  have hpages : pages (steps ++ [⟨w', .page count (circularScanPage count position
      maximumPageSize), w''⟩]) =
      pages steps ++ [(count, circularScanPage count position maximumPageSize)] := by
    rw [pages_snoc, pages_page]
  refine ⟨fun start' hstart' => ?_, ?_, fun hnone => ?_⟩
  · obtain rfl : start = start' := Option.some.inj (hstart.symm.trans hstart')
    rw [hpages, List.flatMap_append, h.indexes start hstart, List.length_append,
      List.length_singleton, Nat.add_mul, Nat.one_mul, arc_add, List.flatMap_singleton,
      circularScanPage_indexes, arc_congr hat]
  · rw [hcursor hkey, hstart, hpages, List.length_append, List.length_singleton, Nat.add_mul,
      Nat.one_mul, circularScanPage_nextCursor hcount.ne', Option.map_some, Option.map_some,
      Nat.mod_mod, ← Nat.add_assoc, Nat.add_mod _ (min count maximumPageSize), ← hat,
      ← Nat.add_mod]
  · rw [hstart] at hnone
    cases hnone

/-- **Run rule of the scan.**  Pages of one count follow each other around the circle. -/
theorem swept_trace (hcount : 0 < count) (hw : (store.scan key maximumPageSize).Reachable w)
    (h : (store.scan key maximumPageSize).Trace w steps w')
    (hpages : ∀ page ∈ pages steps, page.1 = count)
    (hstored : ∀ step ∈ steps, step.label ≠ .interrupted true) :
    Swept store key maximumPageSize count w steps w' := by
  refine (h.invariant (I := fun steps w' => (∀ page ∈ pages steps, page.1 = count) →
    (∀ step ∈ steps, step.label ≠ .interrupted true) →
      Swept store key maximumPageSize count w steps w') hw (fun _ _ => swept_nil) ?_).2 hpages hstored
  intro steps u event u' hu ih hstep hpages hstored
  have ih := ih (fun page hpage => hpages page (pages_snoc ▸ List.mem_append_left _ hpage))
    fun step hstep => hstored step (List.mem_append_left _ hstep)
  cases scanStep_cases hstep with
  | ask => exact ih.quiet rfl rfl
  | dropped => exact ih.quiet rfl rfl
  | other hcursor => exact ih.quiet hcursor rfl
  | @saved _ count' page w'' hreading hevent hcursor hnone =>
    rcases hevent with rfl | rfl
    · have hsame := hpages (count', page) (pages_snoc ▸ List.mem_append_right _ List.mem_cons_self)
      obtain rfl : count' = count := hsame
      exact ih.returned hcount (Reachable.reads hu) hreading hcursor
    · exact absurd rfl (hstored _ (List.mem_append_right _ List.mem_cons_self))

/-- Every page is full. -/
theorem fullPages (hw : (store.scan key maximumPageSize).Reachable w)
    (h : (store.scan key maximumPageSize).Trace w steps w') :
    ∀ page ∈ pages steps, FullPage maximumPageSize page.1 page.2 := by
  refine (h.invariant (I := fun steps _ => ∀ page ∈ pages steps,
    FullPage maximumPageSize page.1 page.2) hw (fun page h => absurd h List.not_mem_nil) ?_).2
  intro steps u event u' hu ih hstep page hpage
  rw [pages_snoc] at hpage
  rcases List.mem_append.1 hpage with hpage | hpage
  · exact ih page hpage
  cases scanStep_cases hstep with
  | ask => cases hpage
  | dropped => cases hpage
  | other => cases hpage
  | saved hreading hevent =>
    rcases hevent with rfl | rfl
    · obtain rfl := List.mem_singleton.1 hpage
      obtain ⟨position, -, rfl⟩ := Reachable.reads hu _ _ hreading
      exact fullPage
    · cases hpage

/-- **The persistent scan misses nothing.**  Whatever cursor the journal holds, and whatever the
counts were before: every page that is returned holds as many different indexes as there are, up to
its size, all below the count; and once the count stays the same, `⌈count / size⌉` pages returned
one after the other show every index.  Other work, rejections and restarts may come between them,
as long as none of them loses a page whose cursor is already stored. -/
theorem scan_misses_nothing (hsize : 0 < maximumPageSize)
    (hw : (store.scan key maximumPageSize).Reachable w)
    (h : (store.scan key maximumPageSize).Trace w steps w') :
    (∀ page ∈ pages steps, FullPage maximumPageSize page.1 page.2) ∧
    ∀ count, (∀ page ∈ pages steps, page.1 = count) →
      (∀ step ∈ steps, step.label ≠ .interrupted true) →
      (count + maximumPageSize - 1) / maximumPageSize ≤ (pages steps).length →
      ∀ index < count, ∃ page ∈ pages steps, index ∈ page.2.indexes := by
  refine ⟨fullPages hw h, fun count hpages hstored henough index hindex => ?_⟩
  have hcount := Nat.zero_lt_of_lt hindex
  have hswept := swept_trace hcount hw h hpages hstored
  have hlength : count ≤ (pages steps).length * min count maximumPageSize := by
    rcases Nat.le_total count maximumPageSize with hle | hle
    · have hpos : 0 < (count + maximumPageSize - 1) / maximumPageSize :=
        Nat.div_pos (by omega) hsize
      rw [Nat.min_eq_left hle]
      exact Nat.le_mul_of_pos_left _ (hpos.trans_le henough)
    · rw [Nat.min_eq_right hle]
      have hceil := Nat.lt_mul_div_succ (count + maximumPageSize - 1) hsize
      have hmul := Nat.mul_le_mul_left maximumPageSize henough
      rw [Nat.mul_succ] at hceil
      rw [Nat.mul_comm]
      omega
  cases hstart : storedCursor store key w.content with
  | none =>
    rw [hswept.stuck hstart, List.length_nil, Nat.zero_mul] at hlength
    omega
  | some position =>
    have hall := hswept.indexes position hstart
    have hmem : index ∈ (pages steps).flatMap (·.2.indexes) := by
      rw [hall]
      exact mem_arc hlength hindex
    exact List.mem_flatMap.1 hmem

namespace ScanDemo

def journal : FileJournalStore := ⟨"journal.json", 1, fun _ => true⟩

/-- The cursor was stored while there were more rounds. -/
def before : ScanWorld :=
  ⟨some (.journal { emptyJournal with checkpoints := [("historical:0x1", "10")] }), none⟩

def between : ScanWorld :=
  ⟨some (.journal { emptyJournal with checkpoints := [("historical:0x1", "0")] }), none⟩

def after : ScanWorld :=
  ⟨some (.journal { emptyJournal with checkpoints := [("historical:0x1", "2")] }), none⟩

def shown : List (TransitionSystem.Taken ScanWorld ScanEvent) := [
  ⟨before, .ask 3, { before with reading := some (3, ⟨[1, 2], 0⟩) }⟩,
  ⟨{ before with reading := some (3, ⟨[1, 2], 0⟩) }, .page 3 ⟨[1, 2], 0⟩, between⟩,
  ⟨between, .interrupted false, between⟩,
  ⟨between, .ask 3, { between with reading := some (3, ⟨[0, 1], 2⟩) }⟩,
  ⟨{ between with reading := some (3, ⟨[0, 1], 2⟩) }, .page 3 ⟨[0, 1], 2⟩, after⟩]

theorem trace : (journal.scan "historical:0x1" 2).Trace before shown after := by
  refine .snoc (.snoc (.snoc (.snoc (.snoc .nil ?_) ?_) ?_) ?_) ?_
  · change journal.scanStep "historical:0x1" 2 _ _ = some _
    decide +kernel
  · change journal.scanStep "historical:0x1" 2 _ _ = some _
    decide +kernel
  · rfl
  · change journal.scanStep "historical:0x1" 2 _ _ = some _
    decide +kernel
  · change journal.scanStep "historical:0x1" 2 _ _ = some _
    decide +kernel

theorem starts : (journal.scan "historical:0x1" 2).Reachable before :=
  .of_init (S := journal.scan "historical:0x1" 2) rfl

def fresh : ScanWorld := ⟨none, none⟩

def first : ScanWorld :=
  ⟨some (.journal { emptyJournal with checkpoints := [("historical:0x1", "1")] }), none⟩

def second : ScanWorld :=
  ⟨some (.journal { emptyJournal with checkpoints := [("historical:0x1", "0")] }), none⟩

/-- Pages of one index of two; the process is stopped when the second page is stored and not yet
returned. -/
def lost : List (TransitionSystem.Taken ScanWorld ScanEvent) := [
  ⟨fresh, .ask 2, { fresh with reading := some (2, ⟨[0], 1⟩) }⟩,
  ⟨{ fresh with reading := some (2, ⟨[0], 1⟩) }, .page 2 ⟨[0], 1⟩, first⟩,
  ⟨first, .ask 2, { first with reading := some (2, ⟨[1], 0⟩) }⟩,
  ⟨{ first with reading := some (2, ⟨[1], 0⟩) }, .interrupted true, second⟩,
  ⟨second, .ask 2, { second with reading := some (2, ⟨[0], 1⟩) }⟩,
  ⟨{ second with reading := some (2, ⟨[0], 1⟩) }, .page 2 ⟨[0], 1⟩, first⟩]

theorem lost_trace : (journal.scan "historical:0x1" 1).Trace fresh lost first := by
  refine .snoc (.snoc (.snoc (.snoc (.snoc (.snoc .nil ?_) ?_) ?_) ?_) ?_) ?_
  all_goals
    change journal.scanStep "historical:0x1" 1 _ _ = some _
    decide +kernel

end ScanDemo

open ScanDemo in
/-- A restart that loses a page whose cursor is stored makes the scan miss an index: two pages of
one index are returned, and both show index 0 of two. -/
theorem stored_page_lost :
    (journal.scan "historical:0x1" 1).Reachable fresh ∧
    (journal.scan "historical:0x1" 1).Trace fresh lost first ∧
    (∀ page ∈ pages lost, page.1 = 2) ∧ (2 + 1 - 1) / 1 ≤ (pages lost).length ∧
    ¬ ∃ page ∈ pages lost, 1 ∈ page.2.indexes :=
  ⟨.of_init (S := journal.scan "historical:0x1" 1) rfl, lost_trace, by decide, by decide,
    by decide⟩

/-- Two pages of two indexes show three rounds, from a cursor of ten on. -/
theorem scan_misses_nothing_three :
    (∃ page ∈ pages ScanDemo.shown, 0 ∈ page.2.indexes) ∧
    (∃ page ∈ pages ScanDemo.shown, 1 ∈ page.2.indexes) ∧
    ∃ page ∈ pages ScanDemo.shown, 2 ∈ page.2.indexes := by
  have hall := (scan_misses_nothing (by decide) ScanDemo.starts ScanDemo.trace).2 3 (by decide)
    (by decide) (by decide)
  exact ⟨hall 0 (by decide), hall 1 (by decide), hall 2 (by decide)⟩

end FileJournalStore

end Leopold.Keeper
