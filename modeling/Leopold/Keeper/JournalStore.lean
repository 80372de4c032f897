import Leopold.Keeper.Journal
import Leopold.Lib.PromiseQueue
import Leopold.Lib.Transition

/-!
# The file journal store

One process issues `put` and `putCheckpoint` calls on one store.  The calls take turns through a
chain of promises; a call whose turn it is reads the document, updates it in memory and publishes
it through a temporary file, in file-system steps each of which may fail.
-/

namespace Leopold.Keeper

open Lib

/-- What a file holds: the text of a journal document, or any other text. -/
inductive Content
  | journal (document : JournalDocument)
  | other (text : String)
  deriving DecidableEq

/-- The contents of files by path. -/
abbrev FileSystem := String → Option Content

inductive JournalCall
  | put (entry : JournalEntry)
  | putCheckpoint (key value : String)
  deriving DecidableEq

/-- A store: its file, the process it runs in, and the date texts the schema library accepts. -/
structure FileJournalStore where
  journalPath : String
  pid : Nat
  isDatetime : String → Bool

/-- How a file-system step went; a write that failed leaves some text behind. -/
inductive IoOutcome
  | ok
  | failed (residue : Content)
  deriving DecidableEq

def IoOutcome.isFailed : IoOutcome → Bool
  | .ok => false
  | .failed _ => true

/-- The file-system step a running call takes next. -/
inductive Progress
  | reading
  | preparing (next : JournalDocument)
  | creating (next : JournalDocument)
  | writing (next : JournalDocument)
  | syncing
  | closing (failure : Option JournalError)
  | publishing
  | openingDirectory
  | syncingDirectory
  | closingDirectory (failure : Option JournalError)
  deriving DecidableEq

/-- A call that was issued; `ioFailed` notes that one of its file-system steps failed. -/
structure IssuedCall where
  call : JournalCall
  ioFailed : Bool
  deriving DecidableEq

/-- The calls of the store. -/
abbrev CallQueue := PromiseQueue IssuedCall Progress (Except JournalError Unit)

/-- A call of the store and where it stands. -/
abbrev StoreCall := Item IssuedCall Progress (Except JournalError Unit)

structure JournalWorld where
  files : FileSystem
  queue : CallQueue

/-- What happens next: a call is issued, or the call at place `i` takes its next step. -/
inductive JournalEvent
  | issue (call : JournalCall)
  | advance (i : Nat) (outcome : IoOutcome)

namespace JournalCall

/-- The check made before the call joins the queue. -/
def check : JournalCall → Except JournalError Unit
  | .put _ => .ok ()
  | .putCheckpoint key _ => revertIf (key.length = 0) .emptyCheckpointKey

def apply (isDatetime : String → Bool) (current : JournalDocument) :
    JournalCall → Except JournalError JournalDocument
  | .put entry => current.put isDatetime entry
  | .putCheckpoint key value => current.putCheckpoint isDatetime key value

end JournalCall

namespace FileJournalStore

variable (store : FileJournalStore)

def temporaryPath : String := store.journalPath ++ (".tmp-" ++ toString store.pid)

/-- A missing file is an empty journal. -/
def read : Option Content → Except JournalError JournalDocument
  | none => .ok emptyJournal
  | some (.journal document) => parseJournal store.isDatetime document
  | some (.other _) => .error .invalidDocument

/-- One step of a running call. -/
def advance (files : FileSystem) (call : JournalCall) :
    Progress → IoOutcome → FileSystem × (Progress ⊕ Except JournalError Unit)
  | .reading, .ok =>
    match store.read (files store.journalPath) >>= fun current =>
      call.apply store.isDatetime current with
    | .error e => (files, .inr (.error e))
    | .ok next => (files, .inl (.preparing next))
  | .preparing next, .ok => (files, .inl (.creating next))
  | .creating next, .ok =>
    -- The file is opened with `wx`: it must not exist yet.
    if (files store.temporaryPath).isSome then
      (files, .inr (.error .temporaryFileExists))
    else
      (Function.update files store.temporaryPath (some (.other "")), .inl (.writing next))
  | .writing next, .ok =>
    (Function.update files store.temporaryPath (some (.journal next)), .inl .syncing)
  | .writing _, .failed residue =>
    (Function.update files store.temporaryPath (some residue), .inl (.closing (some .io)))
  | .syncing, .ok => (files, .inl (.closing none))
  | .syncing, .failed _ => (files, .inl (.closing (some .io)))
  | .closing none, .ok => (files, .inl .publishing)
  | .closing (some e), .ok => (files, .inr (.error e))
  | .publishing, .ok =>
    (Function.update
      (Function.update files store.journalPath (files store.temporaryPath))
      store.temporaryPath none, .inl .openingDirectory)
  | .openingDirectory, .ok => (files, .inl .syncingDirectory)
  | .syncingDirectory, .ok => (files, .inl (.closingDirectory none))
  | .syncingDirectory, .failed _ => (files, .inl (.closingDirectory (some .io)))
  | .closingDirectory none, .ok => (files, .inr (.ok ()))
  | .closingDirectory (some e), .ok => (files, .inr (.error e))
  | _, .failed _ => (files, .inr (.error .io))

def step (w : JournalWorld) : JournalEvent → Option JournalWorld
  | .issue call =>
    match call.check with
    | .error e => some { w with queue := w.queue.answer ⟨call, false⟩ (.error e) }
    | .ok () => some { w with queue := w.queue.enqueue ⟨call, false⟩ }
  | .advance i outcome =>
    match w.queue.items[i]? with
    | some ⟨tag, .waiting previous own⟩ =>
      if w.queue.resolved previous then
        some { w with queue := w.queue.update i ⟨tag, .running own .reading⟩ }
      else none
    | some ⟨tag, .running own progress⟩ =>
      let tag' := { tag with ioFailed := tag.ioFailed || outcome.isFailed }
      match store.advance w.files tag.call progress outcome with
      | (files, .inl progress') =>
        some { files, queue := w.queue.update i ⟨tag', .running own progress'⟩ }
      | (files, .inr result) =>
        some { files, queue := w.queue.release i own ⟨tag', .settled result⟩ }
    | _ => none

/-- The runs of the store.  No temporary file of this process is there at the start. -/
def system : TransitionSystem JournalWorld JournalEvent where
  init w := w.queue = PromiseQueue.empty ∧ w.files store.temporaryPath = none
  step w event w' := store.step w event = some w'

/-- The stored text. -/
def content (w : JournalWorld) : Option Content := w.files store.journalPath

/-- The call as if it ran alone on the stored text. -/
def serial (call : JournalCall) (x : Option Content) : Except JournalError (Option Content) := do
  call.check
  let current ← store.read x
  let next ← call.apply store.isDatetime current
  return some (.journal next)

end FileJournalStore

end Leopold.Keeper
