import Leopold.Keeper.Lifecycle
import Leopold.Lib.Checked
import Mathlib.Data.List.Infix
import Mathlib.Data.List.Nodup

/-!
# The keeper's journal document

Entries with their schema, the document with its schema, and the two updates: `put` replaces the
entry of an attempt by a longer one or appends a new attempt, `putCheckpoint` sets a cursor.  Both
validate the whole document they are about to write.  Date texts are validated by the schema
library, which is a parameter.
-/

namespace Leopold.Keeper

open Lib

inductive JournalStatus
  | prepared
  | submitted
  | confirmed
  | reconciled
  | obsolete
  | reorged
  | reverted
  | unknown
  deriving DecidableEq, Repr

structure JournalTransition where
  status : JournalStatus
  «at» : String
  blockNumber : Option Int
  blockHash : Option String
  confirmations : Option Int
  errorCode : Option String
  deriving DecidableEq, Repr

structure JournalEntry where
  attemptId : String
  replayOfAttemptId : Option String
  actionKey : String
  vault : String
  vaultName : String
  roundId : String
  action : LifecycleActionKind
  cursor : Option String
  account : Option String
  txHash : String
  calldataHash : String
  nonce : Int
  submittedAt : String
  updatedAt : String
  status : JournalStatus
  blockNumber : Option Int
  blockHash : Option String
  confirmations : Option Int
  errorCode : Option String
  history : List JournalTransition
  deriving DecidableEq, Repr

structure JournalDocument where
  schema : String
  entries : List JournalEntry
  checkpoints : List (String × String)
  deriving DecidableEq, Repr

def emptyJournal : JournalDocument :=
  { schema := "leopold.keeper-journal.v3", entries := [], checkpoints := [] }

/-- The failures of a store operation. -/
inductive JournalError
  | invalidEntry
  | invalidDocument
  | emptyCheckpointKey
  | immutableFieldChanged (key : String)
  | historyTruncated
  | historyNotAppendOnly
  | temporaryFileExists
  | io
  deriving DecidableEq, Repr

/-! ### Schemas -/

def isHexDigit (c : Char) : Bool :=
  c.isDigit || ('a' ≤ c && c ≤ 'f') || ('A' ≤ c && c ≤ 'F')

/-- `0x` and exactly `n` hexadecimal digits. -/
def isHex (n : Nat) (s : String) : Bool :=
  match s.toList with
  | '0' :: 'x' :: digits => digits.length == n && digits.all isHexDigit
  | _ => false

def isDigits (s : String) : Bool :=
  !s.isEmpty && s.toList.all Char.isDigit

/-- `BigInt` of a text of decimal digits. -/
def bigInt (s : String) : Option Nat :=
  if isDigits s then some (Nat.ofDigitChars 10 s.toList 0) else none

theorem bigInt_toString (n : Nat) : bigInt (toString n) = some n := by
  have hdigits : isDigits (toString n) = true := by
    have hne : (Nat.toDigits 10 n).isEmpty = false :=
      List.isEmpty_eq_false_iff.2 Nat.toDigits_ne_nil
    have hall : (Nat.toDigits 10 n).all Char.isDigit = true :=
      List.all_eq_true.2 fun c hc => Nat.isDigit_of_mem_toDigits (by decide) (by decide) hc
    simp_all [isDigits, Nat.toString_eq_repr, Nat.repr]
  rw [bigInt, if_pos hdigits]
  simp [Nat.toString_eq_repr, Nat.repr]

/-- A safe integer that is not negative. -/
def isNonnegativeInt (n : Int) : Bool :=
  0 ≤ n && n ≤ 2 ^ 53 - 1

/-- The length of a text in UTF-16 code units. -/
def utf16Length (s : String) : Nat :=
  s.toList.foldl (fun n c => n + if c.toNat < 0x10000 then 1 else 2) 0

section Schemas

variable (isDatetime : String → Bool)

def JournalTransition.valid (t : JournalTransition) : Bool :=
  isDatetime t.at &&
    t.blockNumber.all isNonnegativeInt &&
    t.blockHash.all (isHex 64) &&
    t.confirmations.all isNonnegativeInt &&
    t.errorCode.all (utf16Length · ≤ 120)

/-- `journalEntrySchema` accepts the entry. -/
def JournalEntry.valid (entry : JournalEntry) : Bool :=
  !entry.attemptId.isEmpty &&
    entry.replayOfAttemptId.all (!·.isEmpty) &&
    !entry.actionKey.isEmpty &&
    isHex 40 entry.vault &&
    !entry.vaultName.isEmpty &&
    isDigits entry.roundId &&
    entry.cursor.all isDigits &&
    entry.account.all (isHex 40) &&
    isHex 64 entry.txHash &&
    isHex 64 entry.calldataHash &&
    isNonnegativeInt entry.nonce &&
    isDatetime entry.submittedAt &&
    isDatetime entry.updatedAt &&
    entry.blockNumber.all isNonnegativeInt &&
    entry.blockHash.all (isHex 64) &&
    entry.confirmations.all isNonnegativeInt &&
    entry.errorCode.all (utf16Length · ≤ 120) &&
    entry.history.all (JournalTransition.valid isDatetime) &&
    entry.action.isCursorAction == entry.cursor.isSome &&
    entry.action.isAccountAction == entry.account.isSome &&
    entry.history.getLast?.any
      (fun latest => latest.status = entry.status && latest.at = entry.updatedAt) &&
    entry.attemptId == entry.actionKey ++ ":" ++ entry.txHash.toLower

/-- No two of the texts are equal. -/
def allDistinct : List String → Bool
  | [] => true
  | s :: rest => !rest.contains s && allDistinct rest

/-- `journalDocumentSchema` accepts the document. -/
def JournalDocument.valid (document : JournalDocument) : Bool :=
  document.schema == "leopold.keeper-journal.v3" &&
    document.entries.all (JournalEntry.valid isDatetime) &&
    document.checkpoints.all (!·.1.isEmpty) &&
    allDistinct (document.entries.map (·.attemptId)) &&
    allDistinct (document.entries.map (·.txHash.toLower)) &&
    document.entries.all (fun entry => entry.replayOfAttemptId.all
      fun parent => document.entries.any (·.attemptId == parent))

/-- The schema library leaves this key out of every record it parses. -/
def droppedKey : String := "__proto__"

def parseJournal (document : JournalDocument) : Except JournalError JournalDocument :=
  if document.valid isDatetime then
    .ok { document with checkpoints := document.checkpoints.filter (·.1 != droppedKey) }
  else .error .invalidDocument

end Schemas

/-! ### Updates -/

/-- The fields of an entry that an update must not change. -/
def immutableKeys : List (String × (JournalEntry → JournalEntry → Bool)) := [
  ("attemptId", fun previous next => previous.attemptId == next.attemptId),
  ("replayOfAttemptId", fun previous next => previous.replayOfAttemptId == next.replayOfAttemptId),
  ("actionKey", fun previous next => previous.actionKey == next.actionKey),
  ("vault", fun previous next => previous.vault == next.vault),
  ("vaultName", fun previous next => previous.vaultName == next.vaultName),
  ("roundId", fun previous next => previous.roundId == next.roundId),
  ("action", fun previous next => previous.action == next.action),
  ("cursor", fun previous next => previous.cursor == next.cursor),
  ("account", fun previous next => previous.account == next.account),
  ("txHash", fun previous next => previous.txHash == next.txHash),
  ("calldataHash", fun previous next => previous.calldataHash == next.calldataHash),
  ("nonce", fun previous next => previous.nonce == next.nonce),
  ("submittedAt", fun previous next => previous.submittedAt == next.submittedAt)]

/-- The loop over the immutable keys: the first one that differs is named. -/
def assertImmutableKeys (previous next : JournalEntry) : Except JournalError Unit :=
  match immutableKeys.find? fun key => !key.2 previous next with
  | some key => .error (.immutableFieldChanged key.1)
  | none => .ok ()

def assertAppendOnlyUpdate (previous next : JournalEntry) : Except JournalError Unit := do
  assertImmutableKeys previous next
  revertIf (next.history.length < previous.history.length) .historyTruncated
  revertIf (¬ previous.history.isPrefixOf next.history) .historyNotAppendOnly

section Updates

variable (isDatetime : String → Bool)

namespace JournalDocument

/-- The stored entry of the same attempt. -/
def previous (current : JournalDocument) (entry : JournalEntry) : Option JournalEntry :=
  current.entries.find? (·.attemptId == entry.attemptId)

def put (current : JournalDocument) (entry : JournalEntry) :
    Except JournalError JournalDocument := do
  revertIf (¬ entry.valid isDatetime) .invalidEntry
  (current.previous entry).elim (.ok ()) (assertAppendOnlyUpdate · entry)
  let entries := current.entries.filter (·.attemptId != entry.attemptId)
  parseJournal isDatetime { current with entries := entries ++ [entry] }

/-- `{ ...checkpoints, [key]: value }`. -/
def setCheckpoint (key value : String) : List (String × String) → List (String × String)
  | [] => [(key, value)]
  | (k, v) :: rest =>
    if k = key then (k, value) :: rest else (k, v) :: setCheckpoint key value rest

def putCheckpoint (current : JournalDocument) (key value : String) :
    Except JournalError JournalDocument :=
  parseJournal isDatetime
    { current with checkpoints := setCheckpoint key value current.checkpoints }

/-- The cursor that is stored under a key. -/
def storedCheckpoint (document : JournalDocument) (key : String) : Option String :=
  document.checkpoints.lookup key

/-- The properties every object inherits, as texts. -/
def inheritedProperties : List (String × String) := [
  ("__proto__", "[object Object]"),
  ("constructor", "function Object() \x7b [native code] \x7d"),
  ("__defineGetter__", "function __defineGetter__() \x7b [native code] \x7d"),
  ("__defineSetter__", "function __defineSetter__() \x7b [native code] \x7d"),
  ("__lookupGetter__", "function __lookupGetter__() \x7b [native code] \x7d"),
  ("__lookupSetter__", "function __lookupSetter__() \x7b [native code] \x7d"),
  ("hasOwnProperty", "function hasOwnProperty() \x7b [native code] \x7d"),
  ("isPrototypeOf", "function isPrototypeOf() \x7b [native code] \x7d"),
  ("propertyIsEnumerable", "function propertyIsEnumerable() \x7b [native code] \x7d"),
  ("toLocaleString", "function toLocaleString() \x7b [native code] \x7d"),
  ("toString", "function toString() \x7b [native code] \x7d"),
  ("valueOf", "function valueOf() \x7b [native code] \x7d")]

/-- `checkpoints[key]`, as the text it is tested as. -/
def getCheckpoint (document : JournalDocument) (key : String) : Option String :=
  (document.storedCheckpoint key).or (inheritedProperties.lookup key)

end JournalDocument

end Updates

/-! ### What the schemas and the updates guarantee -/

/-- Two entries record the same attempt: no immutable field differs. -/
structure SameAttempt (previous next : JournalEntry) : Prop where
  attemptId : next.attemptId = previous.attemptId
  replayOfAttemptId : next.replayOfAttemptId = previous.replayOfAttemptId
  actionKey : next.actionKey = previous.actionKey
  vault : next.vault = previous.vault
  vaultName : next.vaultName = previous.vaultName
  roundId : next.roundId = previous.roundId
  action : next.action = previous.action
  cursor : next.cursor = previous.cursor
  account : next.account = previous.account
  txHash : next.txHash = previous.txHash
  calldataHash : next.calldataHash = previous.calldataHash
  nonce : next.nonce = previous.nonce
  submittedAt : next.submittedAt = previous.submittedAt

/-- `next` records the same attempt with the history of `previous`, or more. -/
structure Continues (previous next : JournalEntry) : Prop where
  same : SameAttempt previous next
  history : previous.history <+: next.history

theorem Continues.refl (entry : JournalEntry) : Continues entry entry := by
  refine ⟨?_, List.prefix_rfl⟩
  constructor <;> rfl

theorem Continues.trans {e₁ e₂ e₃ : JournalEntry} (h : Continues e₁ e₂) (h' : Continues e₂ e₃) :
    Continues e₁ e₃ := by
  refine ⟨?_, h.history.trans h'.history⟩
  constructor
  · exact h'.same.attemptId.trans h.same.attemptId
  · exact h'.same.replayOfAttemptId.trans h.same.replayOfAttemptId
  · exact h'.same.actionKey.trans h.same.actionKey
  · exact h'.same.vault.trans h.same.vault
  · exact h'.same.vaultName.trans h.same.vaultName
  · exact h'.same.roundId.trans h.same.roundId
  · exact h'.same.action.trans h.same.action
  · exact h'.same.cursor.trans h.same.cursor
  · exact h'.same.account.trans h.same.account
  · exact h'.same.txHash.trans h.same.txHash
  · exact h'.same.calldataHash.trans h.same.calldataHash
  · exact h'.same.nonce.trans h.same.nonce
  · exact h'.same.submittedAt.trans h.same.submittedAt

theorem assertAppendOnlyUpdate_ok {previous next : JournalEntry}
    (h : assertAppendOnlyUpdate previous next = .ok ()) : Continues previous next := by
  obtain ⟨_, hkeys, h⟩ := seq_eq_ok.1 h
  obtain ⟨_, -, hwidth⟩ := seq_eq_ok.1 h
  rw [revertIf_eq_ok, not_not] at hwidth
  refine ⟨?_, List.isPrefixOf_iff_prefix.1 hwidth⟩
  rw [assertImmutableKeys] at hkeys
  split at hkeys
  · cases hkeys
  · next hnone =>
    have hsame := List.find?_eq_none.1 hnone
    simp only [immutableKeys, List.mem_cons, List.not_mem_nil, or_false, forall_eq_or_imp,
      forall_eq, Bool.not_eq_true', Bool.not_eq_false, beq_iff_eq] at hsame
    obtain ⟨h₁, h₂, h₃, h₄, h₅, h₆, h₇, h₈, h₉, h₁₀, h₁₁, h₁₂, h₁₃⟩ := hsame
    exact ⟨h₁.symm, h₂.symm, h₃.symm, h₄.symm, h₅.symm, h₆.symm, h₇.symm, h₈.symm, h₉.symm,
      h₁₀.symm, h₁₁.symm, h₁₂.symm, h₁₃.symm⟩

theorem allDistinct_iff {l : List String} : allDistinct l = true ↔ l.Nodup := by
  induction l with
  | nil => simp [allDistinct]
  | cons s rest ih => simp [allDistinct, ih]

/-- What an accepted document says about its entries. -/
structure WellFormed (document : JournalDocument) : Prop where
  attemptIds : (document.entries.map (·.attemptId)).Nodup
  txHashes : (document.entries.map (·.txHash.toLower)).Nodup
  replays : ∀ entry ∈ document.entries, ∀ parent ∈ entry.replayOfAttemptId,
    ∃ original ∈ document.entries, original.attemptId = parent

/-- Every entry goes on in the later document, and every cursor that was set is still set.  The
dropped key is never set in a document that was parsed. -/
structure Extends (document later : JournalDocument) : Prop where
  entries : ∀ entry ∈ document.entries, ∃ next ∈ later.entries, Continues entry next
  checkpoints : ∀ key, key ≠ droppedKey →
    (document.storedCheckpoint key).isSome → (later.storedCheckpoint key).isSome

theorem Extends.refl (document : JournalDocument) : Extends document document :=
  ⟨fun entry h => ⟨entry, h, .refl entry⟩, fun _ _ h => h⟩

theorem Extends.trans {d₁ d₂ d₃ : JournalDocument} (h : Extends d₁ d₂) (h' : Extends d₂ d₃) :
    Extends d₁ d₃ := by
  constructor
  · intro entry hentry
    obtain ⟨next, hnext, hcont⟩ := h.entries entry hentry
    obtain ⟨last, hlast, hcont'⟩ := h'.entries next hnext
    exact ⟨last, hlast, hcont.trans hcont'⟩
  · intro key hne hkey
    exact h'.checkpoints key hne (h.checkpoints key hne hkey)

section Guarantees

variable {isDatetime : String → Bool} {current next document : JournalDocument}
  {entry : JournalEntry} {key value : String}

theorem JournalDocument.valid.wellFormed (h : document.valid isDatetime = true) :
    WellFormed document := by
  simp only [JournalDocument.valid, Bool.and_eq_true] at h
  obtain ⟨⟨⟨_, hids⟩, hhashes⟩, hreplays⟩ := h
  refine ⟨allDistinct_iff.1 hids, allDistinct_iff.1 hhashes, ?_⟩
  intro entry hentry parent hparent
  have hall := List.all_eq_true.1 hreplays entry hentry
  rw [Option.mem_def.1 hparent, Option.all_some, List.any_eq_true] at hall
  obtain ⟨original, hmem, heq⟩ := hall
  exact ⟨original, hmem, beq_iff_eq.1 heq⟩

theorem parseJournal_ok (h : parseJournal isDatetime document = .ok next) :
    next = { document with checkpoints := document.checkpoints.filter (·.1 != droppedKey) } ∧
      document.valid isDatetime = true := by
  rw [parseJournal] at h
  split_ifs at h with hvalid
  cases h
  exact ⟨rfl, hvalid⟩

theorem lookup_filter_dropped {checkpoints : List (String × String)} :
    (checkpoints.filter (·.1 != droppedKey)).lookup key =
      if key = droppedKey then none else checkpoints.lookup key := by
  induction checkpoints with
  | nil => simp
  | cons head rest ih =>
    obtain ⟨k, v⟩ := head
    by_cases hk : k = droppedKey
    · subst hk
      rw [List.filter_cons_of_neg (by simp), ih, List.lookup_cons]
      by_cases hkey : key = droppedKey
      · rw [if_pos hkey, if_pos hkey]
      · rw [if_neg hkey, if_neg hkey, beq_eq_false_iff_ne.2 hkey]
    · rw [List.filter_cons_of_pos (by simpa using hk), List.lookup_cons, List.lookup_cons, ih]
      by_cases hkey : key = k
      · subst hkey
        rw [if_neg hk, beq_self_eq_true, if_neg hk]
      · rw [beq_eq_false_iff_ne.2 hkey]

/-- A document that was parsed has every cursor but that of the dropped key. -/
theorem storedCheckpoint_parsed (h : parseJournal isDatetime document = .ok next) :
    next.storedCheckpoint key =
      if key = droppedKey then none else document.storedCheckpoint key := by
  obtain ⟨rfl, -⟩ := parseJournal_ok h
  exact lookup_filter_dropped

/-- What was parsed is parsed again as it is. -/
theorem parseJournal_parsed (h : parseJournal isDatetime document = .ok next) :
    next.valid isDatetime = true ∧ parseJournal isDatetime next = .ok next := by
  obtain ⟨rfl, hvalid⟩ := parseJournal_ok h
  have hnext : { document with
      checkpoints := document.checkpoints.filter (·.1 != droppedKey) }.valid isDatetime = true := by
    simp only [JournalDocument.valid, Bool.and_eq_true] at hvalid ⊢
    obtain ⟨⟨⟨⟨hshape, hcheckpoints⟩, hids⟩, hhashes⟩, hreplays⟩ := hvalid
    refine ⟨⟨⟨⟨hshape, ?_⟩, hids⟩, hhashes⟩, hreplays⟩
    rw [List.all_eq_true] at hcheckpoints ⊢
    exact fun c hc => hcheckpoints c (List.mem_of_mem_filter hc)
  refine ⟨hnext, ?_⟩
  rw [parseJournal, if_pos hnext, List.filter_filter]
  simp only [Bool.and_self]

namespace JournalDocument

/-- What a successful `put` did: the entry is new or continues the one it replaces. -/
theorem put_ok (h : current.put isDatetime entry = .ok next) :
    parseJournal isDatetime { current with
        entries := current.entries.filter (·.attemptId != entry.attemptId) ++ [entry] } =
          .ok next ∧
      ∀ previous, current.previous entry = some previous → Continues previous entry := by
  obtain ⟨_, -, h⟩ := seq_eq_ok.1 h
  obtain ⟨_, hupdate, h⟩ := seq_eq_ok.1 h
  refine ⟨h, ?_⟩
  intro previous hfind
  rw [hfind] at hupdate
  exact assertAppendOnlyUpdate_ok hupdate

theorem put_entries (h : current.put isDatetime entry = .ok next) :
    next.entries = current.entries.filter (·.attemptId != entry.attemptId) ++ [entry] := by
  rw [(parseJournal_ok (put_ok h).1).1]

theorem put_checkpoint (h : current.put isDatetime entry = .ok next) (hkey : key ≠ droppedKey) :
    next.storedCheckpoint key = current.storedCheckpoint key := by
  rw [storedCheckpoint_parsed (put_ok h).1, if_neg hkey]
  rfl

theorem lookup_setCheckpoint {checkpoints : List (String × String)} {k : String} :
    (setCheckpoint key value checkpoints).lookup k =
      if k = key then some value else checkpoints.lookup k := by
  induction checkpoints with
  | nil =>
    rw [setCheckpoint, List.lookup_cons, List.lookup_nil]
    by_cases hk : k = key
    · rw [if_pos hk, beq_iff_eq.2 hk]
    · rw [if_neg hk, beq_eq_false_iff_ne.2 hk]
  | cons head rest ih =>
    obtain ⟨k', v⟩ := head
    by_cases hhead : k' = key
    · subst hhead
      rw [setCheckpoint, if_pos rfl, List.lookup_cons, List.lookup_cons]
      by_cases hk : k = k'
      · rw [if_pos hk, beq_iff_eq.2 hk]
      · rw [if_neg hk, beq_eq_false_iff_ne.2 hk]
    · rw [setCheckpoint, if_neg hhead, List.lookup_cons, List.lookup_cons, ih]
      by_cases hk : k = k'
      · subst hk
        rw [if_neg hhead, beq_self_eq_true, if_neg hhead]
      · rw [beq_eq_false_iff_ne.2 hk]

theorem putCheckpoint_entries (h : current.putCheckpoint isDatetime key value = .ok next) :
    next.entries = current.entries := by
  rw [(parseJournal_ok h).1]

/-- A successful `putCheckpoint` stores the cursor, unless the key is dropped, and no other. -/
theorem putCheckpoint_checkpoint {k : String}
    (h : current.putCheckpoint isDatetime key value = .ok next) (hk : k ≠ droppedKey) :
    next.storedCheckpoint k = if k = key then some value else current.storedCheckpoint k := by
  rw [storedCheckpoint_parsed h, if_neg hk]
  exact lookup_setCheckpoint

theorem put_extends (hw : WellFormed current) (h : current.put isDatetime entry = .ok next) :
    Extends current next := by
  refine ⟨?_, fun key hne hkey => by rwa [put_checkpoint h hne]⟩
  intro e he
  rw [put_entries h]
  by_cases hid : e.attemptId = entry.attemptId
  · refine ⟨entry, by simp, ?_⟩
    cases hfind : current.previous entry with
    | none =>
      have := List.find?_eq_none.1 hfind e he
      exact absurd (beq_iff_eq.2 hid) this
    | some previous =>
      have hprevious := List.mem_of_find?_eq_some hfind
      have hpid : previous.attemptId = entry.attemptId := by
        have := List.find?_some hfind
        exact beq_iff_eq.1 this
      have : e = previous :=
        List.inj_on_of_nodup_map hw.attemptIds he hprevious (hid.trans hpid.symm)
      rw [this]
      exact (put_ok h).2 previous hfind
  · refine ⟨e, ?_, .refl e⟩
    rw [List.mem_append, List.mem_filter]
    exact .inl ⟨he, bne_iff_ne.2 hid⟩

theorem putCheckpoint_extends (h : current.putCheckpoint isDatetime key value = .ok next) :
    Extends current next := by
  refine ⟨fun e he => ⟨e, (putCheckpoint_entries h).symm ▸ he, .refl e⟩, ?_⟩
  intro k hne hk
  rw [putCheckpoint_checkpoint h hne]
  split_ifs
  · rfl
  · exact hk

/-- A successful `put` stores the entry. -/
theorem put_mem (h : current.put isDatetime entry = .ok next) : entry ∈ next.entries := by
  rw [put_entries h]
  simp

theorem put_valid (h : current.put isDatetime entry = .ok next) :
    next.valid isDatetime = true :=
  (parseJournal_parsed (put_ok h).1).1

end JournalDocument

end Guarantees

end Leopold.Keeper
