import Leopold.Keeper.Engine

/-!
# One attempt at a time

The engine over one journal, through any number of runs and crashes.  The gateway may answer
anything; a `put` may fail before or after its document was published.  What every state keeps is
that at most one attempt is unresolved and that what was broadcast is journalled; each function of
the engine has one lemma that says how it keeps it.
-/

namespace Leopold.Keeper

open Lib

theorem JournalStatus.isUnresolved_of_isForensic {status : JournalStatus}
    (h : status.isForensic = true) : status.isUnresolved = true := by
  cases status <;> first | rfl | cases h

/-- The last transition of a stored entry has its status. -/
theorem latest_of_valid {isDatetime : String → Bool} {document : JournalDocument}
    {entry : JournalEntry} (h : document.valid isDatetime = true) (he : entry ∈ document.entries) :
    ∃ latest, entry.history.getLast? = some latest ∧ latest.status = entry.status := by
  simp only [JournalDocument.valid, Bool.and_eq_true, List.all_eq_true] at h
  have hentry := h.1.1.1.1.2 entry he
  simp only [JournalEntry.valid, Bool.and_eq_true] at hentry
  obtain ⟨latest, hlatest, hsame⟩ := (Option.any_eq_true _ _).1 hentry.1.2
  rw [Bool.and_eq_true, decide_eq_true_iff] at hsame
  exact ⟨latest, hlatest, hsame.1⟩

/-- The questions that leave the journal's entries and the broadcasts alone. -/
def Request.isQuiet : Request → Bool
  | .sign _ _ | .broadcast _ | .put _ => false
  | _ => true

/-- The journal, and what was passed to `broadcast`, latest first. -/
structure KeeperWorld where
  document : JournalDocument
  broadcasts : List SignedLifecycleTransaction

namespace KeeperWorld

variable (isDatetime : String → Bool) (w : KeeperWorld)

/-- No two attempts are unresolved. -/
def AtMostOne : Prop :=
  ∀ e ∈ w.document.entries, ∀ e' ∈ w.document.entries,
    e.status.isUnresolved = true → e'.status.isUnresolved = true → e = e'

/-- The transaction is stored with its hash, nonce and calldata hash. -/
def Journalled (transaction : SignedLifecycleTransaction) : Prop :=
  ∃ e ∈ w.document.entries, e.txHash = transaction.hash ∧ e.nonce = transaction.nonce ∧
    e.calldataHash = transaction.calldataHash

/-- The hash was not passed to `broadcast` before. -/
def NotSent (transaction : SignedLifecycleTransaction) : Prop :=
  ∀ sent ∈ w.broadcasts, sent.hash.toLower ≠ transaction.hash.toLower

/-- What the engine may ask: nothing is signed while an attempt is unresolved, nothing is
broadcast that is not journalled, was broadcast before or while an attempt is unknown or reverted,
and such an attempt is updated only to become obsolete. -/
def Allowed : Request → Prop
  | .sign _ _ => ∀ e ∈ w.document.entries, e.status.isUnresolved = false
  | .broadcast transaction => w.Journalled transaction ∧ w.NotSent transaction ∧
      ∀ e ∈ w.document.entries, e.status.isForensic = false
  | .put entry => ∀ e ∈ w.document.entries, e.attemptId = entry.attemptId →
      e.status.isForensic = true → entry.status = .obsolete
  | _ => True

/-- What the world may answer.  A snapshot may move scan cursors of the journal. -/
def Answers : (r : Request) → Response r → KeeperWorld → Prop
  | .put entry, answer, w' => w'.broadcasts = w.broadcasts ∧
      (w.document.put isDatetime entry = .ok w'.document ∨
        w'.document = w.document ∧ answer ≠ .ok ())
  | .broadcast transaction, _, w' => w' = { w with broadcasts := transaction :: w.broadcasts }
  | .list, answer, w' => w' = w ∧ ∀ entries, answer = .ok entries → entries = w.document.entries
  | .readSnapshot _, _, w' => w'.broadcasts = w.broadcasts ∧
      w'.document.entries = w.document.entries ∧
      (w.document.valid isDatetime = true → w'.document.valid isDatetime = true)
  | _, _, w' => w' = w

/-- What every state keeps. -/
structure Inv : Prop where
  valid : w.document.valid isDatetime = true
  single : w.AtMostOne
  journalled : ∀ transaction ∈ w.broadcasts, w.Journalled transaction
  once : (w.broadcasts.map (·.hash.toLower)).Nodup

def protocol : Protocol KeeperWorld Request Response where
  inv := Inv isDatetime
  allowed r w := w.Allowed r
  answers := Answers isDatetime

/-! ### States of the journal -/

variable {isDatetime : String → Bool} {w w' : KeeperWorld} {entry e : JournalEntry}
  {transaction : SignedLifecycleTransaction}

/-- The entries and the broadcasts are the same in both states. -/
structure Same (w w' : KeeperWorld) : Prop where
  entries : w'.document.entries = w.document.entries
  broadcasts : w'.broadcasts = w.broadcasts

theorem Same.refl : Same w w := ⟨rfl, rfl⟩

theorem Inv.same (h : Inv isDatetime w) (hs : Same w w')
    (hvalid : w'.document.valid isDatetime = true) : Inv isDatetime w' := by
  refine ⟨hvalid, ?_, ?_, hs.broadcasts ▸ h.once⟩
  · rw [AtMostOne, hs.entries]
    exact h.single
  · rw [hs.broadcasts]
    intro transaction ht
    rw [Journalled, hs.entries]
    exact h.journalled transaction ht

variable (isDatetime) in
/-- No attempt is unresolved. -/
structure Free (w : KeeperWorld) : Prop where
  inv : Inv isDatetime w
  free : ∀ e ∈ w.document.entries, e.status.isUnresolved = false

variable (isDatetime) in
/-- The entry is stored, and no other attempt is unresolved. -/
structure Held (entry : JournalEntry) (w : KeeperWorld) : Prop where
  inv : Inv isDatetime w
  mem : entry ∈ w.document.entries
  only : ∀ e ∈ w.document.entries, e.status.isUnresolved = true → e = entry

variable (isDatetime) in
/-- The entry may be stored: its attempt is not forensic, and no other one is unresolved. -/
structure Covered (entry : JournalEntry) (w : KeeperWorld) : Prop where
  inv : Inv isDatetime w
  only : ∀ e ∈ w.document.entries, e.status.isUnresolved = true → e.attemptId = entry.attemptId
  calm : ∀ e ∈ w.document.entries, e.attemptId = entry.attemptId → e.status.isForensic = false

theorem Free.same (h : Free isDatetime w) (hs : Same w w') (hinv : Inv isDatetime w') :
    Free isDatetime w' := ⟨hinv, hs.entries ▸ h.free⟩

theorem Held.same (h : Held isDatetime entry w) (hs : Same w w') (hinv : Inv isDatetime w') :
    Held isDatetime entry w' := ⟨hinv, hs.entries ▸ h.mem, hs.entries ▸ h.only⟩

theorem Held.free (h : Held isDatetime entry w) (hresolved : entry.status.isUnresolved = false) :
    Free isDatetime w :=
  ⟨h.inv, fun e he => Bool.eq_false_iff.2 fun hopen => by
    simp [h.only e he hopen, hresolved] at hopen⟩

/-- The entry is the stored one of its attempt. -/
theorem Held.eq_of_attemptId (h : Held isDatetime entry w) (he : e ∈ w.document.entries)
    (hid : e.attemptId = entry.attemptId) : e = entry :=
  List.inj_on_of_nodup_map (JournalDocument.valid.wellFormed h.inv.valid).attemptIds he h.mem hid

/-- No attempt is forensic beside a held one that is not. -/
theorem Held.calm (h : Held isDatetime entry w) (hcalm : entry.status.isForensic = false)
    (he : e ∈ w.document.entries) : e.status.isForensic = false :=
  Bool.eq_false_iff.2 fun hforensic => by
    simp [h.only e he (JournalStatus.isUnresolved_of_isForensic hforensic), hcalm] at hforensic

/-- An update of the held entry may be stored. -/
theorem Held.covered {updated : JournalEntry} (h : Held isDatetime entry w)
    (hcalm : entry.status.isForensic = false) (hid : updated.attemptId = entry.attemptId) :
    Covered isDatetime updated w :=
  ⟨h.inv, fun e he hopen => by rw [h.only e he hopen, hid], fun _ he _ => h.calm hcalm he⟩

/-- What is journalled and new may be broadcast. -/
theorem Held.broadcast (h : Held isDatetime entry w) (hjournalled : w.Journalled transaction)
    (hnew : w.NotSent transaction) :
    Held isDatetime entry { w with broadcasts := transaction :: w.broadcasts } := by
  refine ⟨⟨h.inv.valid, h.inv.single, ?_, ?_⟩, h.mem, h.only⟩
  · intro sent hsent
    rcases List.mem_cons.1 hsent with rfl | hsent
    · exact hjournalled
    · exact h.inv.journalled sent hsent
  · refine List.nodup_cons.2 ⟨?_, h.inv.once⟩
    intro hmem
    obtain ⟨sent, hsent, heq⟩ := List.mem_map.1 hmem
    exact hnew sent hsent heq

/-! ### Storing an entry -/

theorem mem_put {current next : JournalDocument} (h : current.put isDatetime entry = .ok next) :
    e ∈ next.entries ↔ e = entry ∨ e ∈ current.entries ∧ e.attemptId ≠ entry.attemptId := by
  rw [JournalDocument.put_entries h]
  simp [List.mem_append, List.mem_filter, or_comm]

theorem Inv.put (h : Inv isDatetime w) (hput : w.document.put isDatetime entry = .ok w'.document)
    (hsent : w'.broadcasts = w.broadcasts)
    (honly : entry.status.isUnresolved = true → ∀ e ∈ w.document.entries,
      e.status.isUnresolved = true → e.attemptId = entry.attemptId) : Inv isDatetime w' := by
  refine ⟨JournalDocument.put_valid hput, ?_, ?_, hsent ▸ h.once⟩
  · intro e he e' he' hopen hopen'
    rcases (mem_put hput).1 he with rfl | ⟨he, hne⟩ <;>
      rcases (mem_put hput).1 he' with rfl | ⟨he', hne'⟩
    · rfl
    · exact absurd (honly hopen e' he' hopen') hne'
    · exact absurd (honly hopen' e he hopen) hne
    · exact h.single e he e' he' hopen hopen'
  · rw [hsent]
    intro transaction ht
    obtain ⟨e, he, hhash, hnonce, hdata⟩ := h.journalled transaction ht
    obtain ⟨next, hnext, hcont⟩ :=
      (JournalDocument.put_extends (JournalDocument.valid.wellFormed h.valid) hput).entries e he
    exact ⟨next, hnext, hcont.same.txHash.trans hhash, hcont.same.nonce.trans hnonce,
      hcont.same.calldataHash.trans hdata⟩

/-- A new entry is held, and its transaction was not broadcast before: the entry of an earlier
broadcast would be another one with the same hash, or one that this entry continues. -/
theorem Free.prepared {t : JournalTransition} (h : Free isDatetime w)
    (hput : w.document.put isDatetime entry = .ok w'.document)
    (hsent : w'.broadcasts = w.broadcasts) (hstatus : entry.status = .prepared)
    (hhistory : entry.history = [t]) (hhash : entry.txHash = transaction.hash) :
    Held isDatetime entry w' ∧ w'.NotSent transaction := by
  have hinv : Inv isDatetime w' := h.inv.put hput hsent fun _ e he hopen => by
    simp [h.free e he] at hopen
  have hmem := JournalDocument.put_mem hput
  refine ⟨⟨hinv, hmem, fun e he hopen => ?_⟩, ?_⟩
  · rcases (mem_put hput).1 he with rfl | ⟨he, -⟩
    · rfl
    · simp [h.free e he] at hopen
  · intro sent hmem' heq
    rw [hsent] at hmem'
    obtain ⟨e, he, hesent, -, -⟩ := h.inv.journalled sent hmem'
    have hlower : e.txHash.toLower = entry.txHash.toLower := by rw [hesent, heq, hhash]
    obtain ⟨next, hnext, hcont⟩ :=
      (JournalDocument.put_extends (JournalDocument.valid.wellFormed h.inv.valid) hput).entries e he
    obtain rfl : next = entry :=
      List.inj_on_of_nodup_map (JournalDocument.valid.wellFormed hinv.valid).txHashes hnext hmem
        (by rw [hcont.same.txHash, hlower])
    -- The history of a stored entry is not empty, so it is the one transition of this entry.
    obtain ⟨latest, hlatest, hlast⟩ := latest_of_valid h.inv.valid he
    have heq : latest = t := by
      have := hcont.history.mem (List.mem_of_getLast? hlatest)
      rwa [hhistory, List.mem_singleton] at this
    have hopen := h.free e he
    have hfirst : t.status = .prepared := by
      obtain ⟨latest', hlatest', hlast'⟩ := latest_of_valid hinv.valid hmem
      rw [hhistory] at hlatest'
      obtain rfl : t = latest' := Option.some.inj hlatest'
      rw [hlast', hstatus]
    rw [← hlast, heq, hfirst] at hopen
    cases hopen

/-- After an update of the held entry it is the update that is held. -/
theorem Held.put {updated : JournalEntry} (h : Held isDatetime entry w)
    (hput : w.document.put isDatetime updated = .ok w'.document)
    (hsent : w'.broadcasts = w.broadcasts) (hid : updated.attemptId = entry.attemptId) :
    Held isDatetime updated w' := by
  have honly : ∀ e ∈ w.document.entries, e.status.isUnresolved = true →
      e.attemptId = updated.attemptId := fun e he hopen => by rw [h.only e he hopen, hid]
  refine ⟨h.inv.put hput hsent fun _ => honly, JournalDocument.put_mem hput, fun e he hopen => ?_⟩
  rcases (mem_put hput).1 he with rfl | ⟨he, hne⟩
  · rfl
  · exact absurd (honly e he hopen) hne

end KeeperWorld

namespace Engine

open KeeperWorld

variable {isDatetime : String → Bool} {options : EngineOptions} {w w' : KeeperWorld}
  {entry : JournalEntry} {transaction : SignedLifecycleTransaction} {α β : Type}
  {post : α → KeeperWorld → Prop} {p : KeeperM α}

/-! ### Rules for the engine's programs -/

variable (isDatetime) in
/-- The program is safe, and where it returns the postcondition holds. -/
def Runs (post : α → KeeperWorld → Prop) (p : KeeperM α) (w : KeeperWorld) : Prop :=
  (protocol isDatetime).Safe (fun result w' => ∀ a, result = .ok a → post a w') p.run w

theorem Runs.mono {post' : α → KeeperWorld → Prop} (hpost : ∀ a w, post a w → post' a w)
    (h : Runs isDatetime post p w) : Runs isDatetime post' p w :=
  Protocol.Returns.mono hpost h

theorem Runs.bind {post : β → KeeperWorld → Prop} {f : α → KeeperM β}
    (h : Runs isDatetime (fun a w' => Runs isDatetime post (f a) w') p w) :
    Runs isDatetime post (p >>= f) w :=
  Protocol.Returns.bind h

theorem Runs.pure {a : α} (h : post a w) : Runs isDatetime post (pure a) w :=
  Protocol.Returns.pure h

theorem Runs.throw {error : String} : Runs isDatetime post (throw error) w :=
  Protocol.Returns.throw

theorem Runs.called {r : Request} {post : Answer r → KeeperWorld → Prop} (hallowed : w.Allowed r)
    (h : ∀ answer w', w.Answers isDatetime r answer w' →
      Inv isDatetime w' ∧ ∀ a, answer = .ok a → post a w') :
    Runs isDatetime post (call r) w := ⟨hallowed, h⟩

theorem answers_same {r : Request} {answer : Response r} (hquiet : r.isQuiet = true)
    (hinv : Inv isDatetime w) (h : w.Answers isDatetime r answer w') :
    Same w w' ∧ Inv isDatetime w' := by
  have hsame (heq : w' = w) : Same w w' ∧ Inv isDatetime w' := by
    rw [heq]
    exact ⟨.refl, hinv⟩
  cases r with
  | sign | broadcast | put => cases hquiet
  | readSnapshot hint =>
    have hentries : Same w w' := ⟨h.2.1, h.1⟩
    exact ⟨hentries, hinv.same hentries (h.2.2 hinv.valid)⟩
  | list => exact hsame h.1
  | _ => exact hsame h

theorem allowed_of_quiet {r : Request} (hquiet : r.isQuiet = true) : w.Allowed r := by
  cases r with
  | sign | broadcast | put => cases hquiet
  | _ => trivial

theorem Runs.ask {r : Request} {post : Answer r → KeeperWorld → Prop} (hquiet : r.isQuiet = true)
    (hinv : Inv isDatetime w)
    (h : ∀ a w', Same w w' → Inv isDatetime w' → w.Answers isDatetime r (.ok a) w' → post a w') :
    Runs isDatetime post (call r) w := by
  refine .called (allowed_of_quiet hquiet) fun answer w' ha => ?_
  obtain ⟨hsame, hinv'⟩ := answers_same hquiet hinv ha
  refine ⟨hinv', ?_⟩
  rintro a rfl
  exact h a w' hsame hinv' ha

/-! ### The functions of the engine -/

/-- An update of the held entry is stored; a forensic entry only becomes obsolete. -/
theorem store_runs (h : Held isDatetime entry w) {status : JournalStatus} {update : UpdateOptions}
    (hstatus : entry.status.isForensic = true → status = .obsolete) :
    Runs isDatetime (fun updated w' => Held isDatetime updated w' ∧ updated.status = status)
      (store options entry status update) w := by
  refine .bind (.ask rfl h.inv fun now w₁ hsame hinv _ => ?_)
  have h₁ := h.same hsame hinv
  refine .bind (.called ?_ fun answer w₂ ha => ?_)
  · intro e he hid hforensic
    obtain rfl := h₁.eq_of_attemptId he hid
    exact hstatus hforensic
  · obtain ⟨hsent, hput | ⟨hsame', hfailed⟩⟩ := ha
    · have h₂ := h₁.put hput hsent rfl
      exact ⟨h₂.inv, fun _ _ => .pure ⟨h₂, rfl⟩⟩
    · refine ⟨hinv.same ⟨by rw [hsame'], hsent⟩ (hsame' ▸ hinv.valid), ?_⟩
      rintro a rfl
      exact absurd rfl hfailed

/-- An update of an entry that is not forensic is stored. -/
theorem store_held (h : Held isDatetime entry w) (hcalm : entry.status.isForensic = false)
    {status : JournalStatus} {update : UpdateOptions} :
    Runs isDatetime (fun updated w' => Held isDatetime updated w')
      (store options entry status update) w :=
  (store_runs h fun hforensic => by simp [hcalm] at hforensic).mono fun _ _ h' => h'.1

theorem reconcileReceipt_runs (h : Held isDatetime entry w)
    (hcalm : entry.status.isForensic = false) {receipt : ReceiptView} {required : Bool} :
    Runs isDatetime (fun updated w' => Held isDatetime updated w')
      (reconcileReceipt options entry receipt required) w := by
  unfold reconcileReceipt
  split_ifs <;> exact store_held h hcalm

theorem reconcileMissing_runs (h : Held isDatetime entry w)
    (hcalm : entry.status.isForensic = false) {required : Bool} :
    Runs isDatetime (fun updated w' => Held isDatetime updated w')
      (reconcileMissing options entry required) w := by
  unfold reconcileMissing
  refine .bind (.ask rfl h.inv fun known w₁ hsame hinv _ => ?_)
  have h₁ := h.same hsame hinv
  by_cases hknown : known.isSome = true
  · rw [if_pos hknown]
    exact store_held h₁ hcalm
  rw [if_neg hknown]
  refine .bind (.ask rfl h₁.inv fun now w₂ hsame hinv _ => ?_)
  have h₂ := h₁.same hsame hinv
  split
  · exact .pure h₂
  by_cases hrequired : required = false
  · rw [if_pos hrequired]
    exact store_held h₂ hcalm
  rw [if_neg hrequired]
  split
  · exact store_held h₂ hcalm
  · refine .bind (.ask rfl h₂.inv fun latestNonce w₃ hsame hinv _ => ?_)
    have h₃ := h₂.same hsame hinv
    refine .bind (.ask rfl h₃.inv fun pendingNonce w₄ hsame hinv _ => ?_)
    exact store_held (h₃.same hsame hinv) hcalm

/-- The held entry is reconciled; what it has become is held. -/
theorem reconcileEntry_runs (h : Held isDatetime entry w) :
    Runs isDatetime (fun updated w' => Held isDatetime updated w')
      (reconcileEntry options entry) w := by
  unfold reconcileEntry
  refine .bind (.ask rfl h.inv fun receipt w₁ hsame hinv _ => ?_)
  have h₁ := h.same hsame hinv
  refine .bind (.ask rfl h₁.inv fun snapshot w₂ hsame hinv _ => ?_)
  have h₂ := h₁.same hsame hinv
  dsimp only
  by_cases hforensic : entry.status.isForensic = true
  · rw [if_pos hforensic]
    split
    · exact .pure h₂
    · exact (store_runs h₂ fun _ => rfl).mono fun _ _ h' => h'.1
  · rw [if_neg hforensic]
    have hcalm := Bool.eq_false_iff.2 hforensic
    cases receipt with
    | some receipt => exact reconcileReceipt_runs h₂ hcalm
    | none => exact reconcileMissing_runs h₂ hcalm

theorem waitLoop_runs {deadline rounds : Nat} (h : Held isDatetime entry w) :
    Runs isDatetime (fun updated w' => Held isDatetime updated w')
      (waitLoop options deadline rounds entry) w := by
  induction rounds generalizing entry w with
  | zero => exact .throw
  | succ rounds ih =>
    unfold waitLoop
    refine .bind ((reconcileEntry_runs h).mono fun current w₁ h₁ => ?_)
    split
    · exact .pure h₁
    · refine .bind (.ask rfl h₁.inv fun now w₂ hsame hinv _ => ?_)
      have h₂ := h₁.same hsame hinv
      split
      · exact .pure h₂
      · exact .bind (.ask rfl h₂.inv fun _ w₃ hsame hinv _ => ih (h₂.same hsame hinv))

theorem waitAndReconcile_runs {rounds : Nat} (h : Held isDatetime entry w) :
    Runs isDatetime (fun updated w' => Held isDatetime updated w')
      (waitAndReconcile options rounds entry) w :=
  .bind (.ask rfl h.inv fun _ _ hsame hinv _ => waitLoop_runs (h.same hsame hinv))

/-- There is at most one unresolved entry to reconcile, and where it was resolved nothing is
unresolved. -/
theorem reconcileOutstanding_runs (h : Inv isDatetime w) :
    Runs isDatetime (fun outstanding w' => outstanding = none → Free isDatetime w')
      (reconcileOutstanding options) w := by
  unfold reconcileOutstanding
  refine .bind (.ask rfl h fun entries w₁ hsame hinv ha => ?_)
  obtain rfl : entries = w.document.entries := ha.2 entries rfl
  have hmem : ∀ e, e ∈ w.document.entries.filter (·.status.isUnresolved) ↔
      e ∈ w.document.entries ∧ e.status.isUnresolved = true := fun e => List.mem_filter
  have hnodup : (w.document.entries.filter (·.status.isUnresolved)).Nodup :=
    (List.Nodup.of_map _ (JournalDocument.valid.wellFormed h.valid).attemptIds).filter _
  generalize w.document.entries.filter (·.status.isUnresolved) = outstanding at hmem hnodup
  rcases outstanding with - | ⟨entry, - | ⟨entry', rest⟩⟩
  · refine .pure fun _ => ⟨hinv, fun e he => ?_⟩
    rw [hsame.entries] at he
    exact Bool.eq_false_iff.2 fun hopen => absurd ((hmem e).2 ⟨he, hopen⟩) List.not_mem_nil
  · have hentry := (hmem entry).1 List.mem_cons_self
    have hheld : Held isDatetime entry w₁ :=
      ⟨hinv, hsame.entries ▸ hentry.1, fun e he hopen =>
        List.mem_singleton.1 ((hmem e).2 ⟨hsame.entries ▸ he, hopen⟩)⟩
    refine .bind ((reconcileEntry_runs hheld).mono fun updated w₂ h₂ => ?_)
    by_cases hopen : updated.status.isUnresolved = true
    · rw [if_pos hopen]
      exact .pure fun hnone => by cases hnone
    · rw [if_neg hopen]
      exact .pure fun _ => h₂.free (Bool.eq_false_iff.2 hopen)
  · have hentry := (hmem entry).1 List.mem_cons_self
    have hentry' := (hmem entry').1 (List.mem_cons_of_mem _ List.mem_cons_self)
    have heq := h.single entry hentry.1 entry' hentry'.1 hentry.2 hentry'.2
    simp [heq] at hnodup

/-- A call whose failure is handled, and what comes after it under the same handler. -/
theorem Runs.attempt {r : Request} {next : Answer r → KeeperM α} {handler : String → KeeperM α}
    (hallowed : w.Allowed r)
    (h : ∀ answer w', w.Answers isDatetime r answer w' → Inv isDatetime w' ∧
      (∀ a, answer = .ok a → Runs isDatetime post (tryCatch (next a) handler) w') ∧
      ∀ e, answer = .error e → Runs isDatetime post (handler e) w') :
    Runs isDatetime post (tryCatch (call r >>= next) handler) w := by
  refine ⟨hallowed, fun answer w' ha => ?_⟩
  obtain ⟨hinv, hok, herror⟩ := h answer w' ha
  refine ⟨hinv, ?_⟩
  cases answer with
  | ok a => exact hok a rfl
  | error e => exact herror e rfl

/-- A guard of the source: where it throws nothing is left to show. -/
theorem Runs.guard {c : Prop} [Decidable c] {error : String} {f : Unit → KeeperM α}
    (h : ¬ c → Runs isDatetime post (f ()) w) :
    Runs isDatetime post (if c then MonadExcept.throw error >>= f else f ()) w := by
  split_ifs with hc
  · exact .bind .throw
  · exact h hc

theorem preflight_runs (h : Inv isDatetime w) :
    Runs isDatetime (fun _ w' => Inv isDatetime w') (preflight options) w := by
  unfold preflight
  refine .bind (.ask rfl h fun chainId w₁ _ hinv _ => .guard fun _ => ?_)
  exact .bind (.ask rfl hinv fun balance w₂ _ hinv _ => .guard fun _ => .pure hinv)

theorem prepareData_runs {action : LifecycleAction} (h : Free isDatetime w) :
    Runs isDatetime (fun _ w' => Free isDatetime w') (prepareData action) w := by
  unfold prepareData
  have hhandler {error : String} {w : KeeperWorld} (h : Free isDatetime w) :
      Runs isDatetime (fun _ w' => Free isDatetime w')
        (do
          let snapshot : ProtocolSnapshot ← call (.readSnapshot (some (actionHint action)))
          if isActionRequired snapshot action then throw error
          else return none : KeeperM (Option String)) w := by
    refine .bind (.ask rfl h.inv fun snapshot w₁ hsame hinv _ => ?_)
    split
    · exact .throw
    · exact .pure (h.same hsame hinv)
  refine .attempt trivial fun answer w₁ ha => ?_
  obtain ⟨hsame, hinv⟩ := answers_same rfl h.inv ha
  have h₁ := h.same hsame hinv
  refine ⟨hinv, fun data _ => .attempt trivial fun answer w₂ ha => ?_, fun _ _ => hhandler h₁⟩
  obtain ⟨hsame, hinv⟩ := answers_same rfl h₁.inv ha
  have h₂ := h₁.same hsame hinv
  exact ⟨hinv, fun _ _ => .pure h₂, fun _ _ => hhandler h₂⟩

variable (isDatetime) in
/-- The entry is held after a broadcast; after an exception its attempt may still be stored. -/
def Outcome : Except (JournalEntry × String) JournalEntry → KeeperWorld → Prop
  | .ok entry, w => Held isDatetime entry w
  | .error (entry, _), w => Covered isDatetime entry w

/-- The entry that was prepared is broadcast once. -/
theorem broadcastEntry_runs (h : Held isDatetime entry w) (hprepared : entry.status = .prepared)
    (hjournalled : w.Journalled transaction) (hnew : w.NotSent transaction) :
    Runs isDatetime (Outcome isDatetime) (broadcastEntry options entry transaction) w := by
  have hcalm : entry.status.isForensic = false := by rw [hprepared]; rfl
  unfold broadcastEntry
  have hsent : Runs isDatetime (fun _ w' => Held isDatetime entry w')
      (tryCatch
        (do
          let broadcastHash : String ← call (.broadcast transaction)
          if broadcastHash.toLower ≠ transaction.hash.toLower then throw "Error"
          return none : KeeperM (Option String))
        fun error => return some error) w := by
    refine .attempt ⟨hjournalled, hnew, fun e he => h.calm hcalm he⟩ fun answer w₁ ha => ?_
    have h₁ : Held isDatetime entry w₁ := by
      rw [show w₁ = { w with broadcasts := transaction :: w.broadcasts } from ha]
      exact h.broadcast hjournalled hnew
    refine ⟨h₁.inv, fun broadcastHash _ => ?_, fun _ _ => .pure h₁⟩
    dsimp only
    split_ifs <;> exact .pure h₁
  refine .bind (hsent.mono fun sent w₁ h₁ => ?_)
  cases sent with
  | some error => exact .pure (h₁.covered hcalm rfl)
  | none =>
    refine .bind (.ask rfl h₁.inv fun now w₂ hsame hinv _ => ?_)
    have h₂ := h₁.same hsame hinv
    refine .attempt ?_ fun answer w₃ ha => ?_
    · intro e he hid hforensic
      obtain rfl := h₂.eq_of_attemptId he hid
      simp [hcalm] at hforensic
    obtain ⟨hsent, hput | ⟨hsame, hfailed⟩⟩ := ha
    · have h₃ := h₂.put hput hsent rfl
      exact ⟨h₃.inv, fun _ _ => .pure h₃, fun _ _ => .pure (h₃.covered rfl rfl)⟩
    · have h₃ := h₂.same ⟨by rw [hsame], hsent⟩
        (h₂.inv.same ⟨by rw [hsame], hsent⟩ (hsame ▸ h₂.inv.valid))
      refine ⟨h₃.inv, ?_, fun _ _ => .pure (h₃.covered hcalm rfl)⟩
      rintro a rfl
      exact absurd rfl hfailed

/-- After an exception the attempt is stored as unknown. -/
theorem store_covered (h : Covered isDatetime entry w) {status : JournalStatus}
    {update : UpdateOptions} :
    Runs isDatetime (fun _ _ => True) (store options entry status update) w := by
  refine .bind (.ask rfl h.inv fun now w₁ hsame hinv _ => ?_)
  have h₁ : Covered isDatetime entry w₁ := ⟨hinv, hsame.entries ▸ h.only, hsame.entries ▸ h.calm⟩
  refine .bind (.called ?_ fun answer w₂ ha => ⟨?_, fun _ _ => .pure trivial⟩)
  · intro e he hid hforensic
    simp [h₁.calm e he hid] at hforensic
  · obtain ⟨hsent, hput | ⟨hsame, -⟩⟩ := ha
    · exact h₁.inv.put hput hsent fun _ => h₁.only
    · exact h₁.inv.same ⟨by rw [hsame], hsent⟩ (hsame ▸ h₁.inv.valid)

theorem submit_runs {rounds : Nat} {action : LifecycleAction} {data : String}
    {replayOfAttemptId : Option String} (h : Free isDatetime w) :
    Runs isDatetime (fun _ _ => True) (submit options rounds action data replayOfAttemptId) w := by
  unfold submit
  refine .bind (.called h.free fun answer w₁ ha => ?_)
  obtain rfl : w₁ = w := ha
  refine ⟨h.inv, fun transaction _ => ?_⟩
  refine .bind (.ask rfl h.inv fun balance w₂ hsame hinv _ => .guard fun _ => .guard fun _ => ?_)
  have h₂ := h.same hsame hinv
  refine .bind (.ask rfl h₂.inv fun now w₃ hsame hinv _ => ?_)
  have h₃ := h₂.same hsame hinv
  refine .bind (.called ?_ fun answer w₄ ha => ?_)
  · intro e he _ hforensic
    cases (h₃.free e he).symm.trans (JournalStatus.isUnresolved_of_isForensic hforensic)
  obtain ⟨hsent, hput | ⟨hsame, hfailed⟩⟩ := ha
  · obtain ⟨h₄, hnew⟩ : _ ∧ w₄.NotSent transaction := h₃.prepared hput hsent rfl rfl rfl
    refine ⟨h₄.inv, fun _ _ => ?_⟩
    refine .bind ((broadcastEntry_runs h₄ rfl ⟨_, h₄.mem, rfl, rfl, rfl⟩ hnew).mono ?_)
    rintro (⟨entry, error⟩ | entry) w₅ h₅
    · exact .bind ((store_covered h₅).mono fun _ _ _ => .pure trivial)
    · refine .bind ((waitAndReconcile_runs h₅).mono fun finalEntry _ _ => ?_)
      split_ifs <;> exact .pure trivial
  · refine ⟨h₃.inv.same ⟨by rw [hsame], hsent⟩ (hsame ▸ h₃.inv.valid), ?_⟩
    rintro a rfl
    exact absurd rfl hfailed

theorem perform_runs {rounds : Nat} (h : Free isDatetime w) :
    Runs isDatetime (fun _ _ => True) (perform options rounds) w := by
  unfold perform
  refine .bind (.ask rfl h.inv fun snapshot w₁ hsame hinv _ => .guard fun _ => ?_)
  have h₁ := h.same hsame hinv
  cases planNextAction snapshot with
  | none => exact .pure trivial
  | some action =>
    refine .bind (.ask rfl h₁.inv fun entries w₂ hsame hinv _ => ?_)
    have h₂ := h₁.same hsame hinv
    dsimp only
    cases (previousAttempt entries action).filter (·.status.isUnresolved) with
    | some unresolved => exact .pure trivial
    | none =>
      refine .bind ((prepareData_runs h₂).mono fun data w₃ h₃ => ?_)
      cases data with
      | none => exact .pure trivial
      | some data => exact submit_runs h₃

theorem runOnce_runs {rounds : Nat} (h : Inv isDatetime w) :
    Runs isDatetime (fun _ _ => True) (runOnce options rounds) w := by
  unfold runOnce
  refine .bind ((preflight_runs h).mono fun _ w₁ h₁ => ?_)
  refine .bind ((reconcileOutstanding_runs h₁).mono fun outstanding w₂ h₂ => ?_)
  cases outstanding with
  | some outstanding => exact .pure trivial
  | none => exact perform_runs (h₂ rfl)

/-! ### All runs -/

/-- Runs of the engine, one at a time, any of which may be dropped at any question.  The journal
that is found first is a valid one with at most one unresolved attempt, such as an empty one. -/
def keeper (isDatetime : String → Bool) (options : EngineOptions) : TransitionSystem
    (Protocol.Session KeeperWorld Request Response (Except String KeeperRunResult))
    Protocol.SessionEvent :=
  (protocol isDatetime).sessions {p | ∃ rounds, p = (runOnce options rounds).run} fun w =>
    w.document.valid isDatetime = true ∧ w.AtMostOne ∧ w.broadcasts = []

variable {s : Protocol.Session KeeperWorld Request Response (Except String KeeperRunResult)}

theorem keeper_kept (h : (keeper isDatetime options).Reachable s) :
    (protocol isDatetime).Kept s := by
  refine Protocol.Kept.of_reachable ?_ ?_ h
  · rintro w ⟨hvalid, hsingle, hnone⟩
    exact ⟨hvalid, hsingle, by simp [hnone], by simp [hnone]⟩
  · rintro _ ⟨rounds, rfl⟩ w hinv
    exact Protocol.Safe.mono (fun _ _ _ => trivial) (runOnce_runs hinv)

/-- One answer: every entry goes on, and a forensic one only as an obsolete one. -/
theorem entries_continue {r : Request} {answer : Response r} (hinv : Inv isDatetime w)
    (hallowed : w.Allowed r) (ha : w.Answers isDatetime r answer w') :
    ∀ e ∈ w.document.entries, ∃ e' ∈ w'.document.entries, Continues e e' ∧
      (e.status.isForensic = true → e' = e ∨ e'.status = .obsolete) := by
  intro e he
  have hkeep (heq : w'.document.entries = w.document.entries) : ∃ e' ∈ w'.document.entries,
      Continues e e' ∧ (e.status.isForensic = true → e' = e ∨ e'.status = .obsolete) :=
    ⟨e, heq ▸ he, .refl e, fun _ => .inl rfl⟩
  by_cases hquiet : r.isQuiet = true
  · exact hkeep (answers_same hquiet hinv ha).1.entries
  cases r with
  | sign => exact hkeep (by rw [show w' = w from ha])
  | broadcast transaction =>
    exact hkeep (by rw [show w' = { w with broadcasts := transaction :: w.broadcasts } from ha])
  | put entry =>
    obtain ⟨-, hput | ⟨hsame, -⟩⟩ := ha
    · obtain ⟨e', he', hcont⟩ :=
        (JournalDocument.put_extends (JournalDocument.valid.wellFormed hinv.valid) hput).entries e he
      refine ⟨e', he', hcont, fun hforensic => ?_⟩
      by_cases hid : e.attemptId = entry.attemptId
      · refine .inr ?_
        obtain rfl : e' = entry := List.inj_on_of_nodup_map (JournalDocument.valid.wellFormed
          (JournalDocument.put_valid hput)).attemptIds he' (JournalDocument.put_mem hput)
          (hcont.same.attemptId.trans hid)
        exact hallowed e he hid hforensic
      · refine .inl (List.inj_on_of_nodup_map (JournalDocument.valid.wellFormed
          (JournalDocument.put_valid hput)).attemptIds he' ((mem_put hput).2 (.inr ⟨he, hid⟩))
          hcont.same.attemptId)
    · exact hkeep (by rw [hsame])
  | _ => exact absurd rfl hquiet

/-- **One attempt at a time.**  In every state of every sequence of runs and crashes at most one
attempt is unresolved, every transaction that was broadcast is journalled and none was broadcast
twice; nothing is signed while an attempt is unresolved, nothing is broadcast while one is unknown
or reverted, and such an attempt stays as it is until it becomes obsolete. -/
theorem attempts_exclusive (h : (keeper isDatetime options).Reachable s) :
    (s.world.AtMostOne ∧ (∀ sent ∈ s.world.broadcasts, s.world.Journalled sent) ∧
      (s.world.broadcasts.map (·.hash.toLower)).Nodup) ∧
    (∀ r k, s.running = some (.ask r k) → s.world.Allowed r) ∧
    ∀ event s', (keeper isDatetime options).step s event s' →
      ∀ e ∈ s.world.document.entries, ∃ e' ∈ s'.world.document.entries, Continues e e' ∧
        (e.status.isForensic = true → e' = e ∨ e'.status = .obsolete) := by
  have hkept := keeper_kept h
  refine ⟨⟨hkept.inv.single, hkept.inv.journalled, hkept.inv.once⟩, fun r k => hkept.allowed,
    fun event s' hstep => ?_⟩
  cases hstep with
  | answer ha => exact entries_continue hkept.inv (hkept.allowed rfl) ha
  | _ => exact fun e he => ⟨e, he, .refl e, fun _ => .inl rfl⟩

/-! ### A round is closed -/

deriving instance DecidableEq for Request

def dueVault : VaultSnapshot where
  vault := {
    id := 1
    name := "Weekly"
    address := "0xaaaaaaaaaaaaaaaaaaaaaaaaaaaaaaaaaaaaaaaa"
    bondEscrow := "0xbbbbbbbbbbbbbbbbbbbbbbbbbbbbbbbbbbbbbbbb"
    automaticEntry := false }
  activeRoundId := 1
  bondAmount := 5
  autoEntryCandidates := []
  rounds := [{
    roundId := 1
    opensAt := 0
    closesAt := 10
    state := .open
    publicAggregateTwab := 0
    publicPrize := 0
    participantCount := 0
    selectionCursor := 0
    allocationCursor := 0
    candidateValidityHandle := none }]

def dueSnapshot : ProtocolSnapshot where
  chainId := SEPOLIA_CHAIN_ID
  blockNumber := 1
  blockHash := "0x1"
  blockTimestamp := 10
  vaults := [dueVault]

/-- An attempt at the closure whose block was reorged. -/
def reorgedClosure : JournalEntry where
  attemptId := "0xaaaaaaaaaaaaaaaaaaaaaaaaaaaaaaaaaaaaaaaa:1:close-round:10:" ++
    "0xcccccccccccccccccccccccccccccccccccccccccccccccccccccccccccccccc"
  replayOfAttemptId := none
  actionKey := "0xaaaaaaaaaaaaaaaaaaaaaaaaaaaaaaaaaaaaaaaa:1:close-round:10"
  vault := "0xaaaaaaaaaaaaaaaaaaaaaaaaaaaaaaaaaaaaaaaa"
  vaultName := "Weekly"
  roundId := "1"
  action := .closeRound
  cursor := none
  account := none
  txHash := "0xcccccccccccccccccccccccccccccccccccccccccccccccccccccccccccccccc"
  calldataHash := "0xdddddddddddddddddddddddddddddddddddddddddddddddddddddddddddddddd"
  nonce := 0
  submittedAt := ""
  updatedAt := ""
  status := .reorged
  blockNumber := none
  blockHash := none
  confirmations := none
  errorCode := none
  history := [{
    status := .reorged
    «at» := ""
    blockNumber := none
    blockHash := none
    confirmations := none
    errorCode := none }]

def signedClosure (action : LifecycleAction) : SignedLifecycleTransaction where
  action
  hash := "0xcccccccccccccccccccccccccccccccccccccccccccccccccccccccccccccccc"
  nonce := 0
  serialized := "0x"
  calldataHash := "0xdddddddddddddddddddddddddddddddddddddddddddddddddddddddddddddddd"
  maximumCostWei := 1

/-- What a `put` answers, and the world after it. -/
def stored (w : KeeperWorld) : Except JournalError JournalDocument → Except String Unit × KeeperWorld
  | .ok document => (.ok (), { w with document })
  | .error _ => (.error "ERROR", w)

theorem stored_answers {result : Except JournalError JournalDocument}
    (h : w.document.put isDatetime entry = result) :
    w.Answers isDatetime (.put entry) (stored w result).1 (stored w result).2 := by
  cases result with
  | ok document => exact ⟨rfl, .inl h⟩
  | error error => exact ⟨rfl, .inr ⟨rfl, fun hok => by cases hok⟩⟩

/-- A gateway whose transactions are never mined, over the stored journal. -/
def dueOracle (w : KeeperWorld) : (r : Request) → Response r × KeeperWorld
  | .getChainId => (.ok SEPOLIA_CHAIN_ID, w)
  | .getKeeperBalance => (.ok 5, w)
  | .readSnapshot _ => (.ok dueSnapshot, w)
  | .encodeAction _ => (.ok "0x", w)
  | .simulate _ _ => (.ok (), w)
  | .sign action _ => (.ok (signedClosure action), w)
  | .broadcast transaction =>
    (.ok transaction.hash, { w with broadcasts := transaction :: w.broadcasts })
  | .getReceipt _ => (.ok none, w)
  | .getTransaction _ => (.ok none, w)
  | .getTransactionCount _ => (.ok 0, w)
  | .list => (.ok w.document.entries, w)
  | .put entry => stored w (w.document.put (fun _ => true) entry)
  | .now => (.ok 0, w)
  | .sleep _ => (.ok (), w)

theorem dueOracle_answers (w : KeeperWorld) (r : Request) :
    (protocol fun _ => true).answers w r (dueOracle w r).1 (dueOracle w r).2 := by
  cases r with
  | put entry => exact stored_answers rfl
  | list => exact ⟨rfl, fun entries h => (Except.ok.inj h).symm⟩
  | readSnapshot hint => exact ⟨rfl, rfl, id⟩
  | _ => rfl

def dueWorld : KeeperWorld where
  document := {
    schema := "leopold.keeper-journal.v3"
    entries := [reorgedClosure]
    checkpoints := [] }
  broadcasts := []

def dueOptions : EngineOptions where
  minimumBalanceWei := 1
  maximumBalanceWei := 9
  confirmations := 2
  receiptWaitMs := 0
  receiptPollMs := 0
  toISOString _ := ""
  getTime _ := 0

def closure : LifecycleAction where
  key := reorgedClosure.actionKey
  kind := .closeRound
  vault := dueVault.vault
  roundId := 1
  cursor := none
  account := none

/-- A run after its first answers, and the world. -/
def closing (answers : Nat) :
    Program Request Response (Except String KeeperRunResult) × KeeperWorld :=
  Protocol.play dueOracle answers (runOnce dueOptions 1).run dueWorld

/-- After a reorg the next run signs the closure again; nothing is unresolved then. -/
theorem attempts_exclusive_reorged : ∃ k,
    (closing 7).1 = .ask (.sign closure "0x") k ∧ (closing 7).2.document.entries ≠ [] ∧
    ∀ e ∈ (closing 7).2.document.entries, e.status.isUnresolved = false := by
  have hstart : (keeper (fun _ => true) dueOptions).Reachable
      ⟨dueWorld, some (runOnce dueOptions 1).run⟩ :=
    TransitionSystem.ReachableVia.step (.init ⟨⟨by decide +kernel, by simp [AtMostOne, dueWorld],
      rfl⟩, rfl⟩) (.start ⟨1, rfl⟩) trivial
  have hreached := Protocol.Session.reachable_play dueOracle_answers hstart 7
  obtain ⟨k, hk⟩ : ∃ k, (closing 7).1 = .ask (.sign closure "0x") k :=
    Program.exists_of_question (by decide +kernel)
  exact ⟨k, hk, by decide +kernel, (attempts_exclusive hreached).2.1 _ k (congrArg some hk)⟩

end Engine

end Leopold.Keeper
