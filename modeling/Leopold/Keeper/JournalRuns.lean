import Leopold.Keeper.JournalStore

/-!
# Runs of the journal store

As long as no file-system step fails between the creation of the temporary file and its
publication, the calls have the effect they would have one after the other: a call that resolves
did what it does alone, and a call that rejects did nothing.
-/

namespace Leopold.Keeper

open Lib Lib.PromiseQueue

namespace JournalCall

/-- The document has what the call stores.  Under the dropped key nothing is stored. -/
def StoredIn (document : JournalDocument) : JournalCall → Prop
  | .put entry => entry ∈ document.entries
  | .putCheckpoint key value => key ≠ droppedKey → document.storedCheckpoint key = some value

/-- The document has what the call stores, or what went on from it. -/
def KeptIn (document : JournalDocument) : JournalCall → Prop
  | .put entry => ∃ next ∈ document.entries, Continues entry next
  | .putCheckpoint key _ => key ≠ droppedKey → (document.storedCheckpoint key).isSome

/-- The call stores something in the place of what the other one stored. -/
def overwrites : JournalCall → JournalCall → Bool
  | .put entry, .put other => entry.attemptId == other.attemptId
  | .putCheckpoint key _, .putCheckpoint other _ => key == other
  | _, _ => false

section

variable {isDatetime : String → Bool} {current next : JournalDocument} {call other : JournalCall}

theorem apply_stores (h : call.apply isDatetime current = .ok next) : call.StoredIn next := by
  cases call with
  | put entry => exact JournalDocument.put_mem h
  | putCheckpoint key value =>
    intro hkey
    rw [JournalDocument.putCheckpoint_checkpoint h hkey, if_pos rfl]

theorem StoredIn.apply (hstored : other.StoredIn current)
    (h : call.apply isDatetime current = .ok next) (hother : call.overwrites other = false) :
    other.StoredIn next := by
  cases other with
  | put stored =>
    change stored ∈ next.entries
    cases call with
    | put entry =>
      rw [JournalDocument.put_entries h]
      refine List.mem_append_left _ (List.mem_filter.2 ⟨hstored, ?_⟩)
      rw [overwrites, beq_eq_false_iff_ne] at hother
      exact bne_iff_ne.2 hother.symm
    | putCheckpoint key value =>
      rw [JournalDocument.putCheckpoint_entries h]
      exact hstored
  | putCheckpoint stored value =>
    intro hkey
    cases call with
    | put entry =>
      rw [JournalDocument.put_checkpoint h hkey]
      exact hstored hkey
    | putCheckpoint key value' =>
      rw [overwrites, beq_eq_false_iff_ne] at hother
      rw [JournalDocument.putCheckpoint_checkpoint h hkey, if_neg hother.symm]
      exact hstored hkey

theorem StoredIn.kept (h : call.StoredIn current) : call.KeptIn current := by
  cases call with
  | put entry => exact ⟨entry, h, .refl entry⟩
  | putCheckpoint key value =>
    intro hkey
    rw [h hkey]
    rfl

theorem KeptIn.extends (h : call.KeptIn current) (hext : Extends current next) :
    call.KeptIn next := by
  cases call with
  | put entry =>
    obtain ⟨middle, hmem, hcont⟩ := h
    obtain ⟨later, hlater, hcont'⟩ := hext.entries middle hmem
    exact ⟨later, hlater, hcont.trans hcont'⟩
  | putCheckpoint key value => exact fun hkey => hext.checkpoints key hkey (h hkey)

end

end JournalCall

/-- The steps before the temporary file exists. -/
def Progress.isEarly : Progress → Bool
  | .reading | .preparing _ | .creating _ => true
  | _ => false

namespace FileJournalStore

variable (store : FileJournalStore)

/-- The calls one after the other, from one stored text to another.  A call that resolves stores
its change; a call that rejects is invalid in its place or lost a file-system step of its own, and
changes nothing. -/
inductive Served : Option Content → List StoreCall → Option Content → Prop
  | nil {x : Option Content} : Served x [] x
  | resolved {x y z : Option Content} {c : StoreCall} {rest : List StoreCall}
      (hc : c.turn = .settled (.ok ())) (h : store.serial c.tag.call x = .ok y)
      (hs : Served y rest z) : Served x (c :: rest) z
  | rejected {x z : Option Content} {c : StoreCall} {rest : List StoreCall} {e : JournalError}
      (hc : c.turn = .settled (.error e))
      (h : store.serial c.tag.call x = .error e ∨ c.tag.ioFailed = true)
      (hs : Served x rest z) : Served x (c :: rest) z

/-- What the files hold while a call that found the text `x` is at a step. -/
def Stage (call : JournalCall) (x : Option Content) (files : FileSystem) : Progress → Prop
  | .reading => files store.journalPath = x ∧ files store.temporaryPath = none
  | .preparing next | .creating next =>
    files store.journalPath = x ∧ files store.temporaryPath = none ∧
      store.serial call x = .ok (some (.journal next))
  | .writing next =>
    files store.journalPath = x ∧ store.serial call x = .ok (some (.journal next))
  | .syncing | .closing none | .publishing =>
    files store.journalPath = x ∧ store.serial call x = .ok (files store.temporaryPath)
  | .openingDirectory | .syncingDirectory | .closingDirectory none =>
    files store.temporaryPath = none ∧ store.serial call x = .ok (files store.journalPath)
  | .closing (some _) | .closingDirectory (some _) => False

/-- What the files hold after a step of a call that found the text `x`. -/
def Landed (call : JournalCall) (x : Option Content) (ioFailed : Bool) :
    FileSystem × (Progress ⊕ Except JournalError Unit) → Prop
  | (files, .inl progress) => store.Stage call x files progress
  | (files, .inr (.ok ())) =>
    files store.temporaryPath = none ∧ store.serial call x = .ok (files store.journalPath)
  | (files, .inr (.error e)) =>
    files store.temporaryPath = none ∧ files store.journalPath = x ∧
      (store.serial call x = .error e ∨ ioFailed = true)

/-- The calls that have not had their turn: the waiting ones passed their check and no step of
theirs failed; the others were answered at once. -/
def Pending (queued : List StoreCall) : Prop :=
  ∀ c ∈ queued, c.tag.ioFailed = false ∧
    ((∃ previous own, c.turn = .waiting previous own) → c.tag.call.check = .ok ()) ∧
    ∀ result, c.turn = .settled result →
      ∃ e, result = .error e ∧ c.tag.call.check = .error e

/-- The call whose turn it is, if there is one, found the text `x`. -/
def Turned (x : Option Content) (files : FileSystem) : Option StoreCall → Prop
  | none => files store.journalPath = x ∧ files store.temporaryPath = none
  | some c => c.tag.call.check = .ok () ∧ ∀ own progress, c.turn = .running own progress →
      store.Stage c.tag.call x files progress

/-- After `k` turns: the calls that had their turn led from the text `x₀` to the text `x`. -/
structure Orderly (x₀ : Option Content) (w : JournalWorld) (k : Nat) (finished : List StoreCall)
    (active : Option StoreCall) (queued : List StoreCall) (x : Option Content) : Prop where
  ordered : w.queue.Ordered k finished active queued
  served : store.Served x₀ finished x
  turned : store.Turned x w.files active
  pending : Pending queued

/-- The invariant of the runs from the text `x₀`. -/
def Serial (x₀ : Option Content) (w : JournalWorld) : Prop :=
  ∃ k finished active queued x, store.Orderly x₀ w k finished active queued x

/-- No file-system step fails once the temporary file exists. -/
def EarlyFailures (w : JournalWorld) (event : JournalEvent) (_ : JournalWorld) : Prop :=
  ∀ i residue, event = .advance i (.failed residue) →
    ∀ tag own progress, w.queue.items[i]? = some ⟨tag, .running own progress⟩ →
      progress.isEarly = true

variable {store} {x x₀ y z : Option Content} {files : FileSystem} {call : JournalCall}
  {progress : Progress} {outcome : IoOutcome} {w w' : JournalWorld} {event : JournalEvent}
  {l l' : List StoreCall} {c : StoreCall}

theorem temporaryPath_ne : store.temporaryPath ≠ store.journalPath := by
  intro h
  have hlen := congrArg String.length h
  rw [temporaryPath, String.length_append, String.length_append] at hlen
  have : (".tmp-" : String).length = 5 := rfl
  omega

theorem Served.append (h : store.Served x l y) (h' : store.Served y l' z) :
    store.Served x (l ++ l') z := by
  induction h with
  | nil => exact h'
  | resolved hc hok _ ih => exact .resolved hc hok (ih h')
  | rejected hc hbad _ ih => exact .rejected hc hbad (ih h')

/-- Calls that are answered at once change nothing. -/
theorem Served.answered (hsettled : AllSettled l) (h : Pending l) : store.Served x l x := by
  induction l with
  | nil => exact .nil
  | cons c rest ih =>
    obtain ⟨result, hc⟩ := hsettled c List.mem_cons_self
    obtain ⟨e, rfl, hcheck⟩ := (h c List.mem_cons_self).2.2 result hc
    refine .rejected hc (.inl ?_) ?_
    · rw [serial, hcheck]
      rfl
    · exact ih (fun c hc => hsettled c (List.mem_cons_of_mem _ hc))
        fun c hc => h c (List.mem_cons_of_mem _ hc)

/-- A call that has passed its check does in its turn what it does alone. -/
theorem serial_of_check (hcheck : call.check = .ok ()) :
    store.serial call x = (store.read x >>= fun current =>
      call.apply store.isDatetime current) >>= fun next => .ok (some (.journal next)) := by
  rw [serial, hcheck, bind_ok, bind_assoc]
  rfl

/-- Every step keeps the files in order. -/
theorem Stage.advance (h : store.Stage call x files progress) (hcheck : call.check = .ok ())
    (hearly : outcome.isFailed = true → progress.isEarly = true) :
    store.Landed call x outcome.isFailed (store.advance files call progress outcome) := by
  have hne : store.journalPath ≠ store.temporaryPath := temporaryPath_ne.symm
  cases outcome with
  | failed residue =>
    have hprogress := hearly rfl
    cases progress with
    | reading => exact ⟨h.2, h.1, .inr rfl⟩
    | preparing next | creating next => exact ⟨h.2.1, h.1, .inr rfl⟩
    | _ => cases hprogress
  | ok =>
    cases progress with
    | reading =>
      obtain ⟨hfile, htemp⟩ := h
      have hserial : store.serial call x = (store.read x >>= fun current =>
          call.apply store.isDatetime current) >>= fun next => .ok (some (.journal next)) :=
        serial_of_check hcheck
      rw [FileJournalStore.advance, hfile]
      cases hread : store.read x >>= fun current => call.apply store.isDatetime current with
      | error e =>
        rw [hread, bind_error] at hserial
        exact ⟨htemp, hfile, .inl hserial⟩
      | ok next =>
        rw [hread, bind_ok] at hserial
        exact ⟨hfile, htemp, hserial⟩
    | preparing next => exact h
    | creating next =>
      obtain ⟨hfile, htemp, hserial⟩ := h
      rw [FileJournalStore.advance, htemp]
      refine ⟨?_, hserial⟩
      rw [Function.update_of_ne hne]
      exact hfile
    | writing next =>
      obtain ⟨hfile, hserial⟩ := h
      refine ⟨?_, ?_⟩
      · rw [Function.update_of_ne hne]
        exact hfile
      · rw [Function.update_self]
        exact hserial
    | syncing => exact h
    | closing failure =>
      cases failure with
      | none => exact h
      | some e => cases h
    | publishing =>
      refine ⟨Function.update_self .., ?_⟩
      rw [Function.update_of_ne hne, Function.update_self]
      exact h.2
    | openingDirectory | syncingDirectory => exact h
    | closingDirectory failure =>
      cases failure with
      | none => exact h
      | some e => cases h

/-- A step of a running call leaves the stored text alone or publishes what the call does. -/
theorem Stage.publish (h : store.Stage call x files progress) :
    (store.advance files call progress outcome).1 store.journalPath = files store.journalPath ∨
      store.serial call (files store.journalPath) =
        .ok ((store.advance files call progress outcome).1 store.journalPath) := by
  have hne : store.journalPath ≠ store.temporaryPath := temporaryPath_ne.symm
  cases progress with
  | publishing =>
    cases outcome with
    | failed residue => exact .inl rfl
    | ok =>
      right
      obtain ⟨hfile, hserial⟩ := h
      rw [FileJournalStore.advance, hfile]
      change store.serial call x = .ok (Function.update
        (Function.update files store.journalPath (files store.temporaryPath))
        store.temporaryPath none store.journalPath)
      rw [Function.update_of_ne hne, Function.update_self]
      exact hserial
  | writing next =>
    left
    cases outcome <;> exact Function.update_of_ne hne _ _
  | reading =>
    left
    cases outcome with
    | failed residue => rfl
    | ok =>
      rw [FileJournalStore.advance]
      split <;> rfl
  | creating next =>
    left
    cases outcome with
    | failed residue => rfl
    | ok =>
      rw [FileJournalStore.advance]
      split_ifs
      · rfl
      · exact Function.update_of_ne hne _ _
  | closing failure | closingDirectory failure =>
    left
    cases failure <;> cases outcome <;> rfl
  | preparing next =>
    left
    cases outcome <;> rfl
  | syncing | openingDirectory | syncingDirectory =>
    left
    cases outcome <;> rfl

/-- Everything a step of the store can be. -/
theorem step_cases (h : store.step w event = some w') :
    (∃ call e, event = .issue call ∧ call.check = .error e ∧
      w' = { w with queue := w.queue.answer ⟨call, false⟩ (.error e) }) ∨
    (∃ call, event = .issue call ∧ call.check = .ok () ∧
      w' = { w with queue := w.queue.enqueue ⟨call, false⟩ }) ∨
    (∃ i outcome tag previous own, event = .advance i outcome ∧
      w.queue.items[i]? = some ⟨tag, .waiting previous own⟩ ∧
      w.queue.resolved previous = true ∧
      w' = { w with queue := w.queue.update i ⟨tag, .running own .reading⟩ }) ∨
    (∃ i outcome tag own progress files progress', event = .advance i outcome ∧
      w.queue.items[i]? = some ⟨tag, .running own progress⟩ ∧
      store.advance w.files tag.call progress outcome = (files, .inl progress') ∧
      w' = ⟨files, w.queue.update i
        ⟨⟨tag.call, tag.ioFailed || outcome.isFailed⟩, .running own progress'⟩⟩) ∨
    (∃ i outcome tag own progress files result, event = .advance i outcome ∧
      w.queue.items[i]? = some ⟨tag, .running own progress⟩ ∧
      store.advance w.files tag.call progress outcome = (files, .inr result) ∧
      w' = ⟨files, w.queue.release i own
        ⟨⟨tag.call, tag.ioFailed || outcome.isFailed⟩, .settled result⟩⟩) := by
  cases event with
  | issue call =>
    rw [step] at h
    cases hcheck : call.check with
    | error e =>
      rw [hcheck] at h
      exact .inl ⟨call, e, rfl, hcheck, (Option.some.inj h).symm⟩
    | ok u =>
      rw [hcheck] at h
      exact .inr (.inl ⟨call, rfl, hcheck, (Option.some.inj h).symm⟩)
  | advance i outcome =>
    rw [step] at h
    cases hi : w.queue.items[i]? with
    | none =>
      rw [hi] at h
      cases h
    | some item =>
      obtain ⟨tag, turn⟩ := item
      rw [hi] at h
      cases turn with
      | settled result => cases h
      | waiting previous own =>
        obtain ⟨hresolved, hw'⟩ := Option.ite_none_right_eq_some.1 h
        exact .inr (.inr (.inl ⟨i, outcome, tag, previous, own, rfl, hi, hresolved,
          (Option.some.inj hw').symm⟩))
      | running own progress =>
        cases hadvance : store.advance w.files tag.call progress outcome with
        | mk files next =>
          simp only [hadvance] at h
          cases next with
          | inl progress' =>
            exact .inr (.inr (.inr (.inl ⟨i, outcome, tag, own, progress, files, progress', rfl,
              hi, hadvance, (Option.some.inj h).symm⟩)))
          | inr result =>
            exact .inr (.inr (.inr (.inr ⟨i, outcome, tag, own, progress, files, result, rfl,
              hi, hadvance, (Option.some.inj h).symm⟩)))

theorem Pending.snoc (h : Pending l) (hc : c.tag.ioFailed = false)
    (hwaiting : (∃ previous own, c.turn = .waiting previous own) → c.tag.call.check = .ok ())
    (hsettled : ∀ result, c.turn = .settled result →
      ∃ e, result = .error e ∧ c.tag.call.check = .error e) :
    Pending (l ++ [c]) := by
  intro c' hc'
  rcases List.mem_append.1 hc' with hc' | hc'
  · exact h c' hc'
  · rw [List.mem_singleton] at hc'
    subst hc'
    exact ⟨hc, hwaiting, hsettled⟩

/-- The step of the running call, from the order of the calls before it. -/
theorem Orderly.running {k i : Nat} {finished queued : List StoreCall} {active : Option StoreCall}
    {tag : IssuedCall} {own : Nat} (h : store.Orderly x₀ w k finished active queued x)
    (hi : w.queue.items[i]? = some ⟨tag, .running own progress⟩)
    (hearly : outcome.isFailed = true → progress.isEarly = true) :
    active = some ⟨tag, .running own progress⟩ ∧ own = k + 1 ∧
      (∀ item', w.queue.items.set i item' = finished ++ item' :: queued) ∧
      tag.call.check = .ok () ∧ store.Stage tag.call x w.files progress ∧
      store.Landed tag.call x outcome.isFailed
        (store.advance w.files tag.call progress outcome) := by
  obtain ⟨rfl, hown, hset⟩ := h.ordered.running hi rfl
  obtain ⟨hcheck, hstage⟩ := h.turned
  have hstage := hstage own progress rfl
  exact ⟨rfl, hown, hset, hcheck, hstage, hstage.advance hcheck hearly⟩

/-- **Step lemma.**  Every step keeps the calls in order. -/
theorem Serial.step (h : store.Serial x₀ w) (hstep : store.step w event = some w')
    (hearly : EarlyFailures w event w') : store.Serial x₀ w' := by
  obtain ⟨k, finished, active, queued, x, h⟩ := h
  rcases step_cases hstep with ⟨call, e, -, hcheck, rfl⟩ | ⟨call, -, hcheck, rfl⟩ |
    ⟨i, outcome, tag, previous, own, -, hi, hresolved, rfl⟩ |
    ⟨i, outcome, tag, own, progress, files, progress', hevent, hi, hadvance, rfl⟩ |
    ⟨i, outcome, tag, own, progress, files, result, hevent, hi, hadvance, rfl⟩
  · refine ⟨k, finished, active, _, x, h.ordered.answer, h.served, h.turned,
      h.pending.snoc rfl ?_ ?_⟩
    · rintro ⟨previous, own, ⟨⟩⟩
    · rintro _ ⟨⟩
      exact ⟨e, rfl, hcheck⟩
  · refine ⟨k, finished, active, _, x, h.ordered.enqueue, h.served, h.turned,
      h.pending.snoc rfl ?_ nofun⟩
    exact fun _ => hcheck
  · have hturn : (⟨tag, .running own .reading⟩ : StoreCall).turn = .running own .reading := rfl
    obtain ⟨rfl, passed, rest, rfl, hpassed, hordered⟩ := h.ordered.wake hi rfl hresolved hturn
    have hpending : Pending passed := fun c hc => h.pending c (List.mem_append_left _ hc)
    refine ⟨k, finished ++ passed, _, rest, x, hordered,
      h.served.append (.answered hpassed hpending), ?_, ?_⟩
    · refine ⟨?_, ?_⟩
      · have hmem : (⟨tag, .waiting previous own⟩ : StoreCall) ∈
            passed ++ ⟨tag, .waiting previous own⟩ :: rest := by simp
        exact (h.pending _ hmem).2.1 ⟨previous, own, rfl⟩
      · rintro own' progress ⟨⟩
        exact h.turned
    · exact fun c hc => h.pending c (by simp [hc])
  · have hprogress : outcome.isFailed = true → progress.isEarly = true := by
      intro hfailed
      cases outcome with
      | ok => cases hfailed
      | failed residue => exact hearly i residue hevent tag own progress hi
    obtain ⟨rfl, hown, hset, hcheck, -, hlanded⟩ := h.running hi hprogress
    rw [hadvance] at hlanded
    refine ⟨k, finished, _, queued, x, h.ordered.update (hset _) hown rfl, h.served, ?_, h.pending⟩
    refine ⟨hcheck, ?_⟩
    rintro own' progress'' ⟨⟩
    exact hlanded
  · have hprogress : outcome.isFailed = true → progress.isEarly = true := by
      intro hfailed
      cases outcome with
      | ok => cases hfailed
      | failed residue => exact hearly i residue hevent tag own progress hi
    obtain ⟨rfl, hown, hset, hcheck, -, hlanded⟩ := h.running hi hprogress
    rw [hadvance] at hlanded
    have hturn : (⟨⟨tag.call, tag.ioFailed || outcome.isFailed⟩, .settled result⟩ :
        StoreCall).turn = .settled result := rfl
    have hordered := h.ordered.release (hset _) hown hturn
    cases result with
    | ok u =>
      obtain ⟨htemp, hserial⟩ := hlanded
      exact ⟨k + 1, _, none, queued, files store.journalPath, hordered,
        h.served.append (.resolved rfl hserial .nil), ⟨rfl, htemp⟩, h.pending⟩
    | error e =>
      obtain ⟨htemp, hfile, hbad⟩ := hlanded
      refine ⟨k + 1, _, none, queued, x, hordered, h.served.append (.rejected rfl ?_ .nil),
        ⟨hfile, htemp⟩, h.pending⟩
      refine hbad.imp_right ?_
      intro hfailed
      change (tag.ioFailed || outcome.isFailed) = true
      rw [hfailed, Bool.or_true]

/-! ### Runs -/

section Runs

variable {w₀ : JournalWorld}

theorem Serial.initial (h : store.system.init w₀) : store.Serial (store.content w₀) w₀ := by
  obtain ⟨hqueue, htemp⟩ := h
  have hturned : store.Turned (store.content w₀) w₀.files none := ⟨rfl, htemp⟩
  have hordered : w₀.queue.Ordered 0 [] none [] := by
    rw [hqueue]
    exact .empty
  have hpending : Pending [] := fun c hc => absurd hc List.not_mem_nil
  exact ⟨0, [], none, [], store.content w₀, hordered, .nil, hturned, hpending⟩

/-- **Run lemma.**  The calls stay in order as long as no step fails late. -/
theorem Serial.of_run (h₀ : store.system.init w₀) (h : store.system.RunVia EarlyFailures w₀ w) :
    store.Serial (store.content w₀) w :=
  (h.preserves (.of_init h₀) (fun _ _ _ _ hI hstep hP => hI.step hstep hP) (.initial h₀)).2

/-- When all calls are done, their effect is that of one call after the other. -/
theorem Serial.served (h : store.Serial x₀ w) (hsettled : AllSettled w.queue.items) :
    store.Served x₀ w.queue.items (store.content w) := by
  obtain ⟨k, finished, active, queued, x, h⟩ := h
  have hitems := h.ordered.items
  cases active with
  | some c =>
    obtain ⟨state, hstate⟩ := h.ordered.turn c rfl
    obtain ⟨result, hresult⟩ := hsettled c (by rw [hitems]; simp)
    rw [hstate] at hresult
    cases hresult
  | none =>
    rw [Option.toList_none, List.nil_append] at hitems
    have hqueued : AllSettled queued := fun c hc => hsettled c (by rw [hitems]; simp [hc])
    rw [hitems, content, h.turned.1]
    exact h.served.append (.answered hqueued h.pending)

/-- Unless all calls are done, some call can take its next step, whatever its outcome. -/
theorem Serial.ready (h : store.Serial x₀ w) (hopen : ¬ AllSettled w.queue.items) :
    ∃ i, ∀ outcome, (store.step w (.advance i outcome)).isSome := by
  obtain ⟨k, finished, active, queued, x, h⟩ := h
  rcases h.ordered.allSettled_or_ready with hall | ⟨i, ⟨tag, turn⟩, hi, hturn⟩
  · exact absurd hall hopen
  · refine ⟨i, fun outcome => ?_⟩
    rw [FileJournalStore.step, hi]
    rcases hturn with ⟨own, progress, rfl⟩ | ⟨previous, own, rfl, hresolved⟩
    · dsimp only
      split <;> rfl
    · dsimp only
      rw [if_pos hresolved]
      rfl

/-- The file-system steps a call still has before it. -/
def Progress.remaining : Progress → Nat
  | .reading => 10
  | .preparing _ => 9
  | .creating _ => 8
  | .writing _ => 7
  | .syncing => 6
  | .closing _ => 5
  | .publishing => 4
  | .openingDirectory => 3
  | .syncingDirectory => 2
  | .closingDirectory _ => 1

/-- The steps a call still has before it. -/
def stepsLeft (c : StoreCall) : Nat :=
  match c.turn with
  | .waiting .. => 11
  | .running _ progress => Progress.remaining progress
  | .settled _ => 0

/-- The steps all issued calls still have before them. -/
def remaining (w : JournalWorld) : Nat := (w.queue.items.map stepsLeft).sum

theorem advance_remaining :
    ((store.advance files call progress outcome).2.elim Progress.remaining fun _ => 0) <
      Progress.remaining progress := by
  cases outcome with
  | failed residue =>
    cases progress with
    | closing failure | closingDirectory failure =>
      cases failure <;> exact Nat.le_of_ble_eq_true rfl
    | _ => exact Nat.le_of_ble_eq_true rfl
  | ok =>
    cases progress with
    | closing failure | closingDirectory failure =>
      cases failure <;> exact Nat.le_of_ble_eq_true rfl
    | reading =>
      rw [FileJournalStore.advance]
      split <;> exact Nat.le_of_ble_eq_true rfl
    | creating next =>
      rw [FileJournalStore.advance]
      split_ifs <;> exact Nat.le_of_ble_eq_true rfl
    | _ => exact Nat.le_of_ble_eq_true rfl

theorem sum_stepsLeft_set {i : Nat} {items : List StoreCall} {c' : StoreCall}
    (hi : items[i]? = some c) (hlt : stepsLeft c' < stepsLeft c) :
    ((items.set i c').map stepsLeft).sum < (items.map stepsLeft).sum := by
  obtain ⟨before, after, hsplit, -, hset⟩ := getElem?_split hi
  rw [hset, hsplit]
  simp only [List.map_append, List.map_cons, List.sum_append, List.sum_cons]
  omega

/-- Every step of a call brings the calls closer to being done. -/
theorem step_remaining {i : Nat} (h : store.step w (.advance i outcome) = some w') :
    remaining w' < remaining w := by
  have hleft := fun tag progress => @advance_remaining store w.files tag progress outcome
  rcases step_cases h with ⟨_, _, ⟨⟩, _⟩ | ⟨_, ⟨⟩, _⟩ |
    ⟨_, _, tag, previous, own, ⟨⟩, hi, -, rfl⟩ |
    ⟨_, _, tag, own, progress, files, progress', ⟨⟩, hi, hadvance, rfl⟩ |
    ⟨_, _, tag, own, progress, files, result, ⟨⟩, hi, hadvance, rfl⟩
  · exact sum_stepsLeft_set hi (Nat.le_refl 11)
  · have := hleft tag.call progress
    rw [hadvance] at this
    exact sum_stepsLeft_set hi this
  · have := hleft tag.call progress
    rw [hadvance] at this
    exact sum_stepsLeft_set hi this

/-! ### What a run does to the document -/

/-- If the first text is a journal, so is the second one, and it lost nothing. -/
def Grows (store : FileJournalStore) (x y : Option Content) : Prop :=
  ∀ document, store.read x = .ok document →
    ∃ later, store.read y = .ok later ∧ Extends document later

theorem Grows.refl (x : Option Content) : Grows store x x :=
  fun document h => ⟨document, h, .refl document⟩

theorem Grows.trans (h : Grows store x y) (h' : Grows store y z) : Grows store x z := by
  intro document hx
  obtain ⟨middle, hy, hext⟩ := h document hx
  obtain ⟨later, hz, hext'⟩ := h' middle hy
  exact ⟨later, hz, hext.trans hext'⟩

/-- What a store reads is a well-formed document. -/
theorem read_wellFormed {document : JournalDocument} (h : store.read x = .ok document) :
    WellFormed document := by
  rcases x with - | ⟨raw⟩ | text
  · obtain rfl : emptyJournal = document := Except.ok.inj h
    exact ⟨List.nodup_nil, List.nodup_nil, fun _ hentry => absurd hentry List.not_mem_nil⟩
  · have hparse : parseJournal store.isDatetime raw = .ok document := h
    exact JournalDocument.valid.wellFormed (parseJournal_parsed hparse).1
  · cases h

/-- A call that took effect read a document and wrote one that is read back. -/
theorem serial_eq_ok (h : store.serial call x = .ok y) : ∃ document next,
    store.read x = .ok document ∧ call.apply store.isDatetime document = .ok next ∧
      store.read y = .ok next := by
  obtain ⟨_, -, h⟩ := seq_eq_ok.1 h
  obtain ⟨document, hread, h⟩ := seq_eq_ok.1 h
  obtain ⟨next, happly, h⟩ := seq_eq_ok.1 h
  obtain rfl := Except.ok.inj h
  refine ⟨document, next, hread, happly, ?_⟩
  cases call with
  | put entry => exact (parseJournal_parsed (JournalDocument.put_ok happly).1).2
  | putCheckpoint key value => exact (parseJournal_parsed happly).2

/-- A call that is served leaves a longer journal. -/
theorem serial_grows (h : store.serial call x = .ok y) : Grows store x y := by
  obtain ⟨current, next, hread, happly, hnext⟩ := serial_eq_ok h
  intro document hdocument
  obtain rfl : current = document := by
    rw [hread] at hdocument
    exact Except.ok.inj hdocument
  refine ⟨next, hnext, ?_⟩
  cases call with
  | put entry => exact JournalDocument.put_extends (read_wellFormed hread) happly
  | putCheckpoint key value => exact JournalDocument.putCheckpoint_extends happly

theorem Serial.step_grows (h : store.Serial x₀ w) (hstep : store.step w event = some w')
    (hearly : EarlyFailures w event w') : Grows store (store.content w) (store.content w') := by
  obtain ⟨k, finished, active, queued, x, h⟩ := h
  have hpublish : ∀ i outcome tag own progress files result, event = .advance i outcome →
      w.queue.items[i]? = some ⟨tag, .running own progress⟩ →
      store.advance w.files tag.call progress outcome = (files, result) →
      Grows store (store.content w) (files store.journalPath) := by
    intro i outcome tag own progress files result hevent hi hadvance
    have hprogress : outcome.isFailed = true → progress.isEarly = true := by
      intro hfailed
      cases outcome with
      | ok => cases hfailed
      | failed residue => exact hearly i residue hevent tag own progress hi
    obtain ⟨-, -, -, -, hstage, -⟩ := h.running hi hprogress
    have hfiles : (store.advance w.files tag.call progress outcome).1 store.journalPath =
          w.files store.journalPath ∨
        store.serial tag.call (w.files store.journalPath) =
          .ok ((store.advance w.files tag.call progress outcome).1 store.journalPath) :=
      hstage.publish
    rw [hadvance] at hfiles
    rcases hfiles with hsame | hserial
    · have hcontent : files store.journalPath = store.content w := hsame
      rw [hcontent]
      exact .refl _
    · exact serial_grows hserial
  rcases step_cases hstep with ⟨_, _, -, -, rfl⟩ | ⟨_, -, -, rfl⟩ |
    ⟨_, _, _, _, _, -, -, -, rfl⟩ |
    ⟨i, outcome, tag, own, progress, files, progress', hevent, hi, hadvance, rfl⟩ |
    ⟨i, outcome, tag, own, progress, files, result, hevent, hi, hadvance, rfl⟩
  · exact .refl _
  · exact .refl _
  · exact .refl _
  · exact hpublish _ _ _ _ _ _ _ hevent hi hadvance
  · exact hpublish _ _ _ _ _ _ _ hevent hi hadvance

/-- **Run lemma.**  A journal only grows. -/
theorem Serial.run_grows (h : store.Serial x₀ w) (hrun : store.system.RunVia EarlyFailures w w') :
    Grows store (store.content w) (store.content w') := by
  have hboth : store.Serial x₀ w' ∧ Grows store (store.content w) (store.content w') := by
    induction hrun with
    | refl => exact ⟨h, .refl _⟩
    | tail _ hl ih =>
      obtain ⟨event, hstep, hearly⟩ := hl
      exact ⟨ih.1.step hstep hearly, ih.2.trans (ih.1.step_grows hstep hearly)⟩
  exact hboth.2

/-! ### What the resolved calls have stored -/

/-- Every resolved call has its change in the document: its entry, or a longer one of the same
attempt, and its cursor, or a later one of the same key. -/
def ChangesKept (store : FileJournalStore) (l : List StoreCall) (x : Option Content) : Prop :=
  ∀ c ∈ l, c.turn = .settled (.ok ()) →
    ∃ document, store.read x = .ok document ∧ c.tag.call.KeptIn document

/-- The last resolved call for an attempt, or for a key, has exactly its entry, or its cursor, in
the document. -/
def LastChangesStored (store : FileJournalStore) (l : List StoreCall) (x : Option Content) : Prop :=
  ∀ before c after, l = before ++ c :: after → c.turn = .settled (.ok ()) →
    (∀ c' ∈ after, c'.turn = .settled (.ok ()) → c'.tag.call.overwrites c.tag.call = false) →
      ∃ document, store.read x = .ok document ∧ c.tag.call.StoredIn document

theorem ChangesKept.grows (h : ChangesKept store l x) (hgrows : Grows store x y) :
    ChangesKept store l y := by
  intro c hc hok
  obtain ⟨document, hread, hkept⟩ := h c hc hok
  obtain ⟨later, hlater, hext⟩ := hgrows document hread
  exact ⟨later, hlater, hkept.extends hext⟩

theorem Served.grows (h : store.Served x l y) : Grows store x y := by
  induction h with
  | nil => exact .refl _
  | resolved _ hserial _ ih => exact (serial_grows hserial).trans ih
  | rejected _ _ _ ih => exact ih

theorem Served.changesKept (h : store.Served x l y) : ChangesKept store l y := by
  induction h with
  | nil => exact fun c hc => absurd hc List.not_mem_nil
  | resolved hc hserial hrest ih =>
    intro c' hc' hok
    rcases List.mem_cons.1 hc' with rfl | hc'
    · obtain ⟨document, next, -, happly, hnext⟩ := serial_eq_ok hserial
      obtain ⟨later, hlater, hext⟩ := hrest.grows next hnext
      exact ⟨later, hlater, (JournalCall.apply_stores happly).kept.extends hext⟩
    · exact ih c' hc' hok
  | rejected hc _ _ ih =>
    intro c' hc' hok
    rcases List.mem_cons.1 hc' with rfl | hc'
    · rw [hc] at hok
      cases hok
    · exact ih c' hc' hok

/-- What no later call overwrites stays as it was stored. -/
theorem Served.storedIn (h : store.Served x l y) {document : JournalDocument}
    (hread : store.read x = .ok document) (hstored : call.StoredIn document)
    (hlast : ∀ c ∈ l, c.turn = .settled (.ok ()) → c.tag.call.overwrites call = false) :
    ∃ later, store.read y = .ok later ∧ call.StoredIn later := by
  induction h generalizing document with
  | nil => exact ⟨document, hread, hstored⟩
  | resolved hc hserial _ ih =>
    obtain ⟨current, next, hcurrent, happly, hnext⟩ := serial_eq_ok hserial
    obtain rfl : current = document := Except.ok.inj (hcurrent.symm.trans hread)
    exact ih hnext (hstored.apply happly (hlast _ List.mem_cons_self hc))
      fun c hmem => hlast c (List.mem_cons_of_mem _ hmem)
  | rejected _ _ _ ih =>
    exact ih hread hstored fun c hmem => hlast c (List.mem_cons_of_mem _ hmem)

theorem Served.lastChangesStored (h : store.Served x l y) : LastChangesStored store l y := by
  induction h with
  | nil => exact fun before _ _ hsplit => by simp at hsplit
  | resolved hc hserial hrest ih =>
    intro before c' after hsplit hok hlast
    cases before with
    | nil =>
      obtain ⟨rfl, rfl⟩ := List.cons.inj hsplit
      obtain ⟨document, next, -, happly, hnext⟩ := serial_eq_ok hserial
      exact hrest.storedIn hnext (JournalCall.apply_stores happly) hlast
    | cons b before => exact ih before c' after (List.cons.inj hsplit).2 hok hlast
  | rejected hc _ _ ih =>
    intro before c' after hsplit hok hlast
    cases before with
    | nil =>
      obtain ⟨rfl, -⟩ := List.cons.inj hsplit
      rw [hc] at hok
      cases hok
    | cons b before => exact ih before c' after (List.cons.inj hsplit).2 hok hlast

/-- The text that the running call found has grown to the stored one. -/
theorem Turned.grows {active : Option StoreCall} (h : store.Turned x files active)
    (hrunning : ∀ c ∈ active, ∃ own progress, c.turn = .running own progress) :
    Grows store x (files store.journalPath) := by
  cases active with
  | none => exact h.1 ▸ .refl _
  | some c =>
    obtain ⟨own, progress, hturn⟩ := hrunning c rfl
    have hstage := h.2 own progress hturn
    cases progress with
    | openingDirectory | syncingDirectory => exact serial_grows hstage.2
    | closingDirectory failure =>
      cases failure with
      | none => exact serial_grows hstage.2
      | some e => cases hstage
    | closing failure =>
      cases failure with
      | none => exact hstage.1 ▸ .refl _
      | some e => cases hstage
    | _ => exact hstage.1 ▸ .refl _

/-- At any time, the changes of the calls that have resolved so far are in the stored document. -/
theorem Serial.changesKept (h : store.Serial x₀ w) :
    ChangesKept store w.queue.items (store.content w) := by
  obtain ⟨k, finished, active, queued, x, h⟩ := h
  intro c hc hok
  rw [h.ordered.items] at hc
  have hfinished : c ∈ finished := by
    rcases List.mem_append.1 hc with hc | hc
    · exact hc
    rcases List.mem_append.1 hc with hc | hc
    · obtain ⟨state, hstate⟩ := h.ordered.turn c (Option.mem_toList.1 hc)
      rw [hstate] at hok
      cases hok
    · obtain ⟨e, he, -⟩ := (h.pending c hc).2.2 _ hok
      cases he
  refine (h.served.changesKept.grows (h.turned.grows fun c hc => ?_)) c hfinished hok
  obtain ⟨progress, hprogress⟩ := h.ordered.turn c hc
  exact ⟨_, progress, hprogress⟩

end Runs

end FileJournalStore

end Leopold.Keeper
