import Leopold.Frontend.V2ResumeRuns

/-!
# An operation that is resumed

In the runs that are spared the defects an operation is resumed where it stopped.  With two
confirmed approvals the write index of a resumed save is that of the wrap, and its hash is stored
over the record of the wrap.
-/

namespace Leopold.Frontend

open Lib

namespace V2Page

variable {account op : String} {s : V2Page}

/-- **An operation is resumed where it stopped.**  In every run that meets none of the defects,
record ids stay disjoint, a confirmed wrap is offered to be saved, and nothing confirmed is done
again. -/
theorem resumable_of_spared
    (h : (history account op).ReachableVia (fun s label _ => s.Spared label) s) :
    Resumable account op s := by
  have hinv : Inv account op s := by
    refine h.invariant (fun _ => .init) ?_
    rintro s label s' - hinv ⟨hof, henabled, rfl⟩ hspared
    exact hinv.next hof henabled hspared
  exact hinv.core.resumable

/-! ### Scripts -/

instance : (label : Label) → Decidable (OfOperation account op s label)
  | .account _ | .persist _ | .run _ => .isFalse id
  | .submitAddMoney _ =>
    match h : s.addMoneyRecovery with
    | none => .isTrue (by rw [OfOperation, h]; rintro recovery ⟨⟩)
    | some recovery =>
      if hid : recovery.operationId = op then
        .isTrue (by rw [OfOperation, h]; rintro recovery ⟨⟩; exact hid)
      else .isFalse fun hof => hid (hof recovery h)
  | .resume _ (.ready _ _) => inferInstanceAs (Decidable (_ ∧ _))
  | .reconciled record _ _ => inferInstanceAs (Decidable (record.operationId = some op))
  | .resume _ (.balances _ _) | .resume _ (.allowance _) | .resume _ .done | .resume _ (.signed _ _)
  | .resume _ .receipt | .resume _ .failed | .tick _ | .reload | .reconcile | .discover
  | .discovered _ _ => .isTrue trivial

/-- The records of the account are those of the operation, newest first. -/
def InOrder (account op : String) (s : V2Page) : Prop :=
  s.readAccount = some account ∧ s.records account ≠ [] ∧
    (∀ r ∈ s.records account, addMoneyGroup r = some op) ∧
    (s.records account).Pairwise fun newer older => older.updatedAt ≤ newer.updatedAt

instance : Decidable (InOrder account op s) := inferInstanceAs (Decidable (_ ∧ _))

/-- The state after a step, where a discovery has nothing to sort. -/
def nextInOrder (account op : String) (s : V2Page) : Label → V2Page
  | .discover =>
    if s.isBusy then s
    else
      { s with
        discoveries :=
          (s.askCheckpoint account (checkpointOf op (s.records account))).toList ++ s.discoveries }
  | label => s.next label

theorem nextInOrder_eq {label : Label} (h : label = .discover → InOrder account op s) :
    nextInOrder account op s label = s.next label := by
  cases label with
  | discover =>
    obtain ⟨haccount, hne, hgroup, hsorted⟩ := h rfl
    have hfind : findLatestV2AddMoneyCheckpoint (s.records account) =
        some (checkpointOf op (s.records account)) := by
      simpa using findLatest_append hne hgroup (List.forall_mem_nil _) hsorted
        (List.forall_mem_nil _)
    rw [next, discoverAddMoneyRecovery]
    split
    · next hnone => simp [haccount] at hnone
    · next account' haccount' =>
      obtain rfl := Option.some.inj (haccount.symm.trans haccount')
      rw [hfind, nextInOrder]
      cases hask : s.askCheckpoint account (checkpointOf op (s.records account)) with
      | none => simp [hask]
      | some discovery => simp [hask]
  | _ => rfl

/-- The labels of a script, each chosen at the page it finds, are steps that satisfy `Q`. -/
def Follows (account op : String) (Q : V2Page → Label → Prop) :
    V2Page → List (V2Page → Label) → Prop
  | _, [] => True
  | s, choose :: script =>
    (OfOperation account op s (choose s) ∧ s.Enabled (choose s) ∧ Q s (choose s) ∧
        (choose s = .discover → InOrder account op s)) ∧
      Follows account op Q (nextInOrder account op s (choose s)) script

instance (Q : V2Page → Label → Prop) [∀ s label, Decidable (Q s label)] :
    (s : V2Page) → (script : List (V2Page → Label)) → Decidable (Follows account op Q s script)
  | _, [] => .isTrue trivial
  | s, choose :: script =>
    have := instDecidableFollows Q (nextInOrder account op s (choose s)) script
    inferInstanceAs (Decidable ((_ ∧ _ ∧ _ ∧ (choose s = .discover → InOrder account op s)) ∧ _))

def play (account op : String) (s : V2Page) (script : List (V2Page → Label)) : V2Page :=
  script.foldl (fun s choose => nextInOrder account op s (choose s)) s

/-- What a script leads to is reached by steps that satisfy `Q`. -/
theorem reachable_play {Q : V2Page → Label → Prop} {script : List (V2Page → Label)}
    (hs : (history account op).ReachableVia (fun s label _ => Q s label) s)
    (h : Follows account op Q s script) :
    (history account op).ReachableVia (fun s label _ => Q s label) (play account op s script) := by
  induction script generalizing s with
  | nil => exact hs
  | cons choose script ih =>
    obtain ⟨⟨hof, henabled, hq, horder⟩, hrest⟩ := h
    exact ih (.step hs ⟨hof, henabled, nextInOrder_eq horder⟩ hq) hrest

/-- The reply to the run in flight. -/
def answer (reply : V2Reply) (s : V2Page) : Label :=
  match s.runs with
  | run :: _ => .resume run reply
  | [] => .reload

/-- The chain is read for the latest discovery. -/
def readDiscovery (s : V2Page) : Label :=
  match s.discoveries with
  | discovery :: _ => .discovered discovery true
  | [] => .reload

/-- A page of the account with nothing stored. -/
theorem reachable_load {Q : V2Page → Label → Prop} :
    (history account op).ReachableVia (fun s label _ => Q s label) (load [] 0 (some account)) :=
  .init ⟨[], 0, List.forall_mem_nil _, rfl⟩

/-- The page loses sight of the save that the wallet refused, and offers it again. -/
def savedLater : List (V2Page → Label) :=
  [fun _ => .submitAddMoney 5, answer (.ready "0xA" "op"), answer (.balances 10 0),
    answer (.signed "a1" true), answer .receipt, answer (.allowance 5), answer (.signed "w1" true),
    answer .receipt, answer .done, answer .failed, fun _ => .discover, readDiscovery,
    fun _ => .submitAddMoney 5, answer (.ready "0xA" "op"), answer .done,
    answer (.signed "s1" true), answer .receipt]

theorem resumable_of_spared_savedLater :
    Resumable "0xA" "op" (play "0xA" "op" (load [] 0 (some "0xA")) savedLater) :=
  resumable_of_spared (reachable_play reachable_load (by decide +kernel))

/-- Two approvals are confirmed before the wrap is; the save takes the write index of the wrap. -/
def savedOver : List (V2Page → Label) :=
  [fun _ => .submitAddMoney 5, answer (.ready "0xA" "op"), answer (.balances 10 0),
    answer (.signed "a1" true), answer .receipt, answer (.allowance 5), answer .failed,
    fun _ => .reload, fun _ => .discover, readDiscovery,
    fun _ => .submitAddMoney 5, answer (.ready "0xA" "op"), answer (.allowance 0),
    answer (.balances 10 0), answer (.signed "a2" true), answer .receipt, answer (.allowance 5),
    answer (.signed "w1" true), answer .receipt, answer .done, answer .failed,
    fun _ => .reload, fun _ => .discover, readDiscovery,
    fun _ => .submitAddMoney 5, answer (.ready "0xA" "op"), answer .done,
    answer (.signed "s1" true)]

theorem not_resumable :
    ¬ ∀ s, (history "0xA" "op").Reachable s → Resumable "0xA" "op" s := by
  intro h
  have hreached : (history "0xA" "op").Reachable (play "0xA" "op" (load [] 0 (some "0xA")) savedOver) :=
    reachable_play reachable_load (by decide +kernel)
  have hids : ¬ (play "0xA" "op" (load [] 0 (some "0xA")) savedOver).writes.Pairwise fun newer older =>
      newer.id = older.id → older.success = false := by
    decide +kernel
  exact hids (h _ hreached).ids

end V2Page

end Leopold.Frontend
