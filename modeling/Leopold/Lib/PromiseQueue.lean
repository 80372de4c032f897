import Mathlib.Data.List.Basic
import Mathlib.Logic.Function.Basic
import Mathlib.Algebra.Order.BigOperators.Group.Finset
import Mathlib.Tactic.Ring

/-!
# Mutual exclusion by chained promises

A call takes the promise at the tail of a queue, leaves a fresh one of its own there, waits for the
one it took and resolves its own when it is through.  Whatever the order in which waiting calls
get the chance to run, at most one call is between its wait and its release, and the calls get
their turn in the order in which they were issued.
-/

namespace Leopold.Lib

universe u

/-- Where a call stands: waiting for a promise with one of its own, running, or done. -/
inductive Turn (ρ : Type) (τ : Type)
  | waiting (previous own : Nat)
  | running (own : Nat) (state : ρ)
  | settled (result : τ)
  deriving DecidableEq

/-- A call and where it stands. -/
structure Item (ι : Type) (ρ : Type) (τ : Type) where
  tag : ι
  turn : Turn ρ τ
  deriving DecidableEq

/-- The promise at the tail, the promises that are resolved, and the calls as they were issued. -/
structure PromiseQueue (ι : Type) (ρ : Type) (τ : Type) where
  tail : Nat
  resolved : Nat → Bool
  items : List (Item ι ρ τ)

section Split

variable {α : Type u} {l front before after : List α} {x y : α} {i : Nat}

/-- Replacing a row of a list at a known place. -/
theorem getElem?_split (h : l[i]? = some x) :
    ∃ before after, l = before ++ x :: after ∧ before.length = i ∧
      ∀ y, l.set i y = before ++ y :: after := by
  obtain ⟨hi, hx⟩ := List.getElem?_eq_some_iff.1 h
  refine ⟨l.take i, l.drop (i + 1), ?_, ?_, ?_⟩
  · rw [← hx, ← List.drop_eq_getElem_cons hi, List.take_append_drop]
  · rw [List.length_take]
    omega
  · intro y
    rw [List.set_eq_take_append_cons_drop, if_pos hi]

/-- A row that is not in the front part stands behind it. -/
theorem split_behind (h : front ++ l = before ++ x :: after) (hx : x ∉ front) :
    ∃ mid, before = front ++ mid ∧ l = mid ++ x :: after := by
  rcases List.append_eq_append_iff.1 h with ⟨mid, rfl, rfl⟩ | ⟨mid, rfl, hmid⟩
  · exact ⟨mid, rfl, rfl⟩
  · cases mid with
    | nil =>
      refine ⟨[], by simp, ?_⟩
      rw [List.nil_append] at hmid
      rw [List.nil_append, hmid]
    | cons z mid =>
      rw [List.cons_append] at hmid
      injection hmid with hz
      exact absurd (by rw [hz]; simp) hx

end Split

namespace PromiseQueue

variable {ι ρ τ : Type}

/-- No calls yet; the promise at the tail is resolved. -/
def empty : PromiseQueue ι ρ τ := ⟨0, fun j => j = 0, []⟩

section Operations

variable (q : PromiseQueue ι ρ τ)

/-- A call joins the queue. -/
def enqueue (tag : ι) : PromiseQueue ι ρ τ :=
  { q with tail := q.tail + 1, items := q.items ++ [⟨tag, .waiting q.tail (q.tail + 1)⟩] }

/-- A call is answered without joining the queue. -/
def answer (tag : ι) (result : τ) : PromiseQueue ι ρ τ :=
  { q with items := q.items ++ [⟨tag, .settled result⟩] }

/-- A call goes on. -/
def update (i : Nat) (item : Item ι ρ τ) : PromiseQueue ι ρ τ :=
  { q with items := q.items.set i item }

/-- A call is done and resolves its promise. -/
def release (i own : Nat) (item : Item ι ρ τ) : PromiseQueue ι ρ τ :=
  { q with
    resolved := Function.update q.resolved own true
    items := q.items.set i item }

end Operations

/-- The calls behind the running one: the waiting ones hold the promises from `m` to `n` in
order. -/
inductive Queued : Nat → List (Item ι ρ τ) → Nat → Prop
  | nil {m : Nat} : Queued m [] m
  | waiting {m n : Nat} {item : Item ι ρ τ} {rest : List (Item ι ρ τ)}
      (h : item.turn = .waiting m (m + 1)) (hs : Queued (m + 1) rest n) : Queued m (item :: rest) n
  | settled {m n : Nat} {item : Item ι ρ τ} {rest : List (Item ι ρ τ)} {result : τ}
      (h : item.turn = .settled result) (hs : Queued m rest n) : Queued m (item :: rest) n

/-- All of the calls are done. -/
def AllSettled (items : List (Item ι ρ τ)) : Prop :=
  ∀ item ∈ items, ∃ result, item.turn = .settled result

/-- The order of the queue after `k` turns: the calls that had their turn, the one whose turn it
is, and the ones behind it. -/
structure Ordered (q : PromiseQueue ι ρ τ) (k : Nat) (finished : List (Item ι ρ τ))
    (active : Option (Item ι ρ τ)) (queued : List (Item ι ρ τ)) : Prop where
  items : q.items = finished ++ (active.toList ++ queued)
  resolved : ∀ j, q.resolved j = true ↔ j ≤ k
  passed : AllSettled finished
  turn : ∀ item ∈ active, ∃ state, item.turn = .running (k + 1) state
  behind : Queued (k + active.toList.length) queued q.tail

variable {q : PromiseQueue ι ρ τ} {k m n i own : Nat} {finished queued rest : List (Item ι ρ τ)}
  {active : Option (Item ι ρ τ)} {item item' : Item ι ρ τ} {tag : ι} {result : τ} {state : ρ}

namespace Queued

theorem snoc_waiting (h : Queued m queued n) (hitem : item.turn = .waiting n (n + 1)) :
    Queued m (queued ++ [item]) (n + 1) := by
  induction h with
  | nil => exact .waiting hitem .nil
  | waiting h _ ih => exact .waiting h (ih hitem)
  | settled h _ ih => exact .settled h (ih hitem)

theorem snoc_settled (h : Queued m queued n) (hitem : item.turn = .settled result) :
    Queued m (queued ++ [item]) n := by
  induction h with
  | nil => exact .settled hitem .nil
  | waiting h _ ih => exact .waiting h ih
  | settled h _ ih => exact .settled h ih

/-- No call behind the running one is running. -/
theorem not_running (h : Queued m queued n) (hitem : item ∈ queued) :
    item.turn ≠ .running own state := by
  induction h with
  | nil => cases hitem
  | waiting h _ ih | settled h _ ih =>
    rcases List.mem_cons.1 hitem with rfl | hrest
    · rw [h]
      nofun
    · exact ih hrest

/-- A waiting call waits for a promise from `m` on; if for `m` itself, it is the first one. -/
theorem split_waiting {before after : List (Item ι ρ τ)} {previous : Nat}
    (h : Queued m (before ++ item :: after) n) (hitem : item.turn = .waiting previous own) :
    m ≤ previous ∧ own = previous + 1 ∧ Queued (previous + 1) after n ∧
      (previous = m → AllSettled before) := by
  induction before generalizing m with
  | nil =>
    cases h with
    | waiting h hs =>
      obtain ⟨rfl, rfl⟩ : m = previous ∧ m + 1 = own := by
        rw [h] at hitem
        injection hitem with h₁ h₂
        exact ⟨h₁, h₂⟩
      exact ⟨Nat.le_refl _, rfl, hs, fun _ => nofun⟩
    | settled h hs =>
      rw [h] at hitem
      cases hitem
  | cons head before ih =>
    cases h with
    | waiting h hs =>
      obtain ⟨hle, hown, hafter, -⟩ := ih hs
      refine ⟨by omega, hown, hafter, ?_⟩
      intro heq
      omega
    | @settled _ _ _ _ result h hs =>
      obtain ⟨hle, hown, hafter, hbefore⟩ := ih hs
      refine ⟨hle, hown, hafter, ?_⟩
      intro heq c hc
      rcases List.mem_cons.1 hc with rfl | hc
      · exact ⟨result, h⟩
      · exact hbefore heq c hc

/-- Unless all calls are done, some call waits for the first promise. -/
theorem allSettled_or_first (h : Queued m queued n) :
    AllSettled queued ∨ ∃ before after, ∃ item : Item ι ρ τ,
      queued = before ++ item :: after ∧ item.turn = .waiting m (m + 1) := by
  induction h with
  | nil => exact .inl nofun
  | @waiting m n item rest h hs ih => exact .inr ⟨[], rest, item, rfl, h⟩
  | @settled m n item rest result h hs ih =>
    rcases ih with hall | ⟨before, after, first, rfl, hfirst⟩
    · left
      intro c hc
      rcases List.mem_cons.1 hc with rfl | hc
      · exact ⟨result, h⟩
      · exact hall c hc
    · exact .inr ⟨item :: before, after, first, rfl, hfirst⟩

end Queued

theorem AllSettled.append {l l' : List (Item ι ρ τ)} (h : AllSettled l) (h' : AllSettled l') :
    AllSettled (l ++ l') := by
  intro c hc
  rcases List.mem_append.1 hc with hc | hc
  · exact h c hc
  · exact h' c hc

namespace Ordered

theorem empty : Ordered (empty : PromiseQueue ι ρ τ) 0 [] none [] := by
  refine ⟨rfl, ?_, nofun, nofun, .nil⟩
  intro j
  simp [PromiseQueue.empty]

theorem enqueue (h : q.Ordered k finished active queued) :
    (q.enqueue tag).Ordered k finished active
      (queued ++ [⟨tag, .waiting q.tail (q.tail + 1)⟩]) := by
  refine ⟨?_, h.resolved, h.passed, h.turn, h.behind.snoc_waiting rfl⟩
  rw [PromiseQueue.enqueue, h.items]
  simp

theorem answer (h : q.Ordered k finished active queued) :
    (q.answer tag result).Ordered k finished active (queued ++ [⟨tag, .settled result⟩]) := by
  refine ⟨?_, h.resolved, h.passed, h.turn, h.behind.snoc_settled rfl⟩
  rw [PromiseQueue.answer, h.items]
  simp

/-- A call whose promise is resolved gets its turn: nobody else is running, and everybody before
it is done. -/
theorem wake (h : q.Ordered k finished active queued) {previous : Nat}
    (hi : q.items[i]? = some item) (hitem : item.turn = .waiting previous own)
    (hprevious : q.resolved previous = true)
    (hitem' : item'.turn = .running own state) :
    active = none ∧ ∃ passed rest, queued = passed ++ item :: rest ∧ AllSettled passed ∧
      (q.update i item').Ordered k (finished ++ passed) (some item') rest := by
  obtain ⟨before, after, hsplit, -, hset⟩ := getElem?_split hi
  have hle : previous ≤ k := (h.resolved previous).1 hprevious
  have hfront : item ∉ finished ++ active.toList := by
    intro hmem
    rcases List.mem_append.1 hmem with hmem | hmem
    · obtain ⟨result, hres⟩ := h.passed item hmem
      rw [hitem] at hres
      cases hres
    · obtain ⟨state, hstate⟩ := h.turn item (by simpa using hmem)
      rw [hitem] at hstate
      cases hstate
  rw [h.items, ← List.append_assoc] at hsplit
  obtain ⟨passed, rfl, hqueued⟩ := split_behind hsplit hfront
  have hq := h.behind
  rw [hqueued] at hq
  obtain ⟨hge, rfl, hafter, hpassed⟩ := hq.split_waiting hitem
  have hactive : active = none := by
    cases active with
    | none => rfl
    | some a =>
      simp only [Option.toList_some, List.length_singleton] at hge
      omega
  subst hactive
  simp only [Option.toList_none, List.length_nil, Nat.add_zero] at hge
  obtain rfl : previous = k := by omega
  refine ⟨rfl, passed, after, hqueued, hpassed rfl, ?_⟩
  refine ⟨?_, h.resolved, h.passed.append (hpassed rfl), ?_, hafter⟩
  · rw [update, hset]
    simp
  · rintro _ ⟨⟩
    exact ⟨state, hitem'⟩

/-- The running call is the one whose turn it is. -/
theorem running (h : q.Ordered k finished active queued) (hi : q.items[i]? = some item)
    (hitem : item.turn = .running own state) :
    active = some item ∧ own = k + 1 ∧
      ∀ item', q.items.set i item' = finished ++ item' :: queued := by
  obtain ⟨before, after, hsplit, -, hset⟩ := getElem?_split hi
  have hfront : item ∉ finished := by
    intro hmem
    obtain ⟨result, hres⟩ := h.passed item hmem
    rw [hitem] at hres
    cases hres
  rw [h.items] at hsplit
  obtain ⟨mid, rfl, hrest⟩ := split_behind hsplit hfront
  have hbehind : item ∉ queued := fun hmem => h.behind.not_running hmem hitem
  cases active with
  | none =>
    rw [Option.toList_none, List.nil_append] at hrest
    exact absurd (by rw [hrest]; simp) hbehind
  | some a =>
    rw [Option.toList_some, List.singleton_append] at hrest
    cases mid with
    | nil =>
      rw [List.nil_append] at hrest
      injection hrest with ha hqueued
      subst ha
      obtain ⟨state', hstate⟩ := h.turn a rfl
      rw [hitem] at hstate
      injection hstate with hown
      refine ⟨rfl, hown, ?_⟩
      intro item'
      rw [hset, List.append_nil, hqueued]
    | cons b mid =>
      injection hrest with ha hqueued
      exact absurd (by rw [hqueued]; simp) hbehind

theorem update (h : q.Ordered k finished (some item) queued) {own' : Nat}
    (hset : q.items.set i item' = finished ++ item' :: queued)
    (hown : own' = k + 1) (hitem' : item'.turn = .running own' state) :
    (q.update i item').Ordered k finished (some item') queued := by
  refine ⟨hset, h.resolved, h.passed, ?_, h.behind⟩
  rintro _ ⟨⟩
  exact ⟨state, hown ▸ hitem'⟩

theorem release (h : q.Ordered k finished (some item) queued)
    (hset : q.items.set i item' = finished ++ item' :: queued)
    (hown : own = k + 1) (hitem' : item'.turn = .settled result) :
    (q.release i own item').Ordered (k + 1) (finished ++ [item']) none queued := by
  refine ⟨?_, ?_, ?_, nofun, ?_⟩
  · rw [PromiseQueue.release, hset]
    simp
  · intro j
    rw [hown]
    change Function.update q.resolved (k + 1) true j = true ↔ j ≤ k + 1
    by_cases hj : j = k + 1
    · rw [hj, Function.update_self]
      simp
    · rw [Function.update_of_ne hj, h.resolved]
      omega
  · refine h.passed.append ?_
    intro c hc
    rw [List.mem_singleton] at hc
    exact ⟨result, hc ▸ hitem'⟩
  · have hbehind := h.behind
    rw [Option.toList_some, List.length_singleton] at hbehind
    exact hbehind

/-- Some call can go on unless all calls are done. -/
theorem allSettled_or_ready (h : q.Ordered k finished active queued) :
    AllSettled q.items ∨ ∃ (i : Nat) (item : Item ι ρ τ), q.items[i]? = some item ∧
      ((∃ own state, item.turn = .running own state) ∨
        ∃ previous own, item.turn = .waiting previous own ∧ q.resolved previous = true) := by
  cases active with
  | some item =>
    right
    obtain ⟨state, hstate⟩ := h.turn item rfl
    refine ⟨finished.length, item, ?_, .inl ⟨k + 1, state, hstate⟩⟩
    rw [h.items]
    simp
  | none =>
    have hitems : q.items = finished ++ queued := h.items
    have hq : Queued k queued q.tail := h.behind
    rcases hq.allSettled_or_first with hall | ⟨before, after, item, hqueued, hitem⟩
    · left
      rw [hitems]
      exact h.passed.append hall
    · right
      refine ⟨finished.length + before.length, item, ?_,
        .inr ⟨k, k + 1, hitem, (h.resolved k).2 (Nat.le_refl _)⟩⟩
      rw [hitems, hqueued, List.getElem?_append_right (Nat.le_add_right _ _),
        Nat.add_sub_cancel_left, List.getElem?_append_right (Nat.le_refl _), Nat.sub_self]
      rfl

end Ordered

end PromiseQueue

end Leopold.Lib
