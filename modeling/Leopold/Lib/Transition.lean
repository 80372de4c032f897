import Mathlib.Logic.Relation
import Mathlib.Algebra.Order.BigOperators.Group.Finset
import Mathlib.Tactic.Ring

/-!
# Labelled transition systems

States reached from the initial ones by labelled steps, the runs between two states, and the
two rules every safety proof of the development goes through: an invariant of the reachable
states, and a property that a run preserves.
-/

namespace Leopold.Lib

universe u v

/-- A labelled transition system with a set of initial states. -/
structure TransitionSystem (σ : Type u) (ℓ : Type v) where
  init : σ → Prop
  step : σ → ℓ → σ → Prop

namespace TransitionSystem

variable {σ : Type u} {ℓ : Type v} (S : TransitionSystem σ ℓ)

/-- The states of the runs all of whose steps satisfy `P`. -/
inductive ReachableVia (P : σ → ℓ → σ → Prop) : σ → Prop
  | init {s : σ} (h : S.init s) : ReachableVia P s
  | step {s s' : σ} {l : ℓ} (hs : ReachableVia P s) (h : S.step s l s') (hP : P s l s') :
      ReachableVia P s'

/-- The states of all runs. -/
def Reachable (s : σ) : Prop := S.ReachableVia (fun _ _ _ => True) s

/-- `s'` is reached from `s` by steps that satisfy `P`. -/
def RunVia (P : σ → ℓ → σ → Prop) (s s' : σ) : Prop :=
  Relation.ReflTransGen (fun a b => ∃ l, S.step a l b ∧ P a l b) s s'

/-- `s'` is reached from `s`. -/
def Run (s s' : σ) : Prop := S.RunVia (fun _ _ _ => True) s s'

/-- A step that was taken. -/
structure Taken (σ : Type u) (ℓ : Type v) where
  source : σ
  label : ℓ
  target : σ

/-- The steps of a run from `s`, in the order they were taken. -/
inductive Trace (s : σ) : List (Taken σ ℓ) → σ → Prop
  | nil : Trace s [] s
  | snoc {steps : List (Taken σ ℓ)} {s' t : σ} {l : ℓ} (h : Trace s steps s')
      (hl : S.step s' l t) : Trace s (steps ++ [⟨s', l, t⟩]) t

variable {S} {P Q : σ → ℓ → σ → Prop} {s s' : σ} {l : ℓ}

theorem Reachable.of_init (h : S.init s) : S.Reachable s := .init h

theorem Reachable.tail (hs : S.Reachable s) (h : S.step s l s') : S.Reachable s' :=
  .step hs h trivial

theorem ReachableVia.mono (hPQ : ∀ a l b, P a l b → Q a l b) (h : S.ReachableVia P s) :
    S.ReachableVia Q s := by
  induction h with
  | init h => exact .init h
  | step _ h hP ih => exact .step ih h (hPQ _ _ _ hP)

theorem ReachableVia.reachable (h : S.ReachableVia P s) : S.Reachable s :=
  h.mono fun _ _ _ _ => trivial

/-- **Invariant rule.**  What holds initially and is preserved by every step from a reachable
state holds in every reachable state. -/
theorem ReachableVia.invariant {I : σ → Prop} (hinit : ∀ s, S.init s → I s)
    (hstep : ∀ s l s', S.ReachableVia P s → I s → S.step s l s' → P s l s' → I s')
    (h : S.ReachableVia P s) : I s := by
  induction h with
  | init h => exact hinit _ h
  | step hs h hP ih => exact hstep _ _ _ hs ih h hP

theorem Reachable.invariant {I : σ → Prop} (hinit : ∀ s, S.init s → I s)
    (hstep : ∀ s l s', S.Reachable s → I s → S.step s l s' → I s')
    (h : S.Reachable s) : I s :=
  ReachableVia.invariant hinit (fun s l s' hs hI h _ => hstep s l s' hs hI h) h

theorem RunVia.refl : S.RunVia P s s := Relation.ReflTransGen.refl

theorem RunVia.tail {t : σ} (h : S.RunVia P s s') (hl : S.step s' l t) (hP : P s' l t) :
    S.RunVia P s t := Relation.ReflTransGen.tail h ⟨l, hl, hP⟩

theorem RunVia.trans {t : σ} (h : S.RunVia P s s') (h' : S.RunVia P s' t) : S.RunVia P s t :=
  Relation.ReflTransGen.trans h h'

/-- A run whose steps satisfy `P` is one whose steps satisfy what `P` implies. -/
theorem RunVia.weaken (h : S.RunVia P s s') (hPQ : ∀ a l b, P a l b → Q a l b) :
    S.RunVia Q s s' := by
  induction h with
  | refl => exact .refl
  | tail _ hl ih =>
    obtain ⟨l, hl, hP⟩ := hl
    exact .tail ih hl (hPQ _ _ _ hP)

/-- **Run rule.**  What every step from a reachable state preserves, a run from a reachable
state preserves; the run ends in a reachable state. -/
theorem RunVia.preserves {I : σ → Prop} (hs : S.Reachable s)
    (hstep : ∀ s l s', S.Reachable s → I s → S.step s l s' → P s l s' → I s')
    (h : S.RunVia P s s') (hI : I s) : S.Reachable s' ∧ I s' := by
  induction h with
  | refl => exact ⟨hs, hI⟩
  | tail _ hl ih =>
    obtain ⟨l, hl, hP⟩ := hl
    exact ⟨ih.1.tail hl, hstep _ _ _ ih.1 ih.2 hl hP⟩

theorem RunVia.reachable (hs : S.Reachable s) (h : S.RunVia P s s') : S.Reachable s' :=
  (h.preserves (I := fun _ => True) hs (fun _ _ _ _ _ _ _ => trivial) trivial).1

/-- A first step before a trace. -/
theorem Trace.cons {steps : List (Taken σ ℓ)} {t : σ} (hl : S.step s l s')
    (h : S.Trace s' steps t) : S.Trace s (⟨s, l, s'⟩ :: steps) t := by
  induction h with
  | nil => exact .snoc .nil hl
  | snoc _ hl' ih => exact .snoc ih hl'

theorem Trace.reachable {steps : List (Taken σ ℓ)} (hs : S.Reachable s)
    (h : S.Trace s steps s') : S.Reachable s' := by
  induction h with
  | nil => exact hs
  | snoc _ hl ih => exact ih.tail hl

/-- **Trace rule.**  What holds of the empty trace and is preserved by every further step holds of
every trace from a reachable state. -/
theorem Trace.invariant {I : List (Taken σ ℓ) → σ → Prop} {steps : List (Taken σ ℓ)}
    (hs : S.Reachable s) (hI : I [] s)
    (hstep : ∀ steps u l u', S.Reachable u → I steps u → S.step u l u' →
      I (steps ++ [⟨u, l, u'⟩]) u')
    (h : S.Trace s steps s') : S.Reachable s' ∧ I steps s' := by
  induction h with
  | nil => exact ⟨hs, hI⟩
  | snoc _ hl ih => exact ⟨ih.1.tail hl, hstep _ _ _ _ ih.1 ih.2 hl⟩

end TransitionSystem

end Leopold.Lib
