import Leopold.Lib.Transition

/-!
# A measure that idling does not stop

A worker takes some of the steps of a system.  Its steps bring a measure down, or idle; others
never raise the measure, but for setbacks, and idling goes on for a bounded number of steps only
while the measure is positive.  Then a bounded number of steps of the worker bring it to zero.
-/

namespace Leopold.Lib.TransitionSystem

universe u v

variable {σ : Type u} {ℓ : Type v}

/-- How many of the steps are the worker's. -/
def worked (works : ℓ → Bool) (steps : List (Taken σ ℓ)) : Nat :=
  steps.countP fun step => works step.label

/-- How many of the steps are setbacks. -/
def setbacks (setback : σ → ℓ → Bool) (steps : List (Taken σ ℓ)) : Nat :=
  steps.countP fun step => setback step.source step.label

/-- `Idle n s` says what `n` idle steps of the worker, since the measure last changed, have shown of
the state `s`; after `patience` of them nothing is left to do. -/
structure Patient (S : TransitionSystem σ ℓ) (measure : σ → Nat) (works : ℓ → Bool)
    (setback : σ → ℓ → Bool) (patience : Nat) (Idle : Nat → σ → Prop) : Prop where
  start : ∀ {s}, S.Reachable s → Idle 0 s
  finished : ∀ {s}, S.Reachable s → Idle patience s → measure s = 0
  step : ∀ {s l s' n}, S.Reachable s → S.step s l s' → Idle n s →
    (measure s' = measure s ∧ Idle (n + (works l).toNat) s') ∨ measure s' < measure s ∨
      (setback s l = true ∧ 0 < measure s ∧ measure s' ≤ measure s + 1)

variable {S : TransitionSystem σ ℓ} {measure : σ → Nat} {works : ℓ → Bool}
  {setback : σ → ℓ → Bool} {patience : Nat} {Idle : Nat → σ → Prop} {s s' t : σ} {l : ℓ}
  {steps : List (Taken σ ℓ)}

theorem worked_snoc : worked works (steps ++ [⟨s, l, s'⟩]) =
    worked works steps + (works l).toNat := by
  rw [worked, List.countP_append, List.countP_singleton]
  cases works l <;> rfl

theorem setbacks_snoc : setbacks setback (steps ++ [⟨s, l, s'⟩]) =
    setbacks setback steps + (setback s l).toNat := by
  rw [setbacks, List.countP_append, List.countP_singleton]
  cases setback s l <;> rfl

/-- Nothing is left to do, or every idle stretch but the last was paid for: by the measure it
started with, or by a setback. -/
def Patient.Paid (_ : Patient S measure works setback patience Idle) (s : σ)
    (steps : List (Taken σ ℓ)) (t : σ) : Prop :=
  measure t = 0 ∨ ∃ n < patience, Idle n t ∧ worked works steps + patience * measure t ≤
    patience * (measure s + 2 * setbacks setback steps) + n

namespace Patient

variable (h : Patient S measure works setback patience Idle)

include h

/-- Nothing raises the measure from zero. -/
theorem step_zero (ht : S.Reachable t) (hstep : S.step t l s') (hzero : measure t = 0) :
    measure s' = 0 := by
  rcases h.step ht hstep (h.start ht) with ⟨hsame, _⟩ | hless | ⟨_, hpos, _⟩ <;> omega

/-- A stretch of idle steps starts again when the measure changes, at the price of what it was
lowered by or of the setback. -/
theorem paid_step (ht : S.Reachable t) (hpaid : h.Paid s steps t) (hstep : S.step t l s') :
    h.Paid s (steps ++ [⟨t, l, s'⟩]) s' := by
  rcases hpaid with hzero | ⟨n, hn, hidle, hle⟩
  · exact .inl (h.step_zero ht hstep hzero)
  have hs' := ht.tail hstep
  have hwork : (works l).toNat ≤ 1 := Bool.toNat_le _
  rw [Paid, worked_snoc, setbacks_snoc]
  rcases h.step ht hstep hidle with ⟨hsame, hidle'⟩ | hless | ⟨hback, _, hmore⟩
  · by_cases hpatient : n + (works l).toNat < patience
    · refine .inr ⟨_, hpatient, hidle', ?_⟩
      have hmono : patience * (measure s + 2 * setbacks setback steps) ≤ patience *
          (measure s + 2 * (setbacks setback steps + (setback t l).toNat)) :=
        Nat.mul_le_mul_left _ (by omega)
      rw [hsame]
      omega
    · have hall : n + (works l).toNat = patience := by omega
      exact .inl (h.finished hs' (hall ▸ hidle'))
  · refine .inr ⟨0, by omega, h.start hs', ?_⟩
    have hmono : patience * (measure s + 2 * setbacks setback steps) ≤ patience *
        (measure s + 2 * (setbacks setback steps + (setback t l).toNat)) :=
      Nat.mul_le_mul_left _ (by omega)
    have hdown := Nat.mul_le_mul_left patience (Nat.succ_le_of_lt hless)
    rw [Nat.mul_succ] at hdown
    omega
  · refine .inr ⟨0, by omega, h.start hs', ?_⟩
    have hup := Nat.mul_le_mul_left patience hmore
    rw [Nat.mul_succ] at hup
    rw [hback, Bool.toNat_true, show measure s + 2 * (setbacks setback steps + 1) =
      measure s + 2 * setbacks setback steps + 1 + 1 by omega, Nat.mul_succ, Nat.mul_succ]
    omega

/-- **Patience rule.**  A run with enough steps of the worker brings the measure to zero. -/
theorem measure_eq_zero (hs : S.Reachable s) (htrace : S.Trace s steps t)
    (hlong : patience * (measure s + 2 * setbacks setback steps) ≤ worked works steps) :
    measure t = 0 := by
  have hstart : h.Paid s [] s := by
    rcases Nat.eq_zero_or_pos patience with hzero | hpos
    · exact .inl (h.finished hs (hzero ▸ h.start hs))
    · exact .inr ⟨0, hpos, h.start hs, by simp [worked, setbacks]⟩
  have hpaid := (htrace.invariant hs hstart fun _ _ _ _ hu ih hl => h.paid_step hu ih hl).2
  rcases hpaid with hzero | ⟨n, hn, _, hle⟩
  · exact hzero
  · by_contra hne
    have hone := Nat.mul_le_mul_left patience (Nat.one_le_iff_ne_zero.2 hne)
    omega

end Patient

end Leopold.Lib.TransitionSystem
