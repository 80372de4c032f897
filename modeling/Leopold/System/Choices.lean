import Leopold.System.Preferences
import Leopold.Contracts.Mocks

/-!
# Sequences of auto-save choices

Accounts choose with `setAutoSavePreference`, one call after the other in block time.  Whatever
the sequence, `_preferenceAt` answers for a time `t` the last choice of the account before `t`,
and a choice made from `t` on does not alter that answer.
-/

namespace Leopold

open Lib

/-- A call of `setAutoSavePreference`. -/
structure Choice where
  account : Address
  preference : AutoSavePreference
  timestamp : Nat

namespace Choice

/-- The choices of an account before time `t`. -/
def before (choices : List Choice) (a : Address) (t : Nat) : List Choice :=
  choices.filter fun c => c.account = a ∧ c.timestamp < t

/-- The last choice of an account before time `t`; without one, winnings are kept available. -/
def lastBefore (choices : List Choice) (a : Address) (t : Nat) : AutoSavePreference :=
  ((before choices a t).getLast?.map Choice.preference).getD .keepAvailable

/-- The calls are made at block times that never decrease. -/
structure Chronological (choices : List Choice) : Prop where
  ordered : choices.Pairwise fun c c' => c.timestamp ≤ c'.timestamp
  timestamp_lt : ∀ c ∈ choices, c.timestamp < 2 ^ 64

variable {choices later : List Choice} {c : Choice} {a : Address} {t : Nat}

theorem before_concat : before (choices ++ [c]) a t =
    before choices a t ++ if c.account = a ∧ c.timestamp < t then [c] else [] := by
  simp only [before, List.filter_append, List.filter_singleton]
  by_cases hc : c.account = a ∧ c.timestamp < t
  · rw [decide_eq_true hc, cond_true, if_pos hc]
  · rw [decide_eq_false hc, cond_false, if_neg hc]

theorem lastBefore_concat : lastBefore (choices ++ [c]) a t =
    if c.account = a ∧ c.timestamp < t then c.preference else lastBefore choices a t := by
  rw [lastBefore, before_concat]
  split_ifs
  · rw [List.getLast?_concat]
    rfl
  · rw [List.append_nil]
    rfl

/-- Choices made from time `t` on are not before `t`. -/
theorem lastBefore_append (h : ∀ c ∈ later, t ≤ c.timestamp) :
    lastBefore (choices ++ later) a t = lastBefore choices a t := by
  have hnone : before later a t = [] := by
    rw [before, List.filter_eq_nil_iff]
    intro c hc
    have := h c hc
    rw [decide_eq_true_eq]
    omega
  have hsplit : before (choices ++ later) a t = before choices a t ++ before later a t :=
    List.filter_append ..
  rw [lastBefore, lastBefore, hsplit, hnone, List.append_nil]

namespace Chronological

theorem append_left (h : Chronological (choices ++ later)) : Chronological choices :=
  ⟨(List.pairwise_append.1 h.ordered).1, fun c hc => h.timestamp_lt c (by simp [hc])⟩

theorem le_last (h : Chronological (choices ++ [c])) :
    ∀ b ∈ choices, b.timestamp ≤ c.timestamp :=
  fun b hb => (List.pairwise_append.1 h.ordered).2.2 b hb c (by simp)

end Chronological

end Choice

open Choice

/-- Observations that are not later than `now` are not later than any time after it. -/
theorem Given.later {observations : List PreferenceObservation} {now now' : Nat}
    (h : Given now observations) (hnow : now ≤ now') : Given now' observations :=
  ⟨h.sorted, fun o ho => (h.past o ho).trans hnow⟩

theorem preferenceBefore_concat {kept : List PreferenceObservation} {o : PreferenceObservation}
    {t : Nat} (h : o.timestamp < t) : preferenceBefore (kept ++ [o]) t = o.preference := by
  rw [preferenceBefore, List.filter_append, List.filter_singleton, decide_eq_true h, cond_true,
    List.getLast?_concat]
  rfl

namespace Vault

variable {E64 E128 EBool : Type} {v : Vault E64 E128 EBool} {choices later : List Choice}
  {a : Address} {t now : Nat}

/-- The calls of `setAutoSavePreference`, one after the other. -/
def chooseAll (choices : List Choice) (v : Vault E64 E128 EBool) : Vault E64 E128 EBool :=
  choices.foldl (fun v c => v.setAutoSavePreference c.account c.preference c.timestamp) v

/-- The preferences of all accounts are what was chosen up to `now`. -/
structure Chosen (choices : List Choice) (now : Nat) (v : Vault E64 E128 EBool) : Prop where
  given : ∀ a, Given now (v.preferenceObservations a)
  last : ∀ a t, preferenceBefore (v.preferenceObservations a) t = lastBefore choices a t

theorem Chosen.initial (hv : ∀ a, v.preferenceObservations a = []) : Chosen [] 0 v := by
  constructor
  · intro a
    rw [hv a]
    exact ⟨.nil, nofun⟩
  · intro a t
    rw [hv a]
    rfl

/-- One more call. -/
theorem Chosen.choose {c : Choice} (h : v.Chosen choices now) (hnow : now ≤ c.timestamp)
    (hlt : c.timestamp < 2 ^ 64) :
    (v.setAutoSavePreference c.account c.preference c.timestamp).Chosen (choices ++ [c])
      c.timestamp := by
  have huint : uint64 c.timestamp = c.timestamp := Nat.mod_eq_of_lt hlt
  constructor
  · intro a
    exact setAutoSavePreference_given ((h.given a).later hnow) hlt
  · intro a t
    rw [lastBefore_concat, ← h.last a t]
    by_cases ht : t ≤ c.timestamp
    · rw [if_neg (by omega), setAutoSavePreference_before (huint.symm ▸ ht)]
    by_cases ha : c.account = a
    · -- the call ends the observations of the account with its choice
      subst ha
      rw [if_pos ⟨rfl, by omega⟩]
      simp only [setAutoSavePreference, Function.update_self, huint]
      cases (v.preferenceObservations c.account).getLast? with
      | none => exact preferenceBefore_concat (by simpa using ht)
      | some previous =>
        dsimp only
        split_ifs with hsame
        · exact preferenceBefore_concat (by dsimp only; omega)
        · exact preferenceBefore_concat (by simpa using ht)
    · rw [if_neg fun hc => ha hc.1]
      exact congrArg (preferenceBefore · t) (Function.update_of_ne (Ne.symm ha) _ _)

/-- A chronological sequence of calls. -/
theorem chooseAll_chosen (hv : ∀ a, v.preferenceObservations a = [])
    (h : Chronological choices) (hnow : ∀ c ∈ choices, c.timestamp ≤ now) :
    (v.chooseAll choices).Chosen choices now := by
  induction choices using List.reverseRecOn generalizing now with
  | nil =>
    have hinit := Chosen.initial hv
    exact ⟨fun a => (hinit.given a).later (Nat.zero_le _), hinit.last⟩
  | append_singleton choices c ih =>
    have hc := (ih h.append_left h.le_last).choose (Nat.le_refl _) (h.timestamp_lt c (by simp))
    rw [chooseAll, List.foldl_append]
    exact ⟨fun a => (hc.given a).later (hnow c (by simp)), hc.last⟩

/-- **The choice is frozen at the close.**  After any chronological sequence of choices
`_preferenceAt` answers for any time the last choice of the account strictly before that time, and
no choice made at that time or later alters the answer. -/
theorem preference_frozen (hv : ∀ a, v.preferenceObservations a = [])
    (h : Chronological (choices ++ later)) (a : Address) (t : Nat) :
    (v.chooseAll choices).preferenceAt a t = .ok (lastBefore choices a t) ∧
    ((∀ c ∈ later, t ≤ c.timestamp) →
      ((v.chooseAll choices).chooseAll later).preferenceAt a t =
        (v.chooseAll choices).preferenceAt a t) := by
  have hanswer : ∀ {choices : List Choice}, Chronological choices →
      (v.chooseAll choices).preferenceAt a t = .ok (lastBefore choices a t) := by
    intro choices hchron
    have hchosen : (v.chooseAll choices).Chosen choices (2 ^ 64) :=
      chooseAll_chosen hv hchron fun c hc => Nat.le_of_lt (hchron.timestamp_lt c hc)
    rw [preferenceAt_eq (hchosen.given a), hchosen.last]
  refine ⟨hanswer h.append_left, fun hlater => ?_⟩
  have happend : (v.chooseAll choices).chooseAll later = v.chooseAll (choices ++ later) :=
    (List.foldl_append ..).symm
  rw [happend, hanswer h, hanswer h.append_left, lastBefore_append hlater]

/-- A choice at the close of a round comes too late for it. -/
theorem preference_frozen_three :
    ((unset Fhe.plain).chooseAll [⟨Demo.alice, .autoSave, 5⟩, ⟨Demo.bob, .autoSave, 9⟩]
      ).preferenceAt Demo.alice 9 = .ok .autoSave ∧
    (((unset Fhe.plain).chooseAll [⟨Demo.alice, .autoSave, 5⟩, ⟨Demo.bob, .autoSave, 9⟩]
      ).chooseAll [⟨Demo.alice, .keepAvailable, 9⟩]).preferenceAt Demo.alice 9 =
        .ok .autoSave := by
  have hunset : ∀ a, (unset Fhe.plain).preferenceObservations a = [] := fun _ => rfl
  have hchron : Chronological (([⟨Demo.alice, .autoSave, 5⟩, ⟨Demo.bob, .autoSave, 9⟩] :
      List Choice) ++ [⟨Demo.alice, .keepAvailable, 9⟩]) := ⟨by decide, by decide⟩
  obtain ⟨hbefore, hfrozen⟩ := preference_frozen hunset hchron Demo.alice 9
  exact ⟨hbefore, (hfrozen (by decide)).trans hbefore⟩

end Vault

end Leopold
