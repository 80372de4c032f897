import Leopold.System.Steady
import Leopold.System.Bonds
import Leopold.Lib.Bisect

/-!
# Auto-save preferences

The preferences of an account are kept with the time they were given.  What `_preferenceAt`
answers for a time is the last preference given before that time, which nothing given later
changes: the preference at the close of a round is final.
-/

namespace Leopold

open Lib

/-- The last preference given before time `t`. -/
def preferenceBefore (observations : List PreferenceObservation) (t : Nat) : AutoSavePreference :=
  ((observations.filter fun o => o.timestamp < t).getLast?.map
    PreferenceObservation.preference).getD .keepAvailable

/-- The observations are ordered and not later than `now`. -/
structure Given (now : Nat) (observations : List PreferenceObservation) : Prop where
  sorted : observations.Pairwise fun o o' => o.timestamp < o'.timestamp
  past : ∀ o ∈ observations, o.timestamp ≤ now

section

variable {E64 E128 EBool X : Type} {fhe : Fhe E64 E128 EBool} {E : Externals E64 EBool X}
  {cfg : Config}

namespace Vault

variable {v : Vault E64 E128 EBool} {a sender : Address} {t now : Nat} {p : AutoSavePreference}

/-- The binary search of `_preferenceAt` finds the last preference before `t`. -/
theorem preferenceAt_eq (h : Given now (v.preferenceObservations a)) :
    v.preferenceAt a t = .ok (preferenceBefore (v.preferenceObservations a) t) := by
  unfold preferenceAt preferenceBefore
  generalize v.preferenceObservations a = obs at h
  cases obs with
  | nil => rfl
  | cons first rest =>
    have hfirst : (first :: rest)[0]? = some first := rfl
    simp only [hfirst]
    by_cases hbefore : t ≤ first.timestamp
    · -- every preference was given at or after `t`
      have hnone : (first :: rest).filter (fun o => decide (o.timestamp < t)) = [] := by
        rw [List.filter_eq_nil_iff]
        intro o ho
        have hle : first.timestamp ≤ o.timestamp := by
          rcases List.mem_cons.1 ho with rfl | ho
          · exact Nat.le_refl _
          · exact Nat.le_of_lt (List.rel_of_pairwise_cons h.sorted ho)
        simpa using hbefore.trans hle
      rw [if_pos hbefore, hnone]
      rfl
    · rw [if_neg hbefore]
      obtain ⟨i, o, hi, hget, hlt, hnext⟩ := bisect_list_spec
        (p := fun o : PreferenceObservation => decide (o.timestamp < t)) rest
        (decide_eq_true (Nat.not_le.1 hbefore))
      rw [← hi, hget]
      -- the list splits into what was given before `t` and the rest
      obtain ⟨hlen, hgetElem⟩ := List.getElem?_eq_some_iff.1 hget
      have hsplit : first :: rest =
          ((first :: rest).take i ++ [o]) ++ (first :: rest).drop (i + 1) := by
        rw [← hgetElem, ← List.take_succ_eq_append_getElem hlen, List.take_append_drop]
      have hsorted := h.sorted
      rw [hsplit, List.pairwise_append] at hsorted
      have hbelow : ∀ o' ∈ (first :: rest).take i ++ [o], decide (o'.timestamp < t) = true := by
        intro o' ho'
        rw [List.mem_append, List.mem_singleton] at ho'
        rcases ho' with ho' | rfl
        · have hle := (List.pairwise_append.1 hsorted.1).2.2 o' ho' o (by simp)
          exact decide_eq_true (hle.trans (of_decide_eq_true hlt))
        · exact hlt
      have hrest : ∀ o' ∈ (first :: rest).drop (i + 1), ¬ decide (o'.timestamp < t) = true := by
        rcases hdrop : (first :: rest).drop (i + 1) with _ | ⟨next, tail⟩
        · nofun
        · have hat : (first :: rest)[i + 1]? = some next := by
            rw [← Nat.add_zero (i + 1), ← List.getElem?_drop, hdrop]
            rfl
          have hge := Nat.not_lt.1 (of_decide_eq_false (hnext next hat))
          intro o' ho'
          rw [decide_eq_true_eq, Nat.not_lt]
          rw [hdrop] at hsorted
          rcases List.mem_cons.1 ho' with rfl | ho'
          · exact hge
          · exact hge.trans (Nat.le_of_lt (List.rel_of_pairwise_cons hsorted.2.1 ho'))
      have hfilter : (first :: rest).filter (fun o => decide (o.timestamp < t)) =
          (first :: rest).take i ++ [o] := by
        conv_lhs => rw [hsplit]
        rw [List.filter_append, List.filter_eq_self.2 hbelow, List.filter_eq_nil_iff.2 hrest,
          List.append_nil]
      rw [hfilter, List.getLast?_concat]
      rfl

variable (v sender p now a) in
/-- What `setAutoSavePreference` makes of the observations of an account. -/
theorem setAutoSavePreference_eq :
    (v.setAutoSavePreference sender p now).preferenceObservations a =
        v.preferenceObservations a ∨
      (∃ kept o, v.preferenceObservations a = kept ++ [o] ∧ o.timestamp = uint64 now ∧
        (v.setAutoSavePreference sender p now).preferenceObservations a =
          kept ++ [⟨o.timestamp, p⟩]) ∨
      (∀ o ∈ (v.preferenceObservations a).getLast?, o.timestamp ≠ uint64 now) ∧
        (v.setAutoSavePreference sender p now).preferenceObservations a =
          v.preferenceObservations a ++ [⟨uint64 now, p⟩] := by
  by_cases ha : a = sender
  · subst ha
    refine .inr ?_
    simp only [setAutoSavePreference, Function.update_self]
    rcases List.eq_nil_or_concat (v.preferenceObservations a) with hnil | ⟨kept, o, hobs⟩
    · rw [hnil]
      exact .inr ⟨nofun, rfl⟩
    · rw [List.concat_eq_append] at hobs
      rw [hobs]
      simp only [List.getLast?_concat, List.dropLast_concat]
      by_cases htime : o.timestamp = uint64 now
      · rw [if_pos htime]
        exact .inl ⟨kept, o, rfl, htime, rfl⟩
      · rw [if_neg htime]
        refine .inr ⟨?_, rfl⟩
        rintro _ ⟨⟩
        exact htime
  · exact .inl (Function.update_of_ne ha _ _)

/-- A preference given at `now` does not change what was preferred before a time up to `now`. -/
theorem setAutoSavePreference_before (ht : t ≤ uint64 now) :
    preferenceBefore ((v.setAutoSavePreference sender p now).preferenceObservations a) t =
      preferenceBefore (v.preferenceObservations a) t := by
  have hlate : ∀ o : PreferenceObservation, o.timestamp = uint64 now →
      [o].filter (fun o => decide (o.timestamp < t)) = [] := by
    intro o ho
    rw [List.filter_eq_nil_iff]
    intro o' ho'
    rw [List.mem_singleton.1 ho', ho]
    simpa using ht
  rcases setAutoSavePreference_eq v a sender now p
    with heq | ⟨kept, o, hobs, htime, heq⟩ | ⟨_, heq⟩
  · rw [heq]
  · rw [heq, hobs, preferenceBefore, preferenceBefore, List.filter_append, List.filter_append,
      hlate _ htime, hlate ⟨o.timestamp, p⟩ htime]
  · rw [heq, preferenceBefore, preferenceBefore, List.filter_append, hlate ⟨uint64 now, p⟩ rfl,
      List.append_nil]

theorem setAutoSavePreference_given (h : Given now (v.preferenceObservations a))
    (hnow : now < 2 ^ 64) :
    Given now ((v.setAutoSavePreference sender p now).preferenceObservations a) := by
  have huint : uint64 now = now := Nat.mod_eq_of_lt hnow
  rcases setAutoSavePreference_eq v a sender now p
    with heq | ⟨kept, o, hobs, htime, heq⟩ | ⟨hlast, heq⟩
  · exact heq ▸ h
  · rw [heq]
    rw [hobs] at h
    have hsorted := List.pairwise_append.1 h.sorted
    constructor
    · rw [List.pairwise_append]
      refine ⟨hsorted.1, List.pairwise_singleton _ _, fun o' ho' b hb => ?_⟩
      rw [List.mem_singleton.1 hb]
      exact hsorted.2.2 o' ho' o (by simp)
    · intro o' ho'
      rw [List.mem_append, List.mem_singleton] at ho'
      rcases ho' with ho' | rfl
      · exact h.past o' (by simp [ho'])
      · exact h.past o (by simp)
  · rw [heq, huint]
    rw [huint] at hlast
    -- the last observation is earlier, and so are all before it
    have hearlier : ∀ o ∈ v.preferenceObservations a, o.timestamp < now := by
      rcases List.eq_nil_or_concat (v.preferenceObservations a) with hnil | ⟨kept, o, hobs⟩
      · rw [hnil]
        nofun
      · rw [List.concat_eq_append] at hobs
        rw [hobs] at h hlast ⊢
        have hlt : o.timestamp < now :=
          Nat.lt_of_le_of_ne (h.past o (by simp)) (hlast o (by simp))
        intro o' ho'
        rw [List.mem_append, List.mem_singleton] at ho'
        rcases ho' with ho' | rfl
        · exact ((List.pairwise_append.1 h.sorted).2.2 o' ho' o (by simp)).trans hlt
        · exact hlt
    constructor
    · rw [List.pairwise_append]
      refine ⟨h.sorted, List.pairwise_singleton _ _, fun o' ho' b hb => ?_⟩
      rw [List.mem_singleton.1 hb]
      exact hearlier o' ho'
    · intro o' ho'
      rw [List.mem_append, List.mem_singleton] at ho'
      rcases ho' with ho' | rfl
      · exact h.past o' ho'
      · exact Nat.le_refl _

end Vault

namespace World

variable {w w' : World E64 E128 EBool X} {a sender : Address} {t : Nat}

/-- While block times fit in 64 bits the preferences of all accounts are ordered. -/
def Preferred (w : World E64 E128 EBool X) : Prop :=
  w.now < 2 ^ 64 → ∀ a, Given w.now (w.vault.preferenceObservations a)

/-- A call leaves the preferences alone, or gives one. -/
theorem exec_preferences (hsender : cfg.External sender) (hshape : w.vault.Shape fhe)
    {c : Call E64 E128 EBool} (h : exec fhe E cfg sender w c = .ok w') :
    w'.vault.preferenceObservations = w.vault.preferenceObservations ∨
      ∃ p, w'.vault = w.vault.setAutoSavePreference sender p w.now := by
  by_cases hclose : c = .closeRound
  · subst hclose
    obtain ⟨v, hv, rfl⟩ := onVault_eq_ok.1 h
    exact .inl (closeRound_steady hv).2.2
  by_cases hallocate : ∃ s n, c = .processAllocation s n
  · obtain ⟨s, n, rfl⟩ := hallocate
    exact .inl (processAllocation_steady (processAllocation_closed hshape h).2.ne h).2.2
  by_cases hprefer : ∃ p, c = .setAutoSavePreference p
  · obtain ⟨p, rfl⟩ := hprefer
    simp only [exec, onVault_eq_ok, ok_eq_ok] at h
    obtain ⟨v, rfl, rfl⟩ := h
    exact .inr ⟨p, rfl⟩
  · exact .inl (exec_steady hsender hclose (fun s n hc => hallocate ⟨s, n, hc⟩)
      (fun p hc => hprefer ⟨p, hc⟩) h).preferenceObservations

theorem step_preferred (hshape : w.vault.Shape fhe) (h : w.Preferred)
    {l : Label E64 E128 EBool X} (hstep : Step fhe E cfg w l w') : w'.Preferred := by
  cases l with
  | call sender c =>
    intro hnow a
    rw [exec_now hstep.1 hstep.2] at hnow ⊢
    rcases exec_preferences hstep.1 hshape hstep.2 with hsame | ⟨p, hv⟩
    · rw [hsame]
      exact h hnow a
    · rw [hv]
      exact Vault.setAutoSavePreference_given (h hnow a) hnow
  | tick now =>
    obtain ⟨hle, rfl⟩ := hstep
    intro hnow a
    have hgiven := h (hle.trans_lt hnow) a
    exact ⟨hgiven.sorted, fun o ho => (hgiven.past o ho).trans hle⟩
  | thirdParty ext =>
    obtain ⟨_, rfl⟩ := hstep
    exact h
  | forceNative amount =>
    obtain rfl := hstep
    exact h

/-- **Preferences in a run.** -/
theorem reachable_preferred (h : (system fhe E cfg).Reachable w) : w.Preferred := by
  refine TransitionSystem.Reachable.invariant (I := Preferred) ?_ ?_ h
  · rintro w ⟨nativeBalance, now, x, hinit⟩ _ a
    obtain ⟨_, _, _, gs, rfl⟩ := construct_ok hinit
    exact ⟨.nil, nofun⟩
  · exact fun w l w' hw hP hstep => step_preferred (reachable_bonded hw).shape hP hstep

/-- **Step lemma.**  What was preferred before a past time is final. -/
theorem step_preferenceAt (hw : (system fhe E cfg).Reachable w) {l : Label E64 E128 EBool X}
    (hstep : Step fhe E cfg w l w') (hnow : w'.now < 2 ^ 64) (ht : t ≤ w.now) (a : Address) :
    w'.vault.preferenceAt a t = w.vault.preferenceAt a t := by
  have hshape := (reachable_bonded hw).shape
  have hP' := step_preferred hshape (reachable_preferred hw) hstep hnow a
  have hP := reachable_preferred hw
  cases l with
  | call sender c =>
    rw [exec_now hstep.1 hstep.2] at hnow
    rw [Vault.preferenceAt_eq hP', Vault.preferenceAt_eq (hP hnow a)]
    rcases exec_preferences hstep.1 hshape hstep.2 with hsame | ⟨p, hv⟩
    · rw [hsame]
    · rw [hv, Vault.setAutoSavePreference_before]
      rw [uint64, Nat.mod_eq_of_lt hnow]
      exact ht
  | tick now =>
    obtain ⟨_, rfl⟩ := hstep
    rfl
  | thirdParty ext =>
    obtain ⟨_, rfl⟩ := hstep
    rfl
  | forceNative amount =>
    obtain rfl := hstep
    rfl

end World

end

end Leopold
