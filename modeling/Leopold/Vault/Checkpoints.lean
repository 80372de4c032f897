import Leopold.Vault.History
import Leopold.Reference.Models
import Leopold.Lib.Sums
import Leopold.Contracts.Mocks

/-!
# The history of a sequence of changes

Balance changes of any accounts in chronological order, several at one time allowed, are recorded
through `_checkpointUser`.  What `_cumulativeAt` then answers for an account is the integral of the
step function its changes describe, which later changes do not alter for the past, and it is what
the reference model answers for the same changes.
-/

namespace Leopold

open Lib

/-- A new balance of an account, written at a time. -/
structure Change (E64 : Type) where
  account : Address
  balance : E64
  timestamp : Nat

namespace Change

/-- The changes of one account. -/
def ofAccount {E64 : Type} (a : Address) (changes : List (Change E64)) : List (Change E64) :=
  changes.filter fun c => c.account = a

/-- The step function of an account: the last balance it was given at or before time `s`. -/
def stepAt (changes : List (Change Nat)) (a : Address) (s : Nat) : Nat :=
  valueAt Change.timestamp Change.balance (ofAccount a changes) s

/-- The changes write 64-bit balances at block times that never decrease. -/
structure Chronological (changes : List (Change Nat)) : Prop where
  ordered : changes.Pairwise fun c c' => c.timestamp ≤ c'.timestamp
  timestamp_lt : ∀ c ∈ changes, c.timestamp < 2 ^ 64
  balance_lt : ∀ c ∈ changes, c.balance < 2 ^ 64

variable {changes later : List (Change Nat)} {c : Change Nat} {a : Address} {s t now : Nat}

theorem stepAt_concat : stepAt (changes ++ [c]) a s =
    if c.account = a ∧ c.timestamp ≤ s then c.balance else stepAt changes a s := by
  simp only [stepAt, ofAccount, List.filter_append, List.filter_singleton]
  by_cases hc : c.account = a
  · rw [decide_eq_true hc, cond_true, valueAt_concat]
    exact if_congr (and_iff_right hc).symm rfl rfl
  · rw [decide_eq_false hc, cond_false, List.append_nil, if_neg fun h => hc h.1]

/-- Changes from time `t` on leave the step function before `t`. -/
theorem stepAt_append (h : ∀ c ∈ later, t ≤ c.timestamp) (hs : s < t) :
    stepAt (changes ++ later) a s = stepAt changes a s := by
  rw [stepAt, ofAccount, List.filter_append]
  exact valueAt_append fun c hc => hs.trans_le (h c (List.mem_filter.1 hc).1)

namespace Chronological

theorem append_left (h : Chronological (changes ++ later)) : Chronological changes :=
  ⟨(List.pairwise_append.1 h.ordered).1, fun c hc => h.timestamp_lt c (by simp [hc]),
    fun c hc => h.balance_lt c (by simp [hc])⟩

theorem le_last (h : Chronological (changes ++ [c])) :
    ∀ b ∈ changes, b.timestamp ≤ c.timestamp :=
  fun b hb => (List.pairwise_append.1 h.ordered).2.2 b hb c (by simp)

theorem last_lt (h : Chronological (changes ++ [c])) : c.timestamp < 2 ^ 64 ∧ c.balance < 2 ^ 64 :=
  ⟨h.timestamp_lt c (by simp), h.balance_lt c (by simp)⟩

end Chronological

end Change

open Change

/-! ## The contract -/

namespace Vault

section

variable {E64 E128 EBool : Type} (fhe : Fhe E64 E128 EBool) (cfg : Config)

/-- Changes recorded through `_checkpointUser`, one after the other. -/
def checkpointAll (changes : List (Change E64)) (v : Vault E64 E128 EBool) :
    Except Revert (Vault E64 E128 EBool) :=
  changes.foldlM (fun v c => checkpointUser fhe cfg c.account c.balance c.timestamp v) v

variable {fhe cfg} in
theorem checkpointAll_append {changes later : List (Change E64)} {v : Vault E64 E128 EBool} :
    v.checkpointAll fhe cfg (changes ++ later) =
      v.checkpointAll fhe cfg changes >>= checkpointAll fhe cfg later :=
  List.foldlM_append

end

variable {cfg : Config} {changes : List (Change Nat)} {v v' : PlainVault} {a : Address}
  {t now : Nat}

/-- The observations record the step functions of the changes up to `now`. -/
structure Records (changes : List (Change Nat)) (now : Nat) (v : PlainVault) : Prop where
  recorded : ∀ a, Recorded now (stepAt changes a now) (v.observations a)
  steps : ∀ a s, balanceAt (v.observations a) s = stepAt changes a s

theorem Records.initial (hv : ∀ a, v.observations a = []) : Records [] 0 v :=
  ⟨fun a => (hv a).symm ▸ Recorded.empty, fun a s => by rw [hv a]; rfl⟩

theorem Records.later (h : Records changes now v) {now' : Nat} (hnow : now ≤ now') :
    Records changes now' v := by
  refine ⟨fun a => ?_, h.steps⟩
  have hsame : stepAt changes a now' = stepAt changes a now := by
    rw [← h.steps, ← h.steps, (h.recorded a).current _ hnow,
      (h.recorded a).current _ (Nat.le_refl _)]
  exact hsame ▸ (h.recorded a).later hnow

variable (cfg) in
/-- One change is recorded, and the histories of the other accounts stay. -/
theorem Records.checkpoint {c : Change Nat} (h : Records changes c.timestamp v)
    (htime : c.timestamp < 2 ^ 64) (hbalance : c.balance < 2 ^ 64) :
    ∃ v', checkpointUser Fhe.plain cfg c.account c.balance c.timestamp v = .ok v' ∧
      Records (changes ++ [c]) c.timestamp v' := by
  obtain ⟨obs', cumulative, hrec, hrecorded, hat⟩ :=
    (h.recorded c.account).record htime hbalance
  refine ⟨_, by rw [checkpointUser, hrec]; rfl, ⟨fun a => ?_, fun a s => ?_⟩⟩
  · show Recorded _ _ (Function.update v.observations c.account obs' a)
    rw [stepAt_concat]
    by_cases ha : c.account = a
    · subst ha
      rw [Function.update_self, if_pos ⟨rfl, Nat.le_refl _⟩]
      exact hrecorded
    · rw [Function.update_of_ne (Ne.symm ha), if_neg fun h => ha h.1]
      exact h.recorded a
  · show balanceAt (Function.update v.observations c.account obs' a) s = _
    rw [stepAt_concat]
    by_cases ha : c.account = a
    · subst ha
      rw [Function.update_self, hat]
      exact if_congr (and_iff_right rfl).symm rfl (h.steps _ s)
    · rw [Function.update_of_ne (Ne.symm ha), if_neg fun h => ha h.1]
      exact h.steps a s

variable (cfg) in
/-- A chronological sequence is recorded without a revert. -/
theorem checkpointAll_records (hv : ∀ a, v.observations a = []) (h : Chronological changes) :
    ∃ v', v.checkpointAll Fhe.plain cfg changes = .ok v' ∧
      ∀ now, (∀ c ∈ changes, c.timestamp ≤ now) → Records changes now v' := by
  induction changes using List.reverseRecOn with
  | nil => exact ⟨v, rfl, fun now _ => (Records.initial hv).later (Nat.zero_le _)⟩
  | append_singleton changes c ih =>
    obtain ⟨v₁, hall, hrecords⟩ := ih h.append_left
    obtain ⟨v₂, hone, hrecorded⟩ :=
      (hrecords c.timestamp h.le_last).checkpoint cfg h.last_lt.1 h.last_lt.2
    refine ⟨v₂, ?_, fun now hnow => hrecorded.later (hnow c (by simp))⟩
    rw [checkpointAll_append, hall, bind_ok, checkpointAll, List.foldlM_cons, hone]
    rfl

/-- The sum of the step function before `t` is what `_cumulativeAt` answers. -/
theorem Records.cumulativeAt_eq (h : Records changes now v) (ht : t < 2 ^ 64) :
    v.cumulativeAt Fhe.plain a t = .ok (∑ s ∈ Finset.range t, stepAt changes a s) := by
  rw [Vault.cumulativeAt_eq (h.recorded a) ht, balanceSum]
  exact congrArg _ (Finset.sum_congr rfl fun s _ => h.steps a s)

end Vault

/-! ## The reference model -/

namespace TwabReferenceModel

variable {l l' : List Checkpoint} {b now t : Nat}

/-- The checkpoints track a history that is written up to `now`. -/
structure Written (now : Nat) (l : List Checkpoint) : Prop where
  tracks : Tracks Checkpoint.timestamp Checkpoint.balance Checkpoint.cumulative l
  past : ∀ o ∈ l, o.timestamp ≤ now

/-- `write` at the present extends the history with the new balance. -/
theorem Written.write (h : Written now l) (hnow : now ≤ t) :
    ∃ l', TwabReferenceModel.write l b t = .ok l' ∧ Written t l' ∧ lastBalance l' = b ∧
      ∀ s, valueAt Checkpoint.timestamp Checkpoint.balance l' s =
        if t ≤ s then b else valueAt Checkpoint.timestamp Checkpoint.balance l s := by
  rcases List.eq_nil_or_concat l with rfl | ⟨init, o, rfl⟩
  · refine ⟨[⟨t, b, 0⟩], rfl, ⟨Tracks.nil.concat nofun ?_, ?_⟩, rfl,
      fun s => valueAt_concat (l := [])⟩
    · exact (Finset.sum_eq_zero fun s _ => rfl).symm
    · intro o ho
      rw [List.mem_singleton.1 ho]
  · rw [List.concat_eq_append] at h ⊢
    have hle : o.timestamp ≤ t := (h.past o (by simp)).trans hnow
    have hpast : ∀ o' ∈ init, o'.timestamp ≤ t := fun o' ho' =>
      (h.past o' (by simp [ho'])).trans hnow
    simp only [TwabReferenceModel.write, List.getLast?_concat, List.dropLast_concat]
    rw [revertIf_of_not (Nat.not_lt.2 hle), bind_ok]
    by_cases hsame : o.timestamp = t
    · -- the same time: the last checkpoint is overwritten
      rw [if_pos hsame]
      subst hsame
      refine ⟨_, rfl, ⟨h.tracks.replace_last rfl ?_, ?_⟩, ?_, fun s => ?_⟩
      · show o.cumulative + o.balance * (o.timestamp - o.timestamp) = o.cumulative
        rw [Nat.sub_self, Nat.mul_zero, Nat.add_zero]
      · intro o' ho'
        rw [List.mem_append, List.mem_singleton] at ho'
        rcases ho' with ho' | rfl
        · exact hpast o' ho'
        · exact Nat.le_refl _
      · rw [lastBalance, List.getLast?_concat]
        rfl
      · rw [valueAt_concat, valueAt_concat]
        split_ifs <;> rfl
    · rw [if_neg hsame]
      have hlt : o.timestamp < t := Nat.lt_of_le_of_ne hle hsame
      refine ⟨_, rfl, ⟨h.tracks.concat ?_ ?_, ?_⟩, ?_, fun s => valueAt_concat⟩
      · intro o' ho'
        rw [List.mem_append, List.mem_singleton] at ho'
        rcases ho' with ho' | rfl
        · exact ((List.pairwise_append.1 h.tracks.sorted).2.2 o' ho' o (by simp)).trans hlt
        · exact hlt
      · exact (h.tracks.sum_at (i := init.length) (by simp) hle (by simp)).symm
      · intro o' ho'
        rw [List.mem_append, List.mem_singleton] at ho'
        rcases ho' with ho' | rfl
        · exact (h.past o' ho').trans hnow
        · exact Nat.le_refl _
      · rw [lastBalance, List.getLast?_concat]
        rfl

/-- The last checkpoint has the present balance. -/
theorem Written.valueAt_last (h : Written now l) (hnow : now ≤ t) :
    valueAt Checkpoint.timestamp Checkpoint.balance l t = lastBalance l := by
  rcases List.eq_nil_or_concat l with rfl | ⟨init, o, rfl⟩
  · rfl
  · rw [List.concat_eq_append] at h ⊢
    rw [valueAt_concat, if_pos ((h.past o (by simp)).trans hnow), lastBalance,
      List.getLast?_concat]
    rfl

/-- `interpolate` answers the exact sum of the history. -/
theorem Written.interpolate_eq (h : Written now l) : interpolate l t =
    some (∑ s ∈ Finset.range t, valueAt Checkpoint.timestamp Checkpoint.balance l s) := by
  unfold interpolate
  cases l with
  | nil => exact congrArg _ (h.tracks.sum_before nofun).symm
  | cons first rest =>
    have hfirst : (first :: rest)[0]? = some first := rfl
    simp only [hfirst]
    by_cases hbefore : t < first.timestamp
    · rw [if_pos hbefore]
      refine congrArg _ (h.tracks.sum_before ?_).symm
      rintro o ⟨⟩
      exact hbefore
    · rw [if_neg hbefore]
      obtain ⟨i, o, hi, hget, hle, hafter⟩ := search_spec Checkpoint.timestamp
        rest (Nat.not_lt.1 hbefore)
      rw [← hi, hget, Option.map_some, h.tracks.sum_at hget hle hafter]

/-- The same changes given to the model: each as the difference to the balance it holds. -/
def changeAll (vaultId : Nat) (changes : List (Change Nat)) (m : TwabReferenceModel Address) :
    Except String (TwabReferenceModel Address) :=
  changes.foldlM (fun m c => m.change vaultId c.account
    (c.balance - m.balance vaultId c.account) c.timestamp) m

variable {vaultId : Nat} {changes : List (Change Nat)} {m : TwabReferenceModel Address}

/-- The checkpoints record the step functions of the changes up to `now`, and the vault total is
the sum of the balances. -/
structure Records (vaultId : Nat) (changes : List (Change Nat)) (now : Nat)
    (m : TwabReferenceModel Address) : Prop where
  written : ∀ a, Written now (m.checkpoints vaultId a)
  steps : ∀ a s, valueAt Checkpoint.timestamp Checkpoint.balance (m.checkpoints vaultId a) s =
    stepAt changes a s
  total : Written now (m.vaultTotals vaultId)
  total_eq : lastBalance (m.vaultTotals vaultId) = ∑ a, m.balance vaultId a

theorem Records.initial : Records vaultId [] 0 initial := by
  refine ⟨fun a => ⟨.nil, nofun⟩, fun a s => rfl, ⟨.nil, nofun⟩, ?_⟩
  exact (Finset.sum_eq_zero fun a _ => rfl).symm

theorem Records.later (h : Records vaultId changes now m) (hnow : now ≤ t) :
    Records vaultId changes t m :=
  ⟨fun a => ⟨(h.written a).tracks, fun o ho => ((h.written a).past o ho).trans hnow⟩, h.steps,
    ⟨h.total.tracks, fun o ho => (h.total.past o ho).trans hnow⟩, h.total_eq⟩

/-- One change is recorded by the model without an error. -/
theorem Records.change {c : Change Nat} (h : Records vaultId changes c.timestamp m) :
    ∃ m', m.change vaultId c.account (c.balance - m.balance vaultId c.account) c.timestamp =
        .ok m' ∧ Records vaultId (changes ++ [c]) c.timestamp m' := by
  have hbal : (m.balance vaultId c.account : Int) +
      (c.balance - m.balance vaultId c.account) = c.balance := by omega
  have hle : m.balance vaultId c.account ≤ lastBalance (m.vaultTotals vaultId) :=
    h.total_eq ▸ le_sum (m.balance vaultId) c.account
  obtain ⟨user, hwrite, hwritten, hlast, hat⟩ :=
    (h.written c.account).write (b := c.balance) (Nat.le_refl _)
  obtain ⟨total, htotal, htwritten, htlast, -⟩ :=
    h.total.write (b := (lastBalance (m.vaultTotals vaultId) +
      ((c.balance : Int) - m.balance vaultId c.account)).toNat) (Nat.le_refl _)
  let m' : TwabReferenceModel Address := {
    checkpoints := Function.update m.checkpoints vaultId
      (Function.update (m.checkpoints vaultId) c.account user)
    vaultTotals := Function.update m.vaultTotals vaultId total }
  have hself : m'.checkpoints vaultId = Function.update (m.checkpoints vaultId) c.account user :=
    Function.update_self ..
  have htotals : m'.vaultTotals vaultId = total := Function.update_self ..
  refine ⟨m', ?_, ⟨fun a => ?_, fun a s => ?_, htotals ▸ htwritten, ?_⟩⟩
  · simp only [TwabReferenceModel.change]
    rw [show lastBalance (m.checkpoints vaultId c.account) = m.balance vaultId c.account from rfl,
      hbal, Int.toNat_natCast, hwrite, revertIf_of_not (by omega), htotal,
      revertIf_of_not (by omega)]
    rfl
  · rw [hself]
    by_cases ha : c.account = a
    · subst ha
      rw [Function.update_self]
      exact hwritten
    · rw [Function.update_of_ne (Ne.symm ha)]
      exact h.written a
  · rw [hself, stepAt_concat]
    by_cases ha : c.account = a
    · subst ha
      rw [Function.update_self, hat]
      exact if_congr (and_iff_right rfl).symm rfl (h.steps _ s)
    · rw [Function.update_of_ne (Ne.symm ha), if_neg fun h => ha h.1]
      exact h.steps a s
  · have hbalances : m'.balance vaultId =
        Function.update (m.balance vaultId) c.account c.balance := by
      funext a
      rw [balance, hself]
      by_cases ha : c.account = a
      · subst ha
        rw [Function.update_self, Function.update_self, hlast]
      · rw [Function.update_of_ne (Ne.symm ha), Function.update_of_ne (Ne.symm ha)]
        rfl
    have hsum := sum_univ_update_add (m.balance vaultId) c.account c.balance
    rw [htotals, htlast, hbalances]
    have htotal_eq := h.total_eq
    omega

variable (vaultId) in
/-- A chronological sequence is recorded by the model without an error. -/
theorem changeAll_records (h : Chronological changes) :
    ∃ m, changeAll vaultId changes initial = .ok m ∧
      ∀ now, (∀ c ∈ changes, c.timestamp ≤ now) → Records vaultId changes now m := by
  induction changes using List.reverseRecOn with
  | nil => exact ⟨initial, rfl, fun now _ => Records.initial.later (Nat.zero_le _)⟩
  | append_singleton changes c ih =>
    obtain ⟨m₁, hall, hrecords⟩ := ih h.append_left
    obtain ⟨m₂, hone, hrecorded⟩ := (hrecords c.timestamp h.le_last).change
    refine ⟨m₂, ?_, fun now hnow => hrecorded.later (hnow c (by simp))⟩
    rw [changeAll, List.foldlM_append, ← changeAll, hall, bind_ok, List.foldlM_cons, hone]
    rfl

theorem Records.cumulativeAt_eq {a : Address} (h : Records vaultId changes now m) :
    m.cumulativeAt vaultId a t = some (∑ s ∈ Finset.range t, stepAt changes a s) := by
  rw [cumulativeAt, (h.written a).interpolate_eq]
  exact congrArg _ (Finset.sum_congr rfl fun s _ => h.steps a s)

end TwabReferenceModel

/-! ## The histories agree -/

namespace Vault

open TwabReferenceModel (changeAll)

/-- However changes of balances are recorded in chronological order, in a vault without
observations and in the reference model: the observations of every account are strictly ordered;
`_cumulativeAt` answers the integral of the step function of the account from its first
observation on, and zero before; the reference model answers the same; and what is recorded from
time `t` on does not alter the answer for `t`. -/
theorem history_exact_and_immutable (cfg : Config) (vaultId : Nat) {v : PlainVault}
    {changes later : List (Change Nat)} (hv : ∀ a, v.observations a = [])
    (h : Chronological (changes ++ later)) :
    ∃ v₁ v₂ m, v.checkpointAll Fhe.plain cfg changes = .ok v₁ ∧
      v₁.checkpointAll Fhe.plain cfg later = .ok v₂ ∧
      changeAll vaultId changes .initial = .ok m ∧
      ∀ a, (v₁.observations a).Pairwise (fun o o' => o.timestamp < o'.timestamp) ∧
        ∀ t < 2 ^ 64,
          (∀ first ∈ (v₁.observations a).head?, first.timestamp ≤ t →
            v₁.cumulativeAt Fhe.plain a t =
              .ok (∑ s ∈ Finset.Ico first.timestamp t, stepAt changes a s)) ∧
          ((∀ first ∈ (v₁.observations a).head?, t < first.timestamp) →
            v₁.cumulativeAt Fhe.plain a t = .ok 0) ∧
          (∃ sum, v₁.cumulativeAt Fhe.plain a t = .ok sum ∧
            m.cumulativeAt vaultId a t = some sum) ∧
          ((∀ c ∈ later, t ≤ c.timestamp) →
            v₂.cumulativeAt Fhe.plain a t = v₁.cumulativeAt Fhe.plain a t) := by
  obtain ⟨v₂, hall, hrecords₂⟩ := checkpointAll_records cfg hv h
  obtain ⟨v₁, hfirst, hrecords₁⟩ := checkpointAll_records cfg hv h.append_left
  obtain ⟨m, hm, hmodel⟩ := TwabReferenceModel.changeAll_records vaultId h.append_left
  -- a time no change is later than
  have hend : ∀ c ∈ changes ++ later, c.timestamp ≤ 2 ^ 64 := fun c hc =>
    Nat.le_of_lt (h.timestamp_lt c hc)
  have hrec₁ := hrecords₁ _ fun c hc => hend c (List.mem_append_left _ hc)
  have hrec₂ := hrecords₂ _ hend
  have hmrec := hmodel _ fun c hc => hend c (List.mem_append_left _ hc)
  rw [checkpointAll_append, hfirst, bind_ok] at hall
  refine ⟨v₁, v₂, m, hfirst, hall, hm, fun a => ⟨(hrec₁.recorded a).tracks.sorted, ?_⟩⟩
  intro t ht
  have hsum := hrec₁.cumulativeAt_eq (a := a) ht
  have htracks := (hrec₁.recorded a).tracks
  have hsteps : valueAt Observation.timestamp Observation.balance (v₁.observations a) =
      stepAt changes a := funext (hrec₁.steps a)
  refine ⟨fun first hhead hle => ?_, fun hbefore => ?_, ⟨_, hsum, hmrec.cumulativeAt_eq⟩,
    fun hlater => ?_⟩
  · have hintegral := htracks.sum_from_first hhead hle
    rw [hsteps] at hintegral
    rw [hsum, hintegral]
  · have hzero := htracks.sum_before hbefore
    rw [hsteps] at hzero
    rw [hsum, hzero]
  · rw [hrec₂.cumulativeAt_eq ht, hsum]
    refine congrArg _ (Finset.sum_congr rfl fun s hs => ?_)
    exact stepAt_append hlater (Finset.mem_range.1 hs)

/-- Three changes of two accounts, then another in the block of the last one. -/
theorem history_exact_and_immutable_four : ∃ v₁ v₂,
    checkpointAll Fhe.plain Demo.cfg [⟨1, 5, 10⟩, ⟨2, 6, 10⟩, ⟨1, 7, 12⟩]
      (unset Fhe.plain) = .ok v₁ ∧
    checkpointAll Fhe.plain Demo.cfg [⟨1, 9, 12⟩] v₁ = .ok v₂ ∧
    v₂.cumulativeAt Fhe.plain 1 12 = v₁.cumulativeAt Fhe.plain 1 12 := by
  have hchanges : Change.Chronological
      (([⟨1, 5, 10⟩, ⟨2, 6, 10⟩, ⟨1, 7, 12⟩] : List (Change Nat)) ++ [⟨1, 9, 12⟩]) :=
    ⟨by decide, by decide, by decide⟩
  have hunset : ∀ a, (unset Fhe.plain).observations a = [] := fun _ => rfl
  obtain ⟨v₁, v₂, _, h₁, h₂, _, h⟩ := history_exact_and_immutable Demo.cfg 1 hunset hchanges
  exact ⟨v₁, v₂, h₁, h₂, ((h 1).2 12 (by decide)).2.2.2 (by decide)⟩

end Vault

end Leopold
