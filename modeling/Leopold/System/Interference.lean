import Leopold.System.Liveness

/-!
# A settlement never gets stuck

While no further round ends, no step of anybody adds to the calls a vault needs, but a draw of a
candidate that is rejected; and a step that takes none of them leaves every closed round as it is.
An account that always makes the call that comes next settles the vault on its own, whatever
candidates are drawn.
-/

namespace Leopold

open Lib

/-- The step draws a candidate that will be rejected. -/
def Label.rejected {X : Type} (v : PlainVault) : Label Nat Nat Bool X → Bool
  | .call _ c => c.rejected v
  | _ => false

namespace Vault

variable {E64 E128 EBool : Type} {fhe : Fhe E64 E128 EBool} {cfg : Config}
  {v v' : Vault E64 E128 EBool}

theorem changeEligible_rounds {a : Address} {f : E64 → E64} {s t : Nat}
    (h : changeEligible fhe cfg a f t v = .ok v') (hs : s ≠ v.activeRoundId) : v'.rounds s = v.rounds s := by
  rcases changeEligible_ok h with ⟨_, rfl⟩ | ⟨_, _, gs, rfl⟩
  · rfl
  · exact setRound_rounds_of_ne hs _

end Vault

namespace World

variable {X : Type} {E : Externals Nat Bool X} {O : Observables X} {cfg : Config}
  {w w' : PlainWorld X} {sender : Address} {r s : Nat} {c : Call Nat Nat Bool}

/-- A call that settles no round leaves the closed rounds as they are. -/
theorem exec_aside (hsender : cfg.External sender) (hclose : c ≠ .closeRound)
    (hc : c.settles = none) (h : exec Fhe.plain E cfg sender w c = .ok w')
    (hs : s ≠ w.vault.activeRoundId) : w'.vault.rounds s = w.vault.rounds s := by
  by_cases hdraws : c.draws = false
  · exact congrFun (exec_idle hsender hdraws h).vault.rounds s
  cases c with
  | registerForRound =>
    obtain ⟨e, v, _, hv, rfl⟩ := registerForRound_ok h
    obtain ⟨_, _, rfl, _, _, _, gs, rfl⟩ := Vault.acceptBondRegistration_ok hv
    exact Vault.setRound_rounds_of_ne hs _
  | deposit =>
    obtain ⟨_, _, v, _, _, _, hv, _, rfl⟩ := deposit_ok h
    obtain ⟨_, _, _, v₁, v₂, gs, hcheck, hchange, rfl⟩ :=
      Vault.onConfidentialTransferReceived_ok hv
    have hsame := Vault.checkpointUser_sameRounds hcheck
    have hactive : s ≠ v₁.activeRoundId := fun heq => hs (heq.trans hsame.activeRoundId)
    exact (Vault.changeEligible_rounds hchange hactive).trans (congrFun hsame.rounds s)
  | withdraw =>
    obtain ⟨⟨w₁, sent⟩, hop, rfl⟩ := map_eq_ok.1 h
    obtain ⟨_, x, v, _, hv, rfl⟩ := withdraw_ok hop
    obtain ⟨v₁, v₂, gs, hcheck, hchange, rfl⟩ := Vault.recordWithdrawal_ok hv
    have hsame := Vault.checkpointUser_sameRounds hcheck
    have hactive : s ≠ v₁.activeRoundId := fun heq => hs (heq.trans hsame.activeRoundId)
    exact (Vault.changeEligible_rounds hchange hactive).trans (congrFun hsame.rounds s)
  | closeRound => exact absurd rfl hclose
  | _ => first | exact absurd rfl hdraws | cases hc

/-- Nobody joins a round that is over. -/
theorem exec_participants_of_due (hsender : cfg.External sender)
    (hdue : (w.vault.rounds w.vault.activeRoundId).closesAt ≤ w.now) (hclose : c ≠ .closeRound)
    (hc : c.settles = none) (h : exec Fhe.plain E cfg sender w c = .ok w') :
    w'.vault.roundParticipants = w.vault.roundParticipants := by
  have hover (hopen : w.vault.isActiveRoundOpen w.now = true) : False :=
    Nat.not_le.2 (Vault.isActiveRoundOpen_iff.1 hopen).2.2 hdue
  by_cases hdraws : c.draws = false
  · exact (exec_idle hsender hdraws h).vault.roundParticipants
  cases c with
  | registerForRound =>
    obtain ⟨e, v, _, hv, rfl⟩ := registerForRound_ok h
    exact (hover (Vault.acceptBondRegistration_ok hv).2.2.2.1).elim
  | deposit =>
    obtain ⟨_, _, v, _, _, _, hv, _, rfl⟩ := deposit_ok h
    exact (hover (Vault.onConfidentialTransferReceived_ok hv).2.1).elim
  | withdraw =>
    obtain ⟨_, hop, rfl⟩ := map_eq_ok.1 h
    exact (hover (withdraw_ok hop).1).elim
  | closeRound => exact absurd rfl hclose
  | _ => first | exact absurd rfl hdraws | cases hc

/-- The two states agree on what is left to settle. -/
structure SameSettlement (cfg : Config) (w w' : PlainWorld X) : Prop where
  activeRoundId : w'.vault.activeRoundId = w.vault.activeRoundId
  closed : ∀ r < w.vault.activeRoundId, w'.vault.rounds r = w.vault.rounds r
  dueClosures : w'.vault.dueClosures cfg w'.now = w.vault.dueClosures cfg w.now
  remaining : w'.remaining cfg = w.remaining cfg

theorem SameSettlement.refl (cfg : Config) (w : PlainWorld X) : w.SameSettlement cfg w :=
  ⟨rfl, fun _ _ => rfl, rfl, rfl⟩

/-- What is left to settle outside of the closed rounds stays the same. -/
structure SameOpen (cfg : Config) (w w' : PlainWorld X) : Prop where
  activeRoundId : w'.vault.activeRoundId = w.vault.activeRoundId
  dueClosures : w'.vault.dueClosures cfg w'.now = w.vault.dueClosures cfg w.now
  joined : w.vault.dueClosures cfg w.now ≠ 0 →
    w'.vault.roundParticipants = w.vault.roundParticipants

theorem SameOpen.remaining (h : w.SameOpen cfg w') :
    w'.remaining cfg + ∑ r ∈ Finset.Ico 1 w.vault.activeRoundId, (w.vault.rounds r).remaining =
      w.remaining cfg +
        ∑ r ∈ Finset.Ico 1 w.vault.activeRoundId, (w'.vault.rounds r).remaining := by
  rw [World.remaining, World.remaining, h.activeRoundId, h.dueClosures]
  split_ifs with hdue
  · omega
  · rw [h.joined hdue]
    omega

theorem SameOpen.same (h : w.SameOpen cfg w')
    (hclosed : ∀ r < w.vault.activeRoundId, w'.vault.rounds r = w.vault.rounds r) :
    w.SameSettlement cfg w' := by
  refine ⟨h.activeRoundId, hclosed, h.dueClosures, ?_⟩
  have hsum : ∑ r ∈ Finset.Ico 1 w.vault.activeRoundId, (w'.vault.rounds r).remaining =
      ∑ r ∈ Finset.Ico 1 w.vault.activeRoundId, (w.vault.rounds r).remaining :=
    Finset.sum_congr rfl fun r hr => by rw [hclosed r (Finset.mem_Ico.1 hr).2]
  have := h.remaining
  omega

/-- If one closed round changes, what is left to settle changes with it. -/
theorem SameOpen.remaining_of_only (h : w.SameOpen cfg w')
    (hr : r ∈ Finset.Ico 1 w.vault.activeRoundId)
    (honly : ∀ s < w.vault.activeRoundId, s ≠ r → w'.vault.rounds s = w.vault.rounds s) :
    w'.remaining cfg + (w.vault.rounds r).remaining =
      w.remaining cfg + (w'.vault.rounds r).remaining := by
  have hrest : ∑ s ∈ (Finset.Ico 1 w.vault.activeRoundId).erase r, (w'.vault.rounds s).remaining =
      ∑ s ∈ (Finset.Ico 1 w.vault.activeRoundId).erase r, (w.vault.rounds s).remaining := by
    refine Finset.sum_congr rfl fun s hs => ?_
    obtain ⟨hne, hs⟩ := Finset.mem_erase.1 hs
    rw [honly s (Finset.mem_Ico.1 hs).2 hne]
  have hsum := h.remaining
  rw [← Finset.sum_erase_add _ _ hr, ← Finset.sum_erase_add _ _ hr, hrest] at hsum
  omega

/-- A closed round needs no more calls than its vault. -/
theorem round_remaining_le (hr : r ∈ Finset.Ico 1 w.vault.activeRoundId) :
    (w.vault.rounds r).remaining ≤ w.remaining cfg :=
  (Finset.single_le_sum (f := fun s => (w.vault.rounds s).remaining)
    (fun _ _ => Nat.zero_le _) hr).trans (Nat.le_add_right _ _)

/-- A call other than a closure touches what is left to settle in the closed rounds only. -/
theorem exec_sameOpen (hw : (system Fhe.plain E cfg).Reachable w) (hsender : cfg.External sender)
    (hclose : c ≠ .closeRound) (h : exec Fhe.plain E cfg sender w c = .ok w') :
    w.SameOpen cfg w' := by
  have hshape := (reachable_bonded hw).shape
  have hactive : w'.vault.activeRoundId = w.vault.activeRoundId :=
    (exec_activeRoundId hsender hshape h).resolve_right fun hc => hclose hc.1
  have hcloses : (w'.vault.rounds w'.vault.activeRoundId).closesAt =
      (w.vault.rounds w.vault.activeRoundId).closesAt := by
    rw [hactive]
    exact ((exec_roundStep hsender hshape h w.vault.activeRoundId).times (by omega)).2
  refine ⟨hactive, ?_, fun hdue => ?_⟩
  · rw [Vault.dueClosures, Vault.dueClosures, hcloses, exec_now hsender h]
  · rw [Ne, dueClosures_eq_zero, Nat.not_lt] at hdue
    cases hc : c.settles with
    | none => exact exec_participants_of_due hsender hdue hclose hc h
    | some r => exact (exec_only hshape hc h).roundParticipants

/-- **Step lemma.**  A call takes one of the calls a vault needs, or leaves what is left to settle
alone, or draws a candidate that will be rejected. -/
theorem exec_settlement (hE : E.Lawful O cfg.vault cfg.asset)
    (hw : (system Fhe.plain E cfg).Reachable w) (hsender : cfg.External sender)
    (hclose : c ≠ .closeRound) (h : exec Fhe.plain E cfg sender w c = .ok w') :
    w.SameSettlement cfg w' ∨ w'.remaining cfg < w.remaining cfg ∨
      (c.rejected w.vault = true ∧ 0 < w.remaining cfg ∧
        w'.remaining cfg = w.remaining cfg + 1) := by
  have hB := reachable_bonded hw
  have hB' := reachable_bonded (hw.tail (l := .call sender c) ⟨hsender, h⟩)
  have hopen := exec_sameOpen hw hsender hclose h
  cases hc : c.settles with
  | none =>
    exact .inl (hopen.same fun s hs => exec_aside hsender hclose hc h hs.ne)
  | some r =>
    have honly := exec_only hB.shape hc h
    have hothers : ∀ s < w.vault.activeRoundId, s ≠ r →
        w'.vault.rounds s = w.vault.rounds s := fun s hs hne => honly.rounds s hne hs.ne
    by_cases hr : r ∈ Finset.Ico 1 w.vault.activeRoundId
    · have hsum := hopen.remaining_of_only hr hothers
      rcases (exec_roundStep hsender hB.shape h r).remaining (hB.settling r)
        (Finset.mem_Ico.1 hr).2 (participants_of_ticket hE hw) with
        hsame | hless | ⟨hs, hrejecting, hmore⟩
      · refine .inl (hopen.same fun s hs => ?_)
        by_cases hsr : s = r
        · rw [hsr, hsame]
        · exact hothers s hs hsr
      · exact .inr (.inl (by omega))
      · have hpos : 0 < (w.vault.rounds r).remaining := by
          unfold Round.remaining
          rcases hs with hs | hs <;> rw [hs] <;> simp only <;> omega
        exact .inr (.inr ⟨exec_rejecting hc h hs hrejecting,
          hpos.trans_le (round_remaining_le hr), by omega⟩)
    · refine .inl (hopen.same fun s hs => ?_)
      by_cases hsr : s = r
      · have hzero : s = 0 := by
          rw [Finset.mem_Ico] at hr
          omega
        rw [hzero, hB.shape.zero, hB'.shape.zero]
      · exact hothers s hs hsr

/-- **Step lemma.**  While no further round ends, a step of anybody takes one of the calls a vault
needs, or leaves what is left to settle alone, or draws a candidate that will be rejected. -/
theorem step_settlement (hE : E.Lawful O cfg.vault cfg.asset)
    (hw : (system Fhe.plain E cfg).Reachable w) {l : Label Nat Nat Bool X}
    (hstep : Step Fhe.plain E cfg w l w')
    (hended : ∀ now, l = .tick now →
      w.vault.dueClosures cfg now = w.vault.dueClosures cfg w.now) :
    w'.vault.activeRoundId + w'.vault.dueClosures cfg w'.now =
        w.vault.activeRoundId + w.vault.dueClosures cfg w.now ∧
      (w.SameSettlement cfg w' ∨ w'.remaining cfg < w.remaining cfg ∨
        (l.rejected w.vault = true ∧ 0 < w.remaining cfg ∧
          w'.remaining cfg = w.remaining cfg + 1)) := by
  cases l with
  | call sender c =>
    obtain ⟨hsender, h⟩ := hstep
    by_cases hclose : c = .closeRound
    · subst hclose
      obtain ⟨hcfg, _, _⟩ := reachable_timed hE hw
      refine ⟨?_, .inr (.inl (closeRound_remaining_lt hw hcfg.duration_pos h))⟩
      obtain ⟨v, hv, rfl⟩ := onVault_eq_ok.1 h
      obtain ⟨hid, hcount⟩ := closeRound_dueClosures hcfg.duration_pos hv
      simp only [hid, hcount]
      omega
    · have hopen := exec_sameOpen hw hsender hclose h
      exact ⟨by rw [hopen.activeRoundId, hopen.dueClosures],
        exec_settlement hE hw hsender hclose h⟩
  | tick now =>
    obtain ⟨_, rfl⟩ := hstep
    have hsame := hended now rfl
    exact ⟨congrArg _ hsame, .inl (SameOpen.same ⟨rfl, hsame, fun _ => rfl⟩ fun _ _ => rfl)⟩
  | thirdParty ext =>
    obtain ⟨_, rfl⟩ := hstep
    exact ⟨rfl, .inl ⟨rfl, fun _ _ => rfl, rfl, rfl⟩⟩
  | forceNative amount =>
    subst hstep
    exact ⟨rfl, .inl ⟨rfl, fun _ _ => rfl, rfl, rfl⟩⟩

/-- A vault that has settled every closed round needs no call while its active round is not
over. -/
theorem remaining_eq_zero
    (hdue : w.now < (w.vault.rounds w.vault.activeRoundId).closesAt)
    (hsettled : ∀ r, 0 < r → r < w.vault.activeRoundId → (w.vault.rounds r).state = .settled) :
    w.remaining cfg = 0 := by
  rw [remaining, if_pos ((dueClosures_eq_zero cfg).2 hdue), Nat.add_zero]
  refine Finset.sum_eq_zero fun r hr => ?_
  obtain ⟨hpos, hclosed⟩ := Finset.mem_Ico.1 hr
  simp only [Round.remaining, hsettled r hpos hclosed]

/-! ### Settling alone -/

/-- The first closed round that is not settled. -/
def unsettled (w : PlainWorld X) : Option Nat :=
  (List.range w.vault.activeRoundId).find? fun r =>
    decide (0 < r ∧ (w.vault.rounds r).state ≠ .settled)

/-- The call that comes next: a closure that is due, else what the first unsettled round asks
for. -/
def nextCall (candidate : Nat) (w : PlainWorld X) : Option (Call Nat Nat Bool) :=
  if (w.vault.rounds w.vault.activeRoundId).closesAt ≤ w.now then some .closeRound
  else w.unsettled.bind fun r => settlingCall r candidate w

/-- An account makes the call that comes next, over and over and until there is none; `draws` are
the random numbers of these calls, those that draw none included.  The result counts the rejected
candidates. -/
def settleAlone (E : Externals Nat Bool X) (cfg : Config) (sender : Address) :
    List Nat → PlainWorld X → Except Revert (PlainWorld X × Nat)
  | [], w => .ok (w, 0)
  | candidate :: draws, w =>
    match nextCall candidate w with
    | none => .ok (w, 0)
    | some c => do
      let next ← exec Fhe.plain E cfg sender w c
      let (last, rejected) ← settleAlone E cfg sender draws next
      return (last, rejected + (c.rejected w.vault).toNat)

theorem unsettled_eq_some (h : w.unsettled = some r) :
    0 < r ∧ r < w.vault.activeRoundId ∧ (w.vault.rounds r).state ≠ .settled := by
  have hfound := List.find?_some h
  obtain ⟨hpos, hstate⟩ := of_decide_eq_true hfound
  exact ⟨hpos, List.mem_range.1 (List.mem_of_find?_eq_some h), hstate⟩

theorem unsettled_eq_none :
    w.unsettled = none ↔
      ∀ r, 0 < r → r < w.vault.activeRoundId → (w.vault.rounds r).state = .settled := by
  simp only [unsettled, List.find?_eq_none, List.mem_range, decide_eq_true_eq, not_and, not_not]
  exact ⟨fun h r hpos hlt => h r hlt hpos, fun h r hlt hpos => h r hpos hlt⟩

/-- There is no next call when the vault needs none. -/
theorem nextCall_eq_none (hw : (system Fhe.plain E cfg).Reachable w) (candidate : Nat)
    (h : w.remaining cfg = 0) : nextCall candidate w = none := by
  obtain ⟨hdue, hsettled⟩ := settled_of_remaining hw h
  rw [nextCall, if_neg (Nat.not_le.2 hdue), unsettled_eq_none.2 hsettled, Option.bind_none]

/-- **Step lemma.**  The next call of a vault that needs one is accepted, and is one of those it
needs unless the candidate it draws is rejected. -/
theorem nextCall_accepted (hE : E.Lawful O cfg.vault cfg.asset)
    (hw : (system Fhe.plain E cfg).Reachable w) (hsender : cfg.External sender)
    (hclock : w.now + cfg.roundDuration < 2 ^ 64)
    (hattempts : ∀ r, w.vault.candidateAttempts r + 1 < 2 ^ 32) (candidate : Nat)
    (hneeded : w.remaining cfg ≠ 0) :
    ∃ c w', nextCall candidate w = some c ∧ exec Fhe.plain E cfg sender w c = .ok w' ∧
      w'.remaining cfg + 1 ≤ w.remaining cfg + 2 * (c.rejected w.vault).toNat ∧
      ∀ r, w'.vault.candidateAttempts r ≤ w.vault.candidateAttempts r + 1 := by
  obtain ⟨hcfg, _, _⟩ := reachable_timed hE hw
  have hshape := (reachable_bonded hw).shape
  by_cases hdue : (w.vault.rounds w.vault.activeRoundId).closesAt ≤ w.now
  · obtain ⟨w', hw'⟩ := closeRound_accepted sender hE hw hclock hdue
    have hless := closeRound_remaining_lt hw hcfg.duration_pos hw'
    refine ⟨.closeRound, w', if_pos hdue, hw', by omega, ?_⟩
    obtain ⟨v, hv, rfl⟩ := onVault_eq_ok.1 hw'
    obtain ⟨_, _, _, _, gs, rfl⟩ := Vault.closeRound_ok hv
    exact fun _ => Nat.le_succ _
  · have hopen := Nat.not_le.1 hdue
    cases hnext : w.unsettled with
    | none => exact absurd (remaining_eq_zero hopen (unsettled_eq_none.1 hnext)) hneeded
    | some r =>
      obtain ⟨hpos, hclosed, hunsettled⟩ := unsettled_eq_some hnext
      obtain ⟨c, w', hc, hsettles, hw'⟩ := settlingCall_isOk hE hw hsender hopen hpos hclosed
        hunsettled (hattempts r) candidate
      have hclose : c ≠ .closeRound := by
        rintro rfl
        cases hsettles
      refine ⟨c, w', ?_, hw', ?_, (exec_only hshape hsettles hw').attempts⟩
      · rw [nextCall, if_neg hdue, hnext, Option.bind_some, hc]
      · rcases exec_settlement hE hw hsender hclose hw' with hsame | hless | ⟨hrejected, _, hmore⟩
        · exact absurd (hsame.closed r hclosed) (exec_changes hw hsender hsettles hw')
        · omega
        · rw [hrejected, hmore]
          exact Nat.le_refl _

/-- **A settlement never gets stuck.**  In every reachable state any account can, on its own,
close every round that is over and settle every closed round.  However the candidates of its calls
are drawn, no call is refused, and there are at most two for each rejected candidate besides those
that the vault needs. -/
theorem anyone_settles (hE : E.Lawful O cfg.vault cfg.asset)
    (hw : (system Fhe.plain E cfg).Reachable w) (hsender : cfg.External sender)
    (hclock : w.now + cfg.roundDuration < 2 ^ 64) (draws : List Nat)
    (hattempts : ∀ r, w.vault.candidateAttempts r + draws.length < 2 ^ 32) :
    ∃ w' rejected, settleAlone E cfg sender draws w = .ok (w', rejected) ∧ w'.now = w.now ∧
      (w.remaining cfg + 2 * rejected ≤ draws.length →
        w'.now < (w'.vault.rounds w'.vault.activeRoundId).closesAt ∧
        ∀ r, 0 < r → r < w'.vault.activeRoundId → (w'.vault.rounds r).state = .settled) := by
  induction draws generalizing w with
  | nil => exact ⟨w, 0, rfl, rfl, fun hlong => settled_of_remaining hw (Nat.le_zero.1 hlong)⟩
  | cons candidate draws ih =>
    rw [List.length_cons] at hattempts
    by_cases hzero : w.remaining cfg = 0
    · refine ⟨w, 0, ?_, rfl, fun _ => settled_of_remaining hw hzero⟩
      rw [settleAlone, nextCall_eq_none hw candidate hzero]
    · obtain ⟨c, w₁, hnext, hexec, hless, hcounted⟩ := nextCall_accepted hE hw hsender hclock
        (fun r => by have := hattempts r; omega) candidate hzero
      have hnow := exec_now hsender hexec
      have hw₁ : (system Fhe.plain E cfg).Reachable w₁ :=
        hw.tail (l := .call sender c) ⟨hsender, hexec⟩
      obtain ⟨w', rejected, hrun, hnow', hsettled⟩ := ih hw₁ (hnow ▸ hclock) fun r => by
        have h₁ := hcounted r
        have h₂ := hattempts r
        omega
      refine ⟨w', rejected + (c.rejected w.vault).toNat, ?_, hnow'.trans hnow, fun hlong => ?_⟩
      · rw [settleAlone, hnext]
        simp only [hexec, bind_ok, hrun, pure_eq_ok]
      · refine hsettled ?_
        rw [List.length_cons] at hlong
        omega

end World

/-- The random numbers of twelve calls: the third draws one that is rejected. -/
def Demo.overdueDraws : List Nat := [0, 0, 2 ^ 128 - 1, 0, 0, 0, 0, 0, 0, 0, 0, 0]

open Demo World in
/-- Alice settles the round on her own, although her first candidate is rejected. -/
theorem World.anyone_settles_overdue : ∃ w w',
    outcome cfg token 100 chain overdueScript = .ok w ∧
    (w.vault.rounds 1).closesAt ≤ w.now ∧
    settleAlone externals cfg alice overdueDraws w = .ok (w', 1) ∧
    w'.now < (w'.vault.rounds w'.vault.activeRoundId).closesAt ∧
    ∀ r, 0 < r → r < w'.vault.activeRoundId → (w'.vault.rounds r).state = .settled := by
  obtain ⟨w, hw, hclock, _, hdue, hattempts⟩ := ends_overdue
  have hends : endsWith (fun w => decide (w.remaining cfg + 2 * 1 ≤ overdueDraws.length ∧
      (settleAlone externals cfg alice overdueDraws w).map Prod.snd = .ok 1))
      (outcome cfg token 100 chain overdueScript) = true := by decide +kernel
  rw [hw] at hends
  obtain ⟨hlong, hone⟩ := of_decide_eq_true hends
  obtain ⟨w', rejected, hrun, _, hsettled⟩ :=
    anyone_settles lawful (outcome_reachable hw) (show cfg.External alice by decide) hclock
      overdueDraws (fun r => by rw [hattempts]; exact (by decide : 0 + 12 < 2 ^ 32))
  rw [hrun] at hone
  obtain rfl : rejected = 1 := Except.ok.inj hone
  obtain ⟨hopen, hall⟩ := hsettled hlong
  exact ⟨w, w', hw, hdue, hrun, hopen, hall⟩

end Leopold
