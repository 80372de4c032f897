import Leopold.System.Lifecycle
import Leopold.System.Preferences

/-!
# The winner is paid

An allocation visits every participant once.  The one who holds the accepted ticket is credited
the whole prize, as winnings or, when it wanted to save at the close and the pool has room, as
principal; every other participant is visited without effect.  How the participants are split into
calls does not matter.
-/

namespace Leopold

open Lib TransitionSystem

/-! ## One participant -/

namespace Vault

/-- Savings and winnings stay as they are. -/
def Spares (v v' : PlainVault) : Prop := v'.principal = v.principal ∧ v'.winnings = v.winnings

/-- The whole prize goes to account `a`, to its principal where it wanted to save and the pool has
room, to its winnings otherwise; nobody else's savings or winnings change. -/
def Credits (a : Address) (prize : Nat) (wanted : AutoSavePreference) (v v' : PlainVault) : Prop :=
  if wanted = .autoSave ∧ v.totalPrincipal + prize ≤ MAX_POOL_BASE_UNITS then
    v'.principal = Function.update v.principal a (v.principal a + prize) ∧ v'.winnings = v.winnings
  else
    v'.principal = v.principal ∧ v'.winnings = Function.update v.winnings a (v.winnings a + prize)

/-- What the visits of an allocation read and do not change. -/
structure Visited (r : Nat) (v v' : PlainVault) : Prop where
  activeRoundId : v'.activeRoundId = v.activeRoundId
  winnerPredicate : v'.winnerPredicate r = v.winnerPredicate r
  preferenceObservations : v'.preferenceObservations = v.preferenceObservations
  closesAt : (v'.rounds r).closesAt = (v.rounds r).closesAt

variable {cfg : Config} {v v' u : PlainVault} {r now balance basis rate : Nat} {a b : Address}

theorem Visited.refl (r : Nat) (v : PlainVault) : v.Visited r v := ⟨rfl, rfl, rfl, rfl⟩

theorem Visited.trans (h : v.Visited r u) (h' : u.Visited r v') : v.Visited r v' :=
  ⟨h'.1.trans h.1, h'.2.trans h.2, h'.3.trans h.3, h'.4.trans h.4⟩

theorem Visited.preferenceAt (h : v.Visited r v') (a : Address) :
    v'.preferenceAt a (v'.rounds r).closesAt = v.preferenceAt a (v.rounds r).closesAt := by
  rw [Vault.preferenceAt, Vault.preferenceAt, h.preferenceObservations, h.closesAt]

section

variable {E64 E128 EBool : Type} {fhe : Fhe E64 E128 EBool} {v : Vault E64 E128 EBool}
  {prize autoSaved : E64} {obs : List (Observation E64 E128)}

variable (fhe r a prize autoSaved obs v) in
theorem allocated_frame :
    (allocated fhe r a prize autoSaved obs v).activeRoundId = v.activeRoundId ∧
    (allocated fhe r a prize autoSaved obs v).winnerPredicate = v.winnerPredicate ∧
    (allocated fhe r a prize autoSaved obs v).preferenceObservations =
      v.preferenceObservations ∧
    ((allocated fhe r a prize autoSaved obs v).rounds r).closesAt = (v.rounds r).closesAt := by
  refine ⟨rfl, rfl, rfl, ?_⟩
  rw [allocated, setRound_rounds_self]

end

theorem allocateParticipant_visited (hr : r < v.activeRoundId)
    (h : allocateParticipant Fhe.plain cfg r now a v = .ok v') : v.Visited r v' := by
  obtain ⟨_, prize, autoSaved, obs, _, gs, _, _, _, _, rfl⟩ :=
    allocateParticipant_ok (Nat.ne_of_lt hr) h
  obtain ⟨h1, h2, h3, h4⟩ := allocated_frame r a Fhe.plain v prize autoSaved obs
  exact ⟨h1, congrFun h2 r, h3, h4⟩

/-- A participant that did not win is visited without effect, a winner is credited the prize. -/
theorem allocateParticipant_award (hs : (v.books balance basis).Kept rate)
    (hr : r < v.activeRoundId) (h : allocateParticipant Fhe.plain cfg r now a v = .ok v') :
    ∃ wanted, v.preferenceAt a (v.rounds r).closesAt = .ok wanted ∧
      (v.winnerPredicate r a = false → v.Spares v' ∧ v'.totalPrincipal = v.totalPrincipal ∧
        (v'.rounds r).reservedPrize = (v.rounds r).reservedPrize) ∧
      (v.winnerPredicate r a = true → v.Credits a (v.rounds r).reservedPrize wanted v' ∧
        (v'.rounds r).reservedPrize = 0) := by
  obtain ⟨wanted, prize, autoSaved, obs, _, gs, hwanted, hprize, hauto, _, rfl⟩ :=
    allocateParticipant_ok (Nat.ne_of_lt hr) h
  have htotal : v.totalPrincipal ≤ MAX_POOL_BASE_UNITS := hs.total_le
  have hamounts := award_amounts htotal hprize hauto
  clear hprize hauto
  obtain ⟨hprize, hauto⟩ := hamounts
  have hle : prize ≤ (v.rounds r).reservedPrize := by rw [hprize]; split_ifs <;> omega
  have hle' : autoSaved ≤ prize := by
    rw [hprize, hauto]
    split_ifs with h1 h2
    · exact Nat.le_refl _
    · exact absurd h1.1 h2
    · exact Nat.zero_le _
    · exact Nat.le_refl _
  have hfits : v.totalPrincipal + autoSaved ≤ MAX_POOL_BASE_UNITS := by
    rw [hauto]
    split_ifs with h1
    · exact h1.2.2
    · exact htotal
  have hbooks := allocated_books hs a obs hle hle' hfits
  generalize hv : allocated Fhe.plain r a prize autoSaved obs v = v₁ at hbooks
  have h1 : v₁.principal = Function.update v.principal a (v.principal a + autoSaved) :=
    congrArg Ledger.principal hbooks
  have h2 : v₁.winnings = Function.update v.winnings a (v.winnings a + (prize - autoSaved)) :=
    congrArg Ledger.winnings hbooks
  have h3 : v₁.totalPrincipal = v.totalPrincipal + autoSaved :=
    congrArg Ledger.totalPrincipal hbooks
  have h4 : (v₁.rounds r).reservedPrize = (v.rounds r).reservedPrize - prize := by
    refine (congrFun (congrArg Ledger.roundReserved hbooks) r).trans ?_
    exact Function.update_self ..
  refine ⟨wanted, hwanted, fun hlost => ?_, fun hwon => ?_⟩
  · rw [hlost, if_neg Bool.false_ne_true] at hprize
    rw [hlost, if_neg fun h => Bool.false_ne_true h.1] at hauto
    subst hprize hauto
    refine ⟨⟨?_, ?_⟩, h3, h4⟩
    · exact h1.trans (Function.update_eq_self a v.principal)
    · exact h2.trans (Function.update_eq_self a v.winnings)
  · rw [hwon, if_pos rfl] at hprize
    rw [hwon] at hauto
    subst hprize
    refine ⟨?_, h4.trans (Nat.sub_self _)⟩
    rw [Credits]
    by_cases hsave : wanted = .autoSave ∧
        v.totalPrincipal + (v.rounds r).reservedPrize ≤ MAX_POOL_BASE_UNITS
    · rw [if_pos ⟨rfl, hsave⟩] at hauto
      subst hauto
      rw [if_pos hsave]
      refine ⟨h1, h2.trans ?_⟩
      rw [Nat.sub_self]
      exact Function.update_eq_self a v.winnings
    · rw [if_neg fun h => hsave h.2] at hauto
      subst hauto
      rw [if_neg hsave]
      exact ⟨h1.trans (Function.update_eq_self a v.principal), h2⟩

/-! ## A chunk -/

/-- Every vault of an allocation keeps its books and what the visits read. -/
structure Awarding (balance basis rate r : Nat) (v u : PlainVault) : Prop where
  kept : (u.books balance basis).Kept rate
  closed : r < u.activeRoundId
  visited : v.Visited r u

theorem Awarding.visit (h : v.Awarding balance basis rate r u)
    (hstep : allocateParticipant Fhe.plain cfg r now a u = .ok v') :
    v.Awarding balance basis rate r v' := by
  have hvisited := allocateParticipant_visited h.closed hstep
  exact ⟨h.kept.postings (allocateParticipant_books h.kept h.closed hstep),
    hvisited.activeRoundId ▸ h.closed, h.visited.trans hvisited⟩

/-- A chunk without the winner is visited without effect. -/
theorem forList_spares {as : List Address} (hs : (v.books balance basis).Kept rate)
    (hr : r < v.activeRoundId)
    (h : forList (allocateParticipant Fhe.plain cfg r now) as v = .ok v')
    (hlost : ∀ a ∈ as, v.winnerPredicate r a = false) :
    v.Awarding balance basis rate r v' ∧ v.Spares v' ∧ v'.totalPrincipal = v.totalPrincipal ∧
      (v'.rounds r).reservedPrize = (v.rounds r).reservedPrize := by
  have hend := forList_invariant (I := fun done u =>
    v.Awarding balance basis rate r u ∧ ((∀ a ∈ done, v.winnerPredicate r a = false) →
      v.Spares u ∧ u.totalPrincipal = v.totalPrincipal ∧
        (u.rounds r).reservedPrize = (v.rounds r).reservedPrize)) ?_ h
    ⟨⟨hs, hr, .refl r v⟩, fun _ => ⟨⟨rfl, rfl⟩, rfl, rfl⟩⟩
  · exact ⟨hend.1, hend.2 hlost⟩
  · rintro a done u u' ⟨hu, hspared⟩ hstep
    refine ⟨hu.visit hstep, fun hlost => ?_⟩
    obtain ⟨⟨h1, h2⟩, h3, h4⟩ := hspared fun b hb => hlost b (by simp [hb])
    obtain ⟨_, _, hlose, _⟩ := allocateParticipant_award hu.kept hu.closed hstep
    obtain ⟨⟨g1, g2⟩, g3, g4⟩ := hlose (by
      rw [hu.visited.winnerPredicate]
      exact hlost a (by simp))
    exact ⟨⟨g1.trans h1, g2.trans h2⟩, g3.trans h3, g4.trans h4⟩

theorem forList_append {body : Address → PlainVault → Except Revert PlainVault}
    {as bs : List Address} :
    forList body (as ++ bs) v = forList body as v >>= forList body bs := by
  induction as generalizing v with
  | nil => rfl
  | cons a as ih =>
    rw [List.cons_append, forList, forList]
    cases body a v with
    | error e => rfl
    | ok v₁ => exact ih

/-- A chunk with the winner credits the winner. -/
theorem forList_credits {before after : List Address} (hs : (v.books balance basis).Kept rate)
    (hr : r < v.activeRoundId)
    (h : forList (allocateParticipant Fhe.plain cfg r now) (before ++ a :: after) v = .ok v')
    (hwon : v.winnerPredicate r a = true)
    (hlost : ∀ b ∈ before ++ after, v.winnerPredicate r b = false) :
    ∃ wanted, v.preferenceAt a (v.rounds r).closesAt = .ok wanted ∧
      v.Credits a (v.rounds r).reservedPrize wanted v' ∧ (v'.rounds r).reservedPrize = 0 := by
  rw [forList_append, seq_eq_ok] at h
  obtain ⟨v₁, hbefore, h⟩ := h
  rw [forList, seq_eq_ok] at h
  obtain ⟨v₂, hvisit, hafter⟩ := h
  obtain ⟨hA₁, ⟨h1, h2⟩, h3, h4⟩ := forList_spares hs hr hbefore fun b hb => hlost b (by simp [hb])
  obtain ⟨wanted, hwanted, _, hcredit⟩ := allocateParticipant_award hA₁.kept hA₁.closed hvisit
  obtain ⟨hcredits, hzero⟩ := hcredit (by rw [hA₁.visited.winnerPredicate]; exact hwon)
  have hA₂ := hA₁.visit hvisit
  obtain ⟨_, ⟨g1, g2⟩, _, g4⟩ := forList_spares hA₂.kept hA₂.closed hafter fun b hb => by
    rw [hA₂.visited.winnerPredicate]
    exact hlost b (by simp [hb])
  refine ⟨wanted, (hA₁.visited.preferenceAt a).symm.trans hwanted, ?_, g4.trans hzero⟩
  rw [Credits, h3, h4] at hcredits
  rw [Credits]
  split_ifs at hcredits ⊢
  · exact ⟨g1.trans (h1 ▸ hcredits.1), g2.trans (h2 ▸ hcredits.2)⟩
  · exact ⟨g1.trans (h1 ▸ hcredits.1), g2.trans (h2 ▸ hcredits.2)⟩

end Vault

/-! ## One call -/

section

variable {X : Type} {E : Externals Nat Bool X} {O : Observables X} {cfg : Config}
  {w w' : PlainWorld X} {sender : Address} {r n : Nat}

namespace World

/-- The participants between two cursors. -/
def chunkOf (w : PlainWorld X) (r processed : Nat) : List Address :=
  ((w.vault.roundParticipants r).drop (w.vault.rounds r).allocationCursor).take processed

/-- What a call of `processAllocation` does to savings, winnings and the reserve of its round. -/
theorem processAllocation_awards (hB : w.Booked O cfg E)
    (h : processAllocation Fhe.plain cfg sender r n w = .ok w') :
    ∃ processed, (w'.vault.rounds r).allocationCursor =
        (w.vault.rounds r).allocationCursor + processed ∧
      ((∀ a ∈ w.chunkOf r processed, w.vault.winnerPredicate r a = false) →
        w.vault.Spares w'.vault ∧
          (w'.vault.rounds r).reservedPrize = (w.vault.rounds r).reservedPrize) ∧
      ∀ before a after, w.chunkOf r processed = before ++ a :: after →
        w.vault.winnerPredicate r a = true →
        (∀ b ∈ before ++ after, w.vault.winnerPredicate r b = false) →
          ∃ wanted, w.vault.preferenceAt a (w.vault.rounds r).closesAt = .ok wanted ∧
            w.vault.Credits a (w.vault.rounds r).reservedPrize wanted w'.vault ∧
            (w'.vault.rounds r).reservedPrize = 0 := by
  obtain ⟨_, hlt⟩ := processAllocation_closed hB.shape h
  obtain ⟨_, _, v₁, v₂, processed, v₃, e, hstart, hacc, _, hloop, _, rfl⟩ :=
    processAllocation_ok h
  obtain ⟨_, rfl⟩ := Vault.startAllocation_ok hstart
  have hkept : (w.vault.books (O.confidentialBalance w.ext cfg.vault)
    w.adapter.deployedPrincipalBasis).Kept E.rate := hB.kept
  generalize O.confidentialBalance w.ext cfg.vault = balance at hkept
  generalize w.adapter.deployedPrincipalBasis = basis at hkept
  have hbooks : v₂.books balance basis = w.vault.books balance basis := by
    rw [Vault.accrueEligible_books hacc, Vault.books_setRound_of_reserved]
    rfl
  -- the start of the call only moves the state of the round and the accrual of the open one
  have hround : v₂.rounds r = { w.vault.rounds r with state := .allocationProcessing } := by
    obtain ⟨_, gs, rfl⟩ := Vault.accrueEligible_ok hacc
    refine (Vault.setRound_rounds_of_ne ?_ _).trans (Vault.setRound_rounds_self _ _)
    exact Nat.ne_of_lt hlt
  have hvisited : w.vault.Visited r v₂ ∧ v₂.roundParticipants = w.vault.roundParticipants := by
    have hcloses : (v₂.rounds r).closesAt = (w.vault.rounds r).closesAt := by rw [hround]
    obtain ⟨_, gs, rfl⟩ := Vault.accrueEligible_ok hacc
    exact ⟨⟨rfl, rfl, rfl, hcloses⟩, rfl⟩
  obtain ⟨hvisited, hparts⟩ := hvisited
  have hprincipal : v₂.principal = w.vault.principal := congrArg Ledger.principal hbooks
  have hwinnings : v₂.winnings = w.vault.winnings := congrArg Ledger.winnings hbooks
  have htotal : v₂.totalPrincipal = w.vault.totalPrincipal :=
    congrArg Ledger.totalPrincipal hbooks
  rw [← hbooks] at hkept
  have hlt₂ : r < v₂.activeRoundId := hvisited.activeRoundId ▸ hlt
  have hlist := (Vault.forParticipants_ok
    (fun a u u' hu => congrFun (Vault.allocateParticipant_participants hu) r) hloop).2
  have hchunk : ((v₂.roundParticipants r).drop (v₂.rounds r).allocationCursor).take processed =
      w.chunkOf r processed := by
    rw [hparts, hround]
    rfl
  rw [hchunk] at hlist
  refine ⟨processed, ?_, fun hlost => ?_, fun before a after hsplit hwon hlost => ?_⟩
  · rw [Vault.finishAllocation_eq, Vault.setRound_rounds_self, Vault.setRound_rounds_self, hround]
  · obtain ⟨_, ⟨h1, h2⟩, _, h4⟩ := Vault.forList_spares hkept hlt₂ hlist fun a ha => by
      rw [hvisited.winnerPredicate]
      exact hlost a ha
    rw [Vault.finishAllocation_eq]
    refine ⟨⟨h1.trans hprincipal, h2.trans hwinnings⟩, ?_⟩
    rw [Vault.setRound_rounds_self, Vault.setRound_rounds_self]
    refine Eq.trans ?_ (h4.trans (by rw [hround]))
    split_ifs <;> rfl
  · rw [hsplit] at hlist
    obtain ⟨wanted, hwanted, hcredits, hzero⟩ := Vault.forList_credits hkept hlt₂ hlist
      (by rw [hvisited.winnerPredicate]; exact hwon)
      fun b hb => by rw [hvisited.winnerPredicate]; exact hlost b hb
    refine ⟨wanted, (hvisited.preferenceAt a).symm.trans hwanted, ?_, ?_⟩
    · rw [Vault.Credits, htotal, hprincipal, hwinnings, hround] at hcredits
      rw [Vault.finishAllocation_eq]
      exact hcredits
    · rw [Vault.finishAllocation_eq, Vault.setRound_rounds_self, Vault.setRound_rounds_self]
      refine Eq.trans ?_ hzero
      split_ifs <;> rfl

/-! ## Every other step -/

/-- Account `a` holds the accepted ticket of the round. -/
def Holds (w : PlainWorld X) (r : Nat) (a : Address) : Prop :=
  Wins (w.vault.weight r) (w.vault.roundParticipants r) (w.vault.rounds r).acceptedTicket a

variable {l : Label Nat Nat Bool X}

/-- Who holds the ticket of a round is final once the ticket is accepted. -/
theorem step_holds (hE : E.Lawful O cfg.vault cfg.asset)
    (hw : (system Fhe.plain E cfg).Reachable w) (hstep : Step Fhe.plain E cfg w l w')
    (hr : 0 < r) (hlt : r < w.vault.activeRoundId) (hd : (w.vault.rounds r).Decided)
    (a : Address) : w'.Holds r a ↔ w.Holds r a := by
  have hfrozen := (step_frozen hw hd hstep).1
  have hweight : w'.vault.weight r = w.vault.weight r := by
    obtain ⟨_, hB, hT⟩ := reachable_timed hE hw
    cases l with
    | call sender c => exact exec_weight hstep.1 hB.shape hT hstep.2 hr hlt
    | tick now =>
      obtain ⟨_, rfl⟩ := hstep
      rfl
    | thirdParty ext =>
      obtain ⟨_, rfl⟩ := hstep
      rfl
    | forceNative amount =>
      obtain rfl := hstep
      rfl
  rw [Holds, Holds, hweight, hfrozen.participants, hfrozen.acceptedTicket]

/-- A step that does not allocate the round leaves its reserve and its cursor alone, unless the
prize rolls forward. -/
theorem step_reserved (hw : (system Fhe.plain E cfg).Reachable w)
    (hstep : Step Fhe.plain E cfg w l w') (hlt : r < w.vault.activeRoundId)
    (hnot : ∀ sender n, l ≠ .call sender (.processAllocation r n))
    (hs : (w'.vault.rounds r).state ≠ .settled) :
    (w'.vault.rounds r).reservedPrize = (w.vault.rounds r).reservedPrize ∧
      (w'.vault.rounds r).allocationCursor = (w.vault.rounds r).allocationCursor := by
  cases l with
  | call sender c =>
    have hB := reachable_bonded hw
    have hcursor := exec_allocationCursor (r := r) hstep.1 hB.shape
      (fun n hc => hnot sender n (by rw [hc])) hstep.2
    refine ⟨?_, hcursor⟩
    cases exec_roundStep hstep.1 hB.shape hstep.2 r with
    | same hround => rw [hround]
    | accrue hra => exact absurd hra (Nat.ne_of_lt hlt)
    | close hra => exact absurd hra (Nat.ne_of_lt hlt)
    | opened hra => omega
    | move hmove =>
      generalize (w'.vault.rounds r) = round' at hmove hs
      cases hmove with
      | rollForward => exact absurd rfl hs
      | _ => rfl
    | select _ _ _ _ _ hround =>
      rw [hround, Vault.selectedRound]
      split_ifs <;> rfl
    | @allocate processed reserved hstate hpos _ hround =>
      -- an allocation moves the cursor
      have hcursors := (hB.settling r).cursors
      rw [Round.progress] at hcursors
      have hsnapshot : (w.vault.rounds r).participantCountSnapshot =
          (w.vault.roundParticipants r).length := (hB.settling r).snapshot
        (by rcases hstate with h | h <;> rw [Round.progress, h] <;> rintro ⟨⟩)
        (by rcases hstate with h | h <;> rw [Round.progress, h] <;> rintro ⟨⟩)
      have hless : (w.vault.rounds r).allocationCursor <
          (w.vault.rounds r).participantCountSnapshot := by
        rw [hsnapshot]
        rcases hstate with h | h <;> rw [h] at hcursors <;>
          simp only [RoundState.Cursors] at hcursors <;> omega
      have hmoved := hpos hless
      have hnew : (w'.vault.rounds r).allocationCursor =
          (w.vault.rounds r).allocationCursor + processed := by rw [hround]
      omega
  | tick now =>
    obtain ⟨_, rfl⟩ := hstep
    exact ⟨rfl, rfl⟩
  | thirdParty ext =>
    obtain ⟨_, rfl⟩ := hstep
    exact ⟨rfl, rfl⟩
  | forceNative amount =>
    obtain rfl := hstep
    exact ⟨rfl, rfl⟩

end World

/-! ## The allocation of a run -/

/-- A step of the system that was taken. -/
abbrev TakenStep (X : Type) := Taken (PlainWorld X) (Label Nat Nat Bool X)

/-- The step is a call that closes round `r`. -/
def TakenStep.Closes (s : TakenStep X) (r : Nat) : Prop :=
  s.source.vault.activeRoundId = r ∧ ∃ sender, s.label = .call sender .closeRound

/-- The step is a call that allocates round `r`. -/
def TakenStep.Allocates (s : TakenStep X) (r : Nat) : Prop :=
  ∃ sender n, s.label = .call sender (.processAllocation r n)

/-- No step that allocates round `r` changed savings or winnings. -/
def NonePaid (r : Nat) (steps : List (TakenStep X)) : Prop :=
  ∀ s ∈ steps, s.Allocates r → s.source.vault.Spares s.target.vault

/-- Exactly one of the steps credited anything in allocating round `r`: all of `prize` to `a`. -/
def OnePaid (r : Nat) (a : Address) (prize : Nat) (wanted : AutoSavePreference)
    (steps : List (TakenStep X)) : Prop :=
  ∃ before pay after, steps = before ++ pay :: after ∧ pay.Allocates r ∧
    pay.source.vault.Credits a prize wanted pay.target.vault ∧ NonePaid r (before ++ after)

theorem NonePaid.append {steps later : List (TakenStep X)} (h : NonePaid r steps)
    (h' : NonePaid r later) : NonePaid r (steps ++ later) := fun s hs =>
  (List.mem_append.1 hs).elim (h s) (h' s)

theorem OnePaid.append {a : Address} {prize : Nat} {wanted : AutoSavePreference}
    {steps later : List (TakenStep X)} (h : OnePaid r a prize wanted steps)
    (h' : NonePaid r later) : OnePaid r a prize wanted (steps ++ later) := by
  obtain ⟨before, pay, after, rfl, hpay, hcredits, hnone⟩ := h
  refine ⟨before, pay, after ++ later, by simp, hpay, hcredits, ?_⟩
  rw [← List.append_assoc]
  exact hnone.append h'

namespace World

/-- The participants that the allocation has visited. -/
def visited (w : PlainWorld X) (r : Nat) : List Address :=
  (w.vault.roundParticipants r).take (w.vault.rounds r).allocationCursor

/-- Where the allocation of a closed round stands after `steps`: before its winner is visited
nobody is paid and the prize is reserved; from then on exactly the winner is paid. -/
inductive Allotted (r prize : Nat) (preferred : Address → Except Revert AutoSavePreference)
    (steps : List (TakenStep X)) (w : PlainWorld X) : Prop
  | waiting (hnone : NonePaid r steps) (hreserved : (w.vault.rounds r).reservedPrize = prize)
      (hvisited : ∀ a ∈ w.visited r, ¬ w.Holds r a)
  | paid {a : Address} {wanted : AutoSavePreference} (hone : OnePaid r a prize wanted steps)
      (hwanted : preferred a = .ok wanted) (hreserved : (w.vault.rounds r).reservedPrize = 0)
      (hvisited : a ∈ w.visited r) (hholds : w.Holds r a)

/-- The preferences at the close of round `r`. -/
def preferredAtClose (w : PlainWorld X) (r : Nat) (a : Address) :
    Except Revert AutoSavePreference :=
  w.vault.preferenceAt a (w.vault.rounds r).closesAt

/-- The trace up to a state in which round `r` is closed. -/
structure ClosedBy (r : Nat) (steps : List (TakenStep X)) (w : PlainWorld X)
    (close : TakenStep X) : Prop where
  mem : close ∈ steps
  closes : close.Closes r
  closesAt : (w.vault.rounds r).closesAt = (close.target.vault.rounds r).closesAt
  preferred : w.now < 2 ^ 64 → ∀ a, w.preferredAtClose r a = close.target.preferredAtClose r a
  allotted : (w.vault.rounds r).state ≠ .settled →
    Allotted r (close.target.vault.rounds r).reservedPrize (close.target.preferredAtClose r) steps w

/-- The trace of the allocation of round `r`. -/
structure AllocationTrace (r : Nat) (steps : List (TakenStep X)) (w : PlainWorld X) : Prop where
  before : ¬ (0 < r ∧ r < w.vault.activeRoundId) → ∀ s ∈ steps, ¬ s.Allocates r
  after : 0 < r → r < w.vault.activeRoundId → ∃ close, ClosedBy r steps w close

/-- Who has been visited and who holds the ticket is not changed by a step that does not allocate
the round. -/
theorem step_visited (hE : E.Lawful O cfg.vault cfg.asset)
    (hw : (system Fhe.plain E cfg).Reachable w) (hstep : Step Fhe.plain E cfg w l w')
    (hr : 0 < r) (hlt : r < w.vault.activeRoundId)
    (hcursor : (w'.vault.rounds r).allocationCursor = (w.vault.rounds r).allocationCursor) :
    w'.visited r = w.visited r ∧ ∀ a ∈ w.visited r, w'.Holds r a ↔ w.Holds r a := by
  rcases Nat.eq_zero_or_pos (w.vault.rounds r).allocationCursor with hzero | hpos
  · rw [visited, visited, hcursor, hzero, List.take_zero, List.take_zero]
    exact ⟨rfl, nofun⟩
  · have hcursors := ((reachable_bonded hw).settling r).cursors
    rw [Round.progress] at hcursors
    have hselected : 0 < (w.vault.rounds r).selectionCursor := by
      obtain ⟨_, hle, hcomplete⟩ := hcursors.le
      exact (hpos.trans_le hle).trans_eq (hcomplete hpos).symm
    have hd : (w.vault.rounds r).Decided := .inr hselected
    refine ⟨?_, fun a _ => step_holds hE hw hstep hr hlt hd a⟩
    rw [visited, visited, hcursor, (step_frozen hw hd hstep).1.participants]

variable {steps : List (TakenStep X)} {prize : Nat}
  {preferred : Address → Except Revert AutoSavePreference}

/-- A step that does not allocate the round leaves its allocation where it stands. -/
theorem Allotted.quiet (h : Allotted r prize preferred steps w)
    (hE : E.Lawful O cfg.vault cfg.asset) (hw : (system Fhe.plain E cfg).Reachable w)
    (hstep : Step Fhe.plain E cfg w l w') (hr : 0 < r) (hlt : r < w.vault.activeRoundId)
    (hnot : ∀ sender n, l ≠ .call sender (.processAllocation r n))
    (hs : (w'.vault.rounds r).state ≠ .settled) :
    Allotted r prize preferred (steps ++ [⟨w, l, w'⟩]) w' := by
  obtain ⟨hreserved, hcursor⟩ := step_reserved hw hstep hlt hnot hs
  obtain ⟨hvisited, hholds⟩ := step_visited hE hw hstep hr hlt hcursor
  have hquiet : NonePaid r [(⟨w, l, w'⟩ : TakenStep X)] := by
    rintro s hs ⟨sender, n, hl⟩
    rw [List.mem_singleton] at hs
    subst hs
    exact absurd hl (hnot sender n)
  cases h with
  | waiting hnone hres hwait =>
    refine .waiting (hnone.append hquiet) (hreserved.trans hres) fun a ha => ?_
    rw [hvisited] at ha
    rw [hholds a ha]
    exact hwait a ha
  | paid hone hwanted hres hmem hheld =>
    refine .paid (hone.append hquiet) hwanted (hreserved.trans hres) (hvisited ▸ hmem) ?_
    exact (hholds _ hmem).2 hheld

/-- A call that allocates the round visits a chunk of its participants: it pays the winner when
the chunk contains the winner, and nobody otherwise. -/
theorem Allotted.allocate (h : Allotted r prize preferred steps w)
    (hE : E.Lawful O cfg.vault cfg.asset) (hw : (system Fhe.plain E cfg).Reachable w)
    (hsender : cfg.External sender)
    (hop : exec Fhe.plain E cfg sender w (.processAllocation r n) = .ok w')
    (hpreferred : ∀ a, w.preferredAtClose r a = preferred a) :
    Allotted r prize preferred (steps ++ [⟨w, .call sender (.processAllocation r n), w'⟩]) w' := by
  obtain ⟨hcfg, hB, hT⟩ := reachable_timed hE hw
  have hstep : Step Fhe.plain E cfg w (.call sender (.processAllocation r n)) w' := ⟨hsender, hop⟩
  obtain ⟨hr, hlt⟩ := processAllocation_closed hB.shape hop
  -- the selection is complete, so the predicates say who holds the ticket
  have hsettles := (reachable_bonded hw).settling r
  have hcursors := hsettles.cursors
  rw [Round.progress] at hcursors
  obtain ⟨hselected, hcomplete⟩ : 0 < (w.vault.rounds r).selectionCursor ∧
      (w.vault.rounds r).selectionCursor = (w.vault.roundParticipants r).length := by
    obtain ⟨_, _, v₁, _, _, _, _, hstart, _⟩ := processAllocation_ok hop
    obtain ⟨hstate, _⟩ := Vault.startAllocation_ok hstart
    rcases hstate with h | h <;> rw [h] at hcursors <;>
      simp only [RoundState.Cursors] at hcursors <;> omega
  have hd : (w.vault.rounds r).Decided := .inr hselected
  have hpredicate : ∀ a ∈ w.vault.roundParticipants r,
      w.vault.winnerPredicate r a = true ↔ w.Holds r a := by
    have htally := (reachable_drawn hE hw r hr hlt).tallied hselected
    rw [hcomplete, List.take_length] at htally
    exact htally.predicate
  have hholds := step_holds hE hw hstep hr hlt hd
  obtain ⟨processed, hcursor, hspares, hcredits⟩ := processAllocation_awards hB hop
  have hvisited : w'.visited r = w.visited r ++ w.chunkOf r processed := by
    rw [visited, visited, chunkOf, hcursor, (step_frozen hw hd hstep).1.participants]
    exact List.take_add
  have hmem : ∀ a ∈ w.visited r ++ w.chunkOf r processed, a ∈ w.vault.roundParticipants r := by
    intro a ha
    rw [← hvisited, visited, (step_frozen hw hd hstep).1.participants] at ha
    exact List.mem_of_mem_take ha
  have hnodup : (w.visited r ++ w.chunkOf r processed).Nodup := by
    rw [← hvisited, visited, (step_frozen hw hd hstep).1.participants]
    exact (List.take_sublist _ _).nodup hsettles.nodup
  have hlost : ∀ a ∈ w.chunkOf r processed, ¬ w.Holds r a →
      w.vault.winnerPredicate r a = false := fun a ha hnot =>
    Bool.eq_false_of_not_eq_true fun hwon =>
      hnot ((hpredicate a (hmem a (List.mem_append_right _ ha))).1 hwon)
  have hallocates : TakenStep.Allocates
      (⟨w, .call sender (.processAllocation r n), w'⟩ : TakenStep X) r := ⟨sender, n, rfl⟩
  have hsingle : w.vault.Spares w'.vault →
      NonePaid r [(⟨w, .call sender (.processAllocation r n), w'⟩ : TakenStep X)] := by
    rintro hspared s hs _
    rw [List.mem_singleton] at hs
    subst hs
    exact hspared
  cases h with
  | waiting hnone hres hwait =>
    by_cases hfound : ∃ a ∈ w.chunkOf r processed, w.Holds r a
    · -- the winner is in the chunk
      obtain ⟨a, ha, hheld⟩ := hfound
      obtain ⟨before, after, hsplit⟩ := List.append_of_mem ha
      have hothers : ∀ b ∈ before ++ after, w.vault.winnerPredicate r b = false := by
        intro b hb
        have hne : b ≠ a := by
          rintro rfl
          rw [hsplit] at hnodup
          have hchunk := (List.nodup_append'.1 hnodup).2.1
          rw [List.nodup_middle] at hchunk
          exact (List.nodup_cons.1 hchunk).1 hb
        refine hlost b ?_ fun hheld' => hne (hheld'.unique hheld)
        rw [hsplit, List.mem_append, List.mem_cons]
        exact (List.mem_append.1 hb).imp_right .inr
      obtain ⟨wanted, hwanted, hcredit, hzero⟩ := hcredits before a after hsplit
        ((hpredicate a (hmem a (List.mem_append_right _ ha))).2 hheld) hothers
      refine Allotted.paid (a := a) ?_ ((hpreferred a).symm.trans hwanted) hzero ?_
        ((hholds a).2 hheld)
      · refine ⟨steps, ⟨w, _, w'⟩, [], rfl, hallocates, ?_, ?_⟩
        · rw [← hres]
          exact hcredit
        · rw [List.append_nil]
          exact hnone
      · rw [hvisited]
        exact List.mem_append_right _ ha
    · obtain ⟨hspared, hsame⟩ := hspares fun a ha => hlost a ha fun hheld => hfound ⟨a, ha, hheld⟩
      refine .waiting (hnone.append (hsingle hspared)) (hsame.trans hres) fun a ha => ?_
      rw [hholds]
      rw [hvisited] at ha
      rcases List.mem_append.1 ha with ha | ha
      · exact hwait a ha
      · exact fun hheld => hfound ⟨a, ha, hheld⟩
  | @paid a wanted hone hwanted hres hvis hheld =>
    -- the winner was visited before
    obtain ⟨hspared, hsame⟩ := hspares fun b hb => hlost b hb fun hheld' => by
      have hb' : a ∈ w.chunkOf r processed := hheld'.unique hheld ▸ hb
      exact List.disjoint_left.1 (List.nodup_append'.1 hnodup).2.2 hvis hb'
    refine .paid (hone.append (hsingle hspared)) hwanted (hsame.trans hres) ?_ ((hholds a).2 hheld)
    rw [hvisited]
    exact List.mem_append_left _ hvis

theorem AllocationTrace.init (hinit : (system Fhe.plain E cfg).init w) :
    AllocationTrace r [] w := by
  obtain ⟨nativeBalance, now, x, hinit⟩ := hinit
  refine ⟨fun _ s hs => absurd hs List.not_mem_nil, fun hr hlt => ?_⟩
  rw [construct_activeRoundId hinit] at hlt
  omega

/-- **Step lemma.**  Every step extends the trace of the allocation of a round. -/
theorem AllocationTrace.step (h : AllocationTrace r steps w)
    (hE : E.Lawful O cfg.vault cfg.asset) (hw : (system Fhe.plain E cfg).Reachable w)
    (hstep : Step Fhe.plain E cfg w l w') : AllocationTrace r (steps ++ [⟨w, l, w'⟩]) w' := by
  have hw' : (system Fhe.plain E cfg).Reachable w' := hw.tail hstep
  obtain ⟨hcfg, hB, hT⟩ := reachable_timed hE hw
  -- how the step changes the active round
  have hactive : w'.vault.activeRoundId = w.vault.activeRoundId ∨
      (∃ sender, l = .call sender .closeRound) ∧
        w'.vault.activeRoundId = w.vault.activeRoundId + 1 := by
    cases l with
    | call sender c =>
      rcases exec_activeRoundId hstep.1 hB.shape hstep.2 with hsame | ⟨rfl, hnext⟩
      · exact .inl hsame
      · exact .inr ⟨⟨sender, rfl⟩, hnext⟩
    | tick now =>
      obtain ⟨_, rfl⟩ := hstep
      exact .inl rfl
    | thirdParty ext =>
      obtain ⟨_, rfl⟩ := hstep
      exact .inl rfl
    | forceNative amount =>
      obtain rfl := hstep
      exact .inl rfl
  have hallocates : (∃ sender n, l = .call sender (.processAllocation r n)) →
      0 < r ∧ r < w.vault.activeRoundId := by
    rintro ⟨sender, n, rfl⟩
    exact processAllocation_closed hB.shape hstep.2
  constructor
  · intro hopen s hs hall
    have hopen' : ¬ (0 < r ∧ r < w.vault.activeRoundId) := by
      rintro ⟨hr, hlt⟩
      exact hopen ⟨hr, by omega⟩
    rw [List.mem_append, List.mem_singleton] at hs
    rcases hs with hs | rfl
    · exact h.before hopen' s hs hall
    · exact hopen' (hallocates hall)
  · intro hr hlt'
    by_cases hlt : r < w.vault.activeRoundId
    · obtain ⟨close, hmem, hcloses, hcloseAt, hpreferred, hallotted⟩ := h.after hr hlt
      have hclosesAt : (w'.vault.rounds r).closesAt = (w.vault.rounds r).closesAt := by
        cases l with
        | call sender c =>
          exact congrArg Clock.closesAt ((exec_roundStep hstep.1 hB.shape hstep.2 r).clock hlt)
        | tick now =>
          obtain ⟨_, rfl⟩ := hstep
          rfl
        | thirdParty ext =>
          obtain ⟨_, rfl⟩ := hstep
          rfl
        | forceNative amount =>
          obtain rfl := hstep
          rfl
      have hnow : w.now ≤ w'.now := by
        cases l with
        | call sender c => exact Nat.le_of_eq (exec_now hstep.1 hstep.2).symm
        | tick now =>
          obtain ⟨hle, rfl⟩ := hstep
          exact hle
        | thirdParty ext =>
          obtain ⟨_, rfl⟩ := hstep
          exact Nat.le_refl _
        | forceNative amount =>
          obtain rfl := hstep
          exact Nat.le_refl _
      refine ⟨close, List.mem_append_left _ hmem, hcloses, hclosesAt.trans hcloseAt,
        fun hlt64 a => ?_, fun hs => ?_⟩
      · rw [← hpreferred (hnow.trans_lt hlt64) a, preferredAtClose, preferredAtClose, hclosesAt]
        exact step_preferenceAt hw hstep hlt64 (hT.closed r hr hlt).ended a
      · -- a settled round stays settled
        have hs₀ : (w.vault.rounds r).state ≠ .settled := fun hsettled => by
          have hforward := RoundState.forward_of_edges (step_edges hw hstep r)
          rw [hsettled] at hforward
          exact hs hforward.of_settled
        have hallotted := hallotted hs₀
        by_cases hcall : ∃ sender n, l = .call sender (.processAllocation r n)
        · obtain ⟨sender, n, rfl⟩ := hcall
          obtain ⟨_, hopen, _⟩ := processAllocation_ok hstep.2
          exact hallotted.allocate hE hw hstep.1 hstep.2
            (hpreferred (hT.open_bounds hopen).1)
        · exact hallotted.quiet hE hw hstep hr hlt
            (fun sender n hl => hcall ⟨sender, n, hl⟩) hs
    · -- the step closes the round
      obtain ⟨⟨sender, rfl⟩, hnext⟩ := hactive.resolve_left fun hsame => hlt (hsame ▸ hlt')
      have hra : r = w.vault.activeRoundId := by omega
      refine ⟨⟨w, .call sender .closeRound, w'⟩, by simp, ⟨hra.symm, sender, rfl⟩, rfl,
        fun _ _ => rfl, fun _ => .waiting ?_ rfl ?_⟩
      · intro s hs hall
        rw [List.mem_append, List.mem_singleton] at hs
        rcases hs with hs | rfl
        · exact absurd hall (h.before (fun hclosed => hlt hclosed.2) s hs)
        · obtain ⟨_, _, hl⟩ := hall
          cases hl
      · have hcursors := ((reachable_bonded hw').settling r).cursors
        have hstate : (w'.vault.rounds r).state = .aggregatePending := by
          cases exec_roundStep hstep.1 hB.shape hstep.2 r with
          | same _ _ _ hact => omega
          | accrue _ _ _ _ _ hact => omega
          | close _ hround =>
            rw [hround]
            rfl
          | opened hro => omega
          | move _ _ _ hact => omega
          | select _ _ _ _ _ _ _ _ hact => omega
          | allocate _ _ _ _ _ _ hact => omega
        rw [Round.progress, hstate] at hcursors
        have hzero : (w'.vault.rounds r).allocationCursor = 0 := hcursors.2
        rw [visited, hzero, List.take_zero]
        rintro _ ⟨⟩

/-- **One winner is paid the whole prize.**  In every run at whose end the allocation of a round is
complete: some call closed the round; the accepted ticket lies in the interval of exactly one
participant, the intervals following the registrations and being as long as the weights; exactly
one call that allocated the round changed any savings or winnings, and it credited that
participant with all that the close had reserved, as principal where the participant wanted to
save at the close and the pool had room, as winnings otherwise; and nothing stays reserved. -/
theorem one_winner_paid (hE : E.Lawful O cfg.vault cfg.asset) {w₀ : PlainWorld X}
    (hinit : (system Fhe.plain E cfg).init w₀)
    (htrace : (system Fhe.plain E cfg).Trace w₀ steps w)
    (hs : (w.vault.rounds r).state = .winningsAllocated) :
    ∃ close ∈ steps, close.Closes r ∧ ∃ weight : Address → Nat,
      (∀ a ∈ w.vault.roundParticipants r,
        w.vault.roundWeight Fhe.plain r a = .ok (weight a)) ∧
      ∃ winner, (∀ a, Wins weight (w.vault.roundParticipants r)
          (w.vault.rounds r).acceptedTicket a ↔ a = winner) ∧
        ∃ wanted, close.target.vault.preferenceAt winner
            (close.target.vault.rounds r).closesAt = .ok wanted ∧
          OnePaid r winner (close.target.vault.rounds r).reservedPrize wanted steps ∧
          (w.vault.rounds r).reservedPrize = 0 := by
  obtain ⟨hw, hA⟩ := htrace.invariant (I := AllocationTrace r)
    (TransitionSystem.Reachable.of_init hinit) (.init hinit)
    fun steps u l u' hu hI hstep => hI.step hE hu hstep
  obtain ⟨hcfg, hB, hT⟩ := reachable_timed hE hw
  obtain ⟨hr, hlt⟩ : 0 < r ∧ r < w.vault.activeRoundId :=
    hB.shape.closed_of_state (by rw [hs]; rintro ⟨⟩) (by rw [hs]; rintro ⟨⟩)
  obtain ⟨close, hmem, hcloses, _, _, hallotted⟩ := hA.after hr hlt
  have hcursors := ((reachable_bonded hw).settling r).cursors
  rw [Round.progress, hs] at hcursors
  obtain ⟨hpos, hselected, hallocated⟩ : 0 < (w.vault.roundParticipants r).length ∧
      (w.vault.rounds r).selectionCursor = (w.vault.roundParticipants r).length ∧
      (w.vault.rounds r).allocationCursor = (w.vault.roundParticipants r).length := hcursors
  have hvisited : w.visited r = w.vault.roundParticipants r := by
    rw [visited, hallocated, List.take_length]
  -- the ticket is below the total weight, so somebody holds it
  have hd := reachable_drawn hE hw r hr hlt
  obtain ⟨holder, hholder⟩ : ∃ a, w.Holds r a := by
    refine exists_wins ?_
    rw [← (hT.closed r hr hlt).aggregate_eq, ← hd.published (by rw [hs]; rintro ⟨⟩)]
    exact hd.ticket_lt (.inr (by omega))
  refine ⟨close, hmem, hcloses, w.vault.weight r,
    fun a ha => roundWeight_closed hT hr hlt ha, ?_⟩
  cases hallotted (by rw [hs]; rintro ⟨⟩) with
  | waiting _ _ hwait => exact absurd hholder (hwait holder (hvisited ▸ hholder.mem))
  | @paid a wanted hone hwanted hzero _ hheld =>
    refine ⟨a, fun b => ⟨fun hb => hb.unique hheld, ?_⟩, wanted, hwanted, hone, hzero⟩
    rintro rfl
    exact hheld

/-- The script pays one winner. -/
theorem one_winner_paid_script : ∃ w, Demo.Ends w ∧ ∃ weight : Address → Nat, ∃ winner,
    (∀ a, Wins weight (w.vault.roundParticipants 1) (w.vault.rounds 1).acceptedTicket a ↔
      a = winner) ∧ (w.vault.rounds 1).reservedPrize = 0 := by
  obtain ⟨w, hw, hs⟩ := Demo.ends_allocated
  obtain ⟨w₀, steps, hinit, htrace⟩ := outcome_trace hw
  obtain ⟨_, _, _, weight, _, winner, hwins, _, _, _, hzero⟩ :=
    one_winner_paid Demo.lawful hinit htrace hs
  exact ⟨w, hw, weight, winner, hwins, hzero⟩

end World

end

end Leopold
