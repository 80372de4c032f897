import Leopold.System.Selection

/-!
# Bonds never block a settlement

The five entry points that settle a round report their progress to the escrow.  In every reachable
state the escrow keeps the same progress as the vault, so none of these calls is ever turned down
by the escrow: a call that fails, fails by a guard of the vault.
-/

namespace Leopold

open Lib

/-- The escrow turned a call down. -/
def Revert.Escrowed (e : Revert) : Prop := e.ofEscrow = true

/-! ## The vault's own functions do not fail by the escrow -/

namespace Vault

variable {E64 E128 EBool : Type} {fhe : Fhe E64 E128 EBool} {cfg : Config}
  {v : Vault E64 E128 EBool} {r t now : Nat} {a : Address}

theorem accrueEligible_avoids : Avoids Revert.Escrowed (accrueEligible fhe cfg r t v) :=
  .bind (.checkedSub nofun) fun _ _ => .ite (fun _ => .ok _) fun _ => .ok _

theorem cumulativeAt_avoids : Avoids Revert.Escrowed (cumulativeAt fhe a t v) := by
  unfold cumulativeAt
  dsimp only
  cases (v.observations a)[0]? with
  | none => exact .ok _
  | some first =>
    refine .ite (fun _ => .ok _) fun _ => ?_
    generalize bisect _ _ _ _ = low
    cases (v.observations a)[low]? with
    | none => exact .error nofun
    | some o => exact .bind (.checkedSub nofun) fun _ _ => .ite (fun _ => .ok _) fun _ => .ok _

theorem preferenceAt_avoids : Avoids Revert.Escrowed (v.preferenceAt a t) := by
  unfold preferenceAt
  dsimp only
  cases (v.preferenceObservations a)[0]? with
  | none => exact .ok _
  | some first =>
    refine .ite (fun _ => .ok _) fun _ => ?_
    generalize bisect _ _ _ _ = low
    cases (v.preferenceObservations a)[low]? with
    | none => exact .error nofun
    | some o => exact .ok _

theorem selectParticipant_avoids : Avoids Revert.Escrowed (selectParticipant fhe cfg r a v) :=
  .bind (.bind cumulativeAt_avoids fun _ _ => .bind cumulativeAt_avoids fun _ _ => .ok _)
    fun _ _ => .ok _

theorem record_avoids {b : E64} {obs : List (Observation E64 E128)} :
    Avoids Revert.Escrowed (record fhe b t obs) := by
  unfold record
  cases obs.getLast? with
  | none => exact .ok _
  | some previous =>
    exact .bind (.checkedSub nofun) fun _ _ => .ite (fun _ => .ok _) fun _ => .ok _

theorem allocateParticipant_avoids :
    Avoids Revert.Escrowed (allocateParticipant fhe cfg r now a v) :=
  .bind preferenceAt_avoids fun _ _ => .bind (.bind record_avoids fun _ _ => .ok _) fun _ _ =>
    .ok _

/-- A loop avoids what its body avoids. -/
theorem forParticipants_avoids
    {body : Address → Vault E64 E128 EBool → Except Revert (Vault E64 E128 EBool)}
    (hbody : ∀ a v, Avoids Revert.Escrowed (body a v)) {cursor count : Nat} :
    Avoids Revert.Escrowed (forParticipants body r cursor count v) := by
  induction count generalizing cursor v with
  | zero => exact .ok _
  | succ count ih => exact .bind (.orRevert nofun) fun a _ => .bind (hbody a _) fun _ _ => ih

theorem rollPrizeForward_avoids : Avoids Revert.Escrowed (rollPrizeForward fhe cfg r v) :=
  .bind (.checkedAdd nofun) fun _ _ => .ok _

theorem startSelection_avoids : Avoids Revert.Escrowed (startSelection fhe cfg r v) :=
  .ite (fun _ => .ok _) fun _ => .bind (.revertIf nofun) fun _ _ => .ok _

theorem startAllocation_avoids : Avoids Revert.Escrowed (startAllocation r v) :=
  .ite (fun _ => .ok _) fun _ => .bind (.revertIf nofun) fun _ _ => .ok _

end Vault

theorem World.chunk_avoids {cursor n snapshot : Nat} :
    Avoids Revert.Escrowed (World.chunk cursor n snapshot) :=
  .bind (.checkedAdd nofun) fun _ _ => .ok _

/-! ## The escrow accepts what the vault reports -/

namespace World

section

variable {E64 E128 EBool X : Type} {fhe : Fhe E64 E128 EBool} {E : Externals E64 EBool X}
  {cfg : Config} {w : World E64 E128 EBool X} {sender : Address} {r n : Nat}

/-- A pass over participants after the cursor of its round is credited. -/
theorem Bonded.credit_avoids {pass processed : Nat} (hB : w.Bonded fhe cfg)
    (hsender : cfg.External sender) (hpass : pass = 1 ∨ pass = 2) (hpos : 0 < processed)
    (hopen : (w.vault.rounds r).state ≠ .settled)
    (hle : (if pass = 1 then (w.vault.rounds r).selectionCursor
      else (w.vault.rounds r).allocationCursor) + processed ≤
        (w.vault.roundParticipants r).length) :
    Avoids Revert.Escrowed (w.escrow.creditProgress cfg cfg.vault r pass processed sender) := by
  have hs := hB.settling r
  obtain ⟨e, he⟩ := hB.sound.creditProgress_isOk hB.covers (Nat.ne_of_gt hpos) hsender.ne_zero
    (hs.not_finalized hopen) hpass (by
      rw [hs.count, Escrow.processedIn]
      rcases hpass with rfl | rfl
      · rw [if_pos rfl] at hle ⊢
        rw [hs.selection]
        exact hle
      · rw [if_neg (by decide)] at hle ⊢
        rw [hs.allocation]
        exact hle)
  exact .of_eq_ok he

/-- A settlement is finalized when the cursors of its round are where `passes` complete passes
leave them. -/
theorem Bonded.settle_isOk {passes : Nat} {v : Vault E64 E128 EBool} (hB : w.Bonded fhe cfg)
    (hopen : (w.vault.rounds r).state ≠ .settled)
    (hpasses : (passes = 0 ∧ (w.vault.rounds r).selectionCursor = 0 ∧
        (w.vault.rounds r).allocationCursor = 0) ∨
      (0 < (w.vault.roundParticipants r).length ∧
        (w.vault.rounds r).selectionCursor = (w.vault.roundParticipants r).length ∧
        ((passes = 1 ∧ (w.vault.rounds r).allocationCursor = 0) ∨
          (passes = 2 ∧
            (w.vault.rounds r).allocationCursor = (w.vault.roundParticipants r).length)))) :
    ∃ w', settle cfg r passes { w with vault := v } = .ok w' := by
  have hs := hB.settling r
  have hselection : (w.escrow.rounds r).selectionProcessed =
    (w.vault.rounds r).selectionCursor := hs.selection
  have hallocation : (w.escrow.rounds r).allocationProcessed =
    (w.vault.rounds r).allocationCursor := hs.allocation
  have hcovers := hB.covers
  have hrefund : ∃ refund, Escrow.refundFor cfg passes (w.escrow.rounds r) = .ok refund := by
    rcases hpasses with ⟨rfl, hsel, hall⟩ | ⟨hpos, hsel, ⟨rfl, hall⟩ | ⟨rfl, hall⟩⟩
    · rw [Escrow.refundFor, if_pos rfl, revertIf_of_not (by omega)]
      exact ⟨_, rfl⟩
    · rw [Escrow.refundFor, if_neg (by decide), if_pos rfl, hs.count,
        revertIf_of_not (by omega), bind_ok, Escrow.sub, checkedSub, if_pos]
      · exact ⟨_, rfl⟩
      · rw [Escrow.BondCovers] at hcovers
        omega
    · rw [Escrow.refundFor, if_neg (by decide), if_neg (by decide), hs.count,
        revertIf_of_not (by omega)]
      exact ⟨_, rfl⟩
  obtain ⟨refund, hrefund⟩ := hrefund
  obtain ⟨e, he⟩ := hB.sound.finalizeRound_isOk hB.covers (hs.not_finalized hopen)
    (by omega) hrefund
  simp only [settle, he, bind_ok]
  exact ⟨_, rfl⟩

theorem finalizeSettlement_isOk (hB : w.Bonded fhe cfg)
    (hstate : (w.vault.rounds r).state = .winningsAllocated) :
    ∃ w', settle cfg r 2 w = .ok w' := by
  have hc := (hB.settling r).cursors
  rw [Round.progress, hstate] at hc
  refine hB.settle_isOk (v := w.vault) (by rw [hstate]; rintro ⟨⟩) (.inr ?_)
  exact ⟨hc.1, hc.2.1, .inr ⟨rfl, hc.2.2⟩⟩

theorem recover_isOk {v : Vault E64 E128 EBool} (hB : w.Bonded fhe cfg)
    (hstate : (w.vault.rounds r).state = .reconciliationFailed) :
    ∃ w', settle cfg r 1 { w with vault := v } = .ok w' := by
  have hc := (hB.settling r).cursors
  rw [Round.progress, hstate] at hc
  refine hB.settle_isOk (by rw [hstate]; rintro ⟨⟩) (.inr ?_)
  exact ⟨hc.1, hc.2.1, .inl ⟨rfl, hc.2.2⟩⟩

theorem settleEmpty_isOk {v : Vault E64 E128 EBool} (hB : w.Bonded fhe cfg)
    (hstate : (w.vault.rounds r).state = .empty) :
    ∃ w', settle cfg r 0 { w with vault := v } = .ok w' := by
  have hc := (hB.settling r).cursors
  rw [Round.progress, hstate] at hc
  exact hB.settle_isOk (by rw [hstate]; rintro ⟨⟩) (.inl ⟨rfl, hc.1, hc.2⟩)

theorem finalizeSettlement_avoids (hB : w.Bonded fhe cfg) :
    Avoids Revert.Escrowed (finalizeSettlement cfg r w) := by
  refine .bind (.revertIf nofun) fun _ hstate => ?_
  obtain ⟨w', hw'⟩ := finalizeSettlement_isOk hB (Vault.requireState_ok hstate)
  exact .of_eq_ok hw'

theorem recoverFailedReconciliation_avoids (hB : w.Bonded fhe cfg) :
    Avoids Revert.Escrowed (recoverFailedReconciliation fhe cfg r w) := by
  refine .bind (.revertIf nofun) fun _ hguard => .bind Vault.rollPrizeForward_avoids fun v _ => ?_
  obtain ⟨w', hw'⟩ := recover_isOk (v := v) hB (not_not.1 (revertIf_eq_ok.1 hguard))
  exact .of_eq_ok hw'

theorem settleEmptyRound_avoids (hB : w.Bonded fhe cfg) :
    Avoids Revert.Escrowed (settleEmptyRound fhe cfg r w) := by
  refine .bind (.revertIf nofun) fun _ hstate => .bind Vault.rollPrizeForward_avoids fun v _ => ?_
  obtain ⟨w', hw'⟩ := settleEmpty_isOk (v := v) hB (Vault.requireState_ok hstate)
  exact .of_eq_ok hw'

theorem processAllocation_avoids (hB : w.Bonded fhe cfg) (hsender : cfg.External sender) :
    Avoids Revert.Escrowed (processAllocation fhe cfg sender r n w) := by
  refine .bind (.revertIf (by rintro ⟨⟩)) fun _ hn => .bind (.revertIf (by rintro ⟨⟩)) fun _ _ =>
    .bind Vault.startAllocation_avoids fun v₁ hstart =>
      .bind Vault.accrueEligible_avoids fun v₂ hacc => .bind chunk_avoids fun processed hchunk =>
        .bind (Vault.forParticipants_avoids fun _ _ => Vault.allocateParticipant_avoids)
          fun v₃ _ => .bind ?_ fun _ _ => .ok _
  obtain ⟨hstate, rfl⟩ := Vault.startAllocation_ok hstart
  have hprogress := (Vault.accrueEligible_sameProgress hacc).progress r
  rw [Vault.setRound_rounds_self] at hprogress
  simp only [Progress.ext_iff, Round.progress] at hprogress
  rw [hprogress.2.1, hprogress.2.2.2] at hchunk
  obtain ⟨_, hle, hpos⟩ := chunk_ok hchunk
  have hc := (hB.settling r).cursors
  have hsnapshot : (w.vault.rounds r).participantCountSnapshot =
      (w.vault.roundParticipants r).length := by
    refine (hB.settling r).snapshot ?_ ?_ <;> rw [Round.progress] <;>
      rcases hstate with hs | hs <;> rw [hs] <;> rintro ⟨⟩
  have hmore : (w.vault.rounds r).allocationCursor < (w.vault.roundParticipants r).length := by
    rw [Round.progress] at hc
    rcases hstate with hs | hs <;> rw [hs] at hc <;> simp only [RoundState.Cursors] at hc <;> omega
  rw [revertIf_eq_ok] at hn
  rw [hsnapshot] at hle hpos
  refine hB.credit_avoids hsender (.inr rfl) (hpos hmore (by omega)) ?_ ?_
  · rcases hstate with hs | hs <;> rw [hs] <;> rintro ⟨⟩
  · rw [if_neg (by decide)]
    exact hle (Nat.le_of_lt hmore)

/-- A round whose ticket is accepted has a participant. -/
theorem processSelection_avoids (hB : w.Bonded fhe cfg) (hsender : cfg.External sender)
    (hfirst : (w.vault.rounds r).state = .ticketAccepted → w.vault.roundParticipants r ≠ []) :
    Avoids Revert.Escrowed (processSelection fhe cfg sender r n w) := by
  refine .bind (.revertIf (by rintro ⟨⟩)) fun _ hn => .bind Vault.startSelection_avoids fun v₁ hstart =>
    .bind chunk_avoids fun processed hchunk =>
      .bind (Vault.forParticipants_avoids fun _ _ => Vault.selectParticipant_avoids)
        fun v₂ _ => .bind ?_ fun _ _ => .ok _
  have hstarted : ((w.vault.rounds r).state = .ticketAccepted ∨
      (w.vault.rounds r).state = .winnerProcessing) ∧
        (v₁.rounds r).selectionCursor = (w.vault.rounds r).selectionCursor ∧
        (v₁.rounds r).participantCountSnapshot =
          (w.vault.rounds r).participantCountSnapshot := by
    rcases Vault.startSelection_ok hstart with ⟨hs, gs, rfl⟩ | ⟨hs, rfl⟩
    · rw [Vault.grant_rounds, Vault.setRound_rounds_self]
      exact ⟨.inl hs, rfl, rfl⟩
    · exact ⟨.inr hs, rfl, rfl⟩
  obtain ⟨hstate, hcursor, hcount⟩ := hstarted
  rw [hcursor, hcount] at hchunk
  obtain ⟨_, hle, hpos⟩ := chunk_ok hchunk
  have hc := (hB.settling r).cursors
  have hsnapshot : (w.vault.rounds r).participantCountSnapshot =
      (w.vault.roundParticipants r).length := by
    refine (hB.settling r).snapshot ?_ ?_ <;> rw [Round.progress] <;>
      rcases hstate with hs | hs <;> rw [hs] <;> rintro ⟨⟩
  have hmore : (w.vault.rounds r).selectionCursor < (w.vault.roundParticipants r).length := by
    rw [Round.progress] at hc
    rcases hstate with hs | hs
    · have hlength := List.length_pos_iff.2 (hfirst hs)
      rw [hs] at hc
      simp only [RoundState.Cursors] at hc
      omega
    · rw [hs] at hc
      simp only [RoundState.Cursors] at hc
      omega
  rw [revertIf_eq_ok] at hn
  rw [hsnapshot] at hle hpos
  refine hB.credit_avoids hsender (.inl rfl) (hpos hmore (by omega)) ?_ ?_
  · rcases hstate with hs | hs <;> rw [hs] <;> rintro ⟨⟩
  · rw [if_pos rfl]
    exact hle (Nat.le_of_lt hmore)

end

section

variable {X : Type} {E : Externals Nat Bool X} {O : Observables X} {cfg : Config}
  {w : PlainWorld X} {r : Nat}

/-- A ticket below the aggregate of the participants needs a participant. -/
theorem participants_of_ticket (hE : E.Lawful O cfg.vault cfg.asset)
    (h : (system Fhe.plain E cfg).Reachable w) (hs : (w.vault.rounds r).state = .ticketAccepted) :
    w.vault.roundParticipants r ≠ [] := by
  intro hnil
  obtain ⟨_, hB, hT⟩ := reachable_timed hE h
  obtain ⟨hr, hlt⟩ := hB.shape.closed_of_state (r := r) (by rw [hs]; nofun) (by rw [hs]; nofun)
  have hD := reachable_drawn hE h r hr hlt
  have hticket := hD.ticket_lt (.inl hs)
  rw [hD.published (by rw [hs]; nofun), (hT.closed r hr hlt).aggregate_eq, hnil] at hticket
  exact absurd hticket (Nat.not_lt_zero _)

/-- **Bonds never block a settlement.**  In every reachable state the vault and the escrow agree on
who registered for a round, how far its passes are and whether it is settled; so no pass and no
settlement of the vault is turned down by the escrow. -/
theorem bonds_never_block (hE : E.Lawful O cfg.vault cfg.asset)
    (h : (system Fhe.plain E cfg).Reachable w) :
    (∀ r, (w.vault.roundParticipants r).Nodup ∧
      (∀ a, w.escrow.isRegistered r a = true ↔ a ∈ w.vault.roundParticipants r) ∧
      (w.escrow.rounds r).registered = (w.vault.roundParticipants r).length ∧
      (r < w.vault.activeRoundId →
        (w.escrow.rounds r).registered = (w.vault.rounds r).participantCountSnapshot) ∧
      (w.escrow.rounds r).selectionProcessed = (w.vault.rounds r).selectionCursor ∧
      (w.escrow.rounds r).allocationProcessed = (w.vault.rounds r).allocationCursor ∧
      ((w.escrow.rounds r).finalized = true ↔ (w.vault.rounds r).state = .settled)) ∧
    (∀ sender, cfg.External sender → ∀ r n e,
      (processSelection Fhe.plain cfg sender r n w = .error e → e.ofEscrow = false) ∧
      (processAllocation Fhe.plain cfg sender r n w = .error e → e.ofEscrow = false) ∧
      (finalizeSettlement cfg r w = .error e → e.ofEscrow = false) ∧
      (recoverFailedReconciliation Fhe.plain cfg r w = .error e → e.ofEscrow = false) ∧
      (settleEmptyRound Fhe.plain cfg r w = .error e → e.ofEscrow = false)) := by
  have hB := reachable_bonded h
  refine ⟨fun r => ?_, fun sender hsender r n e => ⟨?_, ?_, ?_, ?_, ?_⟩⟩
  · have hs := hB.settling r
    refine ⟨hs.nodup, hs.registered, hs.count, fun hlt => ?_, hs.selection, hs.allocation,
      hs.finalized⟩
    rw [hs.count]
    rcases Nat.eq_zero_or_pos r with rfl | hr
    · rw [hB.shape.zero_participants, hB.shape.zero]
      rfl
    · exact (hs.snapshot (hB.shape.closed r hr hlt).1 (hB.shape.closed r hr hlt).2).symm
  all_goals rw [← Bool.not_eq_true]
  · exact processSelection_avoids hB hsender (participants_of_ticket hE h) e
  · exact processAllocation_avoids hB hsender e
  · exact finalizeSettlement_avoids hB e
  · exact recoverFailedReconciliation_avoids hB e
  · exact settleEmptyRound_avoids hB e

/-- The vault and the escrow agree at the end of the script. -/
theorem bonds_never_block_script : ∃ w, Demo.Ends w ∧
    (w.escrow.rounds 1).registered = (w.vault.roundParticipants 1).length ∧
    (w.escrow.rounds 1).allocationProcessed = (w.vault.rounds 1).allocationCursor ∧
    ∀ e, finalizeSettlement Demo.cfg 1 w = .error e → e.ofEscrow = false := by
  obtain ⟨w, hw, _⟩ := Demo.ends_allocated
  obtain ⟨hagree, havoid⟩ := bonds_never_block Demo.lawful hw.reachable
  exact ⟨w, hw, (hagree 1).2.2.1, (hagree 1).2.2.2.2.2.1,
    fun e => (havoid Demo.alice (by decide) 1 0 e).2.2.1⟩

end

end World

end Leopold
