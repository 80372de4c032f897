import Leopold.Spikes.TreeInvariants

/-!
# Runs of the moment tree keep the invariant

One lemma for each kind of change: a registration, a balance update, a request, a selection, and
the three stages of a session.
-/

namespace Leopold

open Lib MomentTree

variable {cfg : MomentTree.Config Nat} {w : TreeWorld} {s s' : MomentTree Nat Nat}
  {depth : TreeDepth} {us : List TreeUpdate} {now n slot r k : Nat}
  {round : ClosedRound Nat Nat} {accountAt : Nat → Address}
  {nodes : Nat → List (MomentTree.Observation Nat Nat)} {a sender : Address}

theorem panics_eq_ok {α : Type} {x : Except Panic α} {b : α} : panics x = .ok b ↔ x = .ok b := by
  cases x with
  | ok c => exact ⟨fun h => ok_eq_ok.2 (ok_eq_ok.1 h), fun h => ok_eq_ok.2 (ok_eq_ok.1 h)⟩
  | error p => exact ⟨fun h => (by cases h), fun h => (by cases h)⟩

/-! ### Registration -/

theorem Registry.register {slotOf : Address → Nat} {isRegistered : Address → Bool}
    (h : Registry depth slotOf isRegistered accountAt) (ha : a ≠ 0) (hslot : slot < depth.capacity)
    (hnew : isRegistered a = false) (hfree : accountAt slot = 0) :
    Registry depth (Function.update slotOf a slot) (Function.update isRegistered a true)
      (Function.update accountAt slot a) := by
  refine ⟨fun b hb => ?_, fun b hb => ?_, fun t ht => ?_⟩
  · by_cases hba : b = a
    · rw [hba, Function.update_self]
      exact hslot
    · rw [Function.update_of_ne hba] at hb ⊢
      exact h.slot_lt b hb
  · by_cases hba : b = a
    · rw [hba, Function.update_self, Function.update_self]
      exact ⟨rfl, ha⟩
    · rw [Function.update_of_ne hba] at hb ⊢
      obtain ⟨hat, hne⟩ := h.accountAt_slotOf b hb
      have hother : slotOf b ≠ slot := fun heq => hne (by rw [← hat, heq, hfree])
      rw [Function.update_of_ne hother]
      exact ⟨hat, hne⟩
  · by_cases hts : t = slot
    · rw [hts, Function.update_self, Function.update_self, Function.update_self]
      exact ⟨rfl, rfl⟩
    · rw [Function.update_of_ne hts] at ht ⊢
      obtain ⟨hregistered, hslot'⟩ := h.owner t ht
      have hother : accountAt t ≠ a := by
        rintro heq
        rw [heq, hnew] at hregistered
        cases hregistered
      rw [Function.update_of_ne hother, Function.update_of_ne hother]
      exact ⟨hregistered, hslot'⟩

theorem TreeWorld.Inv.register (h : w.Inv cfg.depth)
    (hcall : w.tree.register cfg sender a slot = .ok s') :
    TreeWorld.Inv cfg.depth { w with tree := s' } := by
  simp only [MomentTree.register, seq_eq_ok, revertIf_eq_ok, pure_eq_ok, ok_eq_ok] at hcall
  obtain ⟨_, -, _, hslot, _, hfree, rfl⟩ := hcall
  obtain ⟨ha, hslot⟩ := not_or.1 hslot
  obtain ⟨hnew, hfree⟩ := not_or.1 hfree
  have hnew : w.tree.isRegistered a = false := Bool.not_eq_true _ ▸ hnew
  have hsame : ∀ b, w.tree.isRegistered b = true →
      Function.update w.tree.isRegistered a true b = true ∧
        Function.update w.tree.slotOf a slot b = w.tree.slotOf b := by
    intro b hb
    have hba : b ≠ a := by
      rintro rfl
      rw [hnew] at hb
      cases hb
    rw [Function.update_of_ne hba, Function.update_of_ne hba]
    exact ⟨hb, rfl⟩
  refine ⟨h.registry.register ha (not_le.1 hslot) hnew (not_not.1 hfree), ?_, h.rounds,
    h.sessions.register hsame, h.payments.register hsame h.sessions, h.winnings⟩
  refine { h.ledger with owned := fun u hu => ?_ }
  show Function.update w.tree.accountAt slot a u.slot ≠ 0
  by_cases hus : u.slot = slot
  · rw [hus, Function.update_self]
    exact ha
  · rw [Function.update_of_ne hus]
    exact h.ledger.owned u hu

/-! ### Balance updates -/

/-- A balance update of a registered account. -/
theorem TreeWorld.Inv.changeBalance (h : w.Inv cfg.depth) {delta : Nat} {increase : Bool}
    (ha : w.tree.isRegistered a = true) {u : TreeUpdate}
    (hu : u = ⟨w.tree.slotOf a, delta, increase, uint64 w.now⟩)
    (hsolvent : TreeWorld.Solvent cfg { w with updates := w.updates ++ [u] }) :
    TreeWorld.Inv cfg.depth { w with
      tree := w.tree.changeBalance Fhe.plain cfg a delta increase (uint64 w.now)
      updates := w.updates ++ [u] } := by
  have hnow : uint64 w.now = w.now := Nat.mod_eq_of_lt h.ledger.clock
  have htime : u.timestamp = w.now := by rw [hu, hnow]
  have hslot : u.slot = w.tree.slotOf a := by rw [hu]
  have hslots : ∀ v ∈ w.updates ++ [u], v.slot < cfg.depth.capacity := by
    intro v hv
    rcases List.mem_append.1 hv with hv | hv
    · exact h.ledger.slots v hv
    · rw [List.mem_singleton.1 hv, hslot]
      exact h.registry.slot_lt a ha
  have hin : InRange cfg.depth (w.updates ++ [u]) :=
    inRange_of_total hslots hsolvent.accounts hsolvent.total
  have hle : w.now ≤ u.timestamp := htime.ge
  have hrecords := h.ledger.records.receive hle (htime ▸ h.ledger.clock) h.ledger.inRange hin
  have hreceive : MomentTree.receive cfg.depth w.tree.nodeObservations u =
      (w.tree.changeBalance Fhe.plain cfg a delta increase (uint64 w.now)).nodeObservations := by
    rw [hu]
    rfl
  rw [hreceive, htime] at hrecords
  refine ⟨h.registry, ⟨hrecords, hslots, fun v hv => ?_, hin, h.ledger.clock⟩,
    h.rounds.concat hle, h.sessions.concat h.rounds hle,
    h.payments.concat h.sessions h.rounds hle, h.winnings⟩
  rcases List.mem_append.1 hv with hv | hv
  · exact h.ledger.owned v hv
  · rw [List.mem_singleton.1 hv, hslot]
    obtain ⟨hat, hne⟩ := h.registry.accountAt_slotOf a ha
    exact fun hzero => hne (hat.symm.trans hzero)

/-! ### Rounds -/

/-- A request fixes the total of a round nobody has selected for. -/
theorem TreeWorld.Inv.requestRoundTotal (h : w.Inv cfg.depth) {opensAt closesAt prize : UInt64}
    (hcall : w.tree.requestRoundTotal Fhe.plain cfg sender r opensAt.toNat closesAt.toNat
      prize.toNat w.now = .ok s') :
    TreeWorld.Inv cfg.depth { w with tree := s' } := by
  simp only [MomentTree.requestRoundTotal, seq_eq_ok, revertIf_eq_ok, pure_eq_ok, ok_eq_ok,
    not_or, panics_eq_ok] at hcall
  obtain ⟨_, -, _, ⟨-, hopens, hcloses, -, hfinal⟩, _, -, _, -, _, -, aggregateTwab, hweight, rfl⟩ :=
    hcall
  have hcloses : closesAt.toNat ≤ w.now := not_lt.1 hcloses
  have hopens : opensAt.toNat < closesAt.toNat := not_le.1 hopens
  obtain ⟨weight, hnode, -, hvalue⟩ := h.ledger.records.nodeWeight_eq (n := 1) hopens.le
    (hcloses.trans_lt h.ledger.clock)
  obtain rfl : weight = aggregateTwab := ok_eq_ok.1 (hnode.symm.trans hweight)
  refine ⟨h.registry, h.ledger, h.rounds.setRound rfl ?_,
    h.sessions.setRound fun hselected => absurd hselected hfinal,
    h.payments.setRound (fun p hp hpr => ?_) (fun hselected => absurd hselected hfinal),
    h.winnings⟩
  · exact ⟨hopens, hcloses, hvalue.trans (nodeTwab_root h.ledger.slots), prize.toNat_lt,
      fun hselected => absurd hselected hfinal⟩
  · exact absurd hpr (h.payments.roundId_ne h.sessions hfinal hp)

/-- A selection makes the whole prize the reserve. -/
theorem TreeWorld.Inv.finalizeSelection (h : w.Inv cfg.depth) {clearAggregateTwab ticket : Nat}
    {aggregateCleartexts : Option Nat} {proof : DecryptionProof}
    (hcall : w.tree.finalizeSelection Fhe.plain r clearAggregateTwab aggregateCleartexts proof
      ticket = .ok s') :
    TreeWorld.Inv cfg.depth { w with tree := s' } := by
  simp only [MomentTree.finalizeSelection, seq_eq_ok, revertIf_eq_ok, pure_eq_ok, ok_eq_ok,
    not_or] at hcall
  obtain ⟨_, ⟨hpending, hfinal, -⟩, _, -, _, -, rfl⟩ := hcall
  have hpending : (w.tree.rounds r).totalPending = true := Bool.not_eq_false _ ▸ hpending
  have hround := (h.rounds r).2 hpending
  have hprize : Fhe.plain.asEuint64 (w.tree.rounds r).publicPrize =
      (w.tree.rounds r).publicPrize := Fhe.plain_asEuint64 hround.prize
  have hnone (p : TreePayment) (hp : p ∈ w.payments) : p.roundId ≠ r :=
    h.payments.roundId_ne h.sessions hfinal hp
  refine ⟨h.registry, h.ledger, h.rounds.setRound hpending ?_,
    h.sessions.setRound fun hselected => absurd hselected hfinal,
    h.payments.setRound (fun p hp hpr => absurd hpr (hnone p hp)) (fun _ => ?_), h.winnings⟩
  · exact ⟨hround.opens, hround.closes, hround.aggregate, hround.prize, fun _ => hprize⟩
  · rw [paidFor_eq_zero fun p hp hpr => absurd hpr (hnone p hp)]
    exact hprize

/-! ### Sessions -/

theorem TreeWorld.Inv.startPrivateResult (h : w.Inv cfg.depth)
    (hcall : w.tree.startPrivateResult Fhe.plain cfg sender r = .ok s') :
    TreeWorld.Inv cfg.depth { w with tree := s' } := by
  simp only [MomentTree.startPrivateResult, seq_eq_ok, revertIf_eq_ok, pure_eq_ok, ok_eq_ok,
    not_or] at hcall
  obtain ⟨_, ⟨hfinal, hregistered⟩, _, hphase, rfl⟩ := hcall
  have hfinal : (w.tree.rounds r).selectionFinal = true := Bool.not_eq_false _ ▸ hfinal
  have hregistered : w.tree.isRegistered sender = true := Bool.not_eq_false _ ▸ hregistered
  have hnone : (w.tree.sessions r sender).phase = .none := not_not.1 hphase
  refine ⟨h.registry, h.ledger, h.rounds, h.sessions.setSession fun _ => ⟨hregistered, hfinal, rfl,
    fun _ => ⟨0, Nat.zero_le _, ?_, ?_⟩, fun hwalked => absurd rfl hwalked⟩,
    h.payments.setSession fun hpaid => absurd hnone (SessionPhase.Paid.ne_none hpaid), h.winnings⟩
  · rw [Nat.pow_zero, Nat.div_one]
  · exact (zero_add _).trans
      (prefixWalk_nodeTwab h.ledger.slots (h.registry.slot_lt sender hregistered))

theorem prefixWalk_one {v : Nat → Int} {fuel : Nat} : prefixWalk v fuel 1 = 0 := by
  cases fuel with
  | zero => rfl
  | succ fuel => rw [prefixWalk, if_neg (lt_irrefl 1)]

/-- What is still ahead of a walk of `k` steps, after one more step. -/
theorem prefixWalk_step {v : Nat → Int} {cursor : Nat} (hslot : slot < depth.capacity)
    (hk : k ≤ depth.bits) (hcursor : cursor = depth.leaf slot / 2 ^ k) (hmore : 1 < cursor) :
    k + 1 ≤ depth.bits ∧ cursor / 2 = depth.leaf slot / 2 ^ (k + 1) ∧
      prefixWalk v (depth.bits - k) cursor =
        (if cursor % 2 = 1 then v (cursor - 1) else 0) +
          prefixWalk v (depth.bits - (k + 1)) (cursor / 2) := by
  have hlt : k < depth.bits := by
    refine Nat.lt_of_le_of_ne hk ?_
    rintro rfl
    have hone : depth.leaf slot / 2 ^ depth.bits = 1 := by
      have hzero : slot / 2 ^ depth.bits = 0 := Nat.div_eq_of_lt hslot
      rw [TreeDepth.leaf, TreeDepth.capacity, Nat.add_div_left _ (Nat.two_pow_pos _), hzero]
    omega
  refine ⟨hlt, by rw [hcursor, Nat.pow_succ, Nat.div_div_eq_div_mul], ?_⟩
  have hfuel : depth.bits - k = depth.bits - (k + 1) + 1 := by omega
  rw [hfuel, prefixWalk, if_pos hmore]

/-- **The walk.**  Steps of a session keep what was collected and what is ahead together. -/
theorem advance_ok (h : TreeLedger depth accountAt now us nodes)
    (hopens : round.opensAt < round.closesAt) (hcloses : round.closesAt ≤ now) (hslot : slot < depth.capacity)
    {steps cursor prefixWeight cursor' prefixWeight' : Nat} (hk : k ≤ depth.bits)
    (hcursor : cursor = depth.leaf slot / 2 ^ k)
    (hsum : (prefixWeight : Int) + prefixWalk (nodeTwab depth us round.opensAt round.closesAt)
      (depth.bits - k) cursor = ticketsBefore us round slot)
    (hadvance : advance Fhe.plain round.opensAt round.closesAt nodes steps cursor prefixWeight =
      .ok (cursor', prefixWeight')) :
    ∃ k' ≤ depth.bits, cursor' = depth.leaf slot / 2 ^ k' ∧
      (prefixWeight' : Int) + prefixWalk (nodeTwab depth us round.opensAt round.closesAt)
        (depth.bits - k') cursor' = ticketsBefore us round slot := by
  induction steps generalizing k cursor prefixWeight with
  | zero =>
    obtain ⟨rfl, rfl⟩ := Prod.mk.inj (ok_eq_ok.1 hadvance)
    exact ⟨k, hk, hcursor, hsum⟩
  | succ steps ih =>
    rw [advance] at hadvance
    by_cases hmore : 1 < cursor
    · obtain ⟨hk', hhalf, hwalk⟩ :=
        prefixWalk_step (v := nodeTwab depth us round.opensAt round.closesAt) hslot hk hcursor hmore
      rw [if_pos hmore] at hadvance
      rw [hwalk] at hsum
      by_cases hodd : cursor % 2 = 1
      · rw [if_pos hodd] at hadvance hsum
        obtain ⟨weight, hnode, -, hvalue⟩ := h.records.nodeWeight_eq (n := cursor - 1) hopens.le
          (hcloses.trans_lt h.clock)
        have hahead : 0 ≤ prefixWalk (nodeTwab depth us round.opensAt round.closesAt)
            (depth.bits - (k + 1)) (cursor / 2) :=
          prefixWalk_nonneg fun n => h.records.nodeTwab_nonneg
        have htotal : ticketsBefore us round slot < 2 ^ 128 :=
          (h.ticketsBefore_mono hslot.le).trans_lt (h.total_lt hcloses)
        rw [← hvalue] at hsum
        rw [hnode, bind_ok, Fhe.plain_add128 (by omega)] at hadvance
        refine ih hk' hhalf ?_ hadvance
        rw [Nat.cast_add, add_assoc, hsum]
      · rw [if_neg hodd] at hadvance hsum
        exact ih hk' hhalf (by rwa [zero_add] at hsum) hadvance
    · rw [if_neg hmore] at hadvance
      obtain ⟨rfl, rfl⟩ := Prod.mk.inj (ok_eq_ok.1 hadvance)
      exact ⟨k, hk, hcursor, hsum⟩

theorem requireSessionBinding_ok {phase : SessionPhase} {x : Unit}
    (h : requireSessionBinding cfg r a phase s = .ok x) : (s.sessions r a).phase = phase := by
  simp only [requireSessionBinding, revertIf_eq_ok, not_or, not_not] at h
  exact h.2.1

theorem TreeWorld.Inv.advancePrivateResult (h : w.Inv cfg.depth) {maxSteps : Nat}
    (hcall : w.tree.advancePrivateResult Fhe.plain cfg r a maxSteps = .ok s') :
    TreeWorld.Inv cfg.depth { w with tree := s' } := by
  simp only [MomentTree.advancePrivateResult, seq_eq_ok, revertIf_eq_ok, pure_eq_ok, ok_eq_ok,
    panics_eq_ok, Prod.exists] at hcall
  obtain ⟨_, -, _, hbinding, cursor, prefixWeight, hadvance, rfl⟩ := hcall
  have hphase := requireSessionBinding_ok hbinding
  have hstarted : (w.tree.sessions r a).phase ≠ .none := by
    rw [hphase]
    decide
  obtain ⟨hregistered, hsession⟩ := h.sessions r a hstarted
  have hround := h.rounds.final hsession.final
  have hslot := h.registry.slot_lt a hregistered
  obtain ⟨k, hk, hcursor, hsum⟩ := hsession.walking hphase
  obtain ⟨k', hk', hcursor', hsum'⟩ :=
    advance_ok h.ledger hround.opens hround.closes hslot hk hcursor hsum hadvance
  refine ⟨h.registry, h.ledger, h.rounds, h.sessions.setSession fun _ => ⟨hregistered,
    hsession.final, hsession.slot_eq, fun _ => ⟨k', hk', hcursor', hsum'⟩, fun hwalked => ?_⟩,
    h.payments.setSession fun hpaid => ?_, h.winnings⟩
  · dsimp only at hwalked ⊢
    split_ifs at hwalked with hone
    · rw [← hsum', hone, prefixWalk_one, add_zero]
    · exact absurd hphase hwalked
  · rw [hphase] at hpaid
    rcases hpaid with hpaid | hpaid <;> cases hpaid

/-- The ticket test of `finalizePrivateResult`. -/
theorem holds_iff {ticket width before : Nat} {v : Nat → Int}
    (hbefore : (before : Int) = ∑ j ∈ Finset.range slot, v j) (hwidth : (width : Int) = v slot)
    (hlt : before + width < 2 ^ 128) :
    Fhe.plain.and (Fhe.plain.ge128 ticket before)
      (Fhe.plain.lt128 ticket (Fhe.plain.add128 before width)) = true ↔ Holds v slot ticket := by
  rw [Fhe.plain_add128 hlt, Fhe.plain_and, Fhe.plain_ge128, Fhe.plain_lt128, Bool.and_eq_true,
    decide_eq_true_eq, decide_eq_true_eq, Holds, ← hbefore, ← hwidth]
  omega

/-- What a winner and another account are paid. -/
theorem payout_split {winner autoSave : Bool} {prize winnings : Nat} (hprize : prize < 2 ^ 64)
    (hwinnings : winnings < 2 ^ 64) :
    Fhe.plain.sub64 (Fhe.plain.add64 winnings
        (Fhe.plain.sub64 (Fhe.plain.select64 winner prize 0)
          (Fhe.plain.select64 (Fhe.plain.and winner autoSave) prize 0))) winnings +
      Fhe.plain.select64 (Fhe.plain.and winner autoSave) prize 0 =
        Fhe.plain.select64 winner prize 0 := by
  have hback {kept : Nat} (hkept : kept < 2 ^ 64) :
      Fhe.plain.sub64 (Fhe.plain.add64 winnings kept) winnings = kept := by
    show ((winnings + kept) % 2 ^ 64 + 2 ^ 64 - winnings) % 2 ^ 64 = kept
    omega
  cases winner with
  | false =>
    simp only [Fhe.plain_select64, Fhe.plain_and, Bool.false_and, Bool.false_eq_true, if_false]
    rw [Fhe.plain_sub64 (by decide) le_rfl, hback (by decide)]
  | true =>
    cases autoSave with
    | false =>
      simp only [Fhe.plain_select64, Fhe.plain_and, Bool.and_false, Bool.false_eq_true, if_false,
        if_true]
      rw [Fhe.plain_sub64 hprize (Nat.zero_le _), hback (by omega), Nat.sub_zero, Nat.add_zero]
    | true =>
      simp only [Fhe.plain_select64, Fhe.plain_and, Bool.and_true, if_true]
      rw [Fhe.plain_sub64 hprize le_rfl, hback (by omega), Nat.sub_self, Nat.zero_add]

/-- The tree after a result: the session, the reserve and the winnings are new. -/
def resultTree (s : MomentTree Nat Nat) (r : Nat) (a : Address)
    (session : ResultSession Nat Nat) (reserve winnings : Nat) : MomentTree Nat Nat :=
  ({ s with winnings := Function.update s.winnings a winnings }.setRound r
    { s.rounds r with encryptedReserve := reserve }).setSession r a session

theorem payment_resultTree {session : ResultSession Nat Nat} {reserve winnings : Nat} :
    (TreeCall.finalizePrivateResult r a).payment s (resultTree s r a session reserve winnings) =
      [⟨r, a, Fhe.plain.sub64 winnings (s.winnings a) + session.autoSaveCredit⟩] := by
  simp only [TreeCall.payment, resultTree, MomentTree.setSession, setRound, Function.update_self]

/-- A result that pays the account what its tickets are worth. -/
theorem TreeWorld.Inv.result (h : w.Inv cfg.depth) {session : ResultSession Nat Nat}
    {reserve winnings amount : Nat} (hregistered : w.tree.isRegistered a = true)
    (hunpaid : ¬ (w.tree.sessions r a).phase.Paid) (hpaid : session.phase.Paid)
    (hsession : SessionRecord cfg.depth w.updates (w.tree.rounds r) (w.tree.slotOf a) session)
    (hwins : Holds (tickets w.updates (w.tree.rounds r)) (w.tree.slotOf a)
      (w.tree.rounds r).acceptedTicket → amount = (w.tree.rounds r).publicPrize)
    (hother : ¬ Holds (tickets w.updates (w.tree.rounds r)) (w.tree.slotOf a)
      (w.tree.rounds r).acceptedTicket → amount = 0)
    (hreserve : reserve + (paidFor w.payments r + amount) = (w.tree.rounds r).publicPrize)
    (hwinnings : winnings < 2 ^ 64) :
    TreeWorld.Inv cfg.depth { w with
      tree := resultTree w.tree r a session reserve winnings
      payments := w.payments ++ [⟨r, a, amount⟩] } := by
  have hround := h.rounds.final hsession.final
  have hsame : SameSelection (w.tree.rounds r)
      { w.tree.rounds r with encryptedReserve := reserve } := ⟨rfl, rfl, rfl, rfl, rfl⟩
  refine ⟨h.registry, h.ledger, h.rounds.setRound ((h.rounds r).1 hsession.final)
    ⟨hround.opens, hround.closes, hround.aggregate, hround.prize, hround.encryptedPrize⟩,
    (h.sessions.setRound fun _ => hsame).setSession fun _ => ⟨hregistered, ?_⟩,
    h.payments.pay hunpaid hpaid hsame hwins hother hreserve, fun b => ?_⟩
  · rw [Function.update_self]
    exact hsession.setRound hsame
  · show Function.update w.tree.winnings a winnings b < 2 ^ 64
    by_cases hb : b = a
    · rw [hb, Function.update_self]
      exact hwinnings
    · rw [Function.update_of_ne hb]
      exact h.winnings b

theorem TreeWorld.Inv.finalizePrivateResult (h : w.Inv cfg.depth)
    (hcall : w.tree.finalizePrivateResult Fhe.plain cfg r a = .ok s') :
    TreeWorld.Inv cfg.depth { w with
      tree := s'
      payments := w.payments ++ (TreeCall.finalizePrivateResult r a).payment w.tree s' } := by
  simp only [MomentTree.finalizePrivateResult, seq_eq_ok, pure_eq_ok, ok_eq_ok,
    panics_eq_ok] at hcall
  obtain ⟨_, hbinding, weight, hweight, preference, -, rfl⟩ := hcall
  have hphase := requireSessionBinding_ok hbinding
  have hstarted : (w.tree.sessions r a).phase ≠ .none := by
    rw [hphase]
    decide
  have hunpaid : ¬ (w.tree.sessions r a).phase.Paid := by
    rw [hphase]
    rintro (hpaid | hpaid) <;> cases hpaid
  obtain ⟨hregistered, hsession⟩ := h.sessions r a hstarted
  have hround := h.rounds.final hsession.final
  have hslot := h.registry.slot_lt a hregistered
  have hprize := hround.encryptedPrize hsession.final
  have hwalked : ((w.tree.sessions r a).prefixWeight : Int) =
      ticketsBefore w.updates (w.tree.rounds r) (w.tree.slotOf a) := by
    refine hsession.walked ?_
    rw [hphase]
    decide
  -- the weight of the leaf is what the account holds
  rw [hsession.slot_eq] at hweight
  obtain ⟨value, hnode, -, hvalue⟩ := h.ledger.records.nodeWeight_eq
    (n := cfg.depth.leaf (w.tree.slotOf a)) hround.opens.le (hround.closes.trans_lt h.ledger.clock)
  obtain rfl : value = weight := ok_eq_ok.1 (hnode.symm.trans hweight)
  have hheld : (value : Int) = tickets w.updates (w.tree.rounds r) (w.tree.slotOf a) :=
    hvalue.trans (nodeTwab_leaf h.ledger.slots)
  have hlt : (w.tree.sessions r a).prefixWeight + value < 2 ^ 128 := by
    have hmono : ticketsBefore w.updates (w.tree.rounds r) (w.tree.slotOf a + 1) ≤
        ticketsBefore w.updates (w.tree.rounds r) cfg.depth.capacity :=
      h.ledger.ticketsBefore_mono (Nat.succ_le_of_lt hslot)
    have htotal := h.ledger.total_lt hround.closes
    rw [ticketsBefore, Finset.sum_range_succ, ← ticketsBefore, ← hwalked, ← hheld] at hmono
    omega
  have hwinner := @holds_iff _ (w.tree.rounds r).acceptedTicket _ _ _ hwalked hheld hlt
  generalize Fhe.plain.and (Fhe.plain.ge128 (w.tree.rounds r).acceptedTicket
    (w.tree.sessions r a).prefixWeight) (Fhe.plain.lt128 (w.tree.rounds r).acceptedTicket
      (Fhe.plain.add128 (w.tree.sessions r a).prefixWeight value)) = winner at hwinner ⊢
  have hprizeLt : (w.tree.rounds r).encryptedPrize < 2 ^ 64 := hprize ▸ hround.prize
  have hsplit := @payout_split winner (Fhe.plain.asEbool (decide (preference = .autoSave))) _ _
    hprizeLt (h.winnings a)
  have hreserve := h.payments.reserve r hsession.final
  have hzero : Fhe.plain.asEuint64 0 = 0 := rfl
  rw [hzero]
  generalize hpayout : Fhe.plain.select64 winner (w.tree.rounds r).encryptedPrize 0 = payout
    at hsplit ⊢
  generalize Fhe.plain.select64 (Fhe.plain.and winner (Fhe.plain.asEbool
    (decide (preference = .autoSave)))) (w.tree.rounds r).encryptedPrize 0 = saved at hsplit ⊢
  have hgrownLt : Fhe.plain.add64 (w.tree.winnings a) (Fhe.plain.sub64 payout saved) < 2 ^ 64 :=
    Nat.mod_lt _ (Nat.two_pow_pos 64)
  generalize Fhe.plain.add64 (w.tree.winnings a) (Fhe.plain.sub64 payout saved) = grown
    at hsplit hgrownLt ⊢
  have hwins : Holds (tickets w.updates (w.tree.rounds r)) (w.tree.slotOf a)
      (w.tree.rounds r).acceptedTicket → payout = (w.tree.rounds r).publicPrize := by
    intro hholds
    rw [← hpayout, Fhe.plain_select64, if_pos (hwinner.2 hholds), hprize]
  have hother : ¬ Holds (tickets w.updates (w.tree.rounds r)) (w.tree.slotOf a)
      (w.tree.rounds r).acceptedTicket → payout = 0 := by
    intro hholds
    rw [← hpayout, Fhe.plain_select64, if_neg fun h => hholds (hwinner.1 h)]
  have hleft : Fhe.plain.sub64 (w.tree.rounds r).encryptedReserve payout +
      (paidFor w.payments r + payout) = (w.tree.rounds r).publicPrize := by
    have hprizeLt := hround.prize
    by_cases hholds : Holds (tickets w.updates (w.tree.rounds r)) (w.tree.slotOf a)
        (w.tree.rounds r).acceptedTicket
    · have hnothing := h.payments.paidFor_winner h.sessions h.registry h.ledger hregistered hunpaid
        hholds
      rw [Fhe.plain_sub64 (by omega) (by rw [hwins hholds]; omega), hwins hholds]
      omega
    · rw [Fhe.plain_sub64 (by omega) (by rw [hother hholds]; exact Nat.zero_le _), hother hholds]
      omega
  generalize Fhe.plain.sub64 (w.tree.rounds r).encryptedReserve payout = reserve at hleft ⊢
  show TreeWorld.Inv cfg.depth { w with
    tree := resultTree w.tree r a { w.tree.sessions r a with
      payout, autoSaveCredit := saved, phase := .autoSavePending } reserve grown
    payments := w.payments ++ (TreeCall.finalizePrivateResult r a).payment w.tree
      (resultTree w.tree r a { w.tree.sessions r a with
        payout, autoSaveCredit := saved, phase := .autoSavePending } reserve grown) }
  rw [payment_resultTree, hsplit]
  exact h.result hregistered hunpaid (.inl rfl) ⟨hsession.final, hsession.slot_eq,
    fun hwalking => (by cases hwalking), fun _ => hwalked⟩ hwins hother hleft hgrownLt

theorem TreeWorld.Inv.finalizeAutoSave (h : w.Inv cfg.depth)
    (hcall : w.tree.finalizeAutoSave Fhe.plain cfg r a w.now = .ok s')
    (hsolvent : TreeWorld.Solvent cfg { w with
      updates := w.updates ++ (TreeCall.finalizeAutoSave r a).update w.now w.tree }) :
    TreeWorld.Inv cfg.depth { w with
      tree := s'
      updates := w.updates ++ (TreeCall.finalizeAutoSave r a).update w.now w.tree } := by
  simp only [MomentTree.finalizeAutoSave, seq_eq_ok, pure_eq_ok, ok_eq_ok] at hcall
  obtain ⟨_, hbinding, rfl⟩ := hcall
  have hphase := requireSessionBinding_ok hbinding
  have hstarted : (w.tree.sessions r a).phase ≠ .none := by
    rw [hphase]
    decide
  obtain ⟨hregistered, hsession⟩ := h.sessions r a hstarted
  have hwalked : (w.tree.sessions r a).phase ≠ .prefixes := by
    rw [hphase]
    decide
  have hchanged := h.changeBalance hregistered rfl hsolvent
  obtain ⟨_, hsession'⟩ := hchanged.sessions r a hstarted
  refine ⟨hchanged.registry, hchanged.ledger, hchanged.rounds,
    hchanged.sessions.setSession fun _ => ⟨hregistered, hsession'.final, hsession'.slot_eq,
      fun hwalking => (by cases hwalking), fun _ => hsession'.walked hwalked⟩,
    hchanged.payments.setSession fun _ => .inr rfl, hchanged.winnings⟩

/-! ### Steps -/

theorem TreeWorld.Inv.quiet (h : w.Inv cfg.depth) {availablePrize : Nat}
    {preferenceObservations : Address → List PreferenceObservation} :
    TreeWorld.Inv cfg.depth { w with
      tree := { w.tree with availablePrize, preferenceObservations } } :=
  ⟨h.registry, h.ledger, h.rounds, h.sessions, h.payments, h.winnings⟩

theorem TreeWorld.Inv.unpaid {payments : List TreePayment} (hpayments : payments = [])
    (h : w.Inv depth) : TreeWorld.Inv depth { w with payments := w.payments ++ payments } := by
  rw [hpayments, List.append_nil]
  exact h

theorem TreeWorld.Inv.idle {updates : List TreeUpdate} {payments : List TreePayment}
    (hupdates : updates = []) (hpayments : payments = []) (h : w.Inv depth) :
    TreeWorld.Inv depth { w with
      updates := w.updates ++ updates
      payments := w.payments ++ payments } := by
  rw [hupdates, hpayments, List.append_nil, List.append_nil]
  exact h

/-- **Step.**  A successful call that leaves the accounts solvent keeps the invariant. -/
theorem TreeWorld.Inv.execute (h : w.Inv cfg.depth) {c : TreeCall}
    (hcall : c.execute cfg w.now w.tree = .ok s')
    (hsolvent : TreeWorld.Solvent cfg { w with updates := w.updates ++ c.update w.now w.tree }) :
    TreeWorld.Inv cfg.depth { w with
      tree := s'
      updates := w.updates ++ c.update w.now w.tree
      payments := w.payments ++ c.payment w.tree s' } := by
  cases c with
  | register sender account slot =>
    exact TreeWorld.Inv.idle rfl rfl (h.register hcall)
  | updateBalance sender account encryptedDelta increase =>
    simp only [TreeCall.execute, MomentTree.updateBalance, seq_eq_ok, revertIf_eq_ok,
      orRevert_eq_ok, pure_eq_ok, ok_eq_ok] at hcall
    obtain ⟨_, -, _, hregistered, delta, rfl, rfl⟩ := hcall
    exact TreeWorld.Inv.unpaid rfl (h.changeBalance (Bool.not_eq_false _ ▸ hregistered) rfl hsolvent)
  | updateBalanceFromVault sender account delta isSenderAllowed increase =>
    simp only [TreeCall.execute, MomentTree.updateBalanceFromVault, seq_eq_ok, revertIf_eq_ok,
      pure_eq_ok, ok_eq_ok, not_or] at hcall
    obtain ⟨_, -, _, ⟨hregistered, -⟩, rfl⟩ := hcall
    exact TreeWorld.Inv.unpaid rfl (h.changeBalance (Bool.not_eq_false _ ▸ hregistered) rfl hsolvent)
  | setAutoSavePreference sender account preference =>
    simp only [TreeCall.execute, MomentTree.setAutoSavePreference, seq_eq_ok, pure_eq_ok,
      ok_eq_ok] at hcall
    obtain ⟨_, -, rfl⟩ := hcall
    exact TreeWorld.Inv.idle rfl rfl h.quiet
  | fundPrize sender amount =>
    simp only [TreeCall.execute, MomentTree.fundPrize, seq_eq_ok, pure_eq_ok, ok_eq_ok] at hcall
    obtain ⟨_, -, _, -, rfl⟩ := hcall
    exact TreeWorld.Inv.idle rfl rfl h.quiet
  | requestRoundTotal sender roundId opensAt closesAt prize =>
    exact TreeWorld.Inv.idle rfl rfl (h.requestRoundTotal hcall)
  | finalizeRoundSelection sender roundId clearAggregateTwab aggregateCleartexts aggregateProof
      encryptedTicket =>
    simp only [TreeCall.execute, MomentTree.finalizeRoundSelection, seq_eq_ok] at hcall
    obtain ⟨_, -, ticket, -, hcall⟩ := hcall
    exact TreeWorld.Inv.idle rfl rfl (h.finalizeSelection hcall)
  | finalizeRoundSelectionFromVault sender roundId clearAggregateTwab aggregateCleartexts
      aggregateProof acceptedTicket isSenderAllowed =>
    simp only [TreeCall.execute, MomentTree.finalizeRoundSelectionFromVault, seq_eq_ok] at hcall
    obtain ⟨_, -, _, -, hcall⟩ := hcall
    exact TreeWorld.Inv.idle rfl rfl (h.finalizeSelection hcall)
  | startPrivateResult sender roundId =>
    exact TreeWorld.Inv.idle rfl rfl (h.startPrivateResult hcall)
  | advancePrivateResult roundId account maxSteps =>
    exact TreeWorld.Inv.idle rfl rfl (h.advancePrivateResult hcall)
  | finalizePrivateResult roundId account =>
    have hupdates : (TreeCall.finalizePrivateResult roundId account).update w.now w.tree = [] := rfl
    rw [hupdates, List.append_nil]
    exact h.finalizePrivateResult hcall
  | finalizeAutoSave roundId account =>
    exact TreeWorld.Inv.unpaid rfl (h.finalizeAutoSave hcall hsolvent)

theorem TreeWorld.Inv.tick (h : w.Inv cfg.depth) {timestamp : Nat} (hle : w.now ≤ timestamp)
    (hlt : timestamp < 2 ^ 64) : TreeWorld.Inv cfg.depth { w with now := timestamp } :=
  ⟨h.registry, ⟨h.ledger.records.later hle, h.ledger.slots, h.ledger.owned, h.ledger.inRange, hlt⟩,
    h.rounds.later hle, h.sessions, h.payments, h.winnings⟩

theorem TreeWorld.Inv.apply (h : w.Inv cfg.depth) {event : TreeEvent}
    (hsolvent : TreeWorld.Solvent cfg (w.apply cfg event)) :
    TreeWorld.Inv cfg.depth (w.apply cfg event) := by
  cases event with
  | call c =>
    rw [TreeWorld.apply] at hsolvent ⊢
    cases hcall : c.execute cfg w.now w.tree with
    | error e => exact h
    | ok s' =>
      rw [hcall] at hsolvent
      exact h.execute hcall ⟨hsolvent.accounts, hsolvent.total⟩
  | tick timestamp =>
    rw [TreeWorld.apply]
    split_ifs with hclock
    · exact h.tick hclock.1 hclock.2
    · exact h

/-- A tree that was just deployed. -/
theorem TreeWorld.Inv.deployed (h : (TreeWorld.system cfg).init w) : w.Inv cfg.depth := by
  obtain ⟨htree, hclock, hupdates, hpayments⟩ := h
  obtain ⟨tree, now, updates, payments⟩ := w
  obtain rfl : tree = MomentTree.deployed Fhe.plain := htree
  obtain rfl : updates = [] := hupdates
  obtain rfl : payments = [] := hpayments
  refine ⟨⟨?_, ?_, ?_⟩, ⟨.empty, nofun, nofun, fun n => ⟨le_rfl, Int.pow_pos (by decide)⟩, hclock⟩,
    fun r => ⟨?_, ?_⟩, fun r a hphase => absurd rfl hphase, ⟨nofun, .nil, ?_⟩,
    fun a => Nat.two_pow_pos 64⟩
  · rintro a ⟨⟩
  · rintro a ⟨⟩
  · exact fun slot hslot => absurd rfl hslot
  · rintro ⟨⟩
  · rintro ⟨⟩
  · rintro r ⟨⟩

end Leopold
