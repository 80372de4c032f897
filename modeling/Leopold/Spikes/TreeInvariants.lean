import Leopold.Spikes.TreeWorld

/-!
# What every run of the moment tree keeps

The registered slots, the recorded balances, the closed rounds, the sessions and the payments of a
reachable state.  The tickets of a round are the time-weighted balances of the slots up to its
close, which no later update changes.
-/

namespace Leopold

open Lib MomentTree

/-- The tickets of a slot in a round. -/
def tickets (us : List TreeUpdate) (round : ClosedRound Nat Nat) (slot : Nat) : Int :=
  slotTwab us round.opensAt round.closesAt slot

/-- The tickets of the smaller slots. -/
def ticketsBefore (us : List TreeUpdate) (round : ClosedRound Nat Nat) (slot : Nat) : Int :=
  ∑ i ∈ Finset.range slot, tickets us round i

/-- Accounts and slots are registered one to one. -/
structure Registry (depth : TreeDepth) (slotOf : Address → Nat) (isRegistered : Address → Bool)
    (accountAt : Nat → Address) : Prop where
  slot_lt : ∀ a, isRegistered a = true → slotOf a < depth.capacity
  accountAt_slotOf : ∀ a, isRegistered a = true → accountAt (slotOf a) = a ∧ a ≠ 0
  owner : ∀ slot, accountAt slot ≠ 0 →
    isRegistered (accountAt slot) = true ∧ slotOf (accountAt slot) = slot

/-- The nodes have recorded the updates of registered slots up to the present. -/
structure TreeLedger (depth : TreeDepth) (accountAt : Nat → Address) (now : Nat)
    (us : List TreeUpdate) (nodes : Nat → List (MomentTree.Observation Nat Nat)) : Prop where
  records : TreeRecords depth us now nodes
  slots : ∀ u ∈ us, u.slot < depth.capacity
  owned : ∀ u ∈ us, accountAt u.slot ≠ 0
  inRange : InRange depth us
  clock : now < 2 ^ 64

/-- A round whose total was requested. -/
structure RoundRecord (depth : TreeDepth) (us : List TreeUpdate) (now : Nat)
    (round : ClosedRound Nat Nat) : Prop where
  opens : round.opensAt < round.closesAt
  closes : round.closesAt ≤ now
  aggregate : (round.aggregateTwab : Int) = ticketsBefore us round depth.capacity
  prize : round.publicPrize < 2 ^ 64
  encryptedPrize : round.selectionFinal = true → round.encryptedPrize = round.publicPrize

def RoundRecords (depth : TreeDepth) (us : List TreeUpdate) (now : Nat)
    (rounds : Nat → ClosedRound Nat Nat) : Prop :=
  ∀ r, ((rounds r).selectionFinal = true → (rounds r).totalPending = true) ∧
    ((rounds r).totalPending = true → RoundRecord depth us now (rounds r))

/-- A session that was started by its account. -/
structure SessionRecord (depth : TreeDepth) (us : List TreeUpdate) (round : ClosedRound Nat Nat)
    (slot : Nat) (session : ResultSession Nat Nat) : Prop where
  final : round.selectionFinal = true
  slot_eq : session.slot = slot
  /-- What was collected and the left siblings that are still ahead. -/
  walking : session.phase = .prefixes → ∃ k ≤ depth.bits,
    session.cursor = depth.leaf slot / 2 ^ k ∧
      (session.prefixWeight : Int) +
        prefixWalk (nodeTwab depth us round.opensAt round.closesAt) (depth.bits - k)
          session.cursor = ticketsBefore us round slot
  walked : session.phase ≠ .prefixes → (session.prefixWeight : Int) = ticketsBefore us round slot

def SessionRecords (depth : TreeDepth) (us : List TreeUpdate)
    (rounds : Nat → ClosedRound Nat Nat) (slotOf : Address → Nat) (isRegistered : Address → Bool)
    (sessions : Nat → Address → ResultSession Nat Nat) : Prop :=
  ∀ r a, (sessions r a).phase ≠ .none →
    isRegistered a = true ∧ SessionRecord depth us (rounds r) (slotOf a) (sessions r a)

/-- The result of the session is final. -/
def MomentTree.SessionPhase.Paid (phase : SessionPhase) : Prop :=
  phase = .autoSavePending ∨ phase = .complete

/-- What was paid for a round. -/
def paidFor (payments : List TreePayment) (r : Nat) : Nat :=
  ((payments.filter (·.roundId = r)).map TreePayment.amount).sum

/-- A payment of a final result. -/
structure PaymentRecord (us : List TreeUpdate) (rounds : Nat → ClosedRound Nat Nat)
    (slotOf : Address → Nat) (sessions : Nat → Address → ResultSession Nat Nat)
    (p : TreePayment) : Prop where
  paid : (sessions p.roundId p.account).phase.Paid
  winner : Holds (tickets us (rounds p.roundId)) (slotOf p.account)
    (rounds p.roundId).acceptedTicket → p.amount = (rounds p.roundId).publicPrize
  other : ¬ Holds (tickets us (rounds p.roundId)) (slotOf p.account)
    (rounds p.roundId).acceptedTicket → p.amount = 0

structure PaymentRecords (us : List TreeUpdate) (rounds : Nat → ClosedRound Nat Nat)
    (slotOf : Address → Nat) (sessions : Nat → Address → ResultSession Nat Nat)
    (payments : List TreePayment) : Prop where
  each : ∀ p ∈ payments, PaymentRecord us rounds slotOf sessions p
  once : (payments.map fun p => (p.roundId, p.account)).Nodup
  reserve : ∀ r, (rounds r).selectionFinal = true →
    (rounds r).encryptedReserve + paidFor payments r = (rounds r).publicPrize

/-- The invariant of the reachable states. -/
structure TreeWorld.Inv (depth : TreeDepth) (w : TreeWorld) : Prop where
  registry : Registry depth w.tree.slotOf w.tree.isRegistered w.tree.accountAt
  ledger : TreeLedger depth w.tree.accountAt w.now w.updates w.tree.nodeObservations
  rounds : RoundRecords depth w.updates w.now w.tree.rounds
  sessions : SessionRecords depth w.updates w.tree.rounds w.tree.slotOf w.tree.isRegistered
    w.tree.sessions
  payments : PaymentRecords w.updates w.tree.rounds w.tree.slotOf w.tree.sessions w.payments
  winnings : ∀ a, w.tree.winnings a < 2 ^ 64

variable {depth : TreeDepth} {us : List TreeUpdate} {u : TreeUpdate} {now now' n slot slot' r : Nat}
  {round round' : ClosedRound Nat Nat} {rounds rounds' : Nat → ClosedRound Nat Nat}
  {slotOf slotOf' : Address → Nat} {isRegistered isRegistered' : Address → Bool}
  {accountAt : Nat → Address} {session : ResultSession Nat Nat}
  {sessions sessions' : Nat → Address → ResultSession Nat Nat} {payments : List TreePayment}
  {nodes : Nat → List (MomentTree.Observation Nat Nat)} {a : Address}

/-! ### Tickets -/

namespace TreeLedger

theorem tickets_nonneg (h : TreeLedger depth accountAt now us nodes) :
    0 ≤ tickets us round slot := by
  rw [tickets, ← nodeTwab_leaf h.slots]
  exact h.records.nodeTwab_nonneg

theorem ticketsBefore_mono (h : TreeLedger depth accountAt now us nodes) (hle : slot ≤ slot') :
    ticketsBefore us round slot ≤ ticketsBefore us round slot' :=
  Finset.sum_le_sum_of_subset_of_nonneg (Finset.range_mono hle) fun _ _ _ => h.tickets_nonneg

/-- The total of a round that has closed fits 128 bits. -/
theorem total_lt (h : TreeLedger depth accountAt now us nodes) (hcloses : round.closesAt ≤ now) :
    ticketsBefore us round depth.capacity < 2 ^ 128 := by
  have htotal : nodeTwab depth us round.opensAt round.closesAt 1 =
      ticketsBefore us round depth.capacity := nodeTwab_root h.slots
  rw [← htotal]
  exact h.records.nodeTwab_lt (hcloses.trans_lt h.clock)

end TreeLedger

/-- Updates from the close on leave the tickets of a round. -/
theorem tickets_concat (h : round.closesAt ≤ u.timestamp) :
    tickets (us ++ [u]) round = tickets us round := funext fun _ => by
  rw [tickets, tickets, slotTwab_concat h]

theorem ticketsBefore_concat (h : round.closesAt ≤ u.timestamp) :
    ticketsBefore (us ++ [u]) round = ticketsBefore us round := funext fun _ => by
  rw [ticketsBefore, ticketsBefore, tickets_concat h]

/-! ### Updates leave what was closed -/

theorem RoundRecord.concat (h : RoundRecord depth us now round) (hu : now ≤ u.timestamp) :
    RoundRecord depth (us ++ [u]) now round :=
  ⟨h.opens, h.closes, by rw [ticketsBefore_concat (h.closes.trans hu), h.aggregate], h.prize,
    h.encryptedPrize⟩

theorem RoundRecord.later (h : RoundRecord depth us now round) (hnow : now ≤ now') :
    RoundRecord depth us now' round :=
  ⟨h.opens, h.closes.trans hnow, h.aggregate, h.prize, h.encryptedPrize⟩

theorem SessionRecord.concat (h : SessionRecord depth us round slot session)
    (hu : round.closesAt ≤ u.timestamp) : SessionRecord depth (us ++ [u]) round slot session := by
  refine ⟨h.final, h.slot_eq, ?_, ?_⟩
  · rw [nodeTwab_concat hu, ticketsBefore_concat hu]
    exact h.walking
  · rw [ticketsBefore_concat hu]
    exact h.walked

theorem PaymentRecord.concat {p : TreePayment} (h : PaymentRecord us rounds slotOf sessions p)
    (hu : (rounds p.roundId).closesAt ≤ u.timestamp) :
    PaymentRecord (us ++ [u]) rounds slotOf sessions p := by
  refine ⟨h.paid, ?_, ?_⟩
  · rw [tickets_concat hu]
    exact h.winner
  · rw [tickets_concat hu]
    exact h.other

theorem RoundRecords.concat (h : RoundRecords depth us now rounds) (hu : now ≤ u.timestamp) :
    RoundRecords depth (us ++ [u]) now rounds :=
  fun r => ⟨(h r).1, fun hpending => ((h r).2 hpending).concat hu⟩

theorem RoundRecords.later (h : RoundRecords depth us now rounds) (hnow : now ≤ now') :
    RoundRecords depth us now' rounds :=
  fun r => ⟨(h r).1, fun hpending => ((h r).2 hpending).later hnow⟩

/-- The record of a round whose selection is final. -/
theorem RoundRecords.final (h : RoundRecords depth us now rounds)
    (hfinal : (rounds r).selectionFinal = true) : RoundRecord depth us now (rounds r) :=
  (h r).2 ((h r).1 hfinal)

theorem SessionRecords.concat
    (h : SessionRecords depth us rounds slotOf isRegistered sessions)
    (hrounds : RoundRecords depth us now rounds) (hu : now ≤ u.timestamp) :
    SessionRecords depth (us ++ [u]) rounds slotOf isRegistered sessions := by
  intro r a hphase
  obtain ⟨hregistered, hsession⟩ := h r a hphase
  exact ⟨hregistered, hsession.concat ((hrounds.final hsession.final).closes.trans hu)⟩

theorem SessionPhase.Paid.ne_none {phase : SessionPhase} (h : phase.Paid) : phase ≠ .none := by
  rcases h with rfl | rfl <;> decide

/-- A payment belongs to a session of a registered account in a round that is final. -/
theorem PaymentRecord.ofSession {p : TreePayment} (h : PaymentRecord us rounds slotOf sessions p)
    (hsessions : SessionRecords depth us rounds slotOf isRegistered sessions) :
    isRegistered p.account = true ∧ SessionRecord depth us (rounds p.roundId) (slotOf p.account)
      (sessions p.roundId p.account) :=
  hsessions _ _ (SessionPhase.Paid.ne_none h.paid)

theorem PaymentRecords.concat (h : PaymentRecords us rounds slotOf sessions payments)
    (hsessions : SessionRecords depth us rounds slotOf isRegistered sessions)
    (hrounds : RoundRecords depth us now rounds) (hu : now ≤ u.timestamp) :
    PaymentRecords (us ++ [u]) rounds slotOf sessions payments := by
  refine ⟨fun p hp => ?_, h.once, h.reserve⟩
  have hfinal := ((h.each p hp).ofSession hsessions).2.final
  exact (h.each p hp).concat ((hrounds.final hfinal).closes.trans hu)

/-! ### Registrations -/

section

variable (hsame : ∀ a, isRegistered a = true → isRegistered' a = true ∧ slotOf' a = slotOf a)

include hsame

theorem SessionRecords.register
    (h : SessionRecords depth us rounds slotOf isRegistered sessions) :
    SessionRecords depth us rounds slotOf' isRegistered' sessions := by
  intro r a hphase
  obtain ⟨hregistered, hsession⟩ := h r a hphase
  obtain ⟨hregistered', hslot⟩ := hsame a hregistered
  exact ⟨hregistered', hslot ▸ hsession⟩

theorem PaymentRecords.register (h : PaymentRecords us rounds slotOf sessions payments)
    (hsessions : SessionRecords depth us rounds slotOf isRegistered sessions) :
    PaymentRecords us rounds slotOf' sessions payments := by
  refine ⟨fun p hp => ?_, h.once, h.reserve⟩
  have hslot := (hsame _ ((h.each p hp).ofSession hsessions).1).2
  exact ⟨(h.each p hp).paid, hslot ▸ (h.each p hp).winner, hslot ▸ (h.each p hp).other⟩

end

/-! ### Rounds -/

/-- What a final selection fixes. -/
structure SameSelection (round round' : ClosedRound Nat Nat) : Prop where
  opensAt : round'.opensAt = round.opensAt
  closesAt : round'.closesAt = round.closesAt
  publicPrize : round'.publicPrize = round.publicPrize
  acceptedTicket : round'.acceptedTicket = round.acceptedTicket
  selectionFinal : round'.selectionFinal = round.selectionFinal

theorem SameSelection.tickets_eq (h : SameSelection round round') :
    tickets us round' = tickets us round := funext fun _ => by
  rw [tickets, tickets, h.opensAt, h.closesAt]

theorem SameSelection.ticketsBefore_eq (h : SameSelection round round') :
    ticketsBefore us round' = ticketsBefore us round := funext fun _ => by
  rw [ticketsBefore, ticketsBefore, h.tickets_eq]

theorem SessionRecord.setRound (h : SessionRecord depth us round slot session)
    (hsame : SameSelection round round') : SessionRecord depth us round' slot session := by
  refine ⟨hsame.selectionFinal.trans h.final, h.slot_eq, ?_, ?_⟩
  · rw [hsame.opensAt, hsame.closesAt, hsame.ticketsBefore_eq]
    exact h.walking
  · rw [hsame.ticketsBefore_eq]
    exact h.walked

theorem SessionRecords.setRound (h : SessionRecords depth us rounds slotOf isRegistered sessions)
    (hsame : (rounds r).selectionFinal = true → SameSelection (rounds r) round') :
    SessionRecords depth us (Function.update rounds r round') slotOf isRegistered sessions := by
  intro r' a hphase
  obtain ⟨hregistered, hsession⟩ := h r' a hphase
  refine ⟨hregistered, ?_⟩
  by_cases hr : r' = r
  · subst hr
    rw [Function.update_self]
    exact hsession.setRound (hsame hsession.final)
  · rw [Function.update_of_ne hr]
    exact hsession

theorem PaymentRecord.setRound {p : TreePayment} (h : PaymentRecord us rounds slotOf sessions p)
    (hsame : p.roundId = r → SameSelection (rounds r) round') :
    PaymentRecord us (Function.update rounds r round') slotOf sessions p := by
  by_cases hr : p.roundId = r
  · have hround := hsame hr
    subst hr
    refine ⟨h.paid, ?_, ?_⟩
    · rw [Function.update_self, hround.tickets_eq, hround.acceptedTicket, hround.publicPrize]
      exact h.winner
    · rw [Function.update_self, hround.tickets_eq, hround.acceptedTicket]
      exact h.other
  · refine ⟨h.paid, ?_, ?_⟩
    · rw [Function.update_of_ne hr]
      exact h.winner
    · rw [Function.update_of_ne hr]
      exact h.other

theorem PaymentRecords.setRound (h : PaymentRecords us rounds slotOf sessions payments)
    (hsame : ∀ p ∈ payments, p.roundId = r → SameSelection (rounds r) round')
    (hreserve : round'.selectionFinal = true →
      round'.encryptedReserve + paidFor payments r = round'.publicPrize) :
    PaymentRecords us (Function.update rounds r round') slotOf sessions payments := by
  refine ⟨fun p hp => (h.each p hp).setRound (hsame p hp), h.once, fun r' hfinal => ?_⟩
  by_cases hr : r' = r
  · subst hr
    rw [Function.update_self] at hfinal ⊢
    exact hreserve hfinal
  · rw [Function.update_of_ne hr] at hfinal ⊢
    exact h.reserve r' hfinal

/-- No payment belongs to a round that is not final. -/
theorem PaymentRecords.roundId_ne (h : PaymentRecords us rounds slotOf sessions payments)
    (hsessions : SessionRecords depth us rounds slotOf isRegistered sessions)
    (hfinal : ¬ (rounds r).selectionFinal = true) {p : TreePayment} (hp : p ∈ payments) :
    p.roundId ≠ r := by
  rintro rfl
  exact hfinal ((h.each p hp).ofSession hsessions).2.final

theorem RoundRecords.setRound (h : RoundRecords depth us now rounds)
    (hpending : round'.totalPending = true) (hround : RoundRecord depth us now round') :
    RoundRecords depth us now (Function.update rounds r round') := by
  intro r'
  by_cases hr : r' = r
  · subst hr
    rw [Function.update_self]
    exact ⟨fun _ => hpending, fun _ => hround⟩
  · rw [Function.update_of_ne hr]
    exact h r'

/-! ### Sessions -/

theorem setSession_apply (r r' : Nat) (a a' : Address) :
    Function.update sessions r (Function.update (sessions r) a session) r' a' =
      if r' = r ∧ a' = a then session else sessions r' a' := by
  by_cases hr : r' = r
  · subst hr
    rw [Function.update_self]
    by_cases ha : a' = a
    · subst ha
      rw [Function.update_self, if_pos ⟨rfl, rfl⟩]
    · rw [Function.update_of_ne ha, if_neg fun h => ha h.2]
  · rw [Function.update_of_ne hr, if_neg fun h => hr h.1]

theorem SessionRecords.setSession
    (h : SessionRecords depth us rounds slotOf isRegistered sessions)
    (hnew : session.phase ≠ .none →
      isRegistered a = true ∧ SessionRecord depth us (rounds r) (slotOf a) session) :
    SessionRecords depth us rounds slotOf isRegistered
      (Function.update sessions r (Function.update (sessions r) a session)) := by
  intro r' a' hphase
  rw [setSession_apply] at hphase ⊢
  split_ifs at hphase ⊢ with hsame
  · obtain ⟨rfl, rfl⟩ := hsame
    exact hnew hphase
  · exact h r' a' hphase

theorem PaymentRecord.setSession {p : TreePayment} (h : PaymentRecord us rounds slotOf sessions p)
    (hphase : (sessions r a).phase.Paid → session.phase.Paid) :
    PaymentRecord us rounds slotOf
      (Function.update sessions r (Function.update (sessions r) a session)) p := by
  refine ⟨?_, h.winner, h.other⟩
  rw [setSession_apply]
  split_ifs with hsame
  · obtain ⟨rfl, rfl⟩ := hsame
    exact hphase h.paid
  · exact h.paid

theorem PaymentRecords.setSession (h : PaymentRecords us rounds slotOf sessions payments)
    (hphase : (sessions r a).phase.Paid → session.phase.Paid) :
    PaymentRecords us rounds slotOf
      (Function.update sessions r (Function.update (sessions r) a session)) payments :=
  ⟨fun p hp => (h.each p hp).setSession hphase, h.once, h.reserve⟩

/-! ### Payments -/

theorem paidFor_concat {p : TreePayment} : paidFor (payments ++ [p]) r =
    paidFor payments r + if p.roundId = r then p.amount else 0 := by
  rw [paidFor, paidFor, List.filter_append, List.map_append, List.sum_append, List.filter_singleton]
  by_cases hr : p.roundId = r
  · rw [if_pos hr, decide_eq_true hr]
    rfl
  · rw [if_neg hr, decide_eq_false hr]
    rfl

theorem paidFor_eq_zero (h : ∀ p ∈ payments, p.roundId = r → p.amount = 0) :
    paidFor payments r = 0 := by
  rw [paidFor, List.sum_eq_zero]
  intro n hn
  obtain ⟨p, hp, rfl⟩ := List.mem_map.1 hn
  obtain ⟨hp, hpr⟩ := List.mem_filter.1 hp
  exact h p hp (of_decide_eq_true hpr)

/-- Nothing was paid for a round to anybody but the account whose turn it is, when that account
wins. -/
theorem PaymentRecords.paidFor_winner (h : PaymentRecords us rounds slotOf sessions payments)
    (hsessions : SessionRecords depth us rounds slotOf isRegistered sessions)
    (hregistry : Registry depth slotOf isRegistered accountAt)
    (hledger : TreeLedger depth accountAt now us nodes) (hregistered : isRegistered a = true)
    (hphase : ¬ (sessions r a).phase.Paid)
    (hwins : Holds (tickets us (rounds r)) (slotOf a) (rounds r).acceptedTicket) :
    paidFor payments r = 0 := by
  refine paidFor_eq_zero ?_
  rintro p hp rfl
  refine (h.each p hp).other fun hholds => hphase ?_
  have hslot := hwins.unique (fun _ => hledger.tickets_nonneg) hholds
  have hsame : p.account = a := by
    rw [← (hregistry.accountAt_slotOf a hregistered).1, hslot,
      (hregistry.accountAt_slotOf _ ((h.each p hp).ofSession hsessions).1).1]
  exact hsame ▸ (h.each p hp).paid

/-- A further payment, to an account that was not paid for the round. -/
theorem PaymentRecords.pay (h : PaymentRecords us rounds slotOf sessions payments)
    {amount : Nat} (hphase : ¬ (sessions r a).phase.Paid) (hpaid : session.phase.Paid)
    (hsame : SameSelection (rounds r) round')
    (hwins : Holds (tickets us (rounds r)) (slotOf a) (rounds r).acceptedTicket →
      amount = (rounds r).publicPrize)
    (hother : ¬ Holds (tickets us (rounds r)) (slotOf a) (rounds r).acceptedTicket → amount = 0)
    (hreserve : round'.encryptedReserve + (paidFor payments r + amount) = round'.publicPrize) :
    PaymentRecords us (Function.update rounds r round') slotOf
      (Function.update sessions r (Function.update (sessions r) a session))
      (payments ++ [⟨r, a, amount⟩]) := by
  refine ⟨fun p hp => ?_, ?_, fun r' hfinal => ?_⟩
  · have hold : PaymentRecord us rounds slotOf
        (Function.update sessions r (Function.update (sessions r) a session)) p := by
      rcases List.mem_append.1 hp with hp | hp
      · exact (h.each p hp).setSession fun _ => hpaid
      · rw [List.mem_singleton.1 hp]
        refine ⟨?_, hwins, hother⟩
        rw [setSession_apply, if_pos ⟨rfl, rfl⟩]
        exact hpaid
    exact hold.setRound fun _ => hsame
  · rw [List.map_append, List.map_singleton]
    refine List.nodup_append.2 ⟨h.once, List.nodup_singleton _, fun x hx y hy => ?_⟩
    obtain ⟨p, hp, rfl⟩ := List.mem_map.1 hx
    rw [List.mem_singleton.1 hy]
    intro hkey
    obtain ⟨rfl, rfl⟩ : p.roundId = r ∧ p.account = a := Prod.mk.inj hkey
    exact hphase (h.each p hp).paid
  · rw [paidFor_concat]
    by_cases hr : r' = r
    · subst hr
      rw [Function.update_self, if_pos rfl]
      exact hreserve
    · rw [Function.update_of_ne hr] at hfinal ⊢
      rw [if_neg fun heq => hr heq.symm, Nat.add_zero]
      exact h.reserve r' hfinal

end Leopold
