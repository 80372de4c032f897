import Leopold.System.Past
import Leopold.System.Bonds

/-!
# The selection always reconciles

The aggregate that a close froze is the sum of the weights of the participants, and the selection
adds up the same weights in the same order.  A complete traversal therefore ends at the published
aggregate, and the ticket, which is below it, lies in the interval of exactly one participant.
-/

namespace Leopold

open Lib

/-! ## The plaintext of a tally -/

/-- The tally of the participants `as` with weights `f`, without encryption. -/
structure Tallied (f : Address → Nat) (as : List Address) (ticket : Nat) (t : Tally Nat Nat Bool) :
    Prop where
  cumulative : t.cumulative = (as.map f).sum
  winners : t.winners = if ticket < (as.map f).sum then 1 else 0
  predicate : ∀ a ∈ as, t.predicate a = true ↔ Wins f as ticket a

namespace Tallied

variable {f : Address → Nat} {as bs : List Address} {a : Address} {ticket : Nat}
  {t : Tally Nat Nat Bool}

theorem nil {t : Tally Nat Nat Bool} (hc : t.cumulative = 0) (hw : t.winners = 0) :
    Tallied f [] ticket t :=
  ⟨hc, hw, nofun⟩

/-- The next participant wins exactly when the ticket lies in its interval. -/
theorem isWinner_eq (h : Tallied f as ticket t) (hlt : (as.map f).sum + f a < 2 ^ 128) :
    t.isWinner Fhe.plain ticket (f a) =
      decide ((as.map f).sum ≤ ticket ∧ ticket < (as.map f).sum + f a) := by
  rw [Tally.isWinner, h.cumulative, Fhe.plain_add128 hlt, Fhe.plain_asEuint128 (by decide),
    Bool.eq_iff_iff]
  simp only [Fhe.plain_and, Fhe.plain_ge128, Fhe.plain_lt128, Fhe.plain_gt128, Bool.and_eq_true,
    decide_eq_true_eq]
  omega

theorem visit (h : Tallied f as ticket t) (ha : a ∉ as)
    (hlt : (as.map f).sum + f a < 2 ^ 128) :
    Tallied f (as ++ [a]) ticket (t.visit Fhe.plain ticket f a) := by
  have hsum : ((as ++ [a]).map f).sum = (as.map f).sum + f a := by
    rw [List.map_append, List.sum_append, List.map_singleton, List.sum_singleton]
  have hwin := h.isWinner_eq hlt
  constructor
  · rw [hsum, Tally.visit, h.cumulative, Fhe.plain_add128 hlt]
  · rw [hsum, Tally.visit, h.winners, hwin]
    show (_ + Bool.toNat _) % 2 ^ 64 = _
    by_cases hbefore : ticket < (as.map f).sum
    · rw [if_pos hbefore, decide_eq_false (by omega), if_pos (by omega)]
      rfl
    · by_cases hhere : ticket < (as.map f).sum + f a
      · rw [if_neg hbefore, decide_eq_true (by omega), if_pos hhere]
        rfl
      · rw [if_neg hbefore, decide_eq_false (by omega), if_neg hhere]
        rfl
  · intro b hb
    rw [wins_concat]
    by_cases hba : b = a
    · subst hba
      simp only [Tally.visit, Function.update_self, hwin, decide_eq_true_eq]
      exact ⟨fun hin => .inr ⟨trivial, hin⟩,
        fun hor => (hor.resolve_left fun hwins => ha hwins.mem).2⟩
    · have hmem : b ∈ as := by simpa [hba] using hb
      simp only [Tally.visit, Function.update_of_ne hba, h.predicate b hmem]
      exact ⟨.inl, fun hor => hor.resolve_right fun hin => hba hin.1⟩

/-- A chunk visits the participants `bs` after `as`. -/
theorem run (h : Tallied f as ticket t) (bs : List Address) (hnodup : (as ++ bs).Nodup)
    (hlt : ((as ++ bs).map f).sum < 2 ^ 128) :
    Tallied f (as ++ bs) ticket (t.run Fhe.plain ticket f bs) := by
  induction bs generalizing as t with
  | nil =>
    rw [List.append_nil]
    exact h
  | cons b bs ih =>
    rw [List.append_cons] at hnodup hlt ⊢
    have hb : b ∉ as := fun hmem =>
      List.disjoint_left.1 (List.nodup_append'.1 (List.nodup_append'.1 hnodup).1).2.2 hmem
        (List.mem_singleton_self b)
    refine ih (h.visit hb ?_) hnodup hlt
    rw [List.map_append, List.sum_append, List.map_append, List.sum_append, List.map_singleton,
      List.sum_singleton] at hlt
    omega

end Tallied

/-- The weights of participants that a chunk does not visit do not matter. -/
theorem Tally.run_congr {f g : Address → Nat} {ticket : Nat} {as : List Address}
    (h : ∀ a ∈ as, f a = g a) (t : Tally Nat Nat Bool) :
    t.run Fhe.plain ticket f as = t.run Fhe.plain ticket g as := by
  rw [Tally.run, Tally.run]
  refine List.foldl_ext _ _ _ fun t a ha => ?_
  rw [Tally.visit, Tally.visit, h a ha]

/-! ## The draw of a closed round -/

namespace Vault

/-- The states in which the weight of a round is published and no ticket is accepted yet. -/
def awaitsTicket : RoundState → Bool
  | .aggregateFinalized | .candidateValidityPending | .candidateRejected => true
  | _ => false

/-- What holds of the draw of a closed round. -/
structure Drawn (v : PlainVault) (r : Nat) : Prop where
  published : (v.rounds r).state ≠ .aggregatePending →
    (v.rounds r).publicAggregateTwab = (v.rounds r).aggregateTwab
  positive : awaitsTicket (v.rounds r).state = true → 0 < (v.rounds r).publicAggregateTwab
  ticket_lt : (v.rounds r).state = .ticketAccepted ∨ 0 < (v.rounds r).selectionCursor →
    (v.rounds r).acceptedTicket < (v.rounds r).publicAggregateTwab
  tallied : 0 < (v.rounds r).selectionCursor → Tallied (v.weight r)
    ((v.roundParticipants r).take (v.rounds r).selectionCursor) (v.rounds r).acceptedTicket
      (v.tally r)
  reconciled : 0 < (v.rounds r).selectionCursor →
    (v.rounds r).selectionCursor = (v.roundParticipants r).length →
      (v.rounds r).reconciliationValid = true
  not_failed : (v.rounds r).state ≠ .reconciliationFailed

namespace Drawn

variable {v v' : PlainVault} {r : Nat}

/-- The draw only reads its round, its participants, its predicates and its weights. -/
theorem congr (h : v.Drawn r) (hround : v'.rounds r = v.rounds r)
    (hparts : v'.roundParticipants r = v.roundParticipants r)
    (hpred : v'.winnerPredicate r = v.winnerPredicate r) (hweight : v'.weight r = v.weight r) :
    v'.Drawn r := by
  have htally : v'.tally r = v.tally r := by rw [tally, tally, hround, hpred]
  obtain ⟨h1, h2, h3, h4, h5, h6⟩ := h
  constructor <;> simp only [hround, hparts, hweight, htally] <;> assumption

/-- A round moves on with its tally. -/
theorem keep (h : v.Drawn r) (hparts : v'.roundParticipants r = v.roundParticipants r)
    (hpred : v'.winnerPredicate r = v.winnerPredicate r) (hweight : v'.weight r = v.weight r)
    (hcursor : (v'.rounds r).selectionCursor = (v.rounds r).selectionCursor)
    (hcumulative : (v'.rounds r).selectionCumulative = (v.rounds r).selectionCumulative)
    (hwinners : (v'.rounds r).encryptedWinnerCount = (v.rounds r).encryptedWinnerCount)
    (hreconciled : (v'.rounds r).reconciliationValid = (v.rounds r).reconciliationValid)
    (hticket : 0 < (v.rounds r).selectionCursor →
      (v'.rounds r).acceptedTicket = (v.rounds r).acceptedTicket)
    (hpublished : (v'.rounds r).publicAggregateTwab = (v'.rounds r).aggregateTwab)
    (hpositive : awaitsTicket (v'.rounds r).state = true → 0 < (v'.rounds r).publicAggregateTwab)
    (hlt : (v'.rounds r).state = .ticketAccepted ∨ 0 < (v'.rounds r).selectionCursor →
      (v'.rounds r).acceptedTicket < (v'.rounds r).publicAggregateTwab)
    (hstate : (v'.rounds r).state ≠ .reconciliationFailed) : v'.Drawn r := by
  have htally : v'.tally r = v.tally r := by rw [tally, tally, hcumulative, hwinners, hpred]
  refine ⟨fun _ => hpublished, hpositive, hlt, fun hpos => ?_, fun hpos hend => ?_, hstate⟩
  · rw [hcursor] at hpos
    rw [hparts, hcursor, hweight, htally, hticket hpos]
    exact h.tallied hpos
  · rw [hcursor] at hpos hend
    rw [hparts] at hend
    rw [hreconciled]
    exact h.reconciled hpos hend

/-- A move of the round keeps its draw exact. -/
theorem move {n : Nat} (h : v.Drawn r) (hmove : (v.rounds r).Moves Fhe.plain (v'.rounds r))
    (hparts : v'.roundParticipants r = v.roundParticipants r)
    (hpred : v'.winnerPredicate r = v.winnerPredicate r) (hweight : v'.weight r = v.weight r)
    (hcursors : (v.rounds r).state.Cursors n (v.rounds r).selectionCursor
      (v.rounds r).allocationCursor)
    (hn : n = (v.roundParticipants r).length) (haggregate : (v.rounds r).aggregateTwab < 2 ^ 128) :
    v'.Drawn r := by
  generalize hround : v'.rounds r = round at hmove
  have hpublic : (v.rounds r).state ≠ .aggregatePending →
      (v.rounds r).publicAggregateTwab < 2 ^ 128 := fun hs => by
    rw [h.published hs]
    exact haggregate
  -- a ticket is a remainder of the published aggregate
  have hrem : ∀ {candidate : Nat}, awaitsTicket (v.rounds r).state = true →
      (v.rounds r).state ≠ .aggregatePending →
      Fhe.plain.rem128 candidate (Fhe.plain.asEuint128 (v.rounds r).publicAggregateTwab) <
        (v.rounds r).publicAggregateTwab := by
    intro candidate hs hne
    rw [Fhe.plain_rem128, Fhe.plain_asEuint128 (hpublic hne)]
    exact Nat.mod_lt _ (h.positive hs)
  cases hmove with
  | @aggregate clear proof hs hle hproof =>
    rw [hs] at hcursors
    have hclear : (v.rounds r).aggregateTwab = clear := by
      have := (Bool.and_eq_true_iff.1 hproof).2
      exact eq_of_beq this
    refine h.keep hparts hpred hweight ?_ ?_ ?_ ?_ ?_ ?_ ?_ ?_ ?_ <;>
      simp only [hround, hcursors.1, hclear, Nat.lt_irrefl, or_false, false_imp_iff]
    · split_ifs with hzero
      · nofun
      · exact fun _ => Nat.pos_of_ne_zero hzero
    · split_ifs <;> nofun
    · split_ifs <;> nofun
  | take hs hpos hle hlimit =>
    have hwait : awaitsTicket (v.rounds r).state = true := by
      rcases hs with h | h <;> rw [h] <;> rfl
    have hne : (v.rounds r).state ≠ .aggregatePending := by
      rcases hs with h | h <;> rw [h] <;> nofun
    have hzero : (v.rounds r).selectionCursor = 0 := by
      rcases hs with h | h <;> rw [h] at hcursors <;> exact hcursors.1
    refine h.keep hparts hpred hweight ?_ ?_ ?_ ?_ ?_ ?_ ?_ ?_ ?_ <;> simp only [hround]
    · exact fun hgt => absurd hzero (Nat.ne_of_gt hgt)
    · exact h.published hne
    · nofun
    · exact fun _ => hrem hwait hne
    · nofun
  | propose hs hpos hle hlimit =>
    have hne : (v.rounds r).state ≠ .aggregatePending := by
      rcases hs with h | h <;> rw [h] <;> nofun
    have hzero : (v.rounds r).selectionCursor = 0 := by
      rcases hs with h | h <;> rw [h] at hcursors <;> exact hcursors.1
    refine h.keep hparts hpred hweight ?_ ?_ ?_ ?_ ?_ ?_ ?_ ?_ ?_ <;>
      simp only [hround, hzero, implies_true]
    · exact h.published hne
    · exact fun _ => Nat.pos_of_ne_zero hpos
    · rintro (hs | hgt)
      · nomatch hs
      · exact absurd hgt (Nat.lt_irrefl 0)
    · nofun
  | accept hs hproof =>
    have hwait : awaitsTicket (v.rounds r).state = true := by rw [hs]; rfl
    have hne : (v.rounds r).state ≠ .aggregatePending := by rw [hs]; nofun
    have hzero : (v.rounds r).selectionCursor = 0 := by
      rw [hs] at hcursors
      exact hcursors.1
    refine h.keep hparts hpred hweight ?_ ?_ ?_ ?_ ?_ ?_ ?_ ?_ ?_ <;> simp only [hround]
    · exact fun hgt => absurd hzero (Nat.ne_of_gt hgt)
    · exact h.published hne
    · nofun
    · exact fun _ => hrem hwait hne
    · nofun
  | reject hs hproof =>
    have hwait : awaitsTicket (v.rounds r).state = true := by rw [hs]; rfl
    have hne : (v.rounds r).state ≠ .aggregatePending := by rw [hs]; nofun
    refine h.keep hparts hpred hweight ?_ ?_ ?_ ?_ ?_ ?_ ?_ ?_ ?_ <;>
      simp only [hround, implies_true]
    · exact h.published hne
    · exact fun _ => h.positive hwait
    · exact fun hor => h.ticket_lt (.inr (hor.resolve_left nofun))
    · nofun
  | @reconcile valid proof hs hproof =>
    rw [hs] at hcursors
    obtain ⟨hpos, hend, _⟩ := hcursors
    -- the reconciliation that is pending is true
    have hvalid : valid = true := by
      have htrue := h.reconciled (by omega) (by omega)
      have := eq_of_beq (Bool.and_eq_true_iff.1 hproof).2
      rw [← this, htrue]
    subst hvalid
    refine h.keep hparts hpred hweight ?_ ?_ ?_ ?_ ?_ ?_ ?_ ?_ ?_ <;>
      simp only [hround, implies_true]
    · exact h.published (by rw [hs]; nofun)
    · nofun
    · exact fun hor => h.ticket_lt (.inr (hor.resolve_left nofun))
    · nofun
  | settle hs =>
    refine h.keep hparts hpred hweight ?_ ?_ ?_ ?_ ?_ ?_ ?_ ?_ ?_ <;>
      simp only [hround, implies_true]
    · exact h.published (by rw [hs]; nofun)
    · nofun
    · exact fun hor => h.ticket_lt (.inr (hor.resolve_left nofun))
    · nofun
  | rollForward hs =>
    have hs := hs.resolve_right h.not_failed
    refine h.keep hparts hpred hweight ?_ ?_ ?_ ?_ ?_ ?_ ?_ ?_ ?_ <;>
      simp only [hround, implies_true]
    · exact h.published (by rw [hs]; nofun)
    · nofun
    · exact fun hor => h.ticket_lt (.inr (hor.resolve_left nofun))
    · nofun

/-- A chunk of the selection keeps the draw exact. -/
theorem select {processed : Nat} {t : Tally Nat Nat Bool} (h : v.Drawn r)
    (hs : (v.rounds r).state = .ticketAccepted ∨ (v.rounds r).state = .winnerProcessing)
    (hcursors : (v.rounds r).state.Cursors (v.roundParticipants r).length
      (v.rounds r).selectionCursor (v.rounds r).allocationCursor)
    (hnodup : (v.roundParticipants r).Nodup)
    (hsnapshot : (v.rounds r).participantCountSnapshot = (v.roundParticipants r).length)
    (haggregate : (v.rounds r).aggregateTwab = ((v.roundParticipants r).map (v.weight r)).sum)
    (hlt : (v.rounds r).aggregateTwab < 2 ^ 128)
    (hweight : ∀ a ∈ v.roundParticipants r, weightOf Fhe.plain r v a = v.weight r a)
    (ht : t = (v.startTally Fhe.plain r).run Fhe.plain (v.rounds r).acceptedTicket
      (weightOf Fhe.plain r v)
      (((v.roundParticipants r).drop (v.rounds r).selectionCursor).take processed))
    (hround : v'.rounds r = selectedRound Fhe.plain r processed t v)
    (hparts : v'.roundParticipants r = v.roundParticipants r)
    (hpred : v'.winnerPredicate r = t.predicate) (hsame : v'.weight r = v.weight r) :
    v'.Drawn r := by
  have hpublished := h.published (by rcases hs with h | h <;> rw [h] <;> rintro ⟨⟩)
  -- the chunk continues the tally of the participants before the cursor
  have hstart : Tallied (v.weight r) ((v.roundParticipants r).take (v.rounds r).selectionCursor)
      (v.rounds r).acceptedTicket (v.startTally Fhe.plain r) := by
    rcases hs with hs | hs
    · rw [hs] at hcursors
      rw [hcursors.1, List.take_zero, startTally, if_pos hs]
      exact .nil rfl rfl
    · have hpos : 0 < (v.rounds r).selectionCursor := by
        rw [hs] at hcursors
        exact hcursors.1
      rw [startTally, if_neg (by rw [hs]; rintro ⟨⟩)]
      exact h.tallied hpos
  have htake : (v.roundParticipants r).take (v.rounds r).selectionCursor ++
      ((v.roundParticipants r).drop (v.rounds r).selectionCursor).take processed =
        (v.roundParticipants r).take ((v.rounds r).selectionCursor + processed) :=
    List.take_add.symm
  have hsum : (((v.roundParticipants r).take
      ((v.rounds r).selectionCursor + processed)).map (v.weight r)).sum ≤
        (v.rounds r).aggregateTwab := by
    rw [haggregate]
    exact ((List.take_sublist _ _).map _).sum_le_sum fun _ _ => Nat.zero_le _
  have htally : Tallied (v.weight r) ((v.roundParticipants r).take
      ((v.rounds r).selectionCursor + processed)) (v.rounds r).acceptedTicket t := by
    rw [ht, Tally.run_congr (g := v.weight r) fun a ha => hweight a
      (List.mem_of_mem_drop (List.mem_of_mem_take ha))]
    rw [← htake] at hsum ⊢
    exact hstart.run _ (htake ▸ (List.take_sublist _ _).nodup hnodup) (by omega)
  have hticket := h.ticket_lt (by
    rcases hs with hs | hs
    · exact .inl hs
    · rw [hs] at hcursors
      exact .inr hcursors.1)
  -- everything but the state and the reconciliation is the same in both branches
  obtain ⟨h1, h2, h3, h4, h5, h6⟩ : (v'.rounds r).publicAggregateTwab =
      (v.rounds r).publicAggregateTwab ∧ (v'.rounds r).aggregateTwab =
      (v.rounds r).aggregateTwab ∧ (v'.rounds r).acceptedTicket = (v.rounds r).acceptedTicket ∧
      (v'.rounds r).selectionCursor = (v.rounds r).selectionCursor + processed ∧
      v'.tally r = t ∧ ((v'.rounds r).state = .winnerProcessing ∨
        (v'.rounds r).state = .reconciliationPending) := by
    rw [tally, hround, hpred, selectedRound]
    split_ifs
    · exact ⟨rfl, rfl, rfl, rfl, rfl, .inr rfl⟩
    · exact ⟨rfl, rfl, rfl, rfl, rfl, .inl rfl⟩
  constructor
  · rw [h1, h2]
    exact fun _ => hpublished
  · rcases h6 with h6 | h6 <;> rw [h6] <;> rintro ⟨⟩
  · rw [h1, h3]
    exact fun _ => hticket
  · rw [h3, h4, h5, hparts, hsame]
    exact fun _ => htally
  · rw [h4, hparts]
    intro _ hend
    -- the traversal is complete
    rw [hround, selectedRound, if_pos (hend.trans hsnapshot.symm)]
    have hall : (v.roundParticipants r).take ((v.rounds r).selectionCursor + processed) =
      v.roundParticipants r := by rw [hend, List.take_length]
    rw [hall] at htally
    have hcum := htally.cumulative
    have hwin := htally.winners
    rw [← haggregate, ← hpublished] at hcum hwin
    rw [if_pos hticket] at hwin
    rw [← hpublished] at hlt
    simp only [hcum, hwin, Fhe.plain_asEuint128 hlt, Fhe.plain_asEuint64 (n := 1) (by decide)]
    rw [Fhe.plain_and, Fhe.plain_eq128, decide_eq_true rfl, Bool.true_and]
    rfl
  · rcases h6 with h6 | h6 <;> rw [h6] <;> rintro ⟨⟩

end Drawn

end Vault

/-! ## Every step keeps the draws exact -/

section

variable {X : Type} {E : Externals Nat Bool X} {O : Observables X} {cfg : Config}
  {w w' : PlainWorld X} {sender : Address}

namespace World

/-- The draws of the closed rounds are exact. -/
def Drawn (w : PlainWorld X) : Prop :=
  ∀ r, 0 < r → r < w.vault.activeRoundId → w.vault.Drawn r

/-- The aggregate of a closed round is a weight that can be drawn from. -/
theorem aggregate_le (hcfg : Deployed E cfg) (hT : w.vault.Timed cfg w.now) {r : Nat}
    (hr : 0 < r) (hlt : r < w.vault.activeRoundId) :
    (w.vault.rounds r).aggregateTwab ≤ MAX_AGGREGATE_TWAB := by
  refine (hT.closed r hr hlt).aggregate_le.trans ?_
  refine (Nat.mul_le_mul_left _ hcfg.duration_le).trans ?_
  decide

theorem aggregate_lt (hcfg : Deployed E cfg) (hT : w.vault.Timed cfg w.now) {r : Nat}
    (hr : 0 < r) (hlt : r < w.vault.activeRoundId) :
    (w.vault.rounds r).aggregateTwab < 2 ^ 128 :=
  (aggregate_le hcfg hT hr hlt).trans_lt (by decide)

/-- The encrypted weight of a participant of a closed round. -/
theorem roundWeight_closed (hT : w.vault.Timed cfg w.now) {r : Nat} (hr : 0 < r)
    (hlt : r < w.vault.activeRoundId) {a : Address} (ha : a ∈ w.vault.roundParticipants r) :
    w.vault.roundWeight Fhe.plain r a = .ok (w.vault.weight r a) :=
  Vault.roundWeight_eq (hT.recorded a) (hT.closed r hr hlt).closes_lt
    ((hT.closed r hr hlt).start_le a ha)

theorem exec_drawn (hsender : cfg.External sender) (hcfg : Deployed E cfg)
    (hB : w.Bonded Fhe.plain cfg) (hT : w.vault.Timed cfg w.now) (h : w.Drawn)
    {c : Call Nat Nat Bool} (hop : exec Fhe.plain E cfg sender w c = .ok w') : w'.Drawn := by
  intro r hr hlt'
  have hsettles := hB.settling r
  have hstep := exec_roundStep hsender hB.shape hop r
  have hweight : r < w.vault.activeRoundId → w'.vault.weight r = w.vault.weight r :=
    fun hlt => exec_weight hsender hB.shape hT hop hr hlt
  have hsnapshot : r < w.vault.activeRoundId → (w.vault.rounds r).participantCountSnapshot =
      (w.vault.roundParticipants r).length := fun hlt =>
    hsettles.snapshot (hB.shape.closed r hr hlt).1 (hB.shape.closed r hr hlt).2
  cases hstep with
  | same hround hparts hpred hactive =>
    have hlt : r < w.vault.activeRoundId := by omega
    exact (h r hr hlt).congr hround hparts hpred (hweight hlt)
  | accrue hra _ _ _ _ hactive => omega
  | close hra hround hparts hpred hactive =>
    -- a round that just closed has no tally
    have hcursors := hsettles.cursors
    have hopen := hB.shape.active_open
    rw [← hra] at hopen
    rw [Round.progress, hopen] at hcursors
    have hcursor : (w'.vault.rounds r).selectionCursor = 0 := by
      rw [hround]
      rw [hra] at hcursors
      exact hcursors.1
    have hstate : (w'.vault.rounds r).state = .aggregatePending := by rw [hround]; rfl
    constructor <;> simp only [hstate, hcursor, Nat.lt_irrefl, or_false, false_imp_iff]
    · exact fun hne => absurd rfl hne
    · rintro ⟨⟩
    · rintro ⟨⟩
    · rintro ⟨⟩
  | opened hra _ _ _ hactive => omega
  | move hmove hparts hpred hactive =>
    rw [hactive] at hlt'
    exact (h r hr hlt').move hmove hparts hpred (hweight hlt') hsettles.cursors rfl
      (aggregate_lt hcfg hT hr hlt')
  | select hs _ _ _ ht hround hparts hpred hactive =>
    rw [hactive] at hlt'
    exact (h r hr hlt').select hs hsettles.cursors hsettles.nodup (hsnapshot hlt')
      (hT.closed r hr hlt').aggregate_eq (aggregate_lt hcfg hT hr hlt')
      (fun a ha => Vault.weightOf_eq (roundWeight_closed hT hr hlt' ha)) ht hround hparts hpred
      (hweight hlt')
  | @allocate _ reserved hs _ _ hround hparts hpred hactive =>
    rw [hactive] at hlt'
    have hd := h r hr hlt'
    refine hd.keep hparts hpred (hweight hlt') ?_ ?_ ?_ ?_ ?_ ?_ ?_ ?_ ?_ <;>
      simp only [hround, implies_true]
    · exact hd.published (by rcases hs with h | h <;> rw [h] <;> rintro ⟨⟩)
    · split_ifs <;> rintro ⟨⟩
    · refine fun hor => hd.ticket_lt (.inr (hor.resolve_left ?_))
      split_ifs <;> rintro ⟨⟩
    · split_ifs <;> rintro ⟨⟩

theorem step_drawn (hcfg : Deployed E cfg) (hB : w.Bonded Fhe.plain cfg)
    (hT : w.vault.Timed cfg w.now) (h : w.Drawn) {l : Label Nat Nat Bool X}
    (hstep : Step Fhe.plain E cfg w l w') : w'.Drawn := by
  cases l with
  | call sender c => exact exec_drawn hstep.1 hcfg hB hT h hstep.2
  | tick now =>
    obtain ⟨_, rfl⟩ := hstep
    exact h
  | thirdParty ext =>
    obtain ⟨_, rfl⟩ := hstep
    exact h
  | forceNative amount =>
    obtain rfl := hstep
    exact h

/-- **The draws of a run.**  In every reachable state the draw of every closed round is exact. -/
theorem reachable_drawn (hE : E.Lawful O cfg.vault cfg.asset)
    (h : (system Fhe.plain E cfg).Reachable w) : w.Drawn := by
  refine TransitionSystem.Reachable.invariant (I := Drawn) ?_ ?_ h
  · rintro w ⟨nativeBalance, now, x, hinit⟩ r hr hlt
    obtain ⟨_, _, _, gs, rfl⟩ := construct_ok hinit
    have hlt : r < 1 := hlt
    omega
  · intro w l w' hw hD hstep
    obtain ⟨hcfg, _, hT⟩ := reachable_timed hE hw
    exact step_drawn hcfg (reachable_bonded hw) hT hD hstep

/-- **Selection always reconciles.**  When the traversal of a round is complete, the weights of its
participants, each the difference of two cumulatives, add up to the aggregate that its close
accrued and its finalization published, exactly one winner was counted, and the reconciliation is
true.  No round ever fails its reconciliation. -/
theorem selection_reconciles (hE : E.Lawful O cfg.vault cfg.asset)
    (h : (system Fhe.plain E cfg).Reachable w) (r : Nat) :
    (w.vault.rounds r).state ≠ .reconciliationFailed ∧
    (0 < (w.vault.rounds r).selectionCursor →
      (w.vault.rounds r).selectionCursor = (w.vault.rounds r).participantCountSnapshot →
        (∃ start fin : Address → Nat,
          (∀ a ∈ w.vault.roundParticipants r,
            w.vault.cumulativeAt Fhe.plain a (w.vault.eligibilityStart r a) = .ok (start a) ∧
            w.vault.cumulativeAt Fhe.plain a (w.vault.rounds r).closesAt = .ok (fin a) ∧
            start a ≤ fin a) ∧
          ((w.vault.roundParticipants r).map fun a => fin a - start a).sum =
            (w.vault.rounds r).selectionCumulative) ∧
        (w.vault.rounds r).selectionCumulative = (w.vault.rounds r).eligibleCumulative ∧
        (w.vault.rounds r).eligibleCumulative = (w.vault.rounds r).aggregateTwab ∧
        (w.vault.rounds r).aggregateTwab = (w.vault.rounds r).publicAggregateTwab ∧
        (w.vault.rounds r).encryptedWinnerCount = 1 ∧
        (w.vault.rounds r).reconciliationValid = true) := by
  obtain ⟨hcfg, hB, hT⟩ := reachable_timed hE h
  have hsettles := (reachable_bonded h).settling r
  have hD := reachable_drawn hE h
  have hcursors := hsettles.cursors
  rw [Round.progress] at hcursors
  -- only a closed round has a cursor or a failed reconciliation
  have hclosed : (w.vault.rounds r).state = .reconciliationFailed ∨
      0 < (w.vault.rounds r).selectionCursor → 0 < r ∧ r < w.vault.activeRoundId := by
    intro hor
    refine hB.shape.closed_of_state (fun hs => ?_) fun hs => ?_
    · rw [hs] at hor hcursors
      rcases hor with hs | hpos
      · cases hs
      · exact absurd hcursors.1 (Nat.ne_of_gt hpos)
    · rw [hs] at hor hcursors
      rcases hor with hs | hpos
      · cases hs
      · exact absurd hcursors.1 (Nat.ne_of_gt hpos)
  refine ⟨fun hs => ?_, fun hpos hend => ?_⟩
  · obtain ⟨hr, hlt⟩ := hclosed (.inl hs)
    exact (hD r hr hlt).not_failed hs
  · obtain ⟨hr, hlt⟩ := hclosed (.inr hpos)
    have hd := hD r hr hlt
    have hC := hT.closed r hr hlt
    have hlength : (w.vault.rounds r).selectionCursor = (w.vault.roundParticipants r).length :=
      hend.trans (hsettles.snapshot (hB.shape.closed r hr hlt).1 (hB.shape.closed r hr hlt).2)
    have htally := hd.tallied hpos
    rw [hlength, List.take_length] at htally
    have hcum : (w.vault.rounds r).selectionCumulative = (w.vault.rounds r).aggregateTwab :=
      htally.cumulative.trans hC.aggregate_eq.symm
    have hpublished := hd.published fun hs => by
      rw [hs] at hcursors
      exact absurd hcursors.1 (Nat.ne_of_gt hpos)
    have hticket := hd.ticket_lt (.inr hpos)
    have hwinners : (w.vault.rounds r).encryptedWinnerCount = 1 := by
      refine htally.winners.trans (if_pos ?_)
      rw [← hC.aggregate_eq, ← hpublished]
      exact hticket
    refine ⟨⟨fun a => balanceSum (w.vault.observations a) (w.vault.eligibilityStart r a),
      fun a => balanceSum (w.vault.observations a) (w.vault.rounds r).closesAt, fun a ha => ?_,
      ?_⟩, hcum.trans hC.frozen.symm, hC.frozen, hpublished.symm, hwinners,
      hd.reconciled hpos hlength⟩
    · have hle := hC.start_le a ha
      refine ⟨Vault.cumulativeAt_eq (hT.recorded a) (hle.trans_lt hC.closes_lt),
        Vault.cumulativeAt_eq (hT.recorded a) hC.closes_lt, ?_⟩
      exact Finset.sum_le_sum_of_subset (Finset.range_subset_range.2 hle)
    · rw [hcum, hC.aggregate_eq]
      refine congrArg List.sum (List.map_congr_left fun a ha => ?_)
      exact (sum_Ico_eq_sub_range (hC.start_le a ha)).symm

/-- The round of the script has reconciled. -/
theorem selection_reconciles_script : ∃ w, Demo.Ends w ∧
    (w.vault.rounds 1).state ≠ .reconciliationFailed ∧
    (w.vault.rounds 1).selectionCursor = 2 ∧
    w.vault.roundParticipants 1 = [Demo.alice, Demo.bob] ∧
    (∃ start fin : Address → Nat,
      (∀ a ∈ [Demo.alice, Demo.bob],
        w.vault.cumulativeAt Fhe.plain a (w.vault.eligibilityStart 1 a) = .ok (start a) ∧
        w.vault.cumulativeAt Fhe.plain a (w.vault.rounds 1).closesAt = .ok (fin a) ∧
        start a ≤ fin a) ∧
      (fin Demo.alice - start Demo.alice) + (fin Demo.bob - start Demo.bob) = 8192) ∧
    (w.vault.rounds 1).eligibleCumulative = 8192 ∧
    (w.vault.rounds 1).aggregateTwab = 8192 ∧
    (w.vault.rounds 1).publicAggregateTwab = 8192 ∧
    (w.vault.rounds 1).encryptedWinnerCount = 1 ∧
    (w.vault.rounds 1).reconciliationValid = true := by
  have hends : endsWith (fun w => decide ((w.vault.rounds 1).selectionCursor = 2 ∧
      (w.vault.rounds 1).participantCountSnapshot = 2 ∧
      (w.vault.rounds 1).selectionCumulative = 8192 ∧
      w.vault.roundParticipants 1 = [Demo.alice, Demo.bob]))
      (outcome Demo.cfg Demo.token 100 Demo.chain Demo.script) = true := by decide +kernel
  obtain ⟨w, hw, hcheck⟩ := exists_of_endsWith hends
  obtain ⟨hcursor, hsnapshot, hcumulative, hparts⟩ := of_decide_eq_true hcheck
  obtain ⟨hstate, hfinished⟩ := selection_reconciles Demo.lawful (outcome_reachable hw) 1
  obtain ⟨⟨start, fin, hweights, hsum⟩, heligible, haggregate, hpublic, hcount, hvalid⟩ :=
    hfinished (by omega) (by omega)
  rw [hparts] at hweights hsum
  rw [hcumulative] at hsum heligible
  rw [← heligible] at haggregate
  rw [← haggregate] at hpublic
  refine ⟨w, hw, hstate, hcursor, hparts, ⟨start, fin, hweights, ?_⟩, heligible.symm,
    haggregate.symm, hpublic.symm, hcount, hvalid⟩
  simpa using hsum

end World

end

end Leopold
