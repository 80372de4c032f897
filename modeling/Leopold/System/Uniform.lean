import Leopold.System.Selection
import Leopold.Reference.Models

/-!
# The draw is uniform

A candidate below the largest multiple of the total weight is accepted and its remainder is the
ticket, as in the reference model; every ticket is the remainder of equally many candidates, and
the selection gives every participant as many tickets as it has weight.
-/

namespace Leopold

open Lib

/-- The reference model accepts the candidates below the limit. -/
theorem mapCandidate_eq {c W : Nat} (hpos : 1 ≤ W) (hW : W < 2 ^ 128) (hc : c < 2 ^ 128) :
    mapCandidate c W = .ok (if c < 2 ^ 128 / W * W then some (c % W) else none) := by
  have hlimit : 2 ^ 128 / W * W ≤ 2 ^ 128 := Nat.div_mul_le_self _ _
  have hcandidate : ¬ c ≥ UINT128_DOMAIN := Nat.not_le.2 hc
  have htotal : ¬ (W = 0 ∨ W ≥ UINT128_DOMAIN) := by rw [UINT128_DOMAIN]; omega
  simp only [mapCandidate, rejectionParameters]
  rw [revertIf_of_not hcandidate, bind_ok, revertIf_of_not htotal, bind_ok, pure_eq_ok, bind_ok]
  by_cases hbelow : c < 2 ^ 128 / W * W
  · rw [if_pos hbelow, if_neg fun h => absurd h.2 (Nat.not_le.2 hbelow)]
    rfl
  · rw [if_neg hbelow, if_pos ⟨beq_false_of_ne (show 2 ^ 128 / W * W ≠ 2 ^ 128 by omega),
      Nat.not_lt.1 hbelow⟩]
    rfl

namespace Vault

variable {cfg : Config} {v v' : PlainVault} {r W c t : Nat} {a : Address}

/-! ## One draw -/

/-- `generateRandomCandidate` with the random number `candidate`, then `finalizeCandidateValidity`
with the validity it published where it published one. -/
def drawCandidate (cfg : Config) (roundId candidate : Nat) (v : PlainVault) :
    Except Revert PlainVault := do
  let v ← generateRandomCandidate Fhe.plain cfg roundId candidate v
  if (v.rounds roundId).state = .candidateValidityPending then
    finalizeCandidateValidity Fhe.plain cfg roundId
      (.encode (v.rounds roundId).candidateValid.toNat) ⟨true⟩ v
  else return v

/-- The draw of the candidate accepts it with ticket `t`. -/
def AcceptsTicket (cfg : Config) (v : PlainVault) (roundId candidate t : Nat) : Prop :=
  ∃ v', v.drawCandidate cfg roundId candidate = .ok v' ∧
    (v'.rounds roundId).state = .ticketAccepted ∧ (v'.rounds roundId).acceptedTicket = t

/-- The round waits for a candidate, its weight is `W` and another attempt can be counted. -/
structure AwaitsCandidate (v : PlainVault) (r W : Nat) : Prop where
  state : (v.rounds r).state = .aggregateFinalized ∨ (v.rounds r).state = .candidateRejected
  weight : (v.rounds r).publicAggregateTwab = W
  attempts : v.candidateAttempts r + 1 < 2 ^ 32

theorem decodeBool_encode (b : Bool) : (Cleartexts.encode b.toNat).decodeBool = .ok b := by
  cases b <;> rfl

variable (cfg) in
/-- The authentic finalization of a pending validity. -/
theorem finalizeCandidateValidity_authentic
    (hs : (v.rounds r).state = .candidateValidityPending) :
    ∃ v', finalizeCandidateValidity Fhe.plain cfg r
        (.encode (v.rounds r).candidateValid.toNat) ⟨true⟩ v = .ok v' ∧
      v'.rounds r = (if (v.rounds r).candidateValid then { v.rounds r with
          acceptedTicket := Fhe.plain.rem128 (v.rounds r).candidate
            (Fhe.plain.asEuint128 (v.rounds r).publicAggregateTwab)
          state := .ticketAccepted }
        else { v.rounds r with state := .candidateRejected }) := by
  have hproof : checkBooleanProof Fhe.plain (v.rounds r).candidateValid
      (.encode (v.rounds r).candidateValid.toNat) ⟨true⟩ = .ok (v.rounds r).candidateValid := by
    have hsigned : ¬ Fhe.plain.checkSignaturesBool (v.rounds r).candidateValid
        (v.rounds r).candidateValid ⟨true⟩ = false := by simp [Fhe.plain]
    rw [checkBooleanProof, decodeBool_encode, bind_ok, revertIf_of_not hsigned]
    rfl
  have hlength : ¬ (Cleartexts.encode (v.rounds r).candidateValid.toNat).length ≠ 32 :=
    not_not.2 rfl
  simp only [finalizeCandidateValidity, hproof, bind_ok]
  rw [revertIf_of_not (not_not.2 hs), bind_ok, revertIf_of_not hlength, bind_ok]
  by_cases hvalid : (v.rounds r).candidateValid = true
  · rw [if_neg (ne_false_of_eq_true hvalid), if_pos hvalid]
    exact ⟨_, rfl, setRound_rounds_self _ _⟩
  · rw [if_pos (Bool.eq_false_of_not_eq_true hvalid), if_neg hvalid]
    exact ⟨_, rfl, setRound_rounds_self _ _⟩

variable (cfg) in
/-- A candidate below the limit is accepted with its remainder, any other is rejected. -/
theorem drawCandidate_spec (h : v.AwaitsCandidate r W) (hpos : 1 ≤ W)
    (hle : W ≤ MAX_AGGREGATE_TWAB) (hc : c < 2 ^ 128) :
    ∃ v', v.drawCandidate cfg r c = .ok v' ∧
      if c < 2 ^ 128 / W * W then (v'.rounds r).state = .ticketAccepted ∧
        (v'.rounds r).acceptedTicket = c % W
      else (v'.rounds r).state = .candidateRejected := by
  obtain ⟨hs, rfl, hattempts⟩ := h
  generalize hW : (v.rounds r).publicAggregateTwab = W at hpos hle
  have hlt : W < 2 ^ 128 := hle.trans_lt (by decide)
  have hlimit : 2 ^ 128 / W * W ≤ 2 ^ 128 := Nat.div_mul_le_self _ _
  have hguard : ¬ ((v.rounds r).state ≠ .aggregateFinalized ∧
      (v.rounds r).state ≠ .candidateRejected) := fun hne => hs.elim hne.1 hne.2
  have hdomain : ¬ ((v.rounds r).publicAggregateTwab = 0 ∨
      (v.rounds r).publicAggregateTwab > MAX_AGGREGATE_TWAB) := by omega
  have hattempt : add 32 (v.candidateAttempts r) 1 = .ok (v.candidateAttempts r + 1) :=
    if_pos hattempts
  simp only [drawCandidate, generateRandomCandidate, hattempt, bind_ok]
  rw [revertIf_of_not hguard, bind_ok, revertIf_of_not hdomain, bind_ok]
  by_cases hall : 2 ^ 128 / W * W = 2 ^ 128
  · -- every candidate is accepted at once
    rw [if_pos (hW.symm ▸ hall), pure_eq_ok, bind_ok]
    generalize hv₁ : acceptTicket _ _ _ _ _ _ = v₁
    have hround : v₁.rounds r = { v.rounds r with
        candidate := c
        acceptedTicket := Fhe.plain.rem128 c
          (Fhe.plain.asEuint128 (v.rounds r).publicAggregateTwab)
        state := .ticketAccepted } := by
      rw [← hv₁]
      exact setRound_rounds_self _ _
    rw [if_neg (by rw [hround]; rintro ⟨⟩), pure_eq_ok, hall]
    refine ⟨v₁, rfl, ?_⟩
    rw [if_pos hc, hround]
    refine ⟨rfl, ?_⟩
    rw [hW, Fhe.plain_rem128, Fhe.plain_asEuint128 hlt]
  · -- the comparison with the limit is published and finalized
    rw [if_neg (hW.symm ▸ hall), pure_eq_ok, bind_ok]
    generalize hv₁ : grant (setRound _ r _) _ = v₁
    have hround : v₁.rounds r = { v.rounds r with
        candidate := c
        candidateValid := Fhe.plain.lt128 c (Fhe.plain.asEuint128
          (2 ^ 128 / (v.rounds r).publicAggregateTwab * (v.rounds r).publicAggregateTwab))
        state := .candidateValidityPending } := by
      rw [← hv₁]
      exact setRound_rounds_self _ _
    have hvalid : (v₁.rounds r).candidateValid = decide (c < 2 ^ 128 / W * W) := by
      rw [hround, hW, Fhe.plain_asEuint128 (by omega), Fhe.plain_lt128]
    rw [if_pos (by rw [hround])]
    obtain ⟨v', hv', hround'⟩ := finalizeCandidateValidity_authentic cfg (v := v₁) (r := r)
      (by rw [hround])
    refine ⟨v', hv', ?_⟩
    rw [hround', hvalid]
    by_cases hbelow : c < 2 ^ 128 / W * W
    · rw [if_pos hbelow, if_pos (decide_eq_true hbelow), hround]
      refine ⟨rfl, ?_⟩
      rw [hW, Fhe.plain_rem128, Fhe.plain_asEuint128 hlt]
    · rw [if_neg hbelow, if_neg (by simpa using hbelow)]

/-- The candidates that give ticket `t`. -/
theorem acceptsTicket_iff (h : v.AwaitsCandidate r W) (hpos : 1 ≤ W)
    (hle : W ≤ MAX_AGGREGATE_TWAB) (hc : c < 2 ^ 128) :
    v.AcceptsTicket cfg r c t ↔ c < 2 ^ 128 / W * W ∧ c % W = t := by
  obtain ⟨v', hv', hspec⟩ := drawCandidate_spec cfg h hpos hle hc
  rw [AcceptsTicket]
  simp only [hv', ok_eq_ok, exists_eq_left']
  by_cases hlt : c < 2 ^ 128 / W * W
  · rw [if_pos hlt] at hspec
    rw [hspec.1, hspec.2]
    exact and_congr_left' (iff_of_true rfl hlt)
  · rw [if_neg hlt] at hspec
    rw [hspec]
    exact iff_of_false (by rintro ⟨⟨⟩, _⟩) fun h => hlt h.1

/-! ## The selection for a ticket -/

/-- The complete traversal of the round when `ticket` is the accepted ticket. -/
def selectFor (cfg : Config) (roundId ticket : Nat) (v : PlainVault) :
    Except Revert PlainVault := do
  let v ← startSelection Fhe.plain cfg roundId (v.setRound roundId { v.rounds roundId with
    acceptedTicket := ticket
    state := .ticketAccepted })
  forParticipants (selectParticipant Fhe.plain cfg roundId) roundId 0
    (v.roundParticipants roundId).length v

variable (cfg) in
/-- The traversal picks exactly the participant that holds the ticket. -/
theorem selectFor_spec {f : Address → Nat} (hnodup : (v.roundParticipants r).Nodup)
    (hweight : ∀ a ∈ v.roundParticipants r, v.roundWeight Fhe.plain r a = .ok (f a))
    (hsum : ((v.roundParticipants r).map f).sum < 2 ^ 128) :
    ∃ v', v.selectFor cfg r t = .ok v' ∧ ∀ a ∈ v.roundParticipants r,
      v'.winnerPredicate r a = true ↔ Wins f (v.roundParticipants r) t a := by
  let v₁ := v.setRound r { v.rounds r with
    acceptedTicket := t
    state := .ticketAccepted }
  have hround₁ : v₁.rounds r = { v.rounds r with
      acceptedTicket := t
      state := .ticketAccepted } := setRound_rounds_self _ _
  obtain ⟨v₂, hstart⟩ : ∃ v₂, startSelection Fhe.plain cfg r v₁ = .ok v₂ :=
    ⟨_, if_pos (by rw [hround₁])⟩
  obtain ⟨gs, hv₂⟩ := ((startSelection_ok hstart).resolve_right fun h => by
    rw [hround₁] at h
    nomatch h.1).2
  have hround₂ : v₂.rounds r = { v₁.rounds r with
      state := .winnerProcessing
      selectionCumulative := Fhe.plain.asEuint128 0
      encryptedWinnerCount := Fhe.plain.asEuint64 0 } := by
    rw [hv₂]
    exact setRound_rounds_self _ _
  have hparts : v₂.roundParticipants r = v.roundParticipants r := by rw [hv₂]; rfl
  have hsame : ∀ a, v₂.roundWeight Fhe.plain r a = v.roundWeight Fhe.plain r a := fun a => by
    refine roundWeight_congr (by rw [hv₂]; rfl) (by rw [hv₂]; rfl) ?_
    rw [hround₂, hround₁]
  have hlength : 0 + (v.roundParticipants r).length ≤ (v₂.roundParticipants r).length := by
    rw [hparts, Nat.zero_add]
  have hweight₂ : ∀ a ∈ v₂.roundParticipants r, ∃ weight,
      v₂.roundWeight Fhe.plain r a = .ok weight := by
    rw [hparts]
    exact fun a ha => ⟨_, (hsame a).trans (hweight a ha)⟩
  obtain ⟨v', hloop⟩ := forParticipants_select_isOk cfg hlength hweight₂
  refine ⟨v', ?_, ?_⟩
  · rw [selectFor, hstart, bind_ok, hparts]
    exact hloop
  · obtain ⟨_, hlist⟩ := forParticipants_ok (fun a v v' h => by
      obtain ⟨_, _, hv'⟩ := selectParticipant_tally h
      rw [hv']
      rfl) hloop
    rw [List.drop_zero, hparts, List.take_length] at hlist
    obtain ⟨gs', _, hv'⟩ := forList_select hlist
    have hweightOf : ∀ a ∈ v.roundParticipants r, weightOf Fhe.plain r v₂ a = f a :=
      fun a ha => weightOf_eq ((hsame a).trans (hweight a ha))
    rw [Tally.run_congr hweightOf, hround₂, hround₁] at hv'
    have hnil : Tallied f [] t (v₂.tally r) := by
      refine .nil ?_ ?_ <;> rw [tally, hround₂] <;> rfl
    have htally := hnil.run (v.roundParticipants r) hnodup hsum
    have hpredicate : v'.winnerPredicate r =
        ((v₂.tally r).run Fhe.plain t f (v.roundParticipants r)).predicate := by
      rw [hv']
      exact Function.update_self ..
    rw [hpredicate]
    exact htally.predicate

/-- **The draw is uniform.**  Every candidate is accepted or rejected, with the ticket of the
reference model; each ticket below the weight `W` of the round is given by `2 ^ 128 / W`
candidates, at least half of the candidates are accepted, and the limit that is cast fits in 128
bits.  Where the participants hold the weight, each is picked for as many tickets as its own. -/
theorem draw_uniform (cfg : Config) (h : v.AwaitsCandidate r W) (hpos : 1 ≤ W)
    (hle : W ≤ MAX_AGGREGATE_TWAB) :
    (∀ c < 2 ^ 128, ∃ v', v.drawCandidate cfg r c = .ok v' ∧
      (((v'.rounds r).state = .ticketAccepted ∧
          mapCandidate c W = .ok (some (v'.rounds r).acceptedTicket)) ∨
        ((v'.rounds r).state = .candidateRejected ∧ mapCandidate c W = .ok none))) ∧
    (∀ t < W, {c | c < 2 ^ 128 ∧ v.AcceptsTicket cfg r c t}.ncard = 2 ^ 128 / W) ∧
    (2 ^ 128 / W * W ≠ 2 ^ 128 →
      Fhe.plain.asEuint128 (2 ^ 128 / W * W) = 2 ^ 128 / W * W) ∧
    2 ^ 127 ≤ {c | c < 2 ^ 128 ∧ ∃ t, v.AcceptsTicket cfg r c t}.ncard ∧
    ∀ f : Address → Nat, (v.roundParticipants r).Nodup →
      (∀ a ∈ v.roundParticipants r, v.roundWeight Fhe.plain r a = .ok (f a)) →
      ((v.roundParticipants r).map f).sum = W →
      ∀ a ∈ v.roundParticipants r, {t | t < W ∧ ∃ v', v.selectFor cfg r t = .ok v' ∧
        v'.winnerPredicate r a = true}.ncard = f a := by
  have hW : W < 2 ^ 128 := hle.trans_lt (by decide)
  have hlimit : 2 ^ 128 / W * W ≤ 2 ^ 128 := Nat.div_mul_le_self _ _
  refine ⟨fun c hc => ?_, fun t ht => ?_, fun hne => ?_, ?_, ?_⟩
  · obtain ⟨v', hv', hspec⟩ := drawCandidate_spec cfg h hpos hle hc
    refine ⟨v', hv', ?_⟩
    rw [mapCandidate_eq hpos hW hc]
    split_ifs at hspec ⊢
    · exact .inl ⟨hspec.1, congrArg _ (congrArg _ hspec.2.symm)⟩
    · exact .inr ⟨hspec, rfl⟩
  · rw [← ncard_mod_eq (2 ^ 128 / W) ht]
    congr 1
    ext c
    simp only [Set.mem_ofPred_eq]
    constructor
    · rintro ⟨hc, haccepts⟩
      exact (acceptsTicket_iff h hpos hle hc).1 haccepts
    · rintro ⟨hc, hmod⟩
      exact ⟨hc.trans_le hlimit, (acceptsTicket_iff h hpos hle (hc.trans_le hlimit)).2 ⟨hc, hmod⟩⟩
  · exact Fhe.plain_asEuint128 (Nat.lt_of_le_of_ne hlimit hne)
  · have hset : {c | c < 2 ^ 128 ∧ ∃ t, v.AcceptsTicket cfg r c t} =
        ↑(Finset.range (2 ^ 128 / W * W)) := by
      ext c
      simp only [Set.mem_ofPred_eq, Finset.coe_range, Set.mem_Iio]
      constructor
      · rintro ⟨hc, t, haccepts⟩
        exact ((acceptsTicket_iff h hpos hle hc).1 haccepts).1
      · exact fun hc => ⟨hc.trans_le hlimit, _,
          (acceptsTicket_iff h hpos hle (hc.trans_le hlimit)).2 ⟨hc, rfl⟩⟩
    rw [hset, Set.ncard_coe_finset, Finset.card_range]
    exact half_le_limit (2 ^ 127) hpos (hle.trans (by decide))
  · intro f hnodup hweight hsum a ha
    rw [← ncard_wins (f := f) hnodup ha]
    congr 1
    ext t
    obtain ⟨v', hv', hwins⟩ := selectFor_spec cfg (t := t) hnodup hweight (by omega)
    simp only [Set.mem_ofPred_eq, hv', ok_eq_ok, exists_eq_left', hwins a ha]
    exact and_iff_right_of_imp fun hwin => hsum ▸ hwin.lt

/-- A vault whose first round waits for a candidate and weighs three. -/
def awaiting : PlainVault :=
  (unset Fhe.plain).setRound 1 { Round.unset Fhe.plain with
    state := .aggregateFinalized
    publicAggregateTwab := 3 }

/-- The second of three tickets is drawn by a third of the candidates. -/
theorem draw_uniform_three :
    {c | c < 2 ^ 128 ∧ awaiting.AcceptsTicket Demo.cfg 1 c 1}.ncard = 2 ^ 128 / 3 := by
  have hawaits : awaiting.AwaitsCandidate 1 3 := ⟨.inl rfl, rfl, by decide⟩
  exact (draw_uniform Demo.cfg hawaits (by decide) (by decide)).2.1 1 (by decide)

end Vault

namespace World

variable {X : Type} {E : Externals Nat Bool X} {O : Observables X} {cfg : Config}
  {w : PlainWorld X} {r : Nat}

/-- The rounds of a run that wait for a candidate meet the conditions of a uniform draw: their
published weight is in the domain, and it is the sum of the weights of distinct participants. -/
theorem reachable_awaits (hE : E.Lawful O cfg.vault cfg.asset)
    (h : (system Fhe.plain E cfg).Reachable w)
    (hs : (w.vault.rounds r).state = .aggregateFinalized ∨
      (w.vault.rounds r).state = .candidateRejected) :
    1 ≤ (w.vault.rounds r).publicAggregateTwab ∧
    (w.vault.rounds r).publicAggregateTwab ≤ MAX_AGGREGATE_TWAB ∧
    (w.vault.roundParticipants r).Nodup ∧
    (∀ a ∈ w.vault.roundParticipants r,
      w.vault.roundWeight Fhe.plain r a = .ok (w.vault.weight r a)) ∧
    ((w.vault.roundParticipants r).map (w.vault.weight r)).sum =
      (w.vault.rounds r).publicAggregateTwab := by
  obtain ⟨hcfg, hB, hT⟩ := reachable_timed hE h
  obtain ⟨hr, hlt⟩ : 0 < r ∧ r < w.vault.activeRoundId :=
    hB.shape.closed_of_state (by rcases hs with hs | hs <;> rw [hs] <;> nofun)
      (by rcases hs with hs | hs <;> rw [hs] <;> nofun)
  have hd := reachable_drawn hE h r hr hlt
  have hpublished := hd.published (by rcases hs with hs | hs <;> rw [hs] <;> nofun)
  refine ⟨hd.positive (by rcases hs with hs | hs <;> rw [hs] <;> rfl), ?_,
    ((reachable_bonded h).settling r).nodup, fun a ha => roundWeight_closed hT hr hlt ha, ?_⟩
  · rw [hpublished]
    exact aggregate_le hcfg hT hr hlt
  · rw [hpublished]
    exact (hT.closed r hr hlt).aggregate_eq.symm

end World

end Leopold
