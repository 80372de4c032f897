import Leopold.Vault.JointInversion

/-!
# Handles as terms

The coprocessor derives a handle from the operation that makes it and from the handles it is
applied to.  `Fhe.terms` keeps this derivation: two handles are the same exactly when they were
computed in the same way.  What the vault writes to each of its slots has a form of its own, which
tells the slots apart that hold secrets from those that accounts may read.
-/

namespace Leopold

open Lib

mutual

/-- How a handle of a 64-bit integer was computed.  `fresh` handles come from other contracts. -/
inductive Term64
  | null
  | fresh (id : Nat)
  | trivial (n : Nat)
  | ofEbool (a : TermBool)
  | add (a b : Term64)
  | sub (a b : Term64)
  | mul (a b : Term64)
  | div (a b : Term64)
  | select (c : TermBool) (a b : Term64)

inductive Term128
  | null
  | random (id : Nat)
  | trivial (n : Nat)
  | widen (a : Term64)
  | add (a b : Term128)
  | sub (a b : Term128)
  | mul (a b : Term128)
  | rem (a b : Term128)

inductive TermBool
  | null
  | trivial (b : Bool)
  | le64 (a b : Term64)
  | lt64 (a b : Term64)
  | gt64 (a b : Term64)
  | eq64 (a b : Term64)
  | ge128 (a b : Term128)
  | lt128 (a b : Term128)
  | gt128 (a b : Term128)
  | eq128 (a b : Term128)
  | and (a b : TermBool)

end

/-- The answers of the checks of decryption proofs, and which handles count as initialized. -/
structure Checks where
  isInitialized : Term64 → Bool
  checkSignatures64 : Term64 → Nat → DecryptionProof → Bool
  checkSignatures128 : Term128 → Nat → DecryptionProof → Bool
  checkSignaturesBool : TermBool → Bool → DecryptionProof → Bool

/-- Every handle is the term that computes it. -/
def Fhe.terms (checks : Checks) : Fhe Term64 Term128 TermBool where
  null64 := .null
  null128 := .null
  nullBool := .null
  isInitialized := checks.isInitialized
  asEuint64 := .trivial
  asEuint128 := .trivial
  asEbool := .trivial
  widen := .widen
  ofEbool := .ofEbool
  add64 := .add
  sub64 := .sub
  mul64 := .mul
  div64 := .div
  le64 := .le64
  lt64 := .lt64
  gt64 := .gt64
  eq64 := .eq64
  select64 := .select
  add128 := .add
  sub128 := .sub
  mul128 := .mul
  rem128 := .rem
  ge128 := .ge128
  lt128 := .lt128
  gt128 := .gt128
  eq128 := .eq128
  and := .and
  checkSignatures64 := checks.checkSignatures64
  checkSignatures128 := checks.checkSignatures128
  checkSignaturesBool := checks.checkSignaturesBool

/-! ## The forms of the slots -/

/-- The handle a sum or a difference started from. -/
def Term64.base : Term64 → Term64
  | .add a _ => a.base
  | .sub a _ => a.base
  | t => t

/-- A total of the ledger: it started as the encryption of a public number. -/
def Term64.Total (t : Term64) : Prop := ∃ n, t.base = .trivial n

/-- The balance or the winnings of an account. -/
inductive Term64.Own : Term64 → Prop
  | null : Own .null
  /-- An amount that was accepted or saved. -/
  | saved {t a b : Term64} {c : TermBool} (h : Own t) : Own (.add t (.select c a b))
  /-- A prize without the part of it that was saved. -/
  | won {t a b s : Term64} {c : TermBool} (h : Own t) : Own (.add t (.sub (.select c a b) s))
  | paid {t : Term64} {id : Nat} (h : Own t) : Own (.sub t (.fresh id))

/-- The number of winners of a selection. -/
inductive Term64.Count : Term64 → Prop
  | null : Count .null
  | zero {n : Nat} : Count (.trivial n)
  | add {t : Term64} {b : TermBool} : Count (.add t (.ofEbool b))

/-- The prize a round holds back. -/
inductive Term64.Reserve : Term64 → Prop
  | null : Reserve .null
  | zero {n : Nat} : Reserve (.trivial n)
  | pooled {t u : Term64} (h : u.Total) : Reserve (.add t u)
  | awarded {t a b : Term64} {c : TermBool} : Reserve (.sub t (.select c a b))

/-- The amount of a strategy epoch. -/
inductive Term64.Amount : Term64 → Prop
  | null : Amount .null
  | select {c : TermBool} {a b : Term64} : Amount (.select c a b)

/-- The accrued weight of a round. -/
inductive Term128.Accrual : Term128 → Prop
  | null : Accrual .null
  | zero {n : Nat} : Accrual (.trivial n)
  | add {t a b : Term128} : Accrual (.add t (.mul a b))

/-- A candidate that was drawn. -/
inductive Term128.Random : Term128 → Prop
  | null : Random .null
  | random {id : Nat} : Random (.random id)

inductive Term128.Ticket : Term128 → Prop
  | null : Ticket .null
  | rem {a b : Term128} : Ticket (.rem a b)

/-- The end of the interval of a participant in the selection. -/
inductive Term128.Interval : Term128 → Prop
  | null : Interval .null
  | zero {n : Nat} : Interval (.trivial n)
  | add {t a b : Term128} : Interval (.add t (.sub a b))

/-- Whether a candidate is below the limit. -/
inductive TermBool.Validity : TermBool → Prop
  | null : Validity .null
  | lt128 {a b : Term128} : Validity (.lt128 a b)

/-- Whether a selection reconciles. -/
inductive TermBool.Reconciled : TermBool → Prop
  | null : Reconciled .null
  | and {a b : Term128} {c : TermBool} : Reconciled (.and (.eq128 a b) c)

/-- Whether a participant won. -/
inductive TermBool.Winner : TermBool → Prop
  | null : Winner .null
  | and {a b c : TermBool} : Winner (.and (.and a b) c)

namespace Term64

variable {a b : Term64}

theorem Total.add (h : a.Total) : (a.add b).Total := h

theorem Total.sub (h : a.Total) : (a.sub b).Total := h

theorem total_trivial (n : Nat) : (trivial n).Total := ⟨n, rfl⟩

theorem Own.base_eq (h : a.Own) : a.base = .null := by
  induction h with
  | null => rfl
  | saved _ ih => exact ih
  | won _ ih => exact ih
  | paid _ ih => exact ih

end Term64

/-- The handles of a round have their forms. -/
structure Round.Shaped (round : Round Term64 Term128 TermBool) : Prop where
  aggregateTwab : round.aggregateTwab.Accrual
  candidate : round.candidate.Random
  candidateValid : round.candidateValid.Validity
  acceptedTicket : round.acceptedTicket.Ticket
  reservedPrize : round.reservedPrize.Reserve
  selectionCumulative : round.selectionCumulative.Interval
  encryptedWinnerCount : round.encryptedWinnerCount.Count
  reconciliationValid : round.reconciliationValid.Reconciled
  eligibleCumulative : round.eligibleCumulative.Accrual

/-- The handles of the vault have their forms. -/
structure Vault.Shaped (v : Vault Term64 Term128 TermBool) : Prop where
  rounds : ∀ r, (v.rounds r).Shaped
  principal : ∀ a, (v.principal a).Own
  winnings : ∀ a, (v.winnings a).Own
  winnerPredicate : ∀ r a, (v.winnerPredicate r a).Winner
  totalPrincipal : v.totalPrincipal.Total
  liquidPrincipal : v.liquidPrincipal.Total
  deployedPrincipal : v.deployedPrincipal.Total
  principalInTransition : v.principalInTransition.Total
  strategyShortfall : v.strategyShortfall.Total
  liquidPrizeAssets : v.liquidPrizeAssets.Total
  realizedSurplus : v.realizedSurplus.Total
  reservedPrize : v.reservedPrize.Total
  winningsLiability : v.winningsLiability.Total
  uncommittedYield : v.uncommittedYield.Total
  strategyEpochs : ∀ id, (v.strategyEpochs id).amount.Amount

variable {X : Type} {checks : Checks} {E : Externals Term64 TermBool X} {cfg : Config}

theorem Round.Shaped.accrued {round : Round Term64 Term128 TermBool} (h : round.Shaped)
    (t : Nat) : (Vault.accrued (Fhe.terms checks) round t).Shaped := by
  refine { h with eligibleCumulative := ?_ }
  unfold Vault.accrued Vault.accruedCumulative
  dsimp only
  split_ifs
  · exact h.eligibleCumulative
  · exact .add

namespace Vault

variable {v v' : Vault Term64 Term128 TermBool} {r : Nat} {a : Address}

namespace Shaped

theorem grant (h : v.Shaped) (gs : List (Grant Term64 Term128 TermBool)) : (v.grant gs).Shaped :=
  { h with }

theorem setRound {round : Round Term64 Term128 TermBool} (h : v.Shaped)
    (hround : round.Shaped) : (v.setRound r round).Shaped :=
  { h with
    rounds := (Function.forall_update_iff _ fun _ round => Round.Shaped round).2
      ⟨hround, fun s _ => h.rounds s⟩ }

theorem update_epoch {id : Nat} {epoch : StrategyEpoch Term64} (h : v.Shaped)
    (hepoch : epoch.amount.Amount) :
    ∀ s, (Function.update v.strategyEpochs id epoch s).amount.Amount :=
  (Function.forall_update_iff _ fun _ (epoch : StrategyEpoch Term64) => epoch.amount.Amount).2
    ⟨hepoch, fun s _ => h.strategyEpochs s⟩

theorem setEpoch {id : Nat} {epoch : StrategyEpoch Term64} (h : v.Shaped)
    (hepoch : epoch.amount.Amount) : (v.setEpoch id epoch).Shaped :=
  { h with strategyEpochs := h.update_epoch hepoch }

theorem own_update {f : Address → Term64} {t : Term64} (ht : t.Own) (hf : ∀ b, (f b).Own) :
    ∀ b, (Function.update f a t b).Own :=
  (Function.forall_update_iff f fun _ t => Term64.Own t).2 ⟨ht, fun b _ => hf b⟩

/-! ### The private functions -/

theorem accrueEligible {t : Nat} (h : v.Shaped)
    (hop : accrueEligible (Fhe.terms checks) cfg r t v = .ok v') : v'.Shaped := by
  obtain ⟨_, gs, rfl⟩ := accrueEligible_ok hop
  exact (h.setRound ((h.rounds r).accrued t)).grant gs

theorem checkpointUser {b : Term64} {t : Nat} (h : v.Shaped)
    (hop : checkpointUser (Fhe.terms checks) cfg a b t v = .ok v') : v'.Shaped := by
  obtain ⟨_, _, gs, _, rfl⟩ := checkpointUser_ok hop
  exact { h with }

theorem changeEligible {f : Term64 → Term64} {t : Nat} (h : v.Shaped)
    (hop : changeEligible (Fhe.terms checks) cfg a f t v = .ok v') : v'.Shaped := by
  rcases changeEligible_ok hop with ⟨_, rfl⟩ | ⟨_, _, gs, rfl⟩
  · exact h
  · refine Shaped.grant (h.setRound ?_) gs
    exact { (h.rounds v.activeRoundId).accrued t with }

theorem rollPrizeForward (h : v.Shaped)
    (hop : rollPrizeForward (Fhe.terms checks) cfg r v = .ok v') : v'.Shaped := by
  obtain ⟨_, gs, rfl⟩ := rollPrizeForward_ok hop
  refine Shaped.grant (Shaped.setRound ?_ ?_) gs
  · exact { h with reservedPrize := h.reservedPrize.sub }
  · exact { h.rounds r with reservedPrize := .zero }

theorem realizeSurplus {s : Term64} {n : Nat} (h : v.Shaped)
    (hop : World.realizeSurplus (Fhe.terms checks) cfg s n v = .ok v') : v'.Shaped := by
  obtain ⟨_, gs, rfl⟩ := realizeSurplus_ok hop
  exact { h with
    uncommittedYield := h.uncommittedYield.add
    realizedSurplus := h.realizedSurplus.add
    liquidPrizeAssets := h.liquidPrizeAssets.add }

theorem selectParticipant (h : v.Shaped)
    (hop : selectParticipant (Fhe.terms checks) cfg r a v = .ok v') : v'.Shaped := by
  obtain ⟨weight, gs, hweight, rfl⟩ := selectParticipant_ok hop
  -- the weight of a participant is the difference of two cumulatives
  simp only [roundWeight, seq_eq_ok, pure_eq_ok, ok_eq_ok] at hweight
  obtain ⟨_, _, _, _, rfl⟩ := hweight
  refine Shaped.grant (Shaped.setRound ?_ ?_) gs
  · refine { h with
      winnerPredicate := (Function.forall_update_iff _
        fun _ (p : Address → TermBool) => ∀ b, (p b).Winner).2
        ⟨?_, fun s _ => h.winnerPredicate s⟩ }
    exact (Function.forall_update_iff _ fun _ p => TermBool.Winner p).2
      ⟨.and, fun b _ => h.winnerPredicate r b⟩
  · exact { h.rounds r with
      selectionCumulative := .add
      encryptedWinnerCount := .add }

theorem allocateParticipant {now : Nat} (h : v.Shaped) (hr : r ≠ v.activeRoundId)
    (hop : allocateParticipant (Fhe.terms checks) cfg r now a v = .ok v') : v'.Shaped := by
  obtain ⟨_, _, _, obs, _, gs, _, rfl, rfl, _, rfl⟩ := allocateParticipant_ok hr hop
  refine Shaped.grant (Shaped.setRound (Shaped.setRound ?_ ?_) ?_) gs
  · exact { h with
      principal := own_update (.saved (h.principal a)) h.principal
      winnings := own_update (.won (h.winnings a)) h.winnings
      totalPrincipal := h.totalPrincipal.add
      liquidPrincipal := h.liquidPrincipal.add
      winningsLiability := h.winningsLiability.add
      liquidPrizeAssets := h.liquidPrizeAssets.sub
      reservedPrize := h.reservedPrize.sub }
  · exact { h.rounds v.activeRoundId with }
  · exact { h.rounds r with reservedPrize := .awarded }

/-! ### The entry points of the vault -/

theorem acceptBondRegistration {sender : Address} {now : Nat} (h : v.Shaped)
    (hop : acceptBondRegistration (Fhe.terms checks) cfg sender r a now v = .ok v') :
    v'.Shaped := by
  obtain ⟨_, _, _, _, _, _, gs, rfl⟩ := acceptBondRegistration_ok hop
  refine Shaped.grant (Shaped.setRound ?_ ?_) gs
  · exact { h with }
  · exact { (h.rounds r).accrued (uint64 now) with }

theorem onConfidentialTransferReceived {sender : Address} {n : Term64} {dataLength now : Nat}
    {accepted : TermBool} (h : v.Shaped)
    (hop : onConfidentialTransferReceived (Fhe.terms checks) cfg sender a n dataLength now v =
      .ok (v', accepted)) : v'.Shaped := by
  obtain ⟨_, _, _, v₁, v₂, gs, hcheck, hchange, rfl⟩ := onConfidentialTransferReceived_ok hop
  have h₁ := h.checkpointUser hcheck
  refine Shaped.grant (Shaped.changeEligible ?_ hchange) gs
  exact { h₁ with
    principal := own_update (.saved (h.principal a)) h₁.principal
    totalPrincipal := h₁.totalPrincipal.add
    liquidPrincipal := h₁.liquidPrincipal.add }

theorem recordWithdrawal {id now : Nat} (h : v.Shaped)
    (hop : recordWithdrawal (Fhe.terms checks) cfg a (.fresh id) now v = .ok v') :
    v'.Shaped := by
  obtain ⟨v₁, v₂, gs, hcheck, hchange, rfl⟩ := recordWithdrawal_ok hop
  have h₁ := h.checkpointUser hcheck
  refine Shaped.grant (Shaped.changeEligible ?_ hchange) gs
  exact { h₁ with
    principal := own_update (.paid (h.principal a)) h₁.principal
    totalPrincipal := h₁.totalPrincipal.sub
    liquidPrincipal := h₁.liquidPrincipal.sub }

theorem closeRound {now : Nat} (h : v.Shaped)
    (hop : closeRound (Fhe.terms checks) cfg now v = .ok v') : v'.Shaped := by
  obtain ⟨_, _, _, _, gs, rfl⟩ := closeRound_ok hop
  have haccrued : (accrued (Fhe.terms checks) (v.rounds v.activeRoundId)
      (v.rounds v.activeRoundId).closesAt).Shaped := (h.rounds v.activeRoundId).accrued _
  refine Shaped.grant (Shaped.setRound (Shaped.setRound ?_ ?_) ?_) gs
  · exact { h with
      reservedPrize := h.reservedPrize.add
      realizedSurplus := h.realizedSurplus.sub
      uncommittedYield := Term64.total_trivial 0 }
  · exact { haccrued with
      aggregateTwab := haccrued.eligibleCumulative
      reservedPrize := .pooled h.uncommittedYield }
  · exact { h.rounds (v.activeRoundId + 1) with eligibleCumulative := .zero }

theorem finalizeAggregate {c : Cleartexts} {proof : DecryptionProof} (h : v.Shaped)
    (hop : finalizeAggregate (Fhe.terms checks) r c proof v = .ok v') : v'.Shaped := by
  obtain ⟨_, n, _, _, rfl⟩ := finalizeAggregate_ok hop
  exact h.setRound { h.rounds r with }

theorem generateRandomCandidate {id : Nat} (h : v.Shaped)
    (hop : generateRandomCandidate (Fhe.terms checks) cfg r (.random id) v = .ok v') :
    v'.Shaped := by
  obtain ⟨_, _, _, round, attempts, gs, rfl, hround⟩ := generateRandomCandidate_ok hop
  refine Shaped.grant (Shaped.setRound ?_ ?_) gs
  · exact { h with }
  rcases hround with ⟨_, rfl⟩ | ⟨_, rfl⟩
  · exact { h.rounds r with candidate := .random, acceptedTicket := .rem }
  · exact { h.rounds r with candidate := .random, candidateValid := .lt128 }

theorem finalizeCandidateValidity {c : Cleartexts} {proof : DecryptionProof} (h : v.Shaped)
    (hop : finalizeCandidateValidity (Fhe.terms checks) cfg r c proof v = .ok v') :
    v'.Shaped := by
  obtain ⟨_, valid, gs, _, rfl⟩ := finalizeCandidateValidity_ok hop
  refine (h.setRound ?_).grant gs
  split_ifs
  · exact { h.rounds r with acceptedTicket := .rem }
  · exact { h.rounds r with }

theorem startSelection (h : v.Shaped)
    (hop : startSelection (Fhe.terms checks) cfg r v = .ok v') : v'.Shaped := by
  rcases startSelection_ok hop with ⟨_, gs, rfl⟩ | ⟨_, rfl⟩
  · refine Shaped.grant (h.setRound ?_) gs
    exact { h.rounds r with
      selectionCumulative := .zero
      encryptedWinnerCount := .zero }
  · exact h

theorem requestReconciliation (h : v.Shaped) :
    (v.requestReconciliation (Fhe.terms checks) cfg r).Shaped := by
  rcases requestReconciliation_eq (Fhe.terms checks) cfg r v with ⟨_, gs, heq⟩ | ⟨_, heq⟩
  · rw [heq]
    refine Shaped.grant (h.setRound ?_) gs
    exact { h.rounds r with reconciliationValid := .and }
  · rwa [heq]

theorem finalizeSelectionReconciliation {c : Cleartexts} {proof : DecryptionProof}
    (h : v.Shaped)
    (hop : finalizeSelectionReconciliation (Fhe.terms checks) r c proof v = .ok v') :
    v'.Shaped := by
  obtain ⟨_, valid, _, rfl⟩ := finalizeSelectionReconciliation_ok hop
  exact h.setRound { h.rounds r with }

end Shaped

end Vault

end Leopold
