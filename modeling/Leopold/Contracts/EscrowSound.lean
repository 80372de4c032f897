import Leopold.Contracts.EscrowSpec
import Leopold.Lib.Sums

/-!
# The ledgers of the escrow

The escrow owes every unit it was paid to somebody: a bond is unresolved until a settlement pass
turns a part of it into a reward, and the rest becomes a refund when its round is finalized.  The
totals are the sums of what the rounds and the accounts are owed, and the contract holds at least
what it owes.
-/

namespace Leopold

open Lib

namespace Escrow

/-- What a round holds that is neither a reward nor a refund. -/
def unresolved (e : Escrow) (r : Nat) : Nat :=
  if (e.rounds r).finalized then 0 else (e.rounds r).deposited - (e.rounds r).rewardsAccrued

/-- The refund of round `r` that an account can still claim. -/
def due (e : Escrow) (r : Nat) (a : Address) : Nat :=
  (e.isRegistered r a && !e.refundClaimed r a).toNat * (e.rounds r).refundPerParticipant

/-- The refunds of a round that are still to be claimed. -/
def refundsDue (e : Escrow) (r : Nat) : Nat := ∑ a, e.due r a

/-- The ledger of one round, with the accounts that registered and those that were refunded. -/
structure RoundSound {α : Type} [Fintype α] (cfg : Config) (isRegistered refundClaimed : α → Bool)
    (round : RoundLedger) : Prop where
  registered_eq : round.registered = ∑ a, (isRegistered a).toNat
  deposited_eq : round.deposited = round.registered * cfg.settlementBondAmount
  deposited_lt : round.deposited < 2 ^ 256
  rewards_eq : round.rewardsAccrued = (round.selectionProcessed + round.allocationProcessed) *
    cfg.settlementRewardPerParticipantPass
  selection_le : round.selectionProcessed ≤ round.registered
  allocation_le : round.allocationProcessed ≤ round.registered
  open_refund : round.finalized = false →
    round.refundsAccrued = 0 ∧ round.refundPerParticipant = 0 ∧ ∀ a, refundClaimed a = false
  refunds_eq : round.refundsAccrued = round.registered * round.refundPerParticipant
  split : round.finalized = true → round.deposited = round.rewardsAccrued + round.refundsAccrued
  claimed_registered : ∀ a, refundClaimed a = true → isRegistered a = true

/-- The invariant of the escrow. -/
structure Sound (cfg : Config) (e : Escrow) : Prop where
  round : ∀ r, RoundSound cfg (e.isRegistered r) (e.refundClaimed r) (e.rounds r)
  unresolved_finite : (Function.support e.unresolved).Finite
  unresolved_sum : ∑ᶠ r, e.unresolved r = e.totalUnresolvedLiability
  refunds_finite : (Function.support e.refundsDue).Finite
  refunds_sum : ∑ᶠ r, e.refundsDue r = e.totalRefundLiability
  reward_sum : ∑ a, e.settlementRewardCredit a = e.totalRewardLiability
  conservation : e.totalDeposited = e.totalUnresolvedLiability + e.totalRewardLiability +
    e.totalRefundLiability + e.totalRewardsWithdrawn + e.totalRefundsWithdrawn
  deposited_lt : e.totalDeposited < 2 ^ 256
  solvent : e.accountedLiability ≤ e.nativeBalance

/-- The bond exceeds the rewards of both passes. -/
def BondCovers (cfg : Config) : Prop :=
  cfg.settlementRewardPerParticipantPass * 2 < cfg.settlementBondAmount

variable {cfg : Config} {e e' : Escrow} {sender : Address} {r : Nat}

theorem sound_initial (nativeBalance : Nat) :
    Sound cfg { initial with nativeBalance := nativeBalance } where
  round _ :=
    { registered_eq := (Finset.sum_eq_zero fun _ _ => rfl).symm
      deposited_eq := (Nat.zero_mul _).symm
      deposited_lt := Nat.two_pow_pos 256
      rewards_eq := (Nat.zero_mul _).symm
      selection_le := Nat.le_refl 0
      allocation_le := Nat.le_refl 0
      open_refund := fun _ => ⟨rfl, rfl, fun _ => rfl⟩
      refunds_eq := rfl
      split := nofun
      claimed_registered := nofun }
  unresolved_finite := by
    refine Set.Finite.subset Set.finite_empty fun r hr => hr ?_
    rfl
  unresolved_sum := finsum_eq_zero_of_forall_eq_zero fun _ => rfl
  refunds_finite := by
    refine Set.Finite.subset Set.finite_empty fun r hr => hr ?_
    exact Finset.sum_eq_zero fun _ _ => rfl
  refunds_sum := finsum_eq_zero_of_forall_eq_zero fun _ => Finset.sum_eq_zero fun _ _ => rfl
  reward_sum := Finset.sum_eq_zero fun _ _ => rfl
  conservation := rfl
  deposited_lt := Nat.two_pow_pos 256
  solvent := Nat.zero_le _

namespace RoundSound

variable {α : Type} [Fintype α] {isRegistered refundClaimed : α → Bool} {round : RoundLedger}

/-- The bonds of a round cover what its passes can still pay. -/
theorem covered (h : RoundSound cfg isRegistered refundClaimed round) (hbond : BondCovers cfg) :
    round.rewardsAccrued + ((round.registered - round.selectionProcessed) +
      (round.registered - round.allocationProcessed)) * cfg.settlementRewardPerParticipantPass ≤
        round.deposited := by
  have hsel := h.selection_le
  have hall := h.allocation_le
  rw [h.rewards_eq, h.deposited_eq, ← Nat.add_mul]
  have hsum : round.selectionProcessed + round.allocationProcessed +
      ((round.registered - round.selectionProcessed) +
        (round.registered - round.allocationProcessed)) = round.registered * 2 := by omega
  rw [hsum, Nat.mul_assoc, Nat.mul_comm 2]
  exact Nat.mul_le_mul_left _ (Nat.le_of_lt hbond)

/-- The bonds bound the number of registrations. -/
theorem registered_lt (h : RoundSound cfg isRegistered refundClaimed round)
    (hbond : BondCovers cfg) : round.registered < 2 ^ 256 := by
  have hlt := h.deposited_lt
  rw [h.deposited_eq] at hlt
  exact (Nat.le_mul_of_pos_right _ (Nat.zero_lt_of_lt hbond)).trans_lt hlt

/-- What a settlement refunds is what its round still holds. -/
theorem refund_exact (h : RoundSound cfg isRegistered refundClaimed round)
    (hbond : BondCovers cfg) {passes refund : Nat}
    (hrefund : refundFor cfg passes round = .ok refund) :
    round.deposited = round.rewardsAccrued + round.registered * refund := by
  rw [h.deposited_eq, h.rewards_eq]
  rcases refundFor_ok hrefund with ⟨_, h1, h2, rfl⟩ | ⟨_, h1, h2, hle, rfl⟩ | ⟨_, h1, h2, rfl⟩
  · rw [h1, h2, Nat.add_zero, Nat.zero_mul, Nat.zero_add]
  · rw [h1, h2, Nat.add_zero, ← Nat.mul_add, Nat.add_sub_cancel' hle]
  · rw [h1, h2, ← Nat.mul_two, Nat.mul_assoc, Nat.mul_comm 2, ← Nat.mul_add,
      Config.refundPerCompletedParticipant, Nat.add_sub_cancel' (Nat.le_of_lt hbond)]

/-- One more account registers. -/
theorem register [DecidableEq α] (h : RoundSound cfg isRegistered refundClaimed round)
    (hopen : round.finalized = false) {a : α} (hnew : isRegistered a = false)
    (hlt : round.deposited + cfg.settlementBondAmount < 2 ^ 256) :
    RoundSound cfg (Function.update isRegistered a true) refundClaimed { round with
      registered := round.registered + 1
      deposited := round.deposited + cfg.settlementBondAmount } where
  registered_eq := by
    have hsum := sum_univ_update_add (fun b => (isRegistered b).toNat) a 1
    simp only [hnew, Bool.toNat_false, Nat.add_zero] at hsum
    rw [h.registered_eq, ← hsum]
    refine Finset.sum_congr rfl fun b _ => ?_
    exact (Function.apply_update (fun _ => Bool.toNat) isRegistered a true b).symm
  deposited_eq := by rw [h.deposited_eq, Nat.add_one_mul]
  deposited_lt := hlt
  rewards_eq := h.rewards_eq
  selection_le := h.selection_le.trans (Nat.le_succ _)
  allocation_le := h.allocation_le.trans (Nat.le_succ _)
  open_refund := h.open_refund
  refunds_eq := by
    obtain ⟨h1, h2, _⟩ := h.open_refund hopen
    show round.refundsAccrued = (round.registered + 1) * round.refundPerParticipant
    rw [h1, h2, Nat.mul_zero]
  split hfin := absurd hfin (hopen ▸ Bool.false_ne_true)
  claimed_registered b hb := by
    by_cases hba : b = a
    · rw [hba, Function.update_self]
    · rw [Function.update_of_ne hba]
      exact h.claimed_registered b hb

/-- A pass processes `n` more participants. -/
theorem credit (h : RoundSound cfg isRegistered refundClaimed round)
    (hopen : round.finalized = false) {pass n : Nat}
    (hle : processedIn pass round + n ≤ round.registered) :
    RoundSound cfg isRegistered refundClaimed { advanced pass n round with
      rewardsAccrued := round.rewardsAccrued +
        n * cfg.settlementRewardPerParticipantPass } := by
  have hrefund := h.open_refund hopen
  unfold advanced
  unfold processedIn at hle
  split_ifs at hle ⊢
  · refine ⟨h.registered_eq, h.deposited_eq, h.deposited_lt, ?_, hle, h.allocation_le, h.open_refund,
      h.refunds_eq, fun hfin => absurd hfin (hopen ▸ Bool.false_ne_true), h.claimed_registered⟩
    simp only
    rw [h.rewards_eq, ← Nat.add_mul, Nat.add_right_comm]
  · refine ⟨h.registered_eq, h.deposited_eq, h.deposited_lt, ?_, h.selection_le, hle, h.open_refund,
      h.refunds_eq, fun hfin => absurd hfin (hopen ▸ Bool.false_ne_true), h.claimed_registered⟩
    simp only
    rw [h.rewards_eq, ← Nat.add_mul, Nat.add_assoc]

/-- The reward of `n` more participants is covered by what the round holds. -/
theorem reward_covered (h : RoundSound cfg isRegistered refundClaimed round)
    (hbond : BondCovers cfg) {pass n : Nat}
    (hle : processedIn pass round + n ≤ round.registered) :
    round.rewardsAccrued + n * cfg.settlementRewardPerParticipantPass ≤ round.deposited := by
  refine Nat.le_trans (Nat.add_le_add_left (Nat.mul_le_mul_right _ ?_) _) (h.covered hbond)
  unfold processedIn at hle
  split_ifs at hle <;> omega

theorem finalize (h : RoundSound cfg isRegistered refundClaimed round) (hbond : BondCovers cfg)
    {passes refund : Nat} (hrefund : refundFor cfg passes round = .ok refund) :
    RoundSound cfg isRegistered refundClaimed { round with
      refundsAccrued := round.registered * refund
      refundPerParticipant := refund
      finalized := true } :=
  ⟨h.registered_eq, h.deposited_eq, h.deposited_lt, h.rewards_eq, h.selection_le, h.allocation_le,
    nofun, rfl, fun _ => h.refund_exact hbond hrefund, h.claimed_registered⟩

theorem claim [DecidableEq α] (h : RoundSound cfg isRegistered refundClaimed round)
    (hfin : round.finalized = true) {a : α} (ha : isRegistered a = true) :
    RoundSound cfg isRegistered (Function.update refundClaimed a true) round :=
  ⟨h.registered_eq, h.deposited_eq, h.deposited_lt, h.rewards_eq, h.selection_le,
    h.allocation_le, fun hopen => absurd hfin (hopen ▸ Bool.false_ne_true), h.refunds_eq, h.split, by
      intro b hb
      by_cases hba : b = a
      · exact hba ▸ ha
      · rw [Function.update_of_ne hba] at hb
        exact h.claimed_registered b hb⟩

end RoundSound

/-! ## Every entry point keeps the ledgers -/

namespace Sound

/-- A write to the ledger of one round. -/
theorem unresolved_update {round : RoundLedger}
    (h : e'.rounds = Function.update e.rounds r round) :
    e'.unresolved = Function.update e.unresolved r
      (if round.finalized then 0 else round.deposited - round.rewardsAccrued) := by
  funext s
  by_cases hs : s = r
  · subst hs
    rw [unresolved, h, Function.update_self, Function.update_self]
  · rw [unresolved, h, Function.update_of_ne hs, Function.update_of_ne hs]
    rfl

/-- The refunds of the other rounds stay as they are. -/
theorem refundsDue_update
    (hother : ∀ s, s ≠ r → e'.rounds s = e.rounds s ∧ e'.isRegistered s = e.isRegistered s ∧
      e'.refundClaimed s = e.refundClaimed s) :
    e'.refundsDue = Function.update e.refundsDue r (e'.refundsDue r) := by
  funext s
  by_cases hs : s = r
  · rw [hs, Function.update_self]
  · obtain ⟨h1, h2, h3⟩ := hother s hs
    rw [Function.update_of_ne hs, refundsDue, refundsDue]
    simp only [due, h1, h2, h3]

/-- A round without a refund for its participants owes none. -/
theorem refundsDue_zero (h : (e.rounds r).refundPerParticipant = 0) : e.refundsDue r = 0 :=
  Finset.sum_eq_zero fun a _ => by rw [due, h, Nat.mul_zero]

/-- What a round that is not finalized holds is what was paid in less its rewards. -/
theorem unresolved_open (h : (e.rounds r).finalized = false) :
    e.unresolved r = (e.rounds r).deposited - (e.rounds r).rewardsAccrued := by
  rw [unresolved, h, if_neg Bool.false_ne_true]

/-- The ledgers after a write to one round, from the amounts that moved. -/
theorem of_round (hs : e.Sound cfg)
    (hother : ∀ s, s ≠ r → e'.rounds s = e.rounds s ∧ e'.isRegistered s = e.isRegistered s ∧
      e'.refundClaimed s = e.refundClaimed s)
    (hround : RoundSound cfg (e'.isRegistered r) (e'.refundClaimed r) (e'.rounds r))
    (hunresolved : e'.totalUnresolvedLiability + e.unresolved r =
      e.totalUnresolvedLiability + e'.unresolved r)
    (hrefunds : e'.totalRefundLiability + e.refundsDue r =
      e.totalRefundLiability + e'.refundsDue r)
    (hrewards : ∑ a, e'.settlementRewardCredit a = e'.totalRewardLiability)
    (hconservation : e'.totalDeposited = e'.totalUnresolvedLiability + e'.totalRewardLiability +
      e'.totalRefundLiability + e'.totalRewardsWithdrawn + e'.totalRefundsWithdrawn)
    (hlt : e'.totalDeposited < 2 ^ 256) (hsolvent : e'.accountedLiability ≤ e'.nativeBalance) :
    e'.Sound cfg := by
  have hrounds : e'.rounds = Function.update e.rounds r (e'.rounds r) := by
    funext s
    by_cases hsr : s = r
    · rw [hsr, Function.update_self]
    · rw [Function.update_of_ne hsr, (hother s hsr).1]
  have hu : e'.unresolved = Function.update e.unresolved r (e'.unresolved r) :=
    unresolved_update hrounds
  have hd : e'.refundsDue = Function.update e.refundsDue r (e'.refundsDue r) :=
    refundsDue_update hother
  constructor
  · intro s
    by_cases hsr : s = r
    · exact hsr ▸ hround
    · obtain ⟨h1, h2, h3⟩ := hother s hsr
      rw [h1, h2, h3]
      exact hs.round s
  · rw [hu]
    exact support_update_finite hs.unresolved_finite r _
  · have hsum := finsum_update_add hs.unresolved_finite r (e'.unresolved r)
    rw [← hu, hs.unresolved_sum] at hsum
    omega
  · rw [hd]
    exact support_update_finite hs.refunds_finite r _
  · have hsum := finsum_update_add hs.refunds_finite r (e'.refundsDue r)
    rw [← hd, hs.refunds_sum] at hsum
    omega
  · exact hrewards
  · exact hconservation
  · exact hlt
  · exact hsolvent

/-- A registration for a round that is not finalized. -/
theorem registerForRound (hs : e.Sound cfg) (hbond : BondCovers cfg) {value : Nat}
    (hopen : (e.rounds r).finalized = false)
    (h : Escrow.registerForRound cfg sender value r e = .ok e') : e'.Sound cfg := by
  obtain ⟨rfl, hnew, hround, hlt, rfl⟩ := registerForRound_ok h
  obtain ⟨_, hnone, _⟩ := (hs.round r).open_refund hopen
  have hcovered := (hs.round r).covered hbond
  have hsolvent := hs.solvent
  have hconservation := hs.conservation
  refine hs.of_round (r := r) ?_ ?_ ?_ ?_ hs.reward_sum ?_ hlt ?_
  · intro s hsr
    exact ⟨Function.update_of_ne hsr _ _, Function.update_of_ne hsr _ _, rfl⟩
  · simp only [Function.update_self]
    exact (hs.round r).register hopen hnew hround
  · rw [unresolved_open hopen, unresolved_open]
    · simp only [Function.update_self]
      omega
    · simp only [Function.update_self]
      exact hopen
  · rw [refundsDue_zero hnone, refundsDue_zero]
    simp only [Function.update_self]
    exact hnone
  · simp only
    omega
  · simp only [accountedLiability] at hsolvent ⊢
    omega

/-- A pass is credited for participants of a round that is not finalized. -/
theorem creditProgress (hs : e.Sound cfg) (hbond : BondCovers cfg) {pass n : Nat}
    {progressor : Address}
    (h : Escrow.creditProgress cfg sender r pass n progressor e = .ok e') : e'.Sound cfg := by
  obtain ⟨_, _, hopen, _, hle, hcover, rfl⟩ := creditProgress_ok h
  obtain ⟨_, hnone, _⟩ := (hs.round r).open_refund hopen
  have hcovered := (hs.round r).reward_covered hbond hle
  have hround := (hs.round r).credit hopen hle
  have hsum := sum_univ_update_add e.settlementRewardCredit progressor
    (e.settlementRewardCredit progressor + n * cfg.settlementRewardPerParticipantPass)
  have hsolvent := hs.solvent
  have hconservation := hs.conservation
  have hrewards := hs.reward_sum
  have hadvanced : ∀ round : RoundLedger, (advanced pass n round).finalized = round.finalized ∧
      (advanced pass n round).deposited = round.deposited ∧
      (advanced pass n round).refundPerParticipant = round.refundPerParticipant := by
    intro round
    unfold advanced
    split_ifs <;> exact ⟨rfl, rfl, rfl⟩
  obtain ⟨hfinalized, hdeposited, hrefund⟩ := hadvanced (e.rounds r)
  refine hs.of_round (r := r) ?_ ?_ ?_ ?_ ?_ ?_ hs.deposited_lt ?_
  · intro s hsr
    exact ⟨Function.update_of_ne hsr _ _, rfl, rfl⟩
  · simp only [Function.update_self]
    exact hround
  · rw [unresolved_open hopen, unresolved_open]
    · simp only [Function.update_self, hdeposited]
      omega
    · simp only [Function.update_self, hfinalized]
      exact hopen
  · rw [refundsDue_zero hnone, refundsDue_zero]
    simp only [Function.update_self, hrefund]
    exact hnone
  · simp only
    omega
  · simp only
    omega
  · simp only [accountedLiability] at hsolvent ⊢
    omega

/-- The refunds of a round nobody has claimed yet. -/
theorem refundsDue_unclaimed (h : ∀ a, e.refundClaimed r a = false) :
    e.refundsDue r = (∑ a, (e.isRegistered r a).toNat) * (e.rounds r).refundPerParticipant := by
  rw [refundsDue, Finset.sum_mul]
  refine Finset.sum_congr rfl fun a _ => ?_
  rw [due, h a, Bool.not_false, Bool.and_true]

/-- What a round that is not finalized holds becomes its refunds. -/
theorem finalizeRound (hs : e.Sound cfg) (hbond : BondCovers cfg) {passes : Nat}
    (h : Escrow.finalizeRound cfg sender r passes e = .ok e') : e'.Sound cfg := by
  obtain ⟨_, hopen, refund, hrefund, hle, heq⟩ := finalizeRound_ok h
  have hrounds : e'.rounds = Function.update e.rounds r { e.rounds r with
      refundsAccrued := (e.rounds r).registered * refund
      refundPerParticipant := refund
      finalized := true } := by rw [heq]
  have hregistered : e'.isRegistered = e.isRegistered := by rw [heq]
  have hclaimed : e'.refundClaimed = e.refundClaimed := by rw [heq]
  obtain ⟨_, hnone, hunclaimed⟩ := (hs.round r).open_refund hopen
  have hexact := (hs.round r).refund_exact hbond hrefund
  have hdue : e'.refundsDue r = (e.rounds r).registered * refund := by
    rw [refundsDue_unclaimed (fun a => by rw [hclaimed, hunclaimed a]), hregistered, hrounds,
      Function.update_self, (hs.round r).registered_eq]
  have hunresolved : e'.unresolved r = 0 := by
    rw [unresolved, hrounds, Function.update_self, if_pos rfl]
  have hround := (hs.round r).finalize hbond hrefund
  have hother : ∀ s, s ≠ r → e'.rounds s = e.rounds s ∧ e'.isRegistered s = e.isRegistered s ∧
      e'.refundClaimed s = e.refundClaimed s := by
    intro s hsr
    rw [hrounds, hregistered, hclaimed, Function.update_of_ne hsr]
    exact ⟨rfl, rfl, rfl⟩
  have hsolvent := hs.solvent
  have hconservation := hs.conservation
  simp only [accountedLiability] at hsolvent
  refine hs.of_round hother ?_ ?_ ?_ ?_ ?_ ?_ ?_
  · rw [hrounds, hregistered, hclaimed, Function.update_self]
    exact hround
  · rw [hunresolved, unresolved_open hopen, heq]
    simp only
    omega
  · rw [hdue, refundsDue_zero hnone, heq, Nat.add_zero]
  · rw [heq]
    exact hs.reward_sum
  · rw [heq]
    simp only
    omega
  · rw [heq]
    exact hs.deposited_lt
  · rw [heq, accountedLiability]
    simp only
    omega

/-- A claim leaves nothing due to its account and changes nothing for the others. -/
theorem due_claimed {e' : Escrow} (hrounds : e'.rounds = e.rounds)
    (hreg : e'.isRegistered = e.isRegistered)
    (hclaimed : e'.refundClaimed = Function.update e.refundClaimed r
      (Function.update (e.refundClaimed r) sender true)) :
    e'.due r = Function.update (e.due r) sender 0 := by
  funext a
  rw [due, hrounds, hreg, hclaimed, Function.update_self]
  by_cases ha : a = sender
  · subst ha
    rw [Function.update_self, Function.update_self, Bool.not_true, Bool.and_false,
      Bool.toNat_false, Nat.zero_mul]
  · rw [Function.update_of_ne ha, Function.update_of_ne ha, due]

theorem claimBondRefund (hs : e.Sound cfg) {accepts : Bool}
    (h : Escrow.claimBondRefund sender r accepts e = .ok e') : e'.Sound cfg := by
  obtain ⟨hfin, hreg, hunclaimed, _, hle, hnative, heq⟩ := claimBondRefund_ok h
  have hrounds : e'.rounds = e.rounds := by rw [heq]
  have hregistered : e'.isRegistered = e.isRegistered := by rw [heq]
  have hclaimed : e'.refundClaimed = Function.update e.refundClaimed r
    (Function.update (e.refundClaimed r) sender true) := by rw [heq]
  -- the claim takes exactly what was due to the account
  have hself : e.due r sender = (e.rounds r).refundPerParticipant := by
    rw [due, hreg, hunclaimed, Bool.not_false, Bool.and_true, Bool.toNat_true, Nat.one_mul]
  have hdue : e'.refundsDue r + (e.rounds r).refundPerParticipant = e.refundsDue r := by
    rw [refundsDue, refundsDue, due_claimed hrounds hregistered hclaimed, ← hself,
      sum_univ_update_add, Nat.add_zero]
  have hsolvent := hs.solvent
  have hconservation := hs.conservation
  have hround := (hs.round r).claim hfin hreg
  have hother : ∀ s, s ≠ r → e'.rounds s = e.rounds s ∧ e'.isRegistered s = e.isRegistered s ∧
      e'.refundClaimed s = e.refundClaimed s := by
    intro s hsr
    rw [hrounds, hregistered, hclaimed, Function.update_of_ne hsr]
    exact ⟨rfl, rfl, rfl⟩
  have hunresolved : e'.unresolved r = e.unresolved r := by rw [unresolved, unresolved, hrounds]
  simp only [accountedLiability] at hsolvent
  refine hs.of_round hother ?_ ?_ ?_ ?_ ?_ ?_ ?_
  · rw [hrounds, hregistered, hclaimed, Function.update_self]
    exact hround
  · rw [hunresolved, heq]
  · rw [← hdue, heq]
    simp only
    omega
  · rw [heq]
    exact hs.reward_sum
  · rw [heq]
    simp only
    omega
  · rw [heq]
    exact hs.deposited_lt
  · rw [heq, accountedLiability]
    simp only
    omega

theorem withdrawSettlementRewards (hs : e.Sound cfg) {accepts : Bool}
    (h : Escrow.withdrawSettlementRewards sender accepts e = .ok e') : e'.Sound cfg := by
  obtain ⟨_, hle, hnative, rfl⟩ := withdrawSettlementRewards_ok h
  have hsum := sum_univ_update_add e.settlementRewardCredit sender 0
  have hrewards := hs.reward_sum
  have hsolvent := hs.solvent
  have hconservation := hs.conservation
  refine hs.of_round (r := 0) (fun _ _ => ⟨rfl, rfl, rfl⟩) (hs.round 0) rfl rfl ?_ ?_
    hs.deposited_lt ?_
  · simp only
    omega
  · simp only
    omega
  · simp only [accountedLiability] at hsolvent ⊢
    omega

/-- Native currency forced into the escrow is owed to nobody. -/
theorem forceNative (hs : e.Sound cfg) (n : Nat) :
    Sound cfg { e with nativeBalance := e.nativeBalance + n } :=
  hs.of_round (r := 0) (fun _ _ => ⟨rfl, rfl, rfl⟩) (hs.round 0) rfl rfl hs.reward_sum
    hs.conservation hs.deposited_lt (Nat.le_add_right_of_le hs.solvent)

end Sound

end Escrow

end Leopold
