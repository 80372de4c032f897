import Leopold.Lib.Sums
import Mathlib.Logic.Relation

/-!
# The ledger of a prize-savings pool

What the vault is for, without encryption: savings that are always owed in full, a part of them
deployed to a strategy, and prizes that are kept apart from the savings and are paid at most
once.  The amounts are exact natural numbers; a posting moves an amount between cells and is
allowed only where the cells it takes from cover it.
-/

namespace Leopold

open Lib

/-- The cells of a pool over the accounts `α`. -/
structure Ledger (α : Type) where
  principal : α → Nat
  totalPrincipal : Nat
  liquidPrincipal : Nat
  deployedPrincipal : Nat
  principalInTransition : Nat
  strategyShortfall : Nat
  winnings : α → Nat
  winningsLiability : Nat
  liquidPrizeAssets : Nat
  realizedSurplus : Nat
  uncommittedYield : Nat
  reservedPrize : Nat
  sponsoredPrize : Nat → Nat
  /-- The part of the reserve that belongs to each closed round. -/
  roundReserved : Nat → Nat
  activeRoundId : Nat
  /-- The tokens the pool holds. -/
  balance : Nat
  /-- What the strategy records as deployed, in underlying units. -/
  basis : Nat

namespace Ledger

variable {α : Type}

/-- One posting, for a pool with at most `cap` savings and `rate` underlying units a token. -/
inductive Posting [DecidableEq α] (cap rate : Nat) : Ledger α → Ledger α → Prop
  /-- An account saves `n`. -/
  | save {L : Ledger α} (a : α) (n : Nat) (hcap : L.totalPrincipal + n ≤ cap)
      (hbal : L.balance + n < 2 ^ 64) :
    Posting cap rate L { L with
      principal := Function.update L.principal a (L.principal a + n)
      totalPrincipal := L.totalPrincipal + n
      liquidPrincipal := L.liquidPrincipal + n
      balance := L.balance + n }
  /-- An account takes back `n` of its savings. -/
  | withdraw {L : Ledger α} (a : α) (n : Nat) (hp : n ≤ L.principal a)
      (hl : n ≤ L.liquidPrincipal) :
    Posting cap rate L { L with
      principal := Function.update L.principal a (L.principal a - n)
      totalPrincipal := L.totalPrincipal - n
      liquidPrincipal := L.liquidPrincipal - n
      balance := L.balance - n }
  /-- A sponsor adds `n` to the prize of the open round or of the next one. -/
  | sponsor {L : Ledger α} (r n : Nat) (hr : r = L.activeRoundId ∨ r = L.activeRoundId + 1)
      (hbal : L.balance + n < 2 ^ 64) :
    Posting cap rate L { L with
      sponsoredPrize := Function.update L.sponsoredPrize r (L.sponsoredPrize r + n)
      liquidPrizeAssets := L.liquidPrizeAssets + n
      balance := L.balance + n }
  /-- Liquid savings leave for the strategy. -/
  | transit {L : Ledger α} (n : Nat) (hl : n ≤ L.liquidPrincipal) :
    Posting cap rate L { L with
      liquidPrincipal := L.liquidPrincipal - n
      principalInTransition := L.principalInTransition + n
      balance := L.balance - n }
  /-- Savings in transition arrive at the strategy. -/
  | deploy {L : Ledger α} (n : Nat) (hn : n ≤ L.principalInTransition) :
    Posting cap rate L { L with
      principalInTransition := L.principalInTransition - n
      deployedPrincipal := L.deployedPrincipal + n
      basis := L.basis + n * rate }
  /-- Savings in transition come back. -/
  | cancel {L : Ledger α} (n : Nat) (hn : n ≤ L.principalInTransition)
      (hbal : L.balance + n < 2 ^ 64) :
    Posting cap rate L { L with
      principalInTransition := L.principalInTransition - n
      liquidPrincipal := L.liquidPrincipal + n
      balance := L.balance + n }
  /-- The strategy returns savings. -/
  | replenish {L : Ledger α} (n : Nat) (hn : n ≤ L.deployedPrincipal)
      (hbal : L.balance + n < 2 ^ 64) :
    Posting cap rate L { L with
      deployedPrincipal := L.deployedPrincipal - n
      liquidPrincipal := L.liquidPrincipal + n
      basis := L.basis - n * rate
      balance := L.balance + n }
  /-- Yield becomes a prize. -/
  | harvest {L : Ledger α} (n : Nat) (hbal : L.balance + n < 2 ^ 64) :
    Posting cap rate L { L with
      uncommittedYield := L.uncommittedYield + n
      realizedSurplus := L.realizedSurplus + n
      liquidPrizeAssets := L.liquidPrizeAssets + n
      balance := L.balance + n }
  /-- The strategy is unwound: `n` of the savings come back and `k` are missing. -/
  | unwind {L : Ledger α} (n k : Nat) (hnk : n + k = L.deployedPrincipal)
      (hbal : L.balance + n < 2 ^ 64) :
    Posting cap rate L { L with
      liquidPrincipal := L.liquidPrincipal + n
      deployedPrincipal := 0
      strategyShortfall := L.strategyShortfall + k
      basis := 0
      balance := L.balance + n }
  /-- The active round closes: its prize is reserved. -/
  | close {L : Ledger α} :
    Posting cap rate L { L with
      roundReserved := Function.update L.roundReserved L.activeRoundId
        (L.sponsoredPrize L.activeRoundId + L.uncommittedYield)
      reservedPrize :=
        L.reservedPrize + (L.sponsoredPrize L.activeRoundId + L.uncommittedYield)
      realizedSurplus := L.realizedSurplus - L.uncommittedYield
      uncommittedYield := 0
      activeRoundId := L.activeRoundId + 1 }
  /-- The winner of a closed round keeps the prize available. -/
  | award {L : Ledger α} (r : Nat) (a : α) (hr : r < L.activeRoundId) :
    Posting cap rate L { L with
      roundReserved := Function.update L.roundReserved r 0
      reservedPrize := L.reservedPrize - L.roundReserved r
      winnings := Function.update L.winnings a (L.winnings a + L.roundReserved r)
      winningsLiability := L.winningsLiability + L.roundReserved r }
  /-- The winner of a closed round saves the prize. -/
  | autoSave {L : Ledger α} (r : Nat) (a : α) (hr : r < L.activeRoundId)
      (hcap : L.totalPrincipal + L.roundReserved r ≤ cap) :
    Posting cap rate L { L with
      roundReserved := Function.update L.roundReserved r 0
      reservedPrize := L.reservedPrize - L.roundReserved r
      liquidPrizeAssets := L.liquidPrizeAssets - L.roundReserved r
      principal := Function.update L.principal a (L.principal a + L.roundReserved r)
      totalPrincipal := L.totalPrincipal + L.roundReserved r
      liquidPrincipal := L.liquidPrincipal + L.roundReserved r }
  /-- The prize of a closed round joins the prize of the open one. -/
  | rollForward {L : Ledger α} (r : Nat) (hr : r < L.activeRoundId) :
    Posting cap rate L { L with
      roundReserved := Function.update L.roundReserved r 0
      reservedPrize := L.reservedPrize - L.roundReserved r
      sponsoredPrize := Function.update L.sponsoredPrize L.activeRoundId
        (L.sponsoredPrize L.activeRoundId + L.roundReserved r) }
  /-- An account is paid `n` of its winnings. -/
  | payWinnings {L : Ledger α} (a : α) (n : Nat) (hn : n ≤ L.winnings a) :
    Posting cap rate L { L with
      winnings := Function.update L.winnings a (L.winnings a - n)
      winningsLiability := L.winningsLiability - n
      liquidPrizeAssets := L.liquidPrizeAssets - n
      balance := L.balance - n }
  /-- Tokens arrive that no cell accounts for. -/
  | receive {L : Ledger α} (n : Nat) (hbal : L.balance + n < 2 ^ 64) :
    Posting cap rate L { L with balance := L.balance + n }

/-- A sequence of postings. -/
abbrev Postings [DecidableEq α] (cap rate : Nat) : Ledger α → Ledger α → Prop :=
  Relation.ReflTransGen (Posting cap rate)

/-- What holds between the cells: the savings are split, the prizes are split, and the tokens
held cover both liquid amounts. -/
structure Sound [Fintype α] (cap rate : Nat) (L : Ledger α) : Prop where
  principal_sum : ∑ a, L.principal a = L.totalPrincipal
  total_split : L.totalPrincipal = L.liquidPrincipal + L.deployedPrincipal +
    L.principalInTransition + L.strategyShortfall
  total_le : L.totalPrincipal ≤ cap
  basis_eq : L.deployedPrincipal * rate = L.basis
  surplus_eq : L.realizedSurplus = L.uncommittedYield
  prize_split : L.liquidPrizeAssets = L.sponsoredPrize L.activeRoundId +
    L.sponsoredPrize (L.activeRoundId + 1) + L.realizedSurplus + L.reservedPrize +
      L.winningsLiability
  sponsored_zero : ∀ r, L.activeRoundId + 2 ≤ r → L.sponsoredPrize r = 0
  reserved_sum : L.reservedPrize = ∑ r ∈ Finset.range L.activeRoundId, L.roundReserved r
  roundReserved_zero : ∀ r, L.activeRoundId ≤ r → L.roundReserved r = 0
  winnings_sum : ∑ a, L.winnings a = L.winningsLiability
  solvent : L.liquidPrincipal + L.liquidPrizeAssets ≤ L.balance
  balance_lt : L.balance < 2 ^ 64

/-- A pool with empty cells. -/
def empty (activeRoundId balance : Nat) : Ledger α where
  principal _ := 0
  totalPrincipal := 0
  liquidPrincipal := 0
  deployedPrincipal := 0
  principalInTransition := 0
  strategyShortfall := 0
  winnings _ := 0
  winningsLiability := 0
  liquidPrizeAssets := 0
  realizedSurplus := 0
  uncommittedYield := 0
  reservedPrize := 0
  sponsoredPrize _ := 0
  roundReserved _ := 0
  activeRoundId := activeRoundId
  balance := balance
  basis := 0

variable [Fintype α] {cap rate : Nat} {L L' : Ledger α}

theorem sound_empty {activeRoundId balance : Nat} (h : balance < 2 ^ 64) :
    Sound cap rate (empty activeRoundId balance : Ledger α) where
  principal_sum := by simp [empty]
  total_split := rfl
  total_le := Nat.zero_le _
  basis_eq := Nat.zero_mul _
  surplus_eq := rfl
  prize_split := rfl
  sponsored_zero _ _ := rfl
  reserved_sum := by simp [empty]
  roundReserved_zero _ _ := rfl
  winnings_sum := by simp [empty]
  solvent := Nat.zero_le _
  balance_lt := h

namespace Sound

theorem principal_le (h : Sound cap rate L) (a : α) : L.principal a ≤ L.totalPrincipal :=
  h.principal_sum ▸ le_sum L.principal a

theorem winnings_le (h : Sound cap rate L) (a : α) : L.winnings a ≤ L.winningsLiability :=
  h.winnings_sum ▸ le_sum L.winnings a

theorem roundReserved_le (h : Sound cap rate L) (r : Nat) :
    L.roundReserved r ≤ L.reservedPrize := by
  by_cases hr : r < L.activeRoundId
  · rw [h.reserved_sum]
    exact Finset.single_le_sum (fun _ _ => Nat.zero_le _) (Finset.mem_range.2 hr)
  · rw [h.roundReserved_zero r (by omega)]
    exact Nat.zero_le _

/-- The reserve after the part of one closed round leaves it. -/
theorem reserved_release (h : Sound cap rate L) {r : Nat} (hr : r < L.activeRoundId) :
    L.reservedPrize - L.roundReserved r =
      ∑ s ∈ Finset.range L.activeRoundId, Function.update L.roundReserved r 0 s := by
  have hsum := sum_update_add (Finset.mem_range.2 hr) L.roundReserved 0
  have hle := h.roundReserved_le r
  rw [h.reserved_sum] at hle ⊢
  omega

theorem roundReserved_zero_update (h : Sound cap rate L) {r : Nat} :
    ∀ s, L.activeRoundId ≤ s → Function.update L.roundReserved r 0 s = 0 := by
  intro s hs
  by_cases hrs : s = r
  · rw [hrs, Function.update_self]
  · rw [Function.update_of_ne hrs, h.roundReserved_zero s hs]

/-- Every posting keeps the ledger sound. -/
theorem posting [DecidableEq α] (h : Sound cap rate L) (hp : Posting cap rate L L') : Sound cap rate L' := by
  obtain ⟨h1, h2, h3, h4, h5, h6, h7, h8, h9, h10, h11, h12⟩ := id h
  cases hp with
  | save a n hcap hbal =>
    have hsum := sum_univ_update_add L.principal a (L.principal a + n)
    constructor <;> simp only <;> first | assumption | omega
  | withdraw a n hp hl =>
    have hsum := sum_univ_update_add L.principal a (L.principal a - n)
    have hle := h.principal_le a
    constructor <;> simp only <;> first | assumption | omega
  | sponsor r n hr hbal =>
    have hsponsored : Function.update L.sponsoredPrize r (L.sponsoredPrize r + n)
        L.activeRoundId + Function.update L.sponsoredPrize r (L.sponsoredPrize r + n)
          (L.activeRoundId + 1) = L.sponsoredPrize L.activeRoundId +
            L.sponsoredPrize (L.activeRoundId + 1) + n := by
      rcases hr with rfl | rfl
      · rw [Function.update_self, Function.update_of_ne (by omega)]
        omega
      · rw [Function.update_self, Function.update_of_ne (by omega)]
        omega
    have habove : ∀ s, L.activeRoundId + 2 ≤ s →
        Function.update L.sponsoredPrize r (L.sponsoredPrize r + n) s = 0 := by
      intro s hs
      rw [Function.update_of_ne (by omega), h7 s hs]
    constructor <;> simp only <;> first | assumption | omega
  | transit n hl => constructor <;> simp only <;> first | assumption | omega
  | deploy n hn =>
    have hbasis : (L.deployedPrincipal + n) * rate = L.basis + n * rate := by
      rw [Nat.add_mul, h4]
    constructor <;> simp only <;> first | assumption | omega
  | cancel n hn hbal => constructor <;> simp only <;> first | assumption | omega
  | replenish n hn hbal =>
    have hbasis : (L.deployedPrincipal - n) * rate = L.basis - n * rate := by
      rw [Nat.sub_mul, h4]
    constructor <;> simp only <;> first | assumption | omega
  | harvest n hbal => constructor <;> simp only <;> first | assumption | omega
  | unwind n k hnk hbal => constructor <;> simp only <;> first | assumption | omega
  | close =>
    have hreserved : L.reservedPrize + (L.sponsoredPrize L.activeRoundId + L.uncommittedYield) =
        ∑ r ∈ Finset.range (L.activeRoundId + 1), Function.update L.roundReserved
          L.activeRoundId (L.sponsoredPrize L.activeRoundId + L.uncommittedYield) r := by
      rw [Finset.sum_range_succ, Function.update_self,
        sum_update_of_notMem' Finset.notMem_range_self, h8]
    have habove : ∀ r, L.activeRoundId + 1 ≤ r → Function.update L.roundReserved
        L.activeRoundId (L.sponsoredPrize L.activeRoundId + L.uncommittedYield) r = 0 := by
      intro r hr
      rw [Function.update_of_ne (by omega), h9 r (by omega)]
    have hnext := h7 (L.activeRoundId + 1 + 1) (Nat.le_refl _)
    have hzero : ∀ r, L.activeRoundId + 1 + 2 ≤ r → L.sponsoredPrize r = 0 :=
      fun r hr => h7 r (by omega)
    constructor <;> simp only <;> first | assumption | omega
  | award r a hr =>
    have hsum := sum_univ_update_add L.winnings a (L.winnings a + L.roundReserved r)
    have hle := h.roundReserved_le r
    have hreserved := h.reserved_release hr
    have habove := h.roundReserved_zero_update (r := r)
    constructor <;> simp only <;> first | assumption | omega
  | autoSave r a hr hcap =>
    have hsum := sum_univ_update_add L.principal a (L.principal a + L.roundReserved r)
    have hle := h.roundReserved_le r
    have hreserved := h.reserved_release hr
    have habove := h.roundReserved_zero_update (r := r)
    constructor <;> simp only <;> first | assumption | omega
  | rollForward r hr =>
    have hle := h.roundReserved_le r
    have hreserved := h.reserved_release hr
    have habove := h.roundReserved_zero_update (r := r)
    have hsponsored : Function.update L.sponsoredPrize L.activeRoundId
        (L.sponsoredPrize L.activeRoundId + L.roundReserved r) L.activeRoundId +
          Function.update L.sponsoredPrize L.activeRoundId
            (L.sponsoredPrize L.activeRoundId + L.roundReserved r) (L.activeRoundId + 1) =
        L.sponsoredPrize L.activeRoundId + L.sponsoredPrize (L.activeRoundId + 1) +
          L.roundReserved r := by
      rw [Function.update_self, Function.update_of_ne (by omega)]
      omega
    have hzero : ∀ s, L.activeRoundId + 2 ≤ s → Function.update L.sponsoredPrize
        L.activeRoundId (L.sponsoredPrize L.activeRoundId + L.roundReserved r) s = 0 := by
      intro s hs
      rw [Function.update_of_ne (by omega), h7 s hs]
    constructor <;> simp only <;> first | assumption | omega
  | payWinnings a n hn =>
    have hsum := sum_univ_update_add L.winnings a (L.winnings a - n)
    have hle := h.winnings_le a
    constructor <;> simp only <;> first | assumption | omega
  | receive n hbal => constructor <;> simp only <;> first | assumption | omega

theorem postings [DecidableEq α] (h : Sound cap rate L) (hp : Postings cap rate L L') : Sound cap rate L' := by
  induction hp with
  | refl => exact h
  | tail _ hp ih => exact ih.posting hp

/-- The sponsored prizes of the rounds that are not closed. -/
theorem sponsored_finsum (h : Sound cap rate L) :
    ∑ᶠ r ∈ Set.Ici L.activeRoundId, L.sponsoredPrize r =
      L.sponsoredPrize L.activeRoundId + L.sponsoredPrize (L.activeRoundId + 1) := by
  have hsub : Set.Ici L.activeRoundId ∩ Function.support L.sponsoredPrize =
      (({L.activeRoundId, L.activeRoundId + 1} : Finset Nat) : Set Nat) ∩
        Function.support L.sponsoredPrize := by
    ext r
    simp only [Set.mem_inter_iff, Set.mem_Ici, Function.mem_support, Finset.coe_insert,
      Finset.coe_singleton, Set.mem_insert_iff, Set.mem_singleton_iff]
    refine and_congr_left fun hne => ⟨fun hr => ?_, by omega⟩
    have hlt : ¬ L.activeRoundId + 2 ≤ r := fun hge => hne (h.sponsored_zero r hge)
    omega
  rw [finsum_mem_eq_sum_of_inter_support_eq _ hsub, Finset.sum_pair (by omega)]

end Sound

end Ledger

end Leopold
