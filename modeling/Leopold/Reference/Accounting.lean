import Leopold.Lib.Checked
import Mathlib.Logic.Relation

/-!
# The accounting reference model

`AccountingReferenceModel` of `leopoldModels.ts`: every method moves an exact amount between
categories and then checks that no category is negative and that the categories reconcile.  Its
integers are unbounded.  A throw ends the run: what a failed check leaves assigned is not modelled.
-/

namespace Leopold

open Lib

structure AccountingSnapshot where
  principalLiability : Int
  liquidPrincipal : Int
  deployedPrincipal : Int
  principalInTransition : Int
  strategyShortfall : Int
  liquidPrizeAssets : Int
  realizedSurplus : Int
  reservedPrize : Int
  sponsoredPrize : Int
  winningsLiability : Int
  harvestedYield : Int
  sponsorContributions : Int
  allocatedWinnings : Int
  withdrawnWinnings : Int
  autoSavedWinnings : Int
  deriving DecidableEq, Repr

namespace AccountingSnapshot

/-- The state of a new model. -/
def initial : AccountingSnapshot := ⟨0, 0, 0, 0, 0, 0, 0, 0, 0, 0, 0, 0, 0, 0, 0⟩

variable (s : AccountingSnapshot)

/-- `Object.values(state)`. -/
def values : List Int :=
  [s.principalLiability, s.liquidPrincipal, s.deployedPrincipal, s.principalInTransition,
    s.strategyShortfall, s.liquidPrizeAssets, s.realizedSurplus, s.reservedPrize, s.sponsoredPrize,
    s.winningsLiability, s.harvestedYield, s.sponsorContributions, s.allocatedWinnings,
    s.withdrawnWinnings, s.autoSavedWinnings]

/-- The state after the checks of `assertInvariants`. -/
def assertInvariants : Except String AccountingSnapshot := do
  revertIf (∃ value ∈ s.values, value < 0) "negative accounting category"
  revertIf (s.liquidPrincipal + s.deployedPrincipal + s.principalInTransition +
    s.strategyShortfall ≠ s.principalLiability) "principal reconciliation failed"
  revertIf (s.realizedSurplus + s.sponsoredPrize + s.reservedPrize + s.winningsLiability ≠
    s.liquidPrizeAssets) "prize category reconciliation failed"
  revertIf (s.harvestedYield + s.sponsorContributions ≠
    s.liquidPrizeAssets + s.withdrawnWinnings + s.autoSavedWinnings)
    "prize asset reconciliation failed"
  return s

def positive (amount : Int) : Except String Unit :=
  revertIf (amount ≤ 0) "amount must be positive"

def depositPrincipal (amount : Int) : Except String AccountingSnapshot := do
  positive amount
  assertInvariants { s with
    principalLiability := s.principalLiability + amount
    liquidPrincipal := s.liquidPrincipal + amount }

def withdrawPrincipal (amount : Int) : Except String AccountingSnapshot := do
  positive amount
  revertIf (amount > s.principalLiability ∨ amount > s.liquidPrincipal)
    "insufficient principal liquidity"
  assertInvariants { s with
    principalLiability := s.principalLiability - amount
    liquidPrincipal := s.liquidPrincipal - amount }

def deployPrincipal (amount : Int) : Except String AccountingSnapshot := do
  positive amount
  revertIf (amount > s.liquidPrincipal) "insufficient liquid principal"
  assertInvariants { s with
    liquidPrincipal := s.liquidPrincipal - amount
    deployedPrincipal := s.deployedPrincipal + amount }

def beginAggregateDeployment (amount : Int) : Except String AccountingSnapshot := do
  positive amount
  revertIf (amount > s.liquidPrincipal) "insufficient liquid principal"
  assertInvariants { s with
    liquidPrincipal := s.liquidPrincipal - amount
    principalInTransition := s.principalInTransition + amount }

def completeAggregateDeployment (amount : Int) : Except String AccountingSnapshot := do
  positive amount
  revertIf (amount > s.principalInTransition) "excess deployment completion"
  assertInvariants { s with
    principalInTransition := s.principalInTransition - amount
    deployedPrincipal := s.deployedPrincipal + amount }

def cancelAggregateDeployment (amount : Int) : Except String AccountingSnapshot := do
  positive amount
  revertIf (amount > s.principalInTransition) "excess deployment cancellation"
  assertInvariants { s with
    principalInTransition := s.principalInTransition - amount
    liquidPrincipal := s.liquidPrincipal + amount }

def recognizeStrategyLoss (amount : Int) : Except String AccountingSnapshot := do
  positive amount
  revertIf (amount > s.deployedPrincipal) "loss exceeds deployed basis"
  assertInvariants { s with
    deployedPrincipal := s.deployedPrincipal - amount
    strategyShortfall := s.strategyShortfall + amount }

def returnPrincipal (amount : Int) : Except String AccountingSnapshot := do
  positive amount
  revertIf (amount > s.deployedPrincipal) "excess principal return"
  assertInvariants { s with
    deployedPrincipal := s.deployedPrincipal - amount
    liquidPrincipal := s.liquidPrincipal + amount }

def harvestGenuineSurplus (amount : Int) : Except String AccountingSnapshot := do
  positive amount
  assertInvariants { s with
    liquidPrizeAssets := s.liquidPrizeAssets + amount
    realizedSurplus := s.realizedSurplus + amount
    harvestedYield := s.harvestedYield + amount }

def sponsor (amount : Int) : Except String AccountingSnapshot := do
  positive amount
  assertInvariants { s with
    liquidPrizeAssets := s.liquidPrizeAssets + amount
    sponsoredPrize := s.sponsoredPrize + amount
    sponsorContributions := s.sponsorContributions + amount }

def reservePrize (fromYield fromSponsor : Int) : Except String AccountingSnapshot := do
  revertIf (fromYield < 0 ∨ fromSponsor < 0) "negative prize source"
  revertIf (fromYield > s.realizedSurplus ∨ fromSponsor > s.sponsoredPrize) "unfunded prize"
  assertInvariants { s with
    realizedSurplus := s.realizedSurplus - fromYield
    sponsoredPrize := s.sponsoredPrize - fromSponsor
    reservedPrize := s.reservedPrize + (fromYield + fromSponsor) }

def allocateWinnings (amount : Int) : Except String AccountingSnapshot := do
  positive amount
  revertIf (amount > s.reservedPrize) "unreserved winnings"
  assertInvariants { s with
    reservedPrize := s.reservedPrize - amount
    winningsLiability := s.winningsLiability + amount
    allocatedWinnings := s.allocatedWinnings + amount }

def autoSave (amount : Int) : Except String AccountingSnapshot := do
  positive amount
  revertIf (amount > s.winningsLiability) "excess auto-save"
  assertInvariants { s with
    winningsLiability := s.winningsLiability - amount
    liquidPrizeAssets := s.liquidPrizeAssets - amount
    principalLiability := s.principalLiability + amount
    liquidPrincipal := s.liquidPrincipal + amount
    autoSavedWinnings := s.autoSavedWinnings + amount }

def withdrawWinnings (amount : Int) : Except String AccountingSnapshot := do
  positive amount
  revertIf (amount > s.winningsLiability ∨ amount > s.liquidPrizeAssets)
    "insufficient winnings liquidity"
  assertInvariants { s with
    winningsLiability := s.winningsLiability - amount
    liquidPrizeAssets := s.liquidPrizeAssets - amount
    withdrawnWinnings := s.withdrawnWinnings + amount }

/-- The methods of the model with their arguments. -/
inductive Method
  | depositPrincipal (amount : Int)
  | withdrawPrincipal (amount : Int)
  | deployPrincipal (amount : Int)
  | beginAggregateDeployment (amount : Int)
  | completeAggregateDeployment (amount : Int)
  | cancelAggregateDeployment (amount : Int)
  | recognizeStrategyLoss (amount : Int)
  | returnPrincipal (amount : Int)
  | harvestGenuineSurplus (amount : Int)
  | sponsor (amount : Int)
  | reservePrize (fromYield fromSponsor : Int)
  | allocateWinnings (amount : Int)
  | autoSave (amount : Int)
  | withdrawWinnings (amount : Int)
  deriving DecidableEq, Repr

def call : Method → Except String AccountingSnapshot
  | .depositPrincipal amount => s.depositPrincipal amount
  | .withdrawPrincipal amount => s.withdrawPrincipal amount
  | .deployPrincipal amount => s.deployPrincipal amount
  | .beginAggregateDeployment amount => s.beginAggregateDeployment amount
  | .completeAggregateDeployment amount => s.completeAggregateDeployment amount
  | .cancelAggregateDeployment amount => s.cancelAggregateDeployment amount
  | .recognizeStrategyLoss amount => s.recognizeStrategyLoss amount
  | .returnPrincipal amount => s.returnPrincipal amount
  | .harvestGenuineSurplus amount => s.harvestGenuineSurplus amount
  | .sponsor amount => s.sponsor amount
  | .reservePrize fromYield fromSponsor => s.reservePrize fromYield fromSponsor
  | .allocateWinnings amount => s.allocateWinnings amount
  | .autoSave amount => s.autoSave amount
  | .withdrawWinnings amount => s.withdrawWinnings amount

/-- Calls in a row, none of which throws. -/
def Calls : AccountingSnapshot → AccountingSnapshot → Prop :=
  Relation.ReflTransGen fun s s' => ∃ method, s.call method = .ok s'

/-- What `assertInvariants` checks. -/
structure Reconciled : Prop where
  nonnegative : ∀ value ∈ s.values, 0 ≤ value
  principal : s.liquidPrincipal + s.deployedPrincipal + s.principalInTransition +
    s.strategyShortfall = s.principalLiability
  categories : s.realizedSurplus + s.sponsoredPrize + s.reservedPrize + s.winningsLiability =
    s.liquidPrizeAssets
  assets : s.harvestedYield + s.sponsorContributions =
    s.liquidPrizeAssets + s.withdrawnWinnings + s.autoSavedWinnings

variable {s} {s' s'' : AccountingSnapshot} {n m : Int}

theorem assertInvariants_eq_ok : s.assertInvariants = .ok s' ↔ s.Reconciled ∧ s' = s := by
  unfold assertInvariants
  simp only [seq_eq_ok, revertIf_eq_ok, exists_const, pure_eq_ok, ok_eq_ok, not_exists, not_and,
    not_lt, not_not]
  constructor
  · rintro ⟨hvalues, hprincipal, hcategories, hassets, rfl⟩
    exact ⟨⟨hvalues, hprincipal, hcategories, hassets⟩, rfl⟩
  · rintro ⟨⟨hvalues, hprincipal, hcategories, hassets⟩, rfl⟩
    exact ⟨hvalues, hprincipal, hcategories, hassets, rfl⟩

theorem initial_reconciled : initial.Reconciled := by
  constructor <;> simp [initial, values]

/-- A call that does not throw leaves a reconciled state. -/
theorem call_reconciled {method : Method} (h : s.call method = .ok s') : s'.Reconciled := by
  have hassert {s₁ : AccountingSnapshot} (h : s₁.assertInvariants = .ok s') : s'.Reconciled := by
    obtain ⟨hs, rfl⟩ := assertInvariants_eq_ok.1 h
    exact hs
  cases method with
  | depositPrincipal | harvestGenuineSurplus | sponsor =>
    obtain ⟨_, _, h⟩ := seq_eq_ok.1 h
    exact hassert h
  | _ =>
    obtain ⟨_, _, h⟩ := seq_eq_ok.1 h
    obtain ⟨_, _, h⟩ := seq_eq_ok.1 h
    exact hassert h

theorem Calls.refl : Calls s s := Relation.ReflTransGen.refl

theorem Calls.trans (h : Calls s s') (h' : Calls s' s'') : Calls s s'' :=
  Relation.ReflTransGen.trans h h'

theorem Calls.tail {method : Method} (h : Calls s s') (h' : s'.call method = .ok s'') :
    Calls s s'' := Relation.ReflTransGen.tail h ⟨method, h'⟩

theorem Calls.reconciled (h : Calls s s') (hs : s.Reconciled) : s'.Reconciled := by
  induction h with
  | refl => exact hs
  | tail _ hcall _ =>
    obtain ⟨_, hcall⟩ := hcall
    exact call_reconciled hcall

/-! ## What a method does to a reconciled state -/

theorem reconciled_iff : s.Reconciled ↔
    (0 ≤ s.principalLiability ∧ 0 ≤ s.liquidPrincipal ∧ 0 ≤ s.deployedPrincipal ∧
      0 ≤ s.principalInTransition ∧ 0 ≤ s.strategyShortfall ∧ 0 ≤ s.liquidPrizeAssets ∧
      0 ≤ s.realizedSurplus ∧ 0 ≤ s.reservedPrize ∧ 0 ≤ s.sponsoredPrize ∧
      0 ≤ s.winningsLiability ∧ 0 ≤ s.harvestedYield ∧ 0 ≤ s.sponsorContributions ∧
      0 ≤ s.allocatedWinnings ∧ 0 ≤ s.withdrawnWinnings ∧ 0 ≤ s.autoSavedWinnings) ∧
    s.liquidPrincipal + s.deployedPrincipal + s.principalInTransition + s.strategyShortfall =
      s.principalLiability ∧
    s.realizedSurplus + s.sponsoredPrize + s.reservedPrize + s.winningsLiability =
      s.liquidPrizeAssets ∧
    s.harvestedYield + s.sponsorContributions =
      s.liquidPrizeAssets + s.withdrawnWinnings + s.autoSavedWinnings := by
  constructor
  · rintro ⟨hvalues, hprincipal, hcategories, hassets⟩
    simp only [values, List.forall_mem_cons, List.not_mem_nil, false_imp_iff, implies_true,
      and_true] at hvalues
    exact ⟨hvalues, hprincipal, hcategories, hassets⟩
  · rintro ⟨hvalues, hprincipal, hcategories, hassets⟩
    refine ⟨?_, hprincipal, hcategories, hassets⟩
    simpa only [values, List.forall_mem_cons, List.not_mem_nil, false_imp_iff, implies_true,
      and_true] using hvalues

theorem unguarded_eq_ok (hn : 0 < n) (h : s'.Reconciled) :
    (do positive n; s'.assertInvariants) = .ok s' :=
  seq_eq_ok.2 ⟨(), revertIf_eq_ok.2 (Int.not_le.2 hn), assertInvariants_eq_ok.2 ⟨h, rfl⟩⟩

theorem guarded_eq_ok {bad : Prop} [Decidable bad] {error : String} (hn : 0 < n) (hbad : ¬ bad)
    (h : s'.Reconciled) :
    (do positive n; revertIf bad error; s'.assertInvariants) = .ok s' :=
  seq_eq_ok.2 ⟨(), revertIf_eq_ok.2 (Int.not_le.2 hn), seq_eq_ok.2 ⟨(), revertIf_eq_ok.2 hbad,
    assertInvariants_eq_ok.2 ⟨h, rfl⟩⟩⟩

theorem depositPrincipal_eq_ok (hs : s.Reconciled) (hn : 0 < n) :
    s.depositPrincipal n = .ok { s with
      principalLiability := s.principalLiability + n
      liquidPrincipal := s.liquidPrincipal + n } := by
  refine unguarded_eq_ok hn ?_
  rw [reconciled_iff] at hs ⊢
  dsimp only
  omega

theorem withdrawPrincipal_eq_ok (hs : s.Reconciled) (hn : 0 < n)
    (h : n ≤ s.principalLiability) (h' : n ≤ s.liquidPrincipal) :
    s.withdrawPrincipal n = .ok { s with
      principalLiability := s.principalLiability - n
      liquidPrincipal := s.liquidPrincipal - n } := by
  refine guarded_eq_ok hn (by omega) ?_
  rw [reconciled_iff] at hs ⊢
  dsimp only
  omega

theorem beginAggregateDeployment_eq_ok (hs : s.Reconciled) (hn : 0 < n)
    (h : n ≤ s.liquidPrincipal) :
    s.beginAggregateDeployment n = .ok { s with
      liquidPrincipal := s.liquidPrincipal - n
      principalInTransition := s.principalInTransition + n } := by
  refine guarded_eq_ok hn (by omega) ?_
  rw [reconciled_iff] at hs ⊢
  dsimp only
  omega

theorem completeAggregateDeployment_eq_ok (hs : s.Reconciled) (hn : 0 < n)
    (h : n ≤ s.principalInTransition) :
    s.completeAggregateDeployment n = .ok { s with
      principalInTransition := s.principalInTransition - n
      deployedPrincipal := s.deployedPrincipal + n } := by
  refine guarded_eq_ok hn (by omega) ?_
  rw [reconciled_iff] at hs ⊢
  dsimp only
  omega

theorem cancelAggregateDeployment_eq_ok (hs : s.Reconciled) (hn : 0 < n)
    (h : n ≤ s.principalInTransition) :
    s.cancelAggregateDeployment n = .ok { s with
      principalInTransition := s.principalInTransition - n
      liquidPrincipal := s.liquidPrincipal + n } := by
  refine guarded_eq_ok hn (by omega) ?_
  rw [reconciled_iff] at hs ⊢
  dsimp only
  omega

theorem recognizeStrategyLoss_eq_ok (hs : s.Reconciled) (hn : 0 < n)
    (h : n ≤ s.deployedPrincipal) :
    s.recognizeStrategyLoss n = .ok { s with
      deployedPrincipal := s.deployedPrincipal - n
      strategyShortfall := s.strategyShortfall + n } := by
  refine guarded_eq_ok hn (by omega) ?_
  rw [reconciled_iff] at hs ⊢
  dsimp only
  omega

theorem returnPrincipal_eq_ok (hs : s.Reconciled) (hn : 0 < n)
    (h : n ≤ s.deployedPrincipal) :
    s.returnPrincipal n = .ok { s with
      deployedPrincipal := s.deployedPrincipal - n
      liquidPrincipal := s.liquidPrincipal + n } := by
  refine guarded_eq_ok hn (by omega) ?_
  rw [reconciled_iff] at hs ⊢
  dsimp only
  omega

theorem harvestGenuineSurplus_eq_ok (hs : s.Reconciled) (hn : 0 < n) :
    s.harvestGenuineSurplus n = .ok { s with
      liquidPrizeAssets := s.liquidPrizeAssets + n
      realizedSurplus := s.realizedSurplus + n
      harvestedYield := s.harvestedYield + n } := by
  refine unguarded_eq_ok hn ?_
  rw [reconciled_iff] at hs ⊢
  dsimp only
  omega

theorem sponsor_eq_ok (hs : s.Reconciled) (hn : 0 < n) :
    s.sponsor n = .ok { s with
      liquidPrizeAssets := s.liquidPrizeAssets + n
      sponsoredPrize := s.sponsoredPrize + n
      sponsorContributions := s.sponsorContributions + n } := by
  refine unguarded_eq_ok hn ?_
  rw [reconciled_iff] at hs ⊢
  dsimp only
  omega

theorem allocateWinnings_eq_ok (hs : s.Reconciled) (hn : 0 < n)
    (h : n ≤ s.reservedPrize) :
    s.allocateWinnings n = .ok { s with
      reservedPrize := s.reservedPrize - n
      winningsLiability := s.winningsLiability + n
      allocatedWinnings := s.allocatedWinnings + n } := by
  refine guarded_eq_ok hn (by omega) ?_
  rw [reconciled_iff] at hs ⊢
  dsimp only
  omega

theorem autoSave_eq_ok (hs : s.Reconciled) (hn : 0 < n)
    (h : n ≤ s.winningsLiability) :
    s.autoSave n = .ok { s with
      winningsLiability := s.winningsLiability - n
      liquidPrizeAssets := s.liquidPrizeAssets - n
      principalLiability := s.principalLiability + n
      liquidPrincipal := s.liquidPrincipal + n
      autoSavedWinnings := s.autoSavedWinnings + n } := by
  refine guarded_eq_ok hn (by omega) ?_
  rw [reconciled_iff] at hs ⊢
  dsimp only
  omega

theorem withdrawWinnings_eq_ok (hs : s.Reconciled) (hn : 0 < n)
    (h : n ≤ s.winningsLiability) (h' : n ≤ s.liquidPrizeAssets) :
    s.withdrawWinnings n = .ok { s with
      winningsLiability := s.winningsLiability - n
      liquidPrizeAssets := s.liquidPrizeAssets - n
      withdrawnWinnings := s.withdrawnWinnings + n } := by
  refine guarded_eq_ok hn (by omega) ?_
  rw [reconciled_iff] at hs ⊢
  dsimp only
  omega

theorem reservePrize_eq_ok (hs : s.Reconciled) (hn : 0 ≤ n) (hm : 0 ≤ m)
    (h : n ≤ s.realizedSurplus) (h' : m ≤ s.sponsoredPrize) :
    s.reservePrize n m = .ok { s with
      realizedSurplus := s.realizedSurplus - n
      sponsoredPrize := s.sponsoredPrize - m
      reservedPrize := s.reservedPrize + (n + m) } := by
  refine seq_eq_ok.2 ⟨(), revertIf_eq_ok.2 (by omega), seq_eq_ok.2 ⟨(), revertIf_eq_ok.2 (by omega),
    assertInvariants_eq_ok.2 ⟨?_, rfl⟩⟩⟩
  rw [reconciled_iff] at hs ⊢
  dsimp only
  omega

end AccountingSnapshot

end Leopold
