import Leopold.Contracts.CompoundAdapter
import Leopold.Contracts.Mocks
import Leopold.Lib.Transition

/-!
# The adapter's account at the market

The market is an account whose balance changes exactly by what the adapter supplies and withdraws,
and in between by whatever is earned or lost there.  The adapter's calls, in any order and with
any market events in between, neither lose an asset nor turn principal into surplus: what leaves
the vault's token balance reaches the market, and what leaves the market reaches that balance.
-/

namespace Leopold

open Lib

variable {E64 EBool X : Type}

/-- The market as an account of the adapter, and the token it is kept in. -/
structure Externals.ExactMarket (E : Externals E64 EBool X) (cfg : Config) : Prop where
  balance_lt : ∀ x, E.cometBalanceOf x cfg.adapter < 2 ^ 256
  supply : ∀ {x x' n}, E.cometSupply x cfg.adapter n = some x' →
    E.cometBalanceOf x' cfg.adapter = E.cometBalanceOf x cfg.adapter + n ∧
      E.underlyingBalanceOf x' cfg.adapter + n = E.underlyingBalanceOf x cfg.adapter ∧
      E.underlyingBalanceOf x' cfg.vault = E.underlyingBalanceOf x cfg.vault
  /-- The greatest amount stands for the whole balance. -/
  withdraw : ∀ {x x' n w}, E.cometWithdraw x cfg.adapter n = some x' →
    w = (if n = 2 ^ 256 - 1 then E.cometBalanceOf x cfg.adapter else n) →
      E.cometBalanceOf x' cfg.adapter + w = E.cometBalanceOf x cfg.adapter ∧
      E.underlyingBalanceOf x' cfg.adapter = E.underlyingBalanceOf x cfg.adapter + w ∧
      E.underlyingBalanceOf x' cfg.vault = E.underlyingBalanceOf x cfg.vault
  transferFrom : ∀ {x x' n}, E.safeTransferFrom x cfg.adapter cfg.vault cfg.adapter n = some x' →
    E.cometBalanceOf x' cfg.adapter = E.cometBalanceOf x cfg.adapter ∧
      E.underlyingBalanceOf x' cfg.adapter = E.underlyingBalanceOf x cfg.adapter + n ∧
      E.underlyingBalanceOf x' cfg.vault + n = E.underlyingBalanceOf x cfg.vault
  transfer : ∀ {x x' n}, E.safeTransfer x cfg.adapter cfg.vault n = some x' →
    E.cometBalanceOf x' cfg.adapter = E.cometBalanceOf x cfg.adapter ∧
      E.underlyingBalanceOf x' cfg.adapter + n = E.underlyingBalanceOf x cfg.adapter ∧
      E.underlyingBalanceOf x' cfg.vault = E.underlyingBalanceOf x cfg.vault + n
  approve : ∀ {x x' n}, E.forceApprove x cfg.adapter cfg.compoundComet n = some x' →
    E.cometBalanceOf x' cfg.adapter = E.cometBalanceOf x cfg.adapter ∧
      E.underlyingBalanceOf x' cfg.adapter = E.underlyingBalanceOf x cfg.adapter ∧
      E.underlyingBalanceOf x' cfg.vault = E.underlyingBalanceOf x cfg.vault

/-- The adapter, the contracts around it, and the totals of its history: what left the vault's
token balance for the market and what came back to it, what the market earned and lost, and the
principal deployed and recovered since the last emergency exit. -/
structure AdapterWorld (X : Type) where
  adapter : Adapter
  ext : X
  supplied : Nat
  returned : Nat
  earned : Nat
  lost : Nat
  deployed : Nat
  recovered : Nat

inductive AdapterCall
  | deployAssets (sender : Address) (amount : Nat)
  | withdrawPrincipal (sender : Address) (amount : Nat)
  | harvest (sender : Address)
  | setPaused (sender : Address) (paused : Bool)
  | emergencyExit (sender : Address)

/-- A call of the adapter, or anything else that happens to the other contracts. -/
inductive AdapterEvent (X : Type)
  | call (c : AdapterCall)
  | market (x : X)

namespace AdapterWorld

variable (E : Externals E64 EBool X) (cfg : Config)

def managedAssets (w : AdapterWorld X) : Nat := Adapter.managedAssets E cfg w.ext

def shortfall (w : AdapterWorld X) : Nat := w.adapter.currentShortfall E cfg w.ext

/-- What the vault holds of the token. -/
def vaultTokens (w : AdapterWorld X) : Nat := E.underlyingBalanceOf w.ext cfg.vault

/-- What the adapter itself holds of the token. -/
def adapterTokens (w : AdapterWorld X) : Nat := E.underlyingBalanceOf w.ext cfg.adapter

/-- What left the vault's token balance by the time the contracts are at `ext`. -/
def outflow (w : AdapterWorld X) (ext : X) : Nat :=
  w.vaultTokens E cfg - E.underlyingBalanceOf ext cfg.vault

/-- What came to the vault's token balance by the time the contracts are at `ext`. -/
def inflow (w : AdapterWorld X) (ext : X) : Nat :=
  E.underlyingBalanceOf ext cfg.vault - w.vaultTokens E cfg

/-- The state after a call, whose flows are read off the vault's token balance. -/
def settle (w : AdapterWorld X) (adapter : Adapter) (ext : X) : AdapterWorld X :=
  { w with
    adapter, ext
    supplied := w.supplied + w.outflow E cfg ext
    returned := w.returned + w.inflow E cfg ext }

def execute (w : AdapterWorld X) : AdapterCall → Except Revert (AdapterWorld X)
  | .deployAssets sender amount => do
    let (adapter, ext, _) ← w.adapter.deployAssets E cfg sender amount w.ext
    return { w.settle E cfg adapter ext with deployed := w.deployed + w.outflow E cfg ext }
  | .withdrawPrincipal sender amount => do
    let (adapter, ext, _) ← w.adapter.withdrawPrincipal E cfg sender amount w.ext
    return { w.settle E cfg adapter ext with recovered := w.recovered + w.inflow E cfg ext }
  | .harvest sender => do
    let (adapter, ext, _) ← w.adapter.harvest E cfg sender w.ext
    return w.settle E cfg adapter ext
  | .setPaused sender paused => do
    let adapter ← w.adapter.setPaused cfg sender paused
    return w.settle E cfg adapter w.ext
  | .emergencyExit sender => do
    let (adapter, ext, _, _) ← w.adapter.emergencyExit E cfg sender w.ext
    return { w.settle E cfg adapter ext with deployed := 0, recovered := 0 }

/-- A call that reverts leaves everything as it was. -/
def apply (w : AdapterWorld X) : AdapterEvent X → AdapterWorld X
  | .call c =>
    match w.execute E cfg c with
    | .ok w' => w'
    | .error _ => w
  | .market x =>
    { w with
      ext := x
      earned := w.earned + (E.cometBalanceOf x cfg.adapter - w.managedAssets E cfg)
      lost := w.lost + (w.managedAssets E cfg - E.cometBalanceOf x cfg.adapter) }

/-- A new adapter with nothing at the market. -/
structure Fresh (w : AdapterWorld X) : Prop where
  adapter : w.adapter = Adapter.initial
  managed : w.managedAssets E cfg = 0
  totals : w.supplied = 0 ∧ w.returned = 0 ∧ w.earned = 0 ∧ w.lost = 0
  principal : w.deployed = 0 ∧ w.recovered = 0

def system : TransitionSystem (AdapterWorld X) (AdapterEvent X) where
  init := Fresh E cfg
  step w event w' := w.apply E cfg event = w'

end AdapterWorld

/-! ### What each call does to the account -/

namespace Adapter

variable {E : Externals E64 EBool X} {cfg : Config} {x x' y : X} {out back n : Nat}

/-- `out` went from the vault's token balance to the market and `back` the other way, and the
adapter kept nothing of either. -/
structure Moved (E : Externals E64 EBool X) (cfg : Config) (x x' : X) (out back : Nat) :
    Prop where
  vault : E.underlyingBalanceOf x' cfg.vault + out = E.underlyingBalanceOf x cfg.vault + back
  adapter : E.underlyingBalanceOf x' cfg.adapter = E.underlyingBalanceOf x cfg.adapter
  managed : managedAssets E cfg x' + back = managedAssets E cfg x + out

theorem Moved.refl (x : X) : Moved E cfg x x 0 0 := ⟨rfl, rfl, rfl⟩

variable (hE : E.ExactMarket cfg) {sender : Address} {a a' : Adapter}

include hE in
theorem withdraw_exact {recovered : Nat} (h : withdraw E cfg n x = .ok (x', recovered)) :
    recovered = (if n = 2 ^ 256 - 1 then managedAssets E cfg x else n) ∧
      Moved E cfg x x' 0 recovered := by
  simp only [withdraw, seq_eq_ok, orRevert_eq_ok, checkedSub_eq_ok, pure_eq_ok, ok_eq_ok,
    Prod.mk.injEq] at h
  obtain ⟨x₁, hwithdraw, r, ⟨hle, hr⟩, x₂, htransfer, rfl, rfl⟩ := h
  obtain ⟨hbalance, hadapter, hvault⟩ := hE.withdraw hwithdraw rfl
  obtain ⟨hbalance', hadapter', hvault'⟩ := hE.transfer htransfer
  have hall : r = if n = 2 ^ 256 - 1 then managedAssets E cfg x else n := by
    rw [hr, hadapter, Nat.add_sub_cancel_left]
    rfl
  refine ⟨hall, ?_, by omega, ?_⟩
  · rw [hvault', hvault, Nat.add_zero]
  · rw [managedAssets, hbalance', hall]
    exact hbalance

include hE in
theorem deployAssets_exact {received : Nat}
    (h : deployAssets E cfg sender n a x = .ok (a', x', received)) :
    a'.deployedPrincipalBasis = a.deployedPrincipalBasis + n ∧ received = n ∧
      Moved E cfg x x' n 0 := by
  simp only [deployAssets, seq_eq_ok, revertIf_eq_ok] at h
  obtain ⟨_, _, _, _, _, _, _, _, _, _, _, _, h⟩ := h
  by_cases hn : n = 0
  · rw [if_pos hn] at h
    simp only [pure_eq_ok, ok_eq_ok, Prod.mk.injEq] at h
    obtain ⟨rfl, rfl, rfl⟩ := h
    subst hn
    exact ⟨rfl, rfl, .refl _⟩
  · rw [if_neg hn] at h
    simp only [seq_eq_ok, orRevert_eq_ok, checkedSub_eq_ok, checkedAdd_eq_ok, pure_eq_ok,
      ok_eq_ok, Prod.mk.injEq] at h
    obtain ⟨x₁, htransfer, _, ⟨_, rfl⟩, x₂, happrove, x₃, hsupply, x₄, hreset, _, ⟨_, rfl⟩,
      rfl, rfl, rfl⟩ := h
    obtain ⟨htransfer, hin, hpaid⟩ := hE.transferFrom htransfer
    rw [hin, Nat.add_sub_cancel_left] at happrove hsupply ⊢
    obtain ⟨happrove, happroveA, happroveV⟩ := hE.approve happrove
    obtain ⟨hsupply, hsupplyA, hsupplyV⟩ := hE.supply hsupply
    obtain ⟨hreset, hresetA, hresetV⟩ := hE.approve hreset
    refine ⟨rfl, rfl, by omega, by omega, ?_⟩
    rw [managedAssets, hreset, hsupply, happrove, htransfer]
    rfl

include hE in
theorem withdrawPrincipal_exact {recovered : Nat}
    (h : withdrawPrincipal E cfg sender n a x = .ok (a', x', recovered)) :
    recovered = n ∧ a'.deployedPrincipalBasis + n = a.deployedPrincipalBasis ∧
      Moved E cfg x x' 0 n := by
  simp only [withdrawPrincipal, seq_eq_ok, revertIf_eq_ok, checkedSub_eq_ok, Prod.exists,
    pure_eq_ok, ok_eq_ok, Prod.mk.injEq] at h
  obtain ⟨_, _, _, _, _, _, _, _, _, hguard, x₁, r, hwithdraw, _, ⟨hle, rfl⟩, rfl, rfl, rfl⟩ := h
  obtain ⟨hr, hmoved⟩ := withdraw_exact hE hwithdraw
  have hlt : managedAssets E cfg x < 2 ^ 256 := hE.balance_lt x
  have hn : r = n := by
    rw [hr]
    split_ifs with hmax
    · omega
    · rfl
  subst hn
  exact ⟨rfl, Nat.sub_add_cancel hle, hmoved⟩

include hE in
theorem harvest_exact {surplus : Nat} (h : harvest E cfg sender a x = .ok (a', x', surplus)) :
    a'.deployedPrincipalBasis = a.deployedPrincipalBasis ∧ Moved E cfg x x' 0 surplus ∧
      surplus = managedAssets E cfg x - a.deployedPrincipalBasis := by
  simp only [harvest, seq_eq_ok, revertIf_eq_ok] at h
  obtain ⟨_, _, _, _, _, _, _, _, h⟩ := h
  by_cases hm : managedAssets E cfg x ≤ a.deployedPrincipalBasis
  · rw [if_pos hm] at h
    simp only [pure_eq_ok, ok_eq_ok, Prod.mk.injEq] at h
    obtain ⟨rfl, rfl, rfl⟩ := h
    exact ⟨rfl, .refl _, (Nat.sub_eq_zero_of_le hm).symm⟩
  · rw [if_neg hm] at h
    simp only [seq_eq_ok, Prod.exists, pure_eq_ok, ok_eq_ok, Prod.mk.injEq] at h
    obtain ⟨x₁, r, hwithdraw, rfl, rfl, rfl⟩ := h
    obtain ⟨hr, hmoved⟩ := withdraw_exact hE hwithdraw
    have hlt : managedAssets E cfg x < 2 ^ 256 := hE.balance_lt x
    refine ⟨rfl, hmoved, ?_⟩
    rw [hr]
    split_ifs with hmax
    · omega
    · rfl

include hE in
theorem emergencyExit_exact {recovered shortfall : Nat}
    (h : emergencyExit E cfg sender a x = .ok (a', x', recovered, shortfall)) :
    a'.deployedPrincipalBasis = 0 ∧ recovered = managedAssets E cfg x ∧
      Moved E cfg x x' 0 recovered := by
  simp only [emergencyExit, seq_eq_ok, revertIf_eq_ok, Prod.exists, pure_eq_ok, ok_eq_ok,
    Prod.mk.injEq] at h
  obtain ⟨_, _, _, _, x₁, r, hexit, rfl, rfl, rfl, rfl⟩ := h
  refine ⟨rfl, ?_⟩
  split_ifs at hexit with hnone
  · simp only [ok_eq_ok, Prod.mk.injEq] at hexit
    obtain ⟨rfl, rfl⟩ := hexit
    exact ⟨hnone.1.symm, .refl _⟩
  · obtain ⟨hr, hmoved⟩ := withdraw_exact hE hexit
    rw [if_pos rfl] at hr
    exact ⟨hr, hmoved⟩

theorem currentShortfall_eq :
    a.currentShortfall E cfg x = a.deployedPrincipalBasis - managedAssets E cfg x := by
  rw [currentShortfall]
  split_ifs <;> omega

end Adapter

/-! ### Runs -/

namespace AdapterWorld

section Runs

variable {E : Externals E64 EBool X} {cfg : Config} (hE : E.ExactMarket cfg)
  {w w' : AdapterWorld X} {c : AdapterCall} {event : AdapterEvent X}

/-- Nothing is lost, and the basis is the principal deployed and not yet recovered. -/
structure Conserved (E : Externals E64 EBool X) (cfg : Config) (w : AdapterWorld X) : Prop where
  assets : w.supplied + w.earned = w.returned + w.lost + w.managedAssets E cfg
  basis : w.adapter.deployedPrincipalBasis + w.recovered = w.deployed

/-- The flows of a call are what moved. -/
theorem flows_of_moved {ext : X} {out back : Nat} (h : Adapter.Moved E cfg w.ext ext out back)
    (hone : out = 0 ∨ back = 0) : w.outflow E cfg ext = out ∧ w.inflow E cfg ext = back := by
  have hvault := h.vault
  rw [outflow, inflow, vaultTokens]
  omega

/-- A call moves assets between the vault's balance and the market and nowhere else. -/
structure Settled (E : Externals E64 EBool X) (cfg : Config) (w w' : AdapterWorld X) : Prop where
  vault : w'.vaultTokens E cfg + w'.supplied + w.returned =
    w.vaultTokens E cfg + w.supplied + w'.returned
  adapter : w'.adapterTokens E cfg = w.adapterTokens E cfg
  assets : w'.managedAssets E cfg + w'.returned + w.supplied =
    w.managedAssets E cfg + w.returned + w'.supplied
  market : w'.earned = w.earned ∧ w'.lost = w.lost
  basis : w.adapter.deployedPrincipalBasis + w.recovered = w.deployed →
    w'.adapter.deployedPrincipalBasis + w'.recovered = w'.deployed
  shortfall : w'.shortfall E cfg ≤ w.shortfall E cfg

theorem settled_of_moved {a : Adapter} {ext : X} {out back deployed recovered : Nat}
    (hmoved : Adapter.Moved E cfg w.ext ext out back) (hone : out = 0 ∨ back = 0)
    (hbasis : w.adapter.deployedPrincipalBasis + w.recovered = w.deployed →
      a.deployedPrincipalBasis + recovered = deployed)
    (hshort : a.deployedPrincipalBasis + back ≤ w.adapter.deployedPrincipalBasis + out ∨
      a.deployedPrincipalBasis ≤ Adapter.managedAssets E cfg ext) :
    Settled E cfg w { w.settle E cfg a ext with deployed := deployed, recovered := recovered } := by
  obtain ⟨hout, hin⟩ := flows_of_moved hmoved hone
  have hvault := hmoved.vault
  have hmanaged := hmoved.managed
  refine ⟨?_, hmoved.adapter, ?_, ⟨rfl, rfl⟩, hbasis, ?_⟩
  · simp only [settle, vaultTokens, hout, hin]
    omega
  · simp only [settle, managedAssets, hout, hin]
    omega
  · simp only [shortfall, Adapter.currentShortfall_eq, settle]
    omega

include hE in
/-- What a call that returns did. -/
theorem execute_ok (h : w.execute E cfg c = .ok w') : Settled E cfg w w' := by
  cases c with
  | deployAssets sender amount =>
    obtain ⟨⟨a, x, received⟩, hcall, hw'⟩ := seq_eq_ok.1 h
    obtain rfl := Except.ok.inj hw'
    obtain ⟨hbasis, -, hmoved⟩ := Adapter.deployAssets_exact hE hcall
    refine settled_of_moved hmoved (.inr rfl) ?_ (.inl (Nat.le_of_eq hbasis))
    intro hw
    simp only [settle, (flows_of_moved hmoved (.inr rfl)).1]
    omega
  | withdrawPrincipal sender amount =>
    obtain ⟨⟨a, x, recovered⟩, hcall, hw'⟩ := seq_eq_ok.1 h
    obtain rfl := Except.ok.inj hw'
    obtain ⟨-, hbasis, hmoved⟩ := Adapter.withdrawPrincipal_exact hE hcall
    refine settled_of_moved hmoved (.inl rfl) ?_ (.inl (Nat.le_of_eq hbasis))
    intro hw
    simp only [settle, (flows_of_moved hmoved (.inl rfl)).2]
    omega
  | harvest sender =>
    obtain ⟨⟨a, x, surplus⟩, hcall, hw'⟩ := seq_eq_ok.1 h
    obtain rfl := Except.ok.inj hw'
    obtain ⟨hbasis, hmoved, hsurplus⟩ := Adapter.harvest_exact hE hcall
    refine settled_of_moved (w := w) hmoved (.inl rfl) ?_ ?_
    · rw [hbasis]
      exact id
    · have hmanaged := hmoved.managed
      omega
  | setPaused sender paused =>
    obtain ⟨a, hcall, hw'⟩ := seq_eq_ok.1 h
    obtain rfl := Except.ok.inj hw'
    obtain ⟨_, _, ha⟩ := seq_eq_ok.1 hcall
    obtain rfl := Except.ok.inj ha
    exact settled_of_moved (w := w) (.refl w.ext) (.inl rfl) id (.inl (Nat.le_refl _))
  | emergencyExit sender =>
    obtain ⟨⟨a, x, recovered, shortfall⟩, hcall, hw'⟩ := seq_eq_ok.1 h
    obtain rfl := Except.ok.inj hw'
    obtain ⟨hbasis, -, hmoved⟩ := Adapter.emergencyExit_exact hE hcall
    refine settled_of_moved hmoved (.inl rfl) (fun _ => hbasis) (.inr ?_)
    rw [hbasis]
    exact Nat.zero_le _

theorem Conserved.settled (hw : Conserved E cfg w) (h : Settled E cfg w w') :
    Conserved E cfg w' := by
  refine ⟨?_, h.basis hw.basis⟩
  have hassets := hw.assets
  have hmoved := h.assets
  rw [h.market.1, h.market.2]
  omega

include hE in
/-- **Step lemma.** -/
theorem Conserved.apply (hw : Conserved E cfg w) : Conserved E cfg (w.apply E cfg event) := by
  cases event with
  | call c =>
    rw [AdapterWorld.apply]
    cases hcall : w.execute E cfg c with
    | error e => exact hw
    | ok w' => exact hw.settled (execute_ok hE hcall)
  | market x =>
    refine ⟨?_, hw.basis⟩
    have := hw.assets
    simp only [AdapterWorld.apply, managedAssets, Adapter.managedAssets] at this ⊢
    omega

include hE in
/-- **Run lemma.** -/
theorem Conserved.of_reachable (h : (system E cfg).Reachable w) : Conserved E cfg w := by
  refine h.invariant ?_ ?_
  · intro w hw
    refine ⟨?_, ?_⟩
    · rw [hw.totals.1, hw.totals.2.1, hw.totals.2.2.1, hw.totals.2.2.2, hw.managed]
    · rw [hw.adapter, hw.principal.1, hw.principal.2]
      rfl
  · rintro w event _ - hw rfl
    exact hw.apply hE

include hE in
/-- **Harvest never takes principal and the adapter loses nothing.**  What was supplied and what
was returned are read off the vault's own token balance. -/
theorem harvest_keeps_principal (h : (system E cfg).Reachable w) :
    w.supplied + w.earned = w.returned + w.lost + w.managedAssets E cfg ∧
    w.adapter.deployedPrincipalBasis + w.recovered = w.deployed ∧
    (∀ c w', w.execute E cfg c = .ok w' → w'.shortfall E cfg ≤ w.shortfall E cfg ∧
      w'.vaultTokens E cfg + w'.supplied + w.returned =
        w.vaultTokens E cfg + w.supplied + w'.returned ∧
      w'.adapterTokens E cfg = w.adapterTokens E cfg) ∧
    (∀ sender a x surplus, w.adapter.harvest E cfg sender w.ext = .ok (a, x, surplus) →
      E.underlyingBalanceOf x cfg.vault = w.vaultTokens E cfg + surplus ∧
      (0 < surplus → Adapter.managedAssets E cfg x = a.deployedPrincipalBasis)) ∧
    (∀ c e, w.execute E cfg c = .error e → w.apply E cfg (.call c) = w) := by
  have hw := Conserved.of_reachable hE h
  refine ⟨hw.assets, hw.basis, ?_, ?_, ?_⟩
  · intro c w' hcall
    have hsettled := execute_ok hE hcall
    exact ⟨hsettled.shortfall, hsettled.vault, hsettled.adapter⟩
  · intro sender a x surplus hcall
    obtain ⟨hbasis, hmoved, hsurplus⟩ := Adapter.harvest_exact hE hcall
    have hmanaged := hmoved.managed
    refine ⟨hmoved.vault, ?_⟩
    intro hpos
    omega
  · intro c e hcall
    rw [AdapterWorld.apply, hcall]

end Runs

/-! ### A market -/

/-- Token balances, and the accounts of `MockCompoundComet` as 256-bit integers. -/
structure MockMarket where
  token : Address → Nat
  comet : Address → Fin (2 ^ 256)
  principal : Address → Int

namespace MockMarket

/-- `_transfer` of the token. -/
def transfer (holder recipient : Address) (amount : Nat) (x : MockMarket) : Option MockMarket :=
  if x.token holder < amount then none
  else
    let debited := Function.update x.token holder (x.token holder - amount)
    some { x with token := Function.update debited recipient (debited recipient + amount) }

def supply (caller : Address) (amount : Nat) (x : MockMarket) : Option MockMarket :=
  if x.token caller < amount then none
  else if h : x.comet caller + amount < 2 ^ 256 then
    some {
      token := Function.update x.token caller (x.token caller - amount)
      comet := Function.update x.comet caller ⟨x.comet caller + amount, h⟩
      principal := Function.update x.principal caller (x.principal caller + amount) }
  else none

/-- `amount` leaves the account of `caller` for its token balance. -/
def pay (caller : Address) (amount : Nat) (x : MockMarket) : Option MockMarket :=
  if (x.comet caller).val < amount then none
  else
    have h : (x.comet caller).val - amount < 2 ^ 256 :=
      Nat.lt_of_le_of_lt (Nat.sub_le _ _) (x.comet caller).isLt
    some {
      token := Function.update x.token caller (x.token caller + amount)
      comet := Function.update x.comet caller ⟨x.comet caller - amount, h⟩
      principal := Function.update x.principal caller (x.principal caller - amount) }

def withdraw (caller : Address) (amount : Nat) (x : MockMarket) : Option MockMarket :=
  x.pay caller (if amount = 2 ^ 256 - 1 then (x.comet caller).val else amount)

/-- The account of `a` earns or loses; its principal stays. -/
def revalue (a : Address) (balance : Fin (2 ^ 256)) (x : MockMarket) : MockMarket :=
  { x with comet := Function.update x.comet a balance }

/-- The market and its token, without a wrapper. -/
def externals (underlying : Address) : Externals Nat Bool MockMarket where
  underlying := underlying
  rate := 1
  decimals := 6
  confidentialTransfer _ _ _ _ := none
  transferAndCallSend _ _ _ _ := none
  transferAndCallRefund _ _ _ _ _ := none
  wrap _ _ _ _ := none
  unwrap _ _ _ _ _ := none
  finalizeUnwrap _ _ _ _ := none
  underlyingBalanceOf x a := x.token a
  safeTransferFrom x _ holder recipient amount := x.transfer holder recipient amount
  safeTransfer x holder recipient amount := x.transfer holder recipient amount
  forceApprove x _ _ _ := some x
  cometBaseToken _ := underlying
  cometBaseScale _ := 1000000
  cometIsSupplyPaused _ := false
  cometIsWithdrawPaused _ := false
  cometBalanceOf x a := x.comet a
  cometUserPrincipal x a := x.principal a
  cometSupply x caller amount := x.supply caller amount
  cometWithdraw x caller amount := x.withdraw caller amount
  thirdParty x x' := x = x'

variable {x x' : MockMarket} {caller holder recipient : Address} {amount : Nat}

theorem transfer_ok (h : x.transfer holder recipient amount = some x') :
    x'.comet = x.comet ∧ (holder ≠ recipient →
      x'.token holder + amount = x.token holder ∧
        x'.token recipient = x.token recipient + amount) := by
  unfold transfer at h
  split_ifs at h with hlt
  obtain rfl := Option.some.inj h
  refine ⟨rfl, ?_⟩
  intro hne
  simp only [Function.update_self, Function.update_of_ne hne, Function.update_of_ne hne.symm,
    and_true]
  omega

theorem supply_ok (h : x.supply caller amount = some x') :
    (x'.comet caller).val = (x.comet caller).val + amount ∧
      x'.token caller + amount = x.token caller ∧
      ∀ a, a ≠ caller → x'.token a = x.token a := by
  unfold supply at h
  split_ifs at h with hlt
  obtain rfl := Option.some.inj h
  refine ⟨by simp, ?_, fun a ha => Function.update_of_ne ha _ _⟩
  simp only [Function.update_self]
  omega

theorem pay_ok (h : x.pay caller amount = some x') :
    (x'.comet caller).val + amount = (x.comet caller).val ∧
      x'.token caller = x.token caller + amount ∧
      ∀ a, a ≠ caller → x'.token a = x.token a := by
  unfold pay at h
  split_ifs at h with hlt
  obtain rfl := Option.some.inj h
  refine ⟨?_, Function.update_self _ _ _, fun a ha => Function.update_of_ne ha _ _⟩
  simp only [Function.update_self]
  omega

theorem exact {cfg : Config} (hne : cfg.vault ≠ cfg.adapter) (underlying : Address) :
    (externals underlying).ExactMarket cfg where
  balance_lt x := (x.comet cfg.adapter).isLt
  supply h := by
    obtain ⟨hcomet, htoken, hother⟩ := supply_ok h
    exact ⟨hcomet, htoken, hother _ hne⟩
  withdraw := by
    rintro x x' n _ h rfl
    obtain ⟨hcomet, htoken, hother⟩ := pay_ok h
    exact ⟨hcomet, htoken, hother _ hne⟩
  transferFrom h := by
    obtain ⟨hcomet, hmoved⟩ := transfer_ok h
    obtain ⟨hholder, hrecipient⟩ := hmoved hne
    exact ⟨congrArg (fun comet => (comet cfg.adapter).val) hcomet, hrecipient, hholder⟩
  transfer h := by
    obtain ⟨hcomet, hmoved⟩ := transfer_ok h
    obtain ⟨hholder, hrecipient⟩ := hmoved hne.symm
    exact ⟨congrArg (fun comet => (comet cfg.adapter).val) hcomet, hholder, hrecipient⟩
  approve h := by
    obtain rfl := Option.some.inj h
    exact ⟨rfl, rfl, rfl⟩

end MockMarket

namespace Trial

open Leopold.Demo (strategyCfg)

/-- An adapter that nothing was deployed to, and a vault with a thousand tokens. -/
def start : AdapterWorld MockMarket where
  adapter := Adapter.initial
  ext := ⟨fun a => if a = 1 then 1000 else 0, fun _ => 0, fun _ => 0⟩
  supplied := 0
  returned := 0
  earned := 0
  lost := 0
  deployed := 0
  recovered := 0

/-- A call of the vault on the demo market. -/
def call (c : AdapterCall) (w : AdapterWorld MockMarket) : AdapterWorld MockMarket :=
  w.apply (MockMarket.externals 5) strategyCfg (.call c)

/-- The position is worth `balance` from now on. -/
def revalue (balance : Fin (2 ^ 256)) (w : AdapterWorld MockMarket) : AdapterWorld MockMarket :=
  w.apply (MockMarket.externals 5) strategyCfg (.market (w.ext.revalue 3 balance))

/-- 100 are deployed and earn 10, which are harvested; 5 are lost, 50 recovered, and the rest is
withdrawn in an emergency exit. -/
def script : AdapterWorld MockMarket :=
  start |> call (.deployAssets 1 100) |> revalue 110 |> call (.harvest 1) |> revalue 95 |>
    call (.withdrawPrincipal 1 50) |> call (.setPaused 9 true) |> call (.emergencyExit 1)

theorem start_fresh : Fresh (MockMarket.externals 5) strategyCfg start :=
  ⟨rfl, rfl, ⟨rfl, rfl, rfl, rfl⟩, rfl, rfl⟩

theorem reachable_call {c : AdapterCall} {w : AdapterWorld MockMarket}
    (h : (system (MockMarket.externals 5) strategyCfg).Reachable w) :
    (system (MockMarket.externals 5) strategyCfg).Reachable (call c w) :=
  h.tail (l := .call c) rfl

theorem reachable_revalue {balance : Fin (2 ^ 256)} {w : AdapterWorld MockMarket}
    (h : (system (MockMarket.externals 5) strategyCfg).Reachable w) :
    (system (MockMarket.externals 5) strategyCfg).Reachable (revalue balance w) :=
  h.tail (l := .market (w.ext.revalue 3 balance)) rfl

theorem script_reachable :
    (system (MockMarket.externals 5) strategyCfg).Reachable script := by
  unfold script
  exact reachable_call <| reachable_call <| reachable_call <| reachable_revalue <|
    reachable_call <| reachable_revalue <| reachable_call <| .of_init start_fresh

end Trial

open Trial Leopold.Demo in
/-- What was supplied and earned came back to the vault, except for what was lost. -/
theorem harvest_keeps_principal_script :
    (script.supplied, script.earned, script.returned, script.lost) = (100, 10, 105, 5) ∧
      (start.vaultTokens (MockMarket.externals 5) strategyCfg,
        script.vaultTokens (MockMarket.externals 5) strategyCfg) = (1000, 1005) ∧
      script.supplied + script.earned = script.returned + script.lost +
        script.managedAssets (MockMarket.externals 5) strategyCfg :=
  ⟨by decide +kernel, by decide +kernel,
    (harvest_keeps_principal (MockMarket.exact (by decide) 5) script_reachable).1⟩

end AdapterWorld

end Leopold
