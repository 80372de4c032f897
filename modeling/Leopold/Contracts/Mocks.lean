import Leopold.Contracts.Fhe
import Leopold.Contracts.Externals
import Leopold.Contracts.Config
import Leopold.Lib.Sums

/-!
# The mock contracts

The third-party contracts as the tests deploy them: `MockLeopoldAsset`, the wrapper of an
ERC-20 token of six decimals at rate one, that token, `MockLeopoldUnderlying`, and the market
`MockCompoundComet` without its switches.  Allowances are not kept: every transfer on behalf of
a holder is one the holder approved.

The wrapper never holds fewer tokens than it owes, so its state carries that as a field, and the
mocks are an instance of what the vault relies on.
-/

namespace Leopold

open Lib

/-- What a request still owes its recipient. -/
def UnwrapRequest.owed : UnwrapRequest → Nat
  | .outstanding _ burned => burned
  | _ => 0

/-- The wrapper holds a unit for each of a balance and for each owed to a request. -/
def Backed (balance : Address → Nat) (request : Nat → UnwrapRequest) (nextRequest supply : Nat) :
    Prop :=
  (∑ a, balance a) + (∑ id ∈ Finset.range nextRequest, (request id).owed) = supply

/-- The state of the three contracts. -/
structure MockChain where
  /-- The encrypted balances of the wrapper. -/
  balance : Address → Nat
  request : Nat → UnwrapRequest
  nextRequest : Nat
  /-- The units whose underlying the wrapper holds. -/
  supply : Nat
  underlying : Address → Nat
  comet : Address → Nat
  cometPrincipal : Address → Int
  unused : ∀ id : Nat, nextRequest ≤ id → request id = .unused
  backed : Backed balance request nextRequest supply
  supply_lt : supply < 2 ^ 64

namespace MockChain

variable {x x' : MockChain} {holder recipient : Address} {amount n : Nat}

theorem balance_lt (x : MockChain) (a : Address) : x.balance a < 2 ^ 64 := by
  have := le_sum x.balance a
  have : _ + _ = _ := x.backed
  have := x.supply_lt
  omega

theorem backed_zero {balance : Address → Nat} {request : Nat → UnwrapRequest}
    (h : ∀ a, balance a = 0) : Backed balance request 0 0 := by
  unfold Backed
  rw [Finset.sum_congr rfl fun a _ => h a, Finset.sum_const_zero, Finset.range_zero,
    Finset.sum_empty, Nat.zero_add]

/-- Nothing is wrapped, supplied or requested. -/
def fresh (underlying : Address → Nat) : MockChain where
  balance _ := 0
  request _ := .unused
  nextRequest := 0
  supply := 0
  underlying := underlying
  comet _ := 0
  cometPrincipal _ := 0
  unused _ _ := rfl
  backed := backed_zero fun _ => rfl
  supply_lt := by omega

/-! ## The underlying token -/

/-- `_transfer` of the underlying token. -/
def transferUnderlying (holder recipient : Address) (amount : Nat) (x : MockChain) :
    Option MockChain :=
  if x.underlying holder < amount then none
  else
    let debited := Function.update x.underlying holder (x.underlying holder - amount)
    some { x with
      underlying := Function.update debited recipient (debited recipient + amount) }

theorem transferUnderlying_ledger (h : x.transferUnderlying holder recipient amount = some x') :
    x'.balance = x.balance ∧ x'.request = x.request := by
  unfold transferUnderlying at h
  split_ifs at h
  obtain rfl := Option.some.inj h
  exact ⟨rfl, rfl⟩

/-! ## The wrapper -/

/-- What a transfer of `amount` by `holder` moves. -/
def covered (x : MockChain) (holder : Address) (amount : Nat) : Nat :=
  if amount ≤ x.balance holder then amount else 0

theorem covered_le (x : MockChain) (holder : Address) (amount : Nat) :
    x.covered holder amount ≤ x.balance holder := by
  unfold covered
  split_ifs <;> omega

/-- The balances after `sent` moved between two accounts. -/
def moved (holder recipient : Address) (sent : Nat) (balance : Address → Nat) : Address → Nat :=
  let debited := Function.update balance holder (balance holder - sent)
  Function.update debited recipient (debited recipient + sent)

theorem sum_moved {balance : Address → Nat} (h : n ≤ balance holder) :
    ∑ a, moved holder recipient n balance a = ∑ a, balance a := by
  have hdebit := sum_univ_update_add balance holder (balance holder - n)
  have hcredit := sum_univ_update_add (Function.update balance holder (balance holder - n))
    recipient (Function.update balance holder (balance holder - n) recipient + n)
  unfold moved
  omega

theorem moved_holder {balance : Address → Nat} (hne : recipient ≠ holder) :
    moved holder recipient n balance holder = balance holder - n := by
  unfold moved
  rw [Function.update_of_ne hne.symm, Function.update_self]

theorem moved_recipient {balance : Address → Nat} (hne : recipient ≠ holder) :
    moved holder recipient n balance recipient = balance recipient + n := by
  unfold moved
  rw [Function.update_self, Function.update_of_ne hne]

/-- `_transfer` of the wrapper: the covered amount moves. -/
def transfer (holder recipient : Address) (amount : Nat) (x : MockChain) :
    Option (MockChain × Nat) :=
  if recipient = 0 then none
  else some ({ x with
    balance := moved holder recipient (x.covered holder amount) x.balance
    backed := by
      unfold Backed
      rw [sum_moved (x.covered_le holder amount)]
      exact x.backed },
    x.covered holder amount)

/-- `wrap` by `caller`: the token moves to the wrapper `asset`, which mints as many units. -/
def wrap (asset caller recipient : Address) (amount : Nat) (x : MockChain) :
    Option (MockChain × Nat) :=
  if x.underlying caller < amount then none
  else if h : x.supply + amount < 2 ^ 64 then
    (x.transferUnderlying caller asset amount).map fun y => ({ x with
      underlying := y.underlying
      balance := Function.update x.balance recipient (x.balance recipient + amount)
      supply := x.supply + amount
      backed := by
        have hminted := sum_univ_update_add x.balance recipient (x.balance recipient + amount)
        have hbacked : _ + _ = _ := x.backed
        unfold Backed
        omega
      supply_lt := h }, amount)
  else none

/-- `unwrap` by `caller`: the covered amount is burned and a request is opened for it. -/
def unwrap (caller holder recipient : Address) (amount : Nat) (x : MockChain) :
    Option (MockChain × RequestId) :=
  if caller ≠ holder then none
  else some ({ x with
    balance := Function.update x.balance holder (x.balance holder - x.covered holder amount)
    request := Function.update x.request x.nextRequest
      (.outstanding recipient (x.covered holder amount))
    nextRequest := x.nextRequest + 1
    unused := by
      intro id hid
      rw [Function.update_of_ne (by omega : id ≠ x.nextRequest)]
      exact x.unused id (by omega)
    backed := by
      have hburned := sum_univ_update_add x.balance holder
        (x.balance holder - x.covered holder amount)
      have hcovered := x.covered_le holder amount
      have hbacked : _ + _ = _ := x.backed
      have hopen : ∑ id ∈ Finset.range x.nextRequest,
          (Function.update x.request x.nextRequest
            (.outstanding recipient (x.covered holder amount)) id).owed =
          ∑ id ∈ Finset.range x.nextRequest, (x.request id).owed :=
        Finset.sum_congr rfl fun id hid => by
          rw [Function.update_of_ne (Finset.mem_range.1 hid).ne]
      unfold Backed
      rw [Finset.sum_range_succ, hopen, Function.update_self]
      show _ + (_ + x.covered holder amount) = x.supply
      omega }, x.nextRequest)

/-- The request that `id` names when it owes exactly `n`. -/
def owes (x : MockChain) (id : Nat) (n : Nat) : Option Address :=
  match x.request id with
  | .outstanding recipient burned => if burned = n then some recipient else none
  | _ => none

theorem owes_eq_some {id : Nat} :
    x.owes id n = some recipient ↔ x.request id = .outstanding recipient n := by
  unfold owes
  cases x.request id with
  | outstanding recipient' burned =>
    by_cases hn : burned = n
    · subst hn
      simp
    · simp [hn]
  | unused => simp
  | finalized => simp

theorem owed_le {id : Nat} (h : x.request id = .outstanding recipient n) :
    (∑ i ∈ Finset.range x.nextRequest, (Function.update x.request id .finalized i).owed) + n =
      ∑ i ∈ Finset.range x.nextRequest, (x.request i).owed := by
  have hid : id ∈ Finset.range x.nextRequest := by
    rw [Finset.mem_range]
    by_contra hle
    rw [x.unused id (by omega)] at h
    cases h
  have hupdate : ∀ i, (Function.update x.request id .finalized i).owed =
      Function.update (fun i => (x.request i).owed) id 0 i := by
    intro i
    by_cases hi : i = id
    · subst hi
      rw [Function.update_self, Function.update_self]
      rfl
    · rw [Function.update_of_ne hi, Function.update_of_ne hi]
  have hsum := sum_update_add hid (fun i => (x.request i).owed) 0
  rw [h] at hsum
  simp only [UnwrapRequest.owed] at hsum
  rw [Finset.sum_congr rfl fun i _ => hupdate i]
  simp only [UnwrapRequest.owed]
  omega

/-- `finalizeUnwrap`: the request is closed and its recipient is paid from the wrapper. -/
def finalizeUnwrap (asset : Address) (id n : Nat) (proof : DecryptionProof)
    (x : MockChain) : Option MockChain :=
  match h : x.owes id n with
  | none => none
  | some recipient =>
    if proof.signed then
      let debited := Function.update x.underlying asset (x.underlying asset - n)
      some { x with
        underlying := Function.update debited recipient (debited recipient + n)
        request := Function.update x.request id .finalized
        supply := x.supply - n
        unused := by
          intro i hi
          have hne : i ≠ id := by
            rintro rfl
            have := owes_eq_some.1 h
            rw [x.unused i hi] at this
            cases this
          rw [Function.update_of_ne hne]
          exact x.unused i hi
        backed := by
          have howed := owed_le (owes_eq_some.1 h)
          have hbacked : _ + _ = _ := x.backed
          unfold Backed
          omega
        supply_lt := by
          have := x.supply_lt
          omega }
    else none

/-! ## The market -/

/-- `supply` of the base token. -/
def cometSupply (market caller : Address) (amount : Nat) (x : MockChain) : Option MockChain :=
  (x.transferUnderlying caller market amount).map fun x => { x with
    comet := Function.update x.comet caller (x.comet caller + amount)
    cometPrincipal := Function.update x.cometPrincipal caller (x.cometPrincipal caller + amount) }

/-- `withdraw` of the base token; the greatest amount stands for the whole balance. -/
def cometWithdraw (market caller : Address) (amount : Nat) (x : MockChain) : Option MockChain :=
  let amount := if amount = 2 ^ 256 - 1 then x.comet caller else amount
  if x.comet caller < amount then none
  else ({ x with
    comet := Function.update x.comet caller (x.comet caller - amount)
    cometPrincipal := Function.update x.cometPrincipal caller (x.cometPrincipal caller - amount)
    }).transferUnderlying market caller amount

/-- What others can do to the ledgers of the contracts: pay `vault`, and finalize requests. -/
def thirdParty (vault : Address) (x x' : MockChain) : Prop :=
  x.balance vault ≤ x'.balance vault ∧
  (∀ id recipient n, x.request id = .outstanding recipient n →
    x'.request id = .outstanding recipient n ∨ x'.request id = .finalized) ∧
  ∀ id, x.request id = .finalized → x'.request id = .finalized

end MockChain

/-- The mocks deployed for a vault, over the token at `underlying`. -/
def mockExternals (cfg : Config) (underlying : Address) : Externals Nat Bool MockChain where
  underlying := underlying
  rate := 1
  decimals := 6
  confidentialTransfer x holder recipient amount := x.transfer holder recipient amount
  transferAndCallSend x holder recipient amount := x.transfer holder recipient amount
  transferAndCallRefund x receiver holder sent accepted :=
    (x.transfer receiver holder (if accepted then 0 else sent)).map Prod.fst
  wrap x caller amount := x.wrap cfg.asset caller amount
  unwrap x caller holder recipient amount := x.unwrap caller holder recipient amount
  finalizeUnwrap x id n proof := x.finalizeUnwrap cfg.asset id n proof
  underlyingBalanceOf x a := x.underlying a
  safeTransferFrom x _ holder recipient amount := x.transferUnderlying holder recipient amount
  safeTransfer x holder recipient amount := x.transferUnderlying holder recipient amount
  forceApprove x _ _ _ := some x
  cometBaseToken _ := underlying
  cometBaseScale _ := 1000000
  cometIsSupplyPaused _ := false
  cometIsWithdrawPaused _ := false
  cometBalanceOf x a := x.comet a
  cometUserPrincipal x a := x.cometPrincipal a
  cometSupply x caller amount := x.cometSupply cfg.compoundComet caller amount
  cometWithdraw x caller amount := x.cometWithdraw cfg.compoundComet caller amount
  thirdParty := MockChain.thirdParty cfg.vault

/-- How the state of the mocks is read. -/
def mockObservables : Observables MockChain where
  confidentialBalance := MockChain.balance
  unwrapRequest := MockChain.request
  mintable x := 2 ^ 64 - 1 - x.supply

namespace MockChain

variable {x x' : MockChain} {asset holder recipient caller : Address}
  {proof : DecryptionProof} {amount sent minted id n : Nat}

theorem transfer_ok (h : x.transfer holder recipient amount = some (x', sent)) :
    sent = x.covered holder amount ∧ x'.balance = moved holder recipient sent x.balance ∧
      x'.request = x.request := by
  unfold transfer at h
  split_ifs at h
  obtain ⟨rfl, rfl⟩ := Prod.mk.inj (Option.some.inj h)
  exact ⟨rfl, rfl, rfl⟩

theorem wrap_ok (h : x.wrap asset caller recipient amount = some (x', minted)) :
    minted = amount ∧
      x'.balance = Function.update x.balance recipient (x.balance recipient + amount) ∧
      x'.request = x.request := by
  unfold wrap at h
  split_ifs at h
  obtain ⟨y, _, hy⟩ := Option.map_eq_some_iff.1 h
  obtain ⟨rfl, rfl⟩ := Prod.mk.inj hy
  exact ⟨rfl, rfl, rfl⟩

theorem wrap_isSome (hamount : amount ≤ x.underlying caller)
    (hmintable : amount ≤ 2 ^ 64 - 1 - x.supply) :
    (x.wrap asset caller recipient amount).isSome := by
  have hsupply := x.supply_lt
  unfold wrap transferUnderlying
  rw [if_neg (by omega), dif_pos (by omega), if_neg (by omega)]
  rfl

theorem unwrap_ok (h : x.unwrap caller holder recipient amount = some (x', id)) :
    id = x.nextRequest ∧
      x'.request = Function.update x.request id
        (.outstanding recipient (x.covered holder amount)) ∧
      x'.balance =
        Function.update x.balance holder (x.balance holder - x.covered holder amount) := by
  unfold unwrap at h
  split_ifs at h
  obtain ⟨rfl, rfl⟩ := Prod.mk.inj (Option.some.inj h)
  exact ⟨rfl, rfl, rfl⟩

theorem finalizeUnwrap_ok (h : x.finalizeUnwrap asset id n proof = some x') :
    ∃ recipient, x.request id = .outstanding recipient n ∧
      x'.request = Function.update x.request id .finalized ∧ x'.balance = x.balance ∧
      n ≤ x'.underlying recipient ∧ x'.supply = x.supply - n := by
  unfold finalizeUnwrap at h
  split at h
  · cases h
  · next recipient howes =>
    split_ifs at h
    obtain rfl := Option.some.inj h
    refine ⟨recipient, owes_eq_some.1 howes, rfl, rfl, ?_, rfl⟩
    dsimp only
    rw [Function.update_self]
    exact Nat.le_add_left _ _

theorem finalizeUnwrap_thirdParty {vault : Address}
    (h : x.finalizeUnwrap asset id n proof = some x') : thirdParty vault x x' := by
  obtain ⟨recipient, howed, hrequest, hbalance, _⟩ := finalizeUnwrap_ok h
  refine ⟨Nat.le_of_eq (congrFun hbalance vault).symm, fun id' recipient' n' h' => ?_,
    fun id' h' => ?_⟩
  · rw [hrequest]
    by_cases hid : id' = id
    · subst hid
      exact .inr (Function.update_self _ _ _)
    · rw [Function.update_of_ne hid]
      exact .inl h'
  · rw [hrequest]
    by_cases hid : id' = id
    · subst hid
      exact Function.update_self _ _ _
    · rw [Function.update_of_ne hid]
      exact h'

theorem finalizeUnwrap_isSome (h : x.request id = .outstanding recipient n)
    (hproof : proof.signed = true) : (x.finalizeUnwrap asset id n proof).isSome := by
  have howes := owes_eq_some.2 h
  unfold finalizeUnwrap
  split
  · next hnone =>
    rw [howes] at hnone
    cases hnone
  · rw [if_pos hproof]
    rfl

theorem owed_le_supply (h : x.request id = .outstanding recipient n) : n ≤ x.supply := by
  have := owed_le h
  have : _ + _ = _ := x.backed
  omega

theorem cometSupply_ledger {market : Address} (h : x.cometSupply market caller amount = some x') :
    x'.balance = x.balance ∧ x'.request = x.request := by
  obtain ⟨y, hy, rfl⟩ := Option.map_eq_some_iff.1 h
  obtain ⟨hbalance, hrequest⟩ := transferUnderlying_ledger hy
  exact ⟨hbalance, hrequest⟩

theorem cometWithdraw_ledger {market : Address}
    (h : x.cometWithdraw market caller amount = some x') :
    x'.balance = x.balance ∧ x'.request = x.request := by
  unfold cometWithdraw at h
  dsimp only at h
  split_ifs at h <;>
  · obtain ⟨hbalance, hrequest⟩ := transferUnderlying_ledger h
    exact ⟨hbalance, hrequest⟩

end MockChain

open MockChain in
/-- The mocks behave as the vault relies on. -/
theorem mockExternals_lawful (cfg : Config) (underlying : Address) :
    (mockExternals cfg underlying).Lawful mockObservables cfg.vault cfg.asset where
  balance_lt := MockChain.balance_lt
  transfer := by
    intro x x' recipient amount sent h hne
    obtain ⟨rfl, hbalance, hrequest⟩ := transfer_ok h
    refine ⟨rfl, ?_, hrequest⟩
    show x'.balance cfg.vault + _ = x.balance cfg.vault
    rw [hbalance, moved_holder hne]
    exact Nat.sub_add_cancel (x.covered_le _ _)
  transfer_isSome x recipient amount hne := by
    show (x.transfer _ recipient amount).isSome
    unfold transfer
    rw [if_neg hne]
    rfl
  send := by
    intro x x' holder amount sent h hne
    obtain ⟨rfl, hbalance, hrequest⟩ := transfer_ok h
    refine ⟨?_, hrequest⟩
    show x'.balance cfg.vault = _
    rw [hbalance, moved_recipient hne.symm]
    rfl
  refund := by
    intro x x' holder sent accepted h hne hsent
    obtain ⟨⟨y, moved⟩, hy, rfl⟩ := Option.map_eq_some_iff.1 h
    obtain ⟨rfl, hbalance, hrequest⟩ := transfer_ok hy
    have hcovered : x.covered cfg.vault (if accepted then 0 else sent) =
        if accepted then 0 else sent := by
      unfold covered
      have hsent : sent ≤ x.balance cfg.vault := hsent
      rw [if_pos (by split_ifs <;> omega)]
    have hle := x.covered_le cfg.vault (if accepted then 0 else sent)
    refine ⟨?_, hrequest⟩
    show y.balance cfg.vault + _ = x.balance cfg.vault
    rw [hbalance, moved_holder hne]
    omega
  wrap := by
    intro x x' amount minted h
    obtain ⟨rfl, hbalance, hrequest⟩ := wrap_ok h
    refine ⟨(Nat.div_one _).symm, ?_, hrequest⟩
    show x'.balance cfg.vault = _
    rw [hbalance, Function.update_self]
    rfl
  unwrap := by
    intro x x' amount id h
    obtain ⟨rfl, hrequest, hbalance⟩ := unwrap_ok h
    refine ⟨x.unused _ le_rfl, hrequest, ?_⟩
    show x'.balance cfg.vault + _ = x.balance cfg.vault
    rw [hbalance, Function.update_self]
    exact Nat.sub_add_cancel (x.covered_le _ _)
  finalizeUnwrap := by
    intro x x' id n proof h
    obtain ⟨recipient, howed, hrequest, hbalance, _⟩ := finalizeUnwrap_ok h
    exact ⟨⟨recipient, howed⟩, hrequest, hbalance⟩
  finalizeUnwrap_isSome h hproof := MockChain.finalizeUnwrap_isSome h hproof
  finalizeUnwrap_pays := by
    intro x x' id n proof h howed
    obtain ⟨recipient, howed', _, _, hpaid, hsupply⟩ := finalizeUnwrap_ok h
    obtain ⟨rfl, _⟩ := UnwrapRequest.outstanding.inj (howed.symm.trans howed')
    have hle := owed_le_supply howed'
    have hlt := x.supply_lt
    have hfits : n * 1 < 2 ^ 256 := by omega
    refine ⟨(Nat.mul_one n).symm ▸ hpaid, ?_, hfits⟩
    show n ≤ 2 ^ 64 - 1 - x'.supply
    omega
  forceApprove h := by
    obtain rfl := Option.some.inj h
    exact Observables.SameLedger.refl _ _
  forceApprove_isSome _ _ _ _ := rfl
  wrap_isSome := by
    intro x x' amount h hamount hmintable
    obtain rfl := Option.some.inj h
    exact MockChain.wrap_isSome hamount (Nat.div_one amount ▸ hmintable)
  safeTransferFrom h := transferUnderlying_ledger h
  safeTransfer h := transferUnderlying_ledger h
  cometSupply h := cometSupply_ledger h
  cometWithdraw h := cometWithdraw_ledger h
  thirdParty_balance h := h.1
  thirdParty_outstanding h howed := h.2.1 _ _ _ howed
  thirdParty_finalized h hfinal := h.2.2 _ hfinal

/-! ## A deployment over the mocks -/

namespace Demo

open MockChain

/-- Accounts that are none of the contracts. -/
def alice : Address := 6

def bob : Address := 7

/-- A daily vault without a strategy. -/
def cfg : Config where
  vault := 1
  escrow := 2
  adapter := 3
  vaultId := 1
  vaultType := .daily
  vaultName := 1
  roundDuration := 64
  asset := 4
  firstRoundOpensAt := 100
  compoundComet := 0
  strategyGuardian := 0
  minimumStrategyEpochAge := 0
  settlementBondAmount := 10
  settlementRewardPerParticipantPass := 2

/-- The underlying token. -/
def token : Address := 5

def externals : Externals Nat Bool MockChain := mockExternals cfg token

/-- Every account has a thousand tokens, of which alice and bob wrapped sixty-four each. -/
def chain : MockChain :=
  let fresh := MockChain.fresh fun _ => 1000
  ((fresh.wrap 4 alice alice 64).bind fun (x, _) => x.wrap 4 bob bob 64).elim fresh Prod.fst

/-- The same vault with a strategy. -/
def strategyCfg : Config :=
  { cfg with compoundComet := 8, strategyGuardian := 9, minimumStrategyEpochAge := 3600 }

def strategyExternals : Externals Nat Bool MockChain := mockExternals strategyCfg token

end Demo

end Leopold
