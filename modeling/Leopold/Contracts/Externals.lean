import Leopold.Contracts.Basic
import Mathlib.Logic.Function.Basic

/-!
# The third-party contracts

The vault and its adapter call three contracts that are not part of the repository: the
confidential wrapper of the asset (an ERC-7984 token over an ERC-20), the underlying ERC-20
and the Compound market.  `Externals` is the interface the code uses of them over one joint
state `X`; an operation that answers nothing reverts the transaction.

`Externals.Lawful` names what the code relies on, over the plaintext reading: a transfer or a
burn moves the full amount when the holder's balance covers it and nothing otherwise, `wrap`
mints exactly `amount / rate`, an unwrap request is finalized at most once and only with the
burned cleartext, and nobody but the vault moves the vault's balance.
-/

namespace Leopold

/-- The handle that identifies an unwrap request of the wrapper. -/
abbrev RequestId := Nat

/-- The operations of the third-party contracts the code calls. -/
structure Externals (E64 EBool X : Type) where
  /-- `asset.underlying()`. -/
  underlying : Address
  /-- `asset.rate()`. -/
  rate : Nat
  /-- `asset.decimals()`. -/
  decimals : Nat
  /-- `confidentialTransfer` by the first account to the second; answers the amount sent. -/
  confidentialTransfer : X → Address → Address → E64 → Option (X × E64)
  /-- The debit of `confidentialTransferAndCall` before the receiver's callback. -/
  transferAndCallSend : X → Address → Address → E64 → Option (X × E64)
  /-- The end of `confidentialTransferAndCall`: the receiver returns the amount unless the
  callback accepted it. -/
  transferAndCallRefund : X → Address → Address → E64 → EBool → Option X
  /-- `wrap(to, amount)` by the first account. -/
  wrap : X → Address → Address → Nat → Option (X × E64)
  /-- `unwrap(from, to, amount)` by the first account. -/
  unwrap : X → Address → Address → Address → E64 → Option (X × RequestId)
  finalizeUnwrap : X → RequestId → Nat → DecryptionProof → Option X
  /-- `balanceOf` of the underlying token. -/
  underlyingBalanceOf : X → Address → Nat
  /-- `safeTransferFrom(from, to, amount)` of the underlying token by the first account. -/
  safeTransferFrom : X → Address → Address → Address → Nat → Option X
  safeTransfer : X → Address → Address → Nat → Option X
  /-- `forceApprove(spender, amount)` of the underlying token by the first account. -/
  forceApprove : X → Address → Address → Nat → Option X
  cometBaseToken : X → Address
  cometBaseScale : X → Nat
  cometIsSupplyPaused : X → Bool
  cometIsWithdrawPaused : X → Bool
  cometBalanceOf : X → Address → Nat
  /-- The signed principal of `userBasic`. -/
  cometUserPrincipal : X → Address → Int
  cometSupply : X → Address → Nat → Option X
  cometWithdraw : X → Address → Nat → Option X
  /-- What any other account can do to these contracts in one transaction. -/
  thirdParty : X → X → Prop

/-- The life of an unwrap request at the wrapper. -/
inductive UnwrapRequest
  | unused
  | outstanding (recipient : Address) (burned : Nat)
  | finalized
  deriving DecidableEq, Repr

/-- What the state of the third-party contracts means for the vault. -/
structure Observables (X : Type) where
  /-- The plaintext of `confidentialBalanceOf`. -/
  confidentialBalance : X → Address → Nat
  unwrapRequest : X → RequestId → UnwrapRequest
  /-- How many units the wrapper can still mint before its total supply leaves `uint64`. -/
  mintable : X → Nat

namespace Observables

variable {X : Type} (O : Observables X)

/-- The wrapper's ledger is the same in both states. -/
def SameLedger (x x' : X) : Prop :=
  O.confidentialBalance x' = O.confidentialBalance x ∧ O.unwrapRequest x' = O.unwrapRequest x

theorem SameLedger.refl (x : X) : O.SameLedger x x := ⟨rfl, rfl⟩

variable {O}

theorem SameLedger.trans {x y z : X} (h : O.SameLedger x y) (h' : O.SameLedger y z) :
    O.SameLedger x z := ⟨h'.1.trans h.1, h'.2.trans h.2⟩

end Observables

/-- The documented behaviour of the third-party contracts towards the vault `vault`. -/
structure Externals.Lawful {X : Type} (E : Externals Nat Bool X) (O : Observables X)
    (vault asset : Address) : Prop where
  /-- An encrypted balance is a 64-bit integer. -/
  balance_lt : ∀ x a, O.confidentialBalance x a < 2 ^ 64
  transfer : ∀ {x x' recipient amount sent},
    E.confidentialTransfer x vault recipient amount = some (x', sent) → recipient ≠ vault →
      sent = (if amount ≤ O.confidentialBalance x vault then amount else 0) ∧
      O.confidentialBalance x' vault + sent = O.confidentialBalance x vault ∧
      O.unwrapRequest x' = O.unwrapRequest x
  transfer_isSome : ∀ x recipient amount, recipient ≠ 0 →
    (E.confidentialTransfer x vault recipient amount).isSome
  send : ∀ {x x' holder amount sent},
    E.transferAndCallSend x holder vault amount = some (x', sent) → holder ≠ vault →
      O.confidentialBalance x' vault = O.confidentialBalance x vault + sent ∧
      O.unwrapRequest x' = O.unwrapRequest x
  refund : ∀ {x x' holder sent accepted},
    E.transferAndCallRefund x vault holder sent accepted = some x' → holder ≠ vault →
    sent ≤ O.confidentialBalance x vault →
      O.confidentialBalance x' vault + (if accepted then 0 else sent) =
        O.confidentialBalance x vault ∧ O.unwrapRequest x' = O.unwrapRequest x
  wrap : ∀ {x x' amount minted}, E.wrap x vault vault amount = some (x', minted) →
    minted = amount / E.rate ∧
      O.confidentialBalance x' vault = O.confidentialBalance x vault + minted ∧
      O.unwrapRequest x' = O.unwrapRequest x
  unwrap : ∀ {x x' amount id}, E.unwrap x vault vault vault amount = some (x', id) →
    O.unwrapRequest x id = .unused ∧
      O.unwrapRequest x' = Function.update (O.unwrapRequest x) id
        (.outstanding vault (if amount ≤ O.confidentialBalance x vault then amount else 0)) ∧
      O.confidentialBalance x' vault +
        (if amount ≤ O.confidentialBalance x vault then amount else 0) =
          O.confidentialBalance x vault
  finalizeUnwrap : ∀ {x x' id n proof}, E.finalizeUnwrap x id n proof = some x' →
    (∃ recipient, O.unwrapRequest x id = .outstanding recipient n) ∧
      O.unwrapRequest x' = Function.update (O.unwrapRequest x) id .finalized ∧
      O.confidentialBalance x' = O.confidentialBalance x
  finalizeUnwrap_isSome : ∀ {x id recipient n} {proof : DecryptionProof},
    O.unwrapRequest x id = .outstanding recipient n → proof.signed = true →
      (E.finalizeUnwrap x id n proof).isSome
  /-- Finalizing a request of the vault pays the underlying to it, and the units released can be
  minted again. -/
  finalizeUnwrap_pays : ∀ {x x' id n proof}, E.finalizeUnwrap x id n proof = some x' →
    O.unwrapRequest x id = .outstanding vault n →
      n * E.rate ≤ E.underlyingBalanceOf x' vault ∧ n ≤ O.mintable x' ∧ n * E.rate < 2 ^ 256
  forceApprove : ∀ {x x' owner spender amount},
    E.forceApprove x owner spender amount = some x' → O.SameLedger x x'
  forceApprove_isSome : ∀ x owner spender amount, (E.forceApprove x owner spender amount).isSome
  /-- An approved `wrap` that the caller's balance covers and the supply cap admits succeeds. -/
  wrap_isSome : ∀ {x x' amount}, E.forceApprove x vault asset amount = some x' →
    amount ≤ E.underlyingBalanceOf x vault → amount / E.rate ≤ O.mintable x →
      (E.wrap x' vault vault amount).isSome
  safeTransferFrom : ∀ {x x' spender holder recipient amount},
    E.safeTransferFrom x spender holder recipient amount = some x' → O.SameLedger x x'
  safeTransfer : ∀ {x x' holder recipient amount},
    E.safeTransfer x holder recipient amount = some x' → O.SameLedger x x'
  cometSupply : ∀ {x x' caller amount}, E.cometSupply x caller amount = some x' →
    O.SameLedger x x'
  cometWithdraw : ∀ {x x' caller amount}, E.cometWithdraw x caller amount = some x' →
    O.SameLedger x x'
  /-- Other accounts can pay the vault but not move or burn its balance. -/
  thirdParty_balance : ∀ {x x'}, E.thirdParty x x' →
    O.confidentialBalance x vault ≤ O.confidentialBalance x' vault
  /-- A request stays as it is until it is finalized, which anyone can do, and is never reopened. -/
  thirdParty_outstanding : ∀ {x x' id recipient n}, E.thirdParty x x' →
    O.unwrapRequest x id = .outstanding recipient n →
      O.unwrapRequest x' id = .outstanding recipient n ∨ O.unwrapRequest x' id = .finalized
  thirdParty_finalized : ∀ {x x' id}, E.thirdParty x x' → O.unwrapRequest x id = .finalized →
    O.unwrapRequest x' id = .finalized

end Leopold
