import Leopold.System.Payments

/-!
# Withdrawing to USDC

`withdrawV2Asset` and `unwrapToUsdc` beside the contracts: the vault pays the account in the
confidential wrapper, and what it paid is unwrapped.  A step is one await that is answered, a
transaction of the operation that is mined, or a step of the contracts that others take; the
operation may throw at every await.
-/

namespace Leopold.Frontend

open Lib

/-- What is withdrawn: `withdraw` and `principalOf`, or `withdrawWinnings` and `winningsOf`. -/
inductive V2Asset
  | savings
  | winnings
  deriving DecidableEq, Repr

namespace V2Asset

variable {X : Type}

/-- What the vault owes an account. -/
def owed (asset : V2Asset) (w : PlainWorld X) (account : Leopold.Address) : Nat :=
  match asset with
  | savings => w.vault.principal account
  | winnings => w.vault.winnings account

/-- What the vault can pay from. -/
def liquid (asset : V2Asset) (w : PlainWorld X) : Nat :=
  match asset with
  | savings => w.vault.liquidPrincipal
  | winnings => w.vault.liquidPrizeAssets

/-- The vault owes the amount and can pay it. -/
def Payable (asset : V2Asset) (account : Leopold.Address) (amount : Nat) (w : PlainWorld X) : Prop :=
  amount ≤ asset.owed w account ∧ amount ≤ asset.liquid w

instance (account : Leopold.Address) (amount : Nat) (w : PlainWorld X) (asset : V2Asset) :
    Decidable (asset.Payable account amount w) := inferInstanceAs (Decidable (_ ∧ _))

/-- The transaction of `assetFunctionName`; it answers the amount sent. -/
def withdraw (E : Externals Nat Bool X) (cfg : Config) (account : Leopold.Address) (amount : Nat)
    (w : PlainWorld X) (asset : V2Asset) : Except Revert (PlainWorld X × Nat) :=
  match asset with
  | savings => World.withdraw Fhe.plain E cfg account (World.encrypted amount) w
  | winnings => World.withdrawWinnings Fhe.plain E cfg account (World.encrypted amount) w

def stage : V2Asset → String
  | savings => "withdraw-savings"
  | winnings => "withdraw-winnings"

end V2Asset

/-- What the operation throws itself. -/
inductive V2WithdrawalError
  | amountMustBePositive
  | insufficientUsdc
  | reverted (stage : String)
  | stateNotChanged (stage : String)
  | unwrapRequestIdMissing
  | unwrapAmountMismatch
  /-- Another function threw: a check of the wallet or the topology, a read, a cipher, a signature. -/
  | other
  deriving DecidableEq, Repr

/-- Where the operation awaits. -/
inductive V2WithdrawalAwait
  | topology
  /-- `decryptPrivateValue` of the handle that was read, and its plaintext. -/
  | decrypt (handle available : Nat)
  | encrypt (handle : Nat)
  | sign (handle : Nat)
  /-- The withdrawal was broadcast. -/
  | withdrawal (handle : Nat)
  | withdrawalReceipt (handle : Nat) (success : Bool)
  /-- The read of `currentHandle`. -/
  | currentHandle (handle : Nat)
  | encryptUnwrap
  | signUnwrap
  /-- The unwrap was broadcast. -/
  | unwrap
  /-- The request and what was burned for it, unless it was reverted. -/
  | unwrapReceipt (request : Option (RequestId × Nat))
  | requestEvent (id : RequestId) (burned : Nat)
  | decryptPublic (id : RequestId) (burned : Nat)
  | signFinalize (id : RequestId)
  /-- The finalization was broadcast. -/
  | finalize (id : RequestId)
  | finalizeReceipt (success : Bool)
  | resolved
  | failed (error : V2WithdrawalError)
  deriving DecidableEq, Repr

/-- What the withdrawal did to the account. -/
structure V2Payment where
  sent : Nat
  owedBefore : Nat
  owedAfter : Nat
  /-- The private balance at the wrapper. -/
  privateBefore : Nat
  privateAfter : Nat
  deriving DecidableEq, Repr

/-- What the unwrap did to the private balance of the account. -/
structure V2Burn where
  privateBefore : Nat
  privateAfter : Nat
  deriving DecidableEq, Repr

structure V2Withdrawal (X : Type) where
  world : PlainWorld X
  /-- How often the vault has written the balance; the handle is new each time, and zero before. -/
  handle : Nat
  await : V2WithdrawalAwait
  payment : Option V2Payment
  burn : Option V2Burn
  unwrapSubmitted : Bool

namespace V2Withdrawal

section Code

variable {X : Type} (E : Externals Nat Bool X) (O : Observables X) (cfg : Config)
  (account : Leopold.Address) (asset : V2Asset) (amount : Nat) (s : V2Withdrawal X)

def goOn (await : V2WithdrawalAwait) : V2Withdrawal X := { s with await }

def fail (error : V2WithdrawalError) : V2Withdrawal X := s.goOn (.failed error)

/-- The operation up to its first await. -/
def start (world : PlainWorld X) (handle : Nat) : V2Withdrawal X where
  world := world
  handle := handle
  await := if amount = 0 then .failed .amountMustBePositive else .topology
  payment := none
  burn := none
  unwrapSubmitted := false

/-- The continuation after an await; what is mined is not for the operation to go on with. -/
def answered : V2Withdrawal X :=
  match s.await with
  | .topology =>
    if s.handle = 0 then s.fail .insufficientUsdc
    else s.goOn (.decrypt s.handle (asset.owed s.world account))
  | .decrypt handle available =>
    if amount > available then s.fail .insufficientUsdc else s.goOn (.encrypt handle)
  | .encrypt handle => s.goOn (.sign handle)
  | .sign handle => s.goOn (.withdrawal handle)
  | .withdrawalReceipt handle success =>
    if success then s.goOn (.currentHandle handle) else s.fail (.reverted asset.stage)
  | .currentHandle handle =>
    if s.handle = handle then s.fail (.stateNotChanged asset.stage) else s.goOn .encryptUnwrap
  | .encryptUnwrap => s.goOn .signUnwrap
  | .signUnwrap => { s.goOn .unwrap with unwrapSubmitted := true }
  | .unwrapReceipt none => s.fail (.reverted (asset.stage ++ "-request"))
  | .unwrapReceipt (some (id, burned)) => s.goOn (.requestEvent id burned)
  | .requestEvent id burned => s.goOn (.decryptPublic id burned)
  | .decryptPublic id burned =>
    if burned ≠ amount then s.fail .unwrapAmountMismatch else s.goOn (.signFinalize id)
  | .signFinalize id => s.goOn (.finalize id)
  | .finalizeReceipt success =>
    if success then s.goOn .resolved else s.fail (.reverted (asset.stage ++ "-finalize"))
  | .withdrawal _ | .unwrap | .finalize _ | .resolved | .failed _ => s

/-- The transaction that was broadcast is mined; `handle` names the balance from then on. -/
def mined (handle : Nat) : V2Withdrawal X :=
  match s.await with
  | .withdrawal old =>
    match asset.withdraw E cfg account amount s.world with
    | .ok (world, sent) =>
      { s with
        world
        handle
        await := .withdrawalReceipt old true
        payment := some {
          sent
          owedBefore := asset.owed s.world account
          owedAfter := asset.owed world account
          privateBefore := O.confidentialBalance s.world.ext account
          privateAfter := O.confidentialBalance world.ext account } }
    | .error _ => s.goOn (.withdrawalReceipt old false)
  | .unwrap =>
    match E.unwrap s.world.ext account account account amount with
    | some (x, id) =>
      { s with
        world := { s.world with ext := x }
        await := .unwrapReceipt (some (id,
          match O.unwrapRequest x id with
          | .outstanding _ burned => burned
          | _ => 0))
        burn := some ⟨O.confidentialBalance s.world.ext account, O.confidentialBalance x account⟩ }
    | none => s.goOn (.unwrapReceipt none)
  | .finalize id =>
    match E.finalizeUnwrap s.world.ext id amount ⟨true⟩ with
    | some x => { s with world := { s.world with ext := x }, await := .finalizeReceipt true }
    | none => s.goOn (.finalizeReceipt false)
  | _ => s

inductive Label (X : Type)
  /-- The contracts take a step that is not of the operation. -/
  | others (label : Leopold.Label Nat Nat Bool X) (world : PlainWorld X) (handle : Nat)
  | answered
  | throws (error : V2WithdrawalError)
  | mined (handle : Nat)

def next : Label X → V2Withdrawal X
  | .others _ world handle => { s with world, handle }
  | .answered => s.answered account asset amount
  | .throws error => s.fail error
  | .mined handle => s.mined E O cfg account asset amount handle

/-- What is broadcast and not mined yet. -/
def broadcast : Bool :=
  match s.await with
  | .withdrawal _ | .unwrap | .finalize _ => true
  | _ => false

def ended : Bool :=
  match s.await with
  | .resolved | .failed _ => true
  | _ => false

/-- The handles of later states are later ones, and a transaction that writes the balance makes a
new one. -/
def Enabled : Label X → Prop
  | .others label world handle => Step Fhe.plain E cfg s.world label world ∧ s.handle ≤ handle
  | .answered => s.broadcast = false ∧ s.ended = false
  | .throws _ => s.ended = false
  | .mined handle => s.broadcast = true ∧ s.handle < handle

/-- The runs of one withdrawal, from any state of the contracts. -/
def withdrawals : TransitionSystem (V2Withdrawal X) (Label X) where
  init s := ∃ w handle, (system Fhe.plain E cfg).Reachable w ∧ s = start amount w handle
  step s label s' := s.Enabled E cfg label ∧ s' = s.next E O cfg account asset amount label

/-! ### What is promised -/

/-- A withdrawal only unwraps what the vault has paid. -/
structure PaidOut : Prop where
  /-- It resolves when the vault has paid the amount, and then leaves the private balance as it
  was. -/
  resolved : s.await = .resolved → ∃ payment burn, s.payment = some payment ∧
    s.burn = some burn ∧ payment.sent = amount ∧
    payment.owedAfter + amount = payment.owedBefore ∧
    burn.privateAfter + payment.privateAfter = payment.privateBefore + burn.privateBefore
  unwraps : s.unwrapSubmitted = true → ∃ payment, s.payment = some payment ∧ payment.sent ≠ 0

/-- It resolved although the vault paid nothing: what it unwrapped is other private funds of the
account. -/
structure UnwrappedOwn : Prop where
  resolved : s.await = .resolved
  unpaid : ∃ payment, s.payment = some payment ∧ payment.sent = 0 ∧
    payment.owedAfter = payment.owedBefore ∧ payment.privateAfter = payment.privateBefore
  burned : ∃ burn, s.burn = some burn ∧ burn.privateAfter + amount = burn.privateBefore

/-- A withdrawal that is not reverted is mined when the amount can be paid. -/
def Spared : Label X → Prop
  | .mined _ => ∀ handle, s.await = .withdrawal handle →
    (asset = .savings → s.world.vault.isActiveRoundOpen s.world.now = true) →
      asset.Payable account amount s.world
  | _ => True

end Code

end V2Withdrawal

end Leopold.Frontend
