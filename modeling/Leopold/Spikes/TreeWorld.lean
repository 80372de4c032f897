import Leopold.Lib.Lottery
import Leopold.Lib.Transition
import Leopold.Spikes.MomentForm

/-!
# Runs of the moment tree

The contract under the calls of its vault and of anybody else, the clock, and two histories: the
balance updates the tree has received, and what was paid to whom in which round.
-/

namespace Leopold

open Lib

/-- What an account was paid for a round. -/
structure TreePayment where
  roundId : Nat
  account : Address
  amount : Nat

/-- The contract, the clock, and the histories. -/
structure TreeWorld where
  tree : MomentTree Nat Nat
  now : Nat
  updates : List TreeUpdate
  payments : List TreePayment

/-- The transactions of the contract.  An encrypted input is missing when its proof is rejected. -/
inductive TreeCall
  | register (sender account : Address) (slot : Nat)
  | updateBalance (sender account : Address) (encryptedDelta : Option Nat) (increase : Bool)
  | updateBalanceFromVault (sender account : Address) (delta : Nat) (isSenderAllowed : Bool)
      (increase : Bool)
  | setAutoSavePreference (sender account : Address) (preference : AutoSavePreference)
  | fundPrize (sender : Address) (amount : UInt64)
  | requestRoundTotal (sender : Address) (roundId : Nat) (opensAt closesAt prize : UInt64)
  | finalizeRoundSelection (sender : Address) (roundId clearAggregateTwab : Nat)
      (aggregateCleartexts : Option Nat) (aggregateProof : DecryptionProof)
      (encryptedTicket : Option Nat)
  | finalizeRoundSelectionFromVault (sender : Address) (roundId clearAggregateTwab : Nat)
      (aggregateCleartexts : Option Nat) (aggregateProof : DecryptionProof) (acceptedTicket : Nat)
      (isSenderAllowed : Bool)
  | startPrivateResult (sender : Address) (roundId : Nat)
  | advancePrivateResult (roundId : Nat) (account : Address) (maxSteps : Nat)
  | finalizePrivateResult (roundId : Nat) (account : Address)
  | finalizeAutoSave (roundId : Nat) (account : Address)

inductive TreeEvent
  | call (c : TreeCall)
  | tick (timestamp : Nat)

namespace TreeCall

variable (cfg : MomentTree.Config Nat)

def execute (now : Nat) (s : MomentTree Nat Nat) :
    TreeCall → Except MomentTreeError (MomentTree Nat Nat)
  | .register sender account slot => s.register cfg sender account slot
  | .updateBalance sender account encryptedDelta increase =>
    s.updateBalance Fhe.plain cfg sender account encryptedDelta increase now
  | .updateBalanceFromVault sender account delta isSenderAllowed increase =>
    s.updateBalanceFromVault Fhe.plain cfg sender account delta isSenderAllowed increase now
  | .setAutoSavePreference sender account preference =>
    s.setAutoSavePreference cfg sender account preference now
  | .fundPrize sender amount => s.fundPrize cfg sender amount.toNat
  | .requestRoundTotal sender roundId opensAt closesAt prize =>
    s.requestRoundTotal Fhe.plain cfg sender roundId opensAt.toNat closesAt.toNat prize.toNat now
  | .finalizeRoundSelection sender roundId clearAggregateTwab aggregateCleartexts aggregateProof
      encryptedTicket =>
    s.finalizeRoundSelection Fhe.plain cfg sender roundId clearAggregateTwab aggregateCleartexts
      aggregateProof encryptedTicket
  | .finalizeRoundSelectionFromVault sender roundId clearAggregateTwab aggregateCleartexts
      aggregateProof acceptedTicket isSenderAllowed =>
    s.finalizeRoundSelectionFromVault Fhe.plain cfg sender roundId clearAggregateTwab
      aggregateCleartexts aggregateProof acceptedTicket isSenderAllowed
  | .startPrivateResult sender roundId => s.startPrivateResult Fhe.plain cfg sender roundId
  | .advancePrivateResult roundId account maxSteps =>
    s.advancePrivateResult Fhe.plain cfg roundId account maxSteps
  | .finalizePrivateResult roundId account =>
    s.finalizePrivateResult Fhe.plain cfg roundId account
  | .finalizeAutoSave roundId account => s.finalizeAutoSave Fhe.plain cfg roundId account now

/-- The balance update a successful call makes. -/
def update (now : Nat) (s : MomentTree Nat Nat) : TreeCall → List TreeUpdate
  | .updateBalance _ account (some delta) increase =>
    [⟨s.slotOf account, delta, increase, uint64 now⟩]
  | .updateBalanceFromVault _ account delta _ increase =>
    [⟨s.slotOf account, delta, increase, uint64 now⟩]
  | .finalizeAutoSave roundId account =>
    [⟨s.slotOf account, (s.sessions roundId account).autoSaveCredit, true, uint64 now⟩]
  | _ => []

/-- What a successful call pays: the growth of the winnings and the credit to save. -/
def payment (s s' : MomentTree Nat Nat) : TreeCall → List TreePayment
  | .finalizePrivateResult roundId account =>
    [⟨roundId, account, Fhe.plain.sub64 (s'.winnings account) (s.winnings account) +
      (s'.sessions roundId account).autoSaveCredit⟩]
  | _ => []

end TreeCall

namespace TreeWorld

variable (cfg : MomentTree.Config Nat)

/-- A call that reverts leaves everything as it was, and the clock does not go back. -/
def apply (w : TreeWorld) : TreeEvent → TreeWorld
  | .call c =>
    match c.execute cfg w.now w.tree with
    | .error _ => w
    | .ok tree => { w with
      tree
      updates := w.updates ++ c.update w.now w.tree
      payments := w.payments ++ c.payment w.tree tree }
  | .tick timestamp =>
    if w.now ≤ timestamp ∧ timestamp < 2 ^ 64 then { w with now := timestamp } else w

def system : TransitionSystem TreeWorld TreeEvent where
  init w := w.tree = MomentTree.deployed Fhe.plain ∧ w.now < 2 ^ 64 ∧ w.updates = [] ∧
    w.payments = []
  step w event w' := w.apply cfg event = w'

/-- No account has gone below zero and the total fits 64 bits. -/
structure Solvent (w : TreeWorld) : Prop where
  accounts : ∀ slot < cfg.depth.capacity, 0 ≤ net cfg.depth w.updates (cfg.depth.leaf slot)
  total : net cfg.depth w.updates 1 < 2 ^ 64

instance (w : TreeWorld) : Decidable (Solvent cfg w) :=
  decidable_of_iff ((∀ slot < cfg.depth.capacity,
    0 ≤ net cfg.depth w.updates (cfg.depth.leaf slot)) ∧ net cfg.depth w.updates 1 < 2 ^ 64)
    ⟨fun h => ⟨h.1, h.2⟩, fun h => ⟨h.accounts, h.total⟩⟩

end TreeWorld

end Leopold
