import Leopold.Lib.Checked
import Leopold.Lib.TimeWeighted

/-!
# The reference models

The parts of `leopoldModels.ts` that the contracts are tested against: the exact balance-time
model and the mapping of random candidates to tickets.  Its integers are exact; the errors carry
the texts it throws.  An account is the second half of a checkpoint key, in lower case.
-/

namespace Leopold

open Lib

structure Checkpoint where
  timestamp : Nat
  balance : Nat
  cumulative : Nat
  deriving DecidableEq, Repr

/-- `TwabReferenceModel` over the accounts `α`. -/
structure TwabReferenceModel (α : Type) where
  checkpoints : Nat → α → List Checkpoint
  vaultTotals : Nat → List Checkpoint

namespace TwabReferenceModel

variable {α : Type} [DecidableEq α]

/-- A model nobody has written to. -/
def initial : TwabReferenceModel α := ⟨fun _ _ => [], fun _ => []⟩

/-- `last(values)?.balance ?? 0n`. -/
def lastBalance (values : List Checkpoint) : Nat := (values.getLast?.map Checkpoint.balance).getD 0

def balance (m : TwabReferenceModel α) (vaultId : Nat) (account : α) : Nat :=
  lastBalance (m.checkpoints vaultId account)

/-- Answers the checkpoints the method leaves in its argument. -/
def write (checkpoints : List Checkpoint) (newBalance timestamp : Nat) :
    Except String (List Checkpoint) :=
  match checkpoints.getLast? with
  | none => .ok (checkpoints ++ [⟨timestamp, newBalance, 0⟩])
  | some previous => do
    revertIf (timestamp < previous.timestamp) "actions must be chronological"
    let cumulative := previous.cumulative + previous.balance * (timestamp - previous.timestamp)
    if previous.timestamp = timestamp then
      return checkpoints.dropLast ++ [⟨previous.timestamp, newBalance, cumulative⟩]
    else return checkpoints ++ [⟨timestamp, newBalance, cumulative⟩]

def change (vaultId : Nat) (account : α) (delta : Int) (timestamp : Nat)
    (m : TwabReferenceModel α) : Except String (TwabReferenceModel α) := do
  let user := m.checkpoints vaultId account
  let userBalance := lastBalance user
  revertIf (userBalance + delta < 0) "negative balance"
  let user ← write user (userBalance + delta).toNat timestamp
  let total := m.vaultTotals vaultId
  let totalBalance := lastBalance total
  revertIf (totalBalance + delta < 0) "negative aggregate"
  let total ← write total (totalBalance + delta).toNat timestamp
  return {
    checkpoints := Function.update m.checkpoints vaultId
      (Function.update (m.checkpoints vaultId) account user)
    vaultTotals := Function.update m.vaultTotals vaultId total }

/-- Answers nothing where the method would read a checkpoint that does not exist. -/
def interpolate (checkpoints : List Checkpoint) (timestamp : Nat) : Option Nat :=
  match checkpoints[0]? with
  | none => some 0
  | some first =>
    if timestamp < first.timestamp then some 0 else
    let low := bisect
      (fun middle => (checkpoints[middle]?).any fun o => decide (o.timestamp ≤ timestamp))
      checkpoints.length 0 checkpoints.length
    (checkpoints[low]?).map fun observation =>
      observation.cumulative + observation.balance * (timestamp - observation.timestamp)

def cumulativeAt (m : TwabReferenceModel α) (vaultId : Nat) (account : α) (timestamp : Nat) :
    Option Nat :=
  interpolate (m.checkpoints vaultId account) timestamp

end TwabReferenceModel

def UINT128_DOMAIN : Nat := 2 ^ 128

structure RejectionParameters where
  quotient : Nat
  limit : Nat
  acceptsAll : Bool
  deriving DecidableEq, Repr

def rejectionParameters (totalWeight : Nat) : Except String RejectionParameters := do
  revertIf (totalWeight = 0 ∨ totalWeight ≥ UINT128_DOMAIN) "total weight outside source domain"
  let quotient := UINT128_DOMAIN / totalWeight
  let limit := quotient * totalWeight
  return ⟨quotient, limit, limit == UINT128_DOMAIN⟩

/-- Answers the ticket of an accepted candidate. -/
def mapCandidate (candidate totalWeight : Nat) : Except String (Option Nat) := do
  revertIf (candidate ≥ UINT128_DOMAIN) "candidate outside uint128"
  let parameters ← rejectionParameters totalWeight
  if parameters.acceptsAll = false ∧ candidate ≥ parameters.limit then return none
  else return some (candidate % totalWeight)

end Leopold
