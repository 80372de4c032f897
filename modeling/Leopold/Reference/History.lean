import Leopold.Reference.Models

/-!
# The history of the research model

The `History` of `reference-model.cjs`, which every node of the research segment tree keeps.  Its
integers are exact and a change carries its sign; the errors carry the texts it throws.
-/

namespace Leopold

open Lib

namespace History

/-- `update`; answers the observations it leaves. -/
def update (delta : Int) (timestamp : Nat) (observations : List Checkpoint) :
    Except String (List Checkpoint) := do
  let previous := observations.getLast?
  revertIf (previous.any (timestamp < ·.timestamp) = true) "non-chronological mutation"
  let cumulative :=
    (previous.map fun o => o.cumulative + o.balance * (timestamp - o.timestamp)).getD 0
  let balance : Int := (previous.map Checkpoint.balance).getD 0 + delta
  revertIf (balance < 0) "negative balance"
  if previous.any (·.timestamp = timestamp) then
    return observations.dropLast ++ [⟨timestamp, balance.toNat, cumulative⟩]
  else return observations ++ [⟨timestamp, balance.toNat, cumulative⟩]

/-- Answers nothing where the method would read an observation that does not exist. -/
def cumulativeAt (timestamp : Nat) (observations : List Checkpoint) : Option Nat :=
  TwabReferenceModel.interpolate observations timestamp

def twab (start fin : Nat) (observations : List Checkpoint) : Option Int := do
  let cumulativeEnd ← cumulativeAt fin observations
  let cumulativeStart ← cumulativeAt start observations
  return cumulativeEnd - cumulativeStart

end History

end Leopold
