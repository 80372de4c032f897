import Leopold.Keeper.Lifecycle
import Mathlib.Data.List.Sort

/-!
# The lifecycle planner

`planNextAction` picks one action from a snapshot, `isActionRequired` says whether an action is
still to be done.
-/

namespace Leopold.Keeper

def findRound (vault : VaultSnapshot) (roundId : Nat) : Option RoundSnapshot :=
  vault.rounds.find? (·.roundId = roundId)

def actionKey (vault : VaultSnapshot) (round : RoundSnapshot) (kind : LifecycleActionKind)
    (version : String) : String :=
  vault.vault.address.toLower ++ ":" ++ toString round.roundId ++ ":" ++ kind.name ++ ":" ++
    version

def createAction (vault : VaultSnapshot) (round : RoundSnapshot) (kind : LifecycleActionKind)
    (version : String) (cursor : Option Nat) (account : Option String) : LifecycleAction where
  key := actionKey vault round kind version
  kind := kind
  vault := vault.vault
  roundId := round.roundId
  cursor := cursor
  account := account

def actionForRound (vault : VaultSnapshot) (round : RoundSnapshot) : Option LifecycleAction :=
  let phase kind version := some (createAction vault round kind version none none)
  match round.state with
  | .aggregatePending => phase .finalizeAggregate "phase"
  | .aggregateFinalized => phase .generateRandomCandidate "initial"
  | .empty => phase .settleEmptyRound "phase"
  | .candidateValidityPending =>
    phase .finalizeCandidateValidity (round.candidateValidityHandle.getD "pending-handle")
  | .candidateRejected =>
    phase .generateRandomCandidate (round.candidateValidityHandle.getD "rejected-handle")
  | .ticketAccepted | .winnerProcessing =>
    some (createAction vault round .processSelection (toString round.selectionCursor)
      (some round.selectionCursor) none)
  | .reconciliationPending => phase .finalizeReconciliation "phase"
  | .reconciliationFailed => phase .recoverFailedReconciliation "phase"
  | .readyToAllocate | .allocationProcessing =>
    some (createAction vault round .processAllocation (toString round.allocationCursor)
      (some round.allocationCursor) none)
  | .winningsAllocated => phase .finalizeSettlement "phase"
  | .uninitialized | .open | .settled => none

/-- The active round, if it is open. -/
def openRound (vault : VaultSnapshot) : Option RoundSnapshot :=
  (findRound vault vault.activeRoundId).filter (·.state = .open)

def dueClosure (now : Nat) (vault : VaultSnapshot) : Option LifecycleAction :=
  match openRound vault with
  | none => none
  | some active =>
    if now < active.closesAt then none
    else some (createAction vault active .closeRound (toString active.closesAt) none none)

/-- Older rounds first, then smaller vault ids. -/
def closureOrder (left right : LifecycleAction) : Bool :=
  left.roundId < right.roundId ||
    (left.roundId == right.roundId && left.vault.id ≤ right.vault.id)

def sortById (vaults : List VaultSnapshot) : List VaultSnapshot :=
  vaults.mergeSort fun left right => decide (left.vault.id ≤ right.vault.id)

/-- The auto-entry work of a vault whose active round is open and not due. -/
def autoEntryAction (now : Nat) (vault : VaultSnapshot) : Option LifecycleAction :=
  match openRound vault with
  | none => none
  | some active =>
    if active.closesAt ≤ now then none else
    match vault.autoEntryCandidates.find? fun entry =>
      entry.enabled && !entry.registered && decide (vault.bondAmount ≤ entry.availableCredit) with
    | some candidate =>
      some (createAction vault active .registerAutoEntry candidate.account.toLower none
        (some candidate.account))
    | none =>
      match vault.autoEntryCandidates.find? fun entry =>
        !entry.enabled && entry.prospectivelyEnabled != some true with
      | some stale =>
        some (createAction vault active .pruneAutoEntry stale.account.toLower none
          (some stale.account))
      | none => none

/-- The closed rounds that are not settled, oldest first. -/
def unfinishedRounds (vault : VaultSnapshot) : List RoundSnapshot :=
  (vault.rounds.filter fun round =>
    decide (round.roundId < vault.activeRoundId) && round.state != .settled).mergeSort
    fun left right => decide (left.roundId ≤ right.roundId)

/-- One globally legal operation.  Expired active rounds are closed first, so that allocation's
guard on an open active round cannot strand prior rounds. -/
def planNextAction (snapshot : ProtocolSnapshot) : Option LifecycleAction :=
  let dueClosures := (snapshot.vaults.filterMap (dueClosure snapshot.blockTimestamp)).mergeSort
    closureOrder
  (dueClosures.head?.or ((sortById snapshot.vaults).findSome?
    (autoEntryAction snapshot.blockTimestamp))).or
    ((sortById snapshot.vaults).findSome? fun vault =>
      (unfinishedRounds vault).findSome? (actionForRound vault))

section Sources

variable {now : Nat} {vault : VaultSnapshot} {round : RoundSnapshot} {action : LifecycleAction}

theorem dueClosure_eq_some (h : dueClosure now vault = some action) :
    ∃ active, openRound vault = some active ∧ active.closesAt ≤ now ∧
      action = createAction vault active .closeRound (toString active.closesAt) none none := by
  unfold dueClosure at h
  split at h
  · cases h
  · rename_i active hactive
    split_ifs at h with hdue
    exact ⟨active, hactive, by omega, by simpa using h.symm⟩

/-- Auto-entry work is for a candidate of the open active round. -/
theorem autoEntryAction_eq_some (h : autoEntryAction now vault = some action) :
    ∃ active, openRound vault = some active ∧ now < active.closesAt ∧
      ∃ candidate ∈ vault.autoEntryCandidates, ∃ kind,
        kind.isAccountAction = true ∧
        action = createAction vault active kind candidate.account.toLower none
          (some candidate.account) := by
  unfold autoEntryAction at h
  split at h
  · cases h
  · rename_i active hactive
    split_ifs at h with hdue
    refine ⟨active, hactive, by omega, ?_⟩
    split at h
    · rename_i candidate hfind
      exact ⟨candidate, List.mem_of_find?_eq_some hfind, .registerAutoEntry, rfl,
        by simpa using h.symm⟩
    · split at h
      · rename_i stale hfind
        exact ⟨stale, List.mem_of_find?_eq_some hfind, .pruneAutoEntry, rfl,
          by simpa using h.symm⟩
      · cases h

/-- Work on a closed round is not for an account. -/
theorem actionForRound_eq_some (h : actionForRound vault round = some action) :
    ∃ kind version cursor, LifecycleActionKind.isAccountAction kind = false ∧
      action = createAction vault round kind version cursor none := by
  unfold actionForRound at h
  split at h <;> cases h <;> exact ⟨_, _, _, rfl, rfl⟩

end Sources

/-- Where a planned action comes from. -/
theorem planNextAction_source {snapshot : ProtocolSnapshot} {action : LifecycleAction}
    (h : planNextAction snapshot = some action) :
    (∃ vault ∈ snapshot.vaults, dueClosure snapshot.blockTimestamp vault = some action) ∨
    (∃ vault ∈ snapshot.vaults, autoEntryAction snapshot.blockTimestamp vault = some action) ∨
    ∃ vault ∈ snapshot.vaults, ∃ round ∈ unfinishedRounds vault,
      actionForRound vault round = some action := by
  rw [planNextAction, Option.or_eq_some_iff, Option.or_eq_some_iff] at h
  rcases h with (hdue | ⟨-, hauto⟩) | ⟨-, hround⟩
  · have hmem := List.mem_of_mem_head? hdue
    rw [List.mem_mergeSort, List.mem_filterMap] at hmem
    exact .inl hmem
  · obtain ⟨vault, hvault, hauto⟩ := List.exists_of_findSome?_eq_some hauto
    exact .inr (.inl ⟨vault, List.mem_mergeSort.1 hvault, hauto⟩)
  · obtain ⟨vault, hvault, hround⟩ := List.exists_of_findSome?_eq_some hround
    obtain ⟨round, hmem, hround⟩ := List.exists_of_findSome?_eq_some hround
    exact .inr (.inr ⟨vault, List.mem_mergeSort.1 hvault, round, hmem, hround⟩)

/-- The candidate of the action's account. -/
def candidateOf (vault : VaultSnapshot) (action : LifecycleAction) : Option AutoEntryCandidate :=
  vault.autoEntryCandidates.find? fun entry =>
    some entry.account.toLower = action.account.map String.toLower

/-- What `isActionRequired` asks of the vault and the round it found. -/
def requiredFor (now : Nat) (vault : VaultSnapshot) (round : RoundSnapshot)
    (action : LifecycleAction) : Bool :=
  match action.kind with
  | .registerAutoEntry =>
    action.roundId == vault.activeRoundId &&
      (openRound vault).any (fun active => now < active.closesAt) &&
      (candidateOf vault action).any fun candidate =>
        candidate.enabled && !candidate.registered &&
          decide (vault.bondAmount ≤ candidate.availableCredit)
  | .pruneAutoEntry =>
    action.roundId == vault.activeRoundId &&
      (openRound vault).isSome &&
      (candidateOf vault action).any fun candidate =>
        !candidate.enabled && candidate.prospectivelyEnabled != some true
  | .closeRound =>
    vault.activeRoundId == action.roundId && round.state == .open && decide (round.closesAt ≤ now)
  | .finalizeAggregate => round.state == .aggregatePending
  | .settleEmptyRound => round.state == .empty
  | .generateRandomCandidate =>
    round.state == .aggregateFinalized || round.state == .candidateRejected
  | .finalizeCandidateValidity => round.state == .candidateValidityPending
  | .processSelection =>
    (round.state == .ticketAccepted || round.state == .winnerProcessing) &&
      some round.selectionCursor == action.cursor &&
      decide (round.selectionCursor < round.participantCount)
  | .finalizeReconciliation => round.state == .reconciliationPending
  | .recoverFailedReconciliation => round.state == .reconciliationFailed
  | .processAllocation =>
    (round.state == .readyToAllocate || round.state == .allocationProcessing) &&
      some round.allocationCursor == action.cursor &&
      decide (round.allocationCursor < round.participantCount) &&
      (openRound vault).any (fun active => now < active.closesAt)
  | .finalizeSettlement => round.state == .winningsAllocated

/-- The snapshot of the vault at the address. -/
def findVault (snapshot : ProtocolSnapshot) (address : String) : Option VaultSnapshot :=
  snapshot.vaults.find? fun candidate => candidate.vault.address.toLower = address.toLower

def isActionRequired (snapshot : ProtocolSnapshot) (action : LifecycleAction) : Bool :=
  match findVault snapshot action.vault.address with
  | none => false
  | some vault =>
    match findRound vault action.roundId with
    | none => false
    | some round => requiredFor snapshot.blockTimestamp vault round action

def actionChunkSize (action : LifecycleAction) : Option Nat :=
  match action.kind with
  | .processSelection => some SELECTION_CHUNK_SIZE
  | .processAllocation => some ALLOCATION_CHUNK_SIZE
  | _ => none

end Leopold.Keeper
