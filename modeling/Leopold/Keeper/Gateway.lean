import Leopold.Keeper.Journal
import Leopold.Keeper.Planner

/-!
# Snapshots of the gateway

How the gateway builds the snapshot of a vault from the answers of the vault and of its escrow at
one block.  Past rounds and auto-entry accounts are read in pages that go round in circles, with
cursors kept as journal checkpoints; a hint adds the round and the account of one action.
-/

namespace Leopold.Keeper

open Lib

structure ScanPage where
  indexes : List Nat
  nextCursor : Nat
  deriving DecidableEq, Repr

/-- A page of `count` indexes from a cursor on; the page size is positive. -/
def circularScanPage (count cursor maximumPageSize : Nat) : ScanPage :=
  if count = 0 then ⟨[], 0⟩
  else
    let start := cursor % count
    let pageSize := min count maximumPageSize
    ⟨(List.range pageSize).map fun offset => (start + offset) % count,
      (start + pageSize) % count⟩

/-- The page after the one the checkpoint remembers. -/
def persistentCircularScanPage (count : Nat) (encodedCursor : Option String)
    (maximumPageSize : Nat) : Option ScanPage :=
  match encodedCursor with
  | none => some (circularScanPage count 0 maximumPageSize)
  | some encoded =>
    (bigInt encoded).map fun cursor => circularScanPage count cursor maximumPageSize

/-- The answers of a vault and its escrow at one block.  The escrow is asked about an account by
its address, whatever its spelling. -/
structure VaultView where
  activeRoundId : Nat
  bondAmount : Nat
  roundInfo : Nat → RoundSnapshot
  candidateValidityHandle : Nat → String
  autoEntryAccounts : List String
  isAutoEntryEnabled : String → Nat → Bool
  automationBondCredit : String → Nat
  isRegistered : Nat → String → Bool
  /-- The `scheduled` flag of `autoEntryPreference`. -/
  isAutoEntryScheduled : String → Bool

/-- The settings of the gateway; `getAddress` is the checksummed spelling of an address. -/
structure GatewayConfig where
  autoEntryScanSize : Nat
  historicalScanSize : Nat
  getAddress : String → String

section Read

variable (config : GatewayConfig) (checkpoint : String → Option String)

/-- What the escrow answers about an account. -/
def readCandidate (view : VaultView) (roundId : Nat) (account : String) : AutoEntryCandidate where
  account := account
  enabled := view.isAutoEntryEnabled account.toLower roundId
  prospectivelyEnabled := some (view.isAutoEntryScheduled account.toLower)
  availableCredit := view.automationBondCredit account.toLower
  registered := view.isRegistered roundId account.toLower

/-- The hinted account of this vault. -/
def requiredAccount (vault : VaultConfig) (hint : Option SnapshotReadHint) : Option String :=
  hint.bind fun hint =>
    if hint.vaultAddress.toLower = vault.address.toLower then hint.account else none

/-- The accounts of the page, and the hinted one unless it is among them. -/
def candidateAccounts (vault : VaultConfig) (view : VaultView) (page : ScanPage)
    (hint : Option SnapshotReadHint) : List String :=
  let accounts := page.indexes.filterMap fun index =>
    (view.autoEntryAccounts[index]?).map config.getAddress
  match requiredAccount vault hint with
  | none => accounts
  | some required =>
    if accounts.any fun account => account.toLower == required.toLower then accounts
    else accounts ++ [config.getAddress required]

def readAutoEntryCandidates (vault : VaultConfig) (view : VaultView)
    (hint : Option SnapshotReadHint) : Option (List AutoEntryCandidate) :=
  (persistentCircularScanPage view.autoEntryAccounts.length
    (checkpoint ("auto-entry:" ++ vault.address.toLower)) config.autoEntryScanSize).map
    fun page => (candidateAccounts config vault view page hint).map
      (readCandidate view view.activeRoundId)

/-- The rounds of the page, the active one, and the hinted one unless it is among them. -/
def readRoundIds (vault : VaultConfig) (view : VaultView) (page : ScanPage)
    (hint : Option SnapshotReadHint) : List Nat :=
  let roundIds := page.indexes.map (· + 1) ++ [view.activeRoundId]
  match hint with
  | none => roundIds
  | some hint =>
    match hint.roundId with
    | none => roundIds
    | some roundId =>
      if hint.vaultAddress.toLower = vault.address.toLower ∧ 0 < roundId ∧
          roundId ≤ view.activeRoundId ∧ roundId ∉ roundIds then
        roundIds ++ [roundId]
      else roundIds

/-- The answer of `roundInfo`, with the validity handle of a pending or rejected candidate. -/
def readRound (view : VaultView) (roundId : Nat) : RoundSnapshot :=
  let info := view.roundInfo roundId
  { info with
    roundId
    candidateValidityHandle :=
      if info.state = .candidateValidityPending ∨ info.state = .candidateRejected then
        some (view.candidateValidityHandle roundId)
      else none }

def readVault (vault : VaultConfig) (view : VaultView) (hint : Option SnapshotReadHint) :
    Option VaultSnapshot := do
  let page ← persistentCircularScanPage (view.activeRoundId - 1)
    (checkpoint ("historical:" ++ vault.address.toLower)) config.historicalScanSize
  let rounds := (readRoundIds vault view page hint).map (readRound view)
  let autoEntryCandidates ←
    (if vault.automaticEntry then readAutoEntryCandidates config checkpoint vault view hint
      else some [])
  return {
    vault
    activeRoundId := view.activeRoundId
    bondAmount := view.bondAmount
    autoEntryCandidates
    rounds }

/-- A block and what the configured vaults answer at it. -/
structure ChainView where
  blockNumber : Nat
  blockHash : String
  blockTimestamp : Nat
  vaults : List (VaultConfig × VaultView)

def readSnapshot (chain : ChainView) (hint : Option SnapshotReadHint) :
    Option ProtocolSnapshot := do
  let vaults ← chain.vaults.mapM fun (vault, view) => readVault config checkpoint vault view hint
  return {
    chainId := SEPOLIA_CHAIN_ID
    blockNumber := chain.blockNumber
    blockHash := chain.blockHash
    blockTimestamp := chain.blockTimestamp
    vaults }

end Read

end Leopold.Keeper
