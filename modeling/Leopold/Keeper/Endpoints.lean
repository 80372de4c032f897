import Leopold.Keeper.Pruning
import Leopold.Lib.Checked

/-!
# Snapshots over several endpoints

The gateway reads over several RPC endpoints, none of which it trusts alone: their heads have to be
close, they have to agree on the block at the lowest of them before and after the vaults are read,
and the strict provider answers a read only where all of them do.  Where one endpoint follows a
chain, what comes back is the snapshot of one block of that chain, whatever the others answer.
-/

namespace Leopold.Keeper

open Lib

/-! ## Block identities -/

structure RpcBlockIdentity where
  number : Nat
  hash : String
  timestamp : Nat
  deriving DecidableEq, Repr

/-- A block as an endpoint answers it; a pending block has no hash. -/
structure RpcBlockIdentityCandidate where
  number : Nat
  hash : Option String
  timestamp : Nat
  deriving DecidableEq, Repr

def requireCompleteBlockIdentity : Option RpcBlockIdentityCandidate →
    Except String RpcBlockIdentity
  | none => .error "RPC returned no complete block identity"
  | some block =>
    match block.hash with
    | none => .error "RPC returned no complete block identity"
    | some hash => do
      revertIf (hash = "") "RPC returned no complete block identity"
      return ⟨block.number, hash, block.timestamp⟩

/-- The comparison of two identities; hashes are compared up to their case. -/
def RpcBlockIdentity.Same (block other : RpcBlockIdentity) : Prop :=
  block.number = other.number ∧ block.hash.toLower = other.hash.toLower ∧
    block.timestamp = other.timestamp

instance (block other : RpcBlockIdentity) : Decidable (block.Same other) :=
  inferInstanceAs (Decidable (_ ∧ _))

def assertAgreedBlockIdentities : List RpcBlockIdentity → Except String RpcBlockIdentity
  | [] => .error "RPC block agreement requires at least one endpoint"
  | first :: rest => do
    revertIf (¬ ∀ block ∈ first :: rest, block.Same first)
      "RPC endpoints disagree on the authoritative block identity"
    return first

def MAX_ALLOWED_RPC_HEAD_LAG_BLOCKS : Nat := 2

def selectCommonBlockHeight : List RpcBlockIdentity → Except String Nat
  | [] => .error "RPC block agreement requires at least one endpoint"
  | first :: rest => do
    let minimum := rest.foldl (fun height block => min height block.number) first.number
    let maximum := rest.foldl (fun height block => max height block.number) first.number
    revertIf (MAX_ALLOWED_RPC_HEAD_LAG_BLOCKS < maximum - minimum)
      ("RPC head lag exceeds " ++ toString MAX_ALLOWED_RPC_HEAD_LAG_BLOCKS ++ " blocks")
    return minimum

def assertPinnedBlockIdentity (expected : RpcBlockIdentity)
    (pinnedBlocks : List RpcBlockIdentity) : Except String RpcBlockIdentity := do
  let canonical ← assertAgreedBlockIdentities pinnedBlocks
  revertIf (¬ canonical.Same expected) "Pinned block was reorganized during snapshot construction"
  return canonical

/-- The chain ids the endpoints answer; an answer that is no hexadecimal number is `none`. -/
def verifySepoliaRpcIdentity (chainIds : List (Option Nat)) : Except String Nat := do
  revertIf (chainIds = []) "At least one RPC endpoint is required"
  revertIf (none ∈ chainIds) "RPC endpoint returned an invalid eth_chainId"
  revertIf (¬ ∀ chainId ∈ chainIds, chainId = some SEPOLIA_CHAIN_ID)
    ("Every RPC endpoint must report Sepolia chain " ++ toString SEPOLIA_CHAIN_ID)
  return SEPOLIA_CHAIN_ID

/-- What is answered to one reading: by every endpoint about its chain, its head and, before and
after the vaults are read, its block at a height, and by the strict provider about a vault. -/
structure RpcAnswers where
  chainIds : List (Option Nat)
  latest : List (Option RpcBlockIdentityCandidate)
  common : Nat → List (Option RpcBlockIdentityCandidate)
  view : Nat → VaultConfig → VaultView
  canonical : Nat → List (Option RpcBlockIdentityCandidate)

/-- `EthersKeeperGateway.readSnapshot`. -/
def RpcAnswers.readSnapshot (rpc : RpcAnswers) (config : GatewayConfig)
    (checkpoint : String → Option String) (vaults : List VaultConfig)
    (hint : Option SnapshotReadHint) : Except String ProtocolSnapshot := do
  let chainId ← verifySepoliaRpcIdentity rpc.chainIds
  let latestBlocks ← rpc.latest.mapM requireCompleteBlockIdentity
  let commonBlockNumber ← selectCommonBlockHeight latestBlocks
  let commonBlocks ← (rpc.common commonBlockNumber).mapM requireCompleteBlockIdentity
  let block ← assertAgreedBlockIdentities commonBlocks
  let shots ← orRevert "Persisted scan cursor is invalid"
    (vaults.mapM fun vault => readVault config checkpoint vault (rpc.view block.number vault) hint)
  let canonicalBlocks ← (rpc.canonical block.number).mapM requireCompleteBlockIdentity
  let _ ← assertPinnedBlockIdentity block canonicalBlocks
  return {
    chainId
    blockNumber := block.number
    blockHash := block.hash
    blockTimestamp := block.timestamp
    vaults := shots }

/-! ## What the checks establish -/

variable {rpc : RpcAnswers} {config : GatewayConfig} {checkpoint : String → Option String}
  {vaults : List VaultConfig} {hint : Option SnapshotReadHint} {snapshot : ProtocolSnapshot}
  {blocks : List RpcBlockIdentity} {block first : RpcBlockIdentity} {n : Nat}

theorem RpcBlockIdentity.Same.refl : block.Same block := ⟨rfl, rfl, rfl⟩

theorem requireCompleteBlockIdentity_ok {number timestamp : Nat} {hash : String}
    (h : requireCompleteBlockIdentity (some ⟨number, some hash, timestamp⟩) = .ok block) :
    block = ⟨number, hash, timestamp⟩ := by
  obtain ⟨_, _, h⟩ := seq_eq_ok.1 h
  exact (ok_eq_ok.1 h).symm

theorem verifySepoliaRpcIdentity_ok {chainIds : List (Option Nat)} {chainId : Nat}
    (h : verifySepoliaRpcIdentity chainIds = .ok chainId) : chainId = SEPOLIA_CHAIN_ID := by
  obtain ⟨_, _, h⟩ := seq_eq_ok.1 h
  obtain ⟨_, _, h⟩ := seq_eq_ok.1 h
  obtain ⟨_, _, h⟩ := seq_eq_ok.1 h
  exact (ok_eq_ok.1 h).symm

theorem assertAgreedBlockIdentities_ok (h : assertAgreedBlockIdentities blocks = .ok first) :
    ∀ block ∈ blocks, block.Same first := by
  cases blocks with
  | nil => cases h
  | cons head rest =>
    obtain ⟨_, hagree, h⟩ := seq_eq_ok.1 h
    obtain rfl := ok_eq_ok.1 h
    exact not_not.1 (revertIf_eq_ok.1 hagree)

theorem assertPinnedBlockIdentity_ok {canonical : RpcBlockIdentity}
    (h : assertPinnedBlockIdentity first blocks = .ok canonical) :
    ∀ block ∈ blocks, block.Same first := by
  obtain ⟨c, hagree, h⟩ := seq_eq_ok.1 h
  obtain ⟨_, hsame, -⟩ := seq_eq_ok.1 h
  have hsame := not_not.1 (revertIf_eq_ok.1 hsame)
  intro block hblock
  obtain ⟨hn, hh, ht⟩ := assertAgreedBlockIdentities_ok hagree block hblock
  exact ⟨hn.trans hsame.1, hh.trans hsame.2.1, ht.trans hsame.2.2⟩

theorem foldl_min_le (rest : List RpcBlockIdentity) (height : Nat) :
    rest.foldl (fun height block => min height block.number) height ≤ height ∧
      ∀ block ∈ rest,
        rest.foldl (fun height block => min height block.number) height ≤ block.number := by
  induction rest generalizing height with
  | nil => exact ⟨le_rfl, fun _ h => absurd h List.not_mem_nil⟩
  | cons b rest ih =>
    obtain ⟨hle, hrest⟩ := ih (min height b.number)
    exact ⟨hle.trans (min_le_left ..),
      List.forall_mem_cons.2 ⟨hle.trans (min_le_right ..), hrest⟩⟩

theorem le_foldl_max (rest : List RpcBlockIdentity) (height : Nat) :
    height ≤ rest.foldl (fun height block => max height block.number) height ∧
      ∀ block ∈ rest,
        block.number ≤ rest.foldl (fun height block => max height block.number) height := by
  induction rest generalizing height with
  | nil => exact ⟨le_rfl, fun _ h => absurd h List.not_mem_nil⟩
  | cons b rest ih =>
    obtain ⟨hle, hrest⟩ := ih (max height b.number)
    exact ⟨(le_max_left ..).trans hle,
      List.forall_mem_cons.2 ⟨(le_max_right ..).trans hle, hrest⟩⟩

/-- The height is at most the head of every endpoint, and none is more than the lag above it. -/
theorem selectCommonBlockHeight_ok (h : selectCommonBlockHeight blocks = .ok n) :
    ∀ block ∈ blocks,
      n ≤ block.number ∧ block.number ≤ n + MAX_ALLOWED_RPC_HEAD_LAG_BLOCKS := by
  cases blocks with
  | nil => cases h
  | cons first rest =>
    obtain ⟨_, hlag, h⟩ := seq_eq_ok.1 h
    obtain rfl := ok_eq_ok.1 h
    have hlag := revertIf_eq_ok.1 hlag
    have hmin := foldl_min_le rest first.number
    have hmax := le_foldl_max rest first.number
    intro block hblock
    rcases List.mem_cons.1 hblock with rfl | hblock
    · exact ⟨hmin.1, by have := hmax.1; omega⟩
    · exact ⟨hmin.2 block hblock, by have := hmax.2 block hblock; omega⟩

/-! ## An endpoint that follows a chain -/

/-- A block and the answers of the vaults at it. -/
structure Block where
  hash : String
  timestamp : Nat
  vaults : VaultConfig → VaultView

/-- The chain as an endpoint knows it as time goes by: its head, and its block at a height. -/
structure Chain where
  head : Nat → Nat
  block : Nat → Nat → Option Block

namespace Chain

variable (c : Chain)

/-- The answer of `getBlock`. -/
def getBlock (time number : Nat) : Option RpcBlockIdentityCandidate :=
  (c.block time number).map fun block => ⟨number, some block.hash, block.timestamp⟩

/-- Hashes tell blocks apart, and a block that was reorganized away does not come back. -/
structure Lawful : Prop where
  hashes : ∀ {time time' number block block'}, c.block time number = some block →
    c.block time' number = some block' → block.hash.toLower = block'.hash.toLower → block = block'
  reorganized : ∀ {time time' time'' number}, time ≤ time' → time' ≤ time'' →
    c.block time number = c.block time'' number → c.block time' number = c.block time number

/-- The endpoint answered `a` at some time from `start` to `stop`. -/
def Said {α : Type} (start stop number : Nat) (vault : VaultConfig) (read : VaultView → α)
    (a : α) : Prop :=
  ∃ time block, start ≤ time ∧ time ≤ stop ∧ c.block time number = some block ∧
    read (block.vaults vault) = a

/-- Every call was answered as the endpoint answered it, each at a time of its own. -/
structure Observed (start stop number : Nat) (vault : VaultConfig) (view : VaultView) : Prop where
  activeRoundId : c.Said start stop number vault (·.activeRoundId) view.activeRoundId
  bondAmount : c.Said start stop number vault (·.bondAmount) view.bondAmount
  roundInfo : ∀ r, c.Said start stop number vault (·.roundInfo r) (view.roundInfo r)
  candidateValidityHandle : ∀ r,
    c.Said start stop number vault (·.candidateValidityHandle r) (view.candidateValidityHandle r)
  autoEntryAccounts : ∀ i : Nat,
    c.Said start stop number vault (fun view => view.autoEntryAccounts[i]?)
      view.autoEntryAccounts[i]?
  isAutoEntryEnabled : ∀ a r,
    c.Said start stop number vault (·.isAutoEntryEnabled a r) (view.isAutoEntryEnabled a r)
  automationBondCredit : ∀ a,
    c.Said start stop number vault (·.automationBondCredit a) (view.automationBondCredit a)
  isRegistered : ∀ r a,
    c.Said start stop number vault (·.isRegistered r a) (view.isRegistered r a)
  isAutoEntryScheduled : ∀ a,
    c.Said start stop number vault (·.isAutoEntryScheduled a) (view.isAutoEntryScheduled a)

/-- Endpoint `i` follows the chain: its head is asked first, then its block at a height, and this
again after the vaults were read.  The strict provider answers what all endpoints answer. -/
structure Follows (rpc : RpcAnswers) (i first start stop : Nat) : Prop where
  latest : rpc.latest[i]? = some (c.getBlock first (c.head first))
  common : ∀ number, (rpc.common number)[i]? = some (c.getBlock start number)
  view : ∀ number vault, c.Observed start stop number vault (rpc.view number vault)
  canonical : ∀ number, (rpc.canonical number)[i]? = some (c.getBlock stop number)

variable {c} {start stop : Nat} {vault : VaultConfig} {b : Block}

/-- While the block at a height stays, only it is read. -/
theorem Observed.eq {view : VaultView}
    (hb : ∀ time, start ≤ time → time ≤ stop → c.block time n = some b)
    (h : c.Observed start stop n vault view) : view = b.vaults vault := by
  have hsaid {α : Type} {read : VaultView → α} {a : α}
      (h : c.Said start stop n vault read a) : a = read (b.vaults vault) := by
    obtain ⟨time, block, hstart, hstop, hblock, rfl⟩ := h
    obtain rfl := Option.some.inj (hblock.symm.trans (hb time hstart hstop))
    rfl
  have haccounts := List.ext_getElem? fun i => hsaid (h.autoEntryAccounts i)
  have hround := funext fun r => hsaid (h.roundInfo r)
  have hhandle := funext fun r => hsaid (h.candidateValidityHandle r)
  have henabled := funext fun a => funext fun r => hsaid (h.isAutoEntryEnabled a r)
  have hcredit := funext fun a => hsaid (h.automationBondCredit a)
  have hregistered := funext fun r => funext fun a => hsaid (h.isRegistered r a)
  have hscheduled := funext fun a => hsaid (h.isAutoEntryScheduled a)
  have hactive := hsaid h.activeRoundId
  have hbond := hsaid h.bondAmount
  cases view
  cases hview : b.vaults vault
  simp_all

/-- An answered identity is the one of a block. -/
theorem exists_of_complete {time : Nat}
    (h : requireCompleteBlockIdentity (c.getBlock time n) = .ok block) :
    ∃ b, c.block time n = some b ∧ block = ⟨n, b.hash, b.timestamp⟩ := by
  unfold getBlock at h
  cases hb : c.block time n with
  | none =>
    rw [hb] at h
    cases h
  | some b =>
    rw [hb] at h
    exact ⟨b, rfl, requireCompleteBlockIdentity_ok h⟩

end Chain

/-- **Snapshots of one block.**  Where one endpoint follows a chain, a snapshot is what the vaults
answer at one block of that chain, which stayed while they were read and is at most two blocks
below the head. -/
theorem snapshot_of_block {c : Chain} {i start stop time : Nat} (hc : c.Lawful)
    (hfollows : c.Follows rpc i time start stop)
    (h : rpc.readSnapshot config checkpoint vaults hint = .ok snapshot) :
    ∃ b : Block, (∀ t, start ≤ t → t ≤ stop → c.block t snapshot.blockNumber = some b) ∧
      snapshot.blockHash.toLower = b.hash.toLower ∧
      snapshot.blockNumber ≤ c.head time ∧
      c.head time ≤ snapshot.blockNumber + MAX_ALLOWED_RPC_HEAD_LAG_BLOCKS ∧
      readSnapshot config checkpoint {
        blockNumber := snapshot.blockNumber
        blockHash := snapshot.blockHash
        blockTimestamp := b.timestamp
        vaults := vaults.map fun vault => (vault, b.vaults vault) } hint = some snapshot := by
  obtain ⟨chainId, hchain, h⟩ := seq_eq_ok.1 h
  obtain ⟨latestBlocks, hlatest, h⟩ := seq_eq_ok.1 h
  obtain ⟨commonBlockNumber, hheight, h⟩ := seq_eq_ok.1 h
  obtain ⟨commonBlocks, hcommon, h⟩ := seq_eq_ok.1 h
  obtain ⟨block, hagree, h⟩ := seq_eq_ok.1 h
  obtain ⟨shots, hshots, h⟩ := seq_eq_ok.1 h
  obtain ⟨canonicalBlocks, hcanonical, h⟩ := seq_eq_ok.1 h
  obtain ⟨_, hpinned, h⟩ := seq_eq_ok.1 h
  obtain rfl := ok_eq_ok.1 h
  obtain rfl := verifySepoliaRpcIdentity_ok hchain
  -- The head of the endpoint bounds the height.
  obtain ⟨head, hhead, hmem⟩ := getElem?_of_mapM hlatest hfollows.latest
  obtain ⟨_, _, rfl⟩ := Chain.exists_of_complete hhead
  have hlag := selectCommonBlockHeight_ok hheight _ (List.mem_of_getElem? hmem)
  -- Before and after the reads the agreed identity is that of its own block.
  obtain ⟨own, hown, hmem⟩ := getElem?_of_mapM hcommon (hfollows.common _)
  obtain ⟨b, hb, rfl⟩ := Chain.exists_of_complete hown
  obtain ⟨hnumber, hhash, htimestamp⟩ :=
    assertAgreedBlockIdentities_ok hagree _ (List.mem_of_getElem? hmem)
  obtain ⟨own, hown, hmem⟩ := getElem?_of_mapM hcanonical (hfollows.canonical _)
  obtain ⟨b', hb', rfl⟩ := Chain.exists_of_complete hown
  obtain ⟨-, hhash', -⟩ := assertPinnedBlockIdentity_ok hpinned _ (List.mem_of_getElem? hmem)
  dsimp only at hnumber hhash htimestamp hhash' hlag
  subst hnumber
  obtain rfl : b = b' := hc.hashes hb hb' (hhash.trans hhash'.symm)
  have hstays : ∀ t, start ≤ t → t ≤ stop → c.block t block.number = some b :=
    fun t ht ht' => (hc.reorganized ht ht' (hb.trans hb'.symm)).trans hb
  refine ⟨b, hstays, hhash.symm, hlag.1, hlag.2, ?_⟩
  have hviews : ∀ vault, rpc.view block.number vault = b.vaults vault :=
    fun vault => (hfollows.view _ vault).eq hstays
  have hshots := orRevert_eq_ok.1 hshots
  simp only [hviews] at hshots
  simp only [readSnapshot, List.mapM_map, Function.comp_def, hshots, htimestamp,
    Option.bind_eq_bind, Option.bind_some, Option.pure_def]

/-- A chain on which nothing happens. -/
def steadyChain : Chain where
  head _ := 5
  block _ _ := some ⟨"0x1", 10, fun _ => autoView 1 []⟩

/-- Its endpoint, and one that is a block behind. -/
def steadyAnswers : RpcAnswers where
  chainIds := [some SEPOLIA_CHAIN_ID, some SEPOLIA_CHAIN_ID]
  latest := [steadyChain.getBlock 0 5, steadyChain.getBlock 0 4]
  common number := [steadyChain.getBlock 1 number, steadyChain.getBlock 1 number]
  view _ _ := autoView 1 []
  canonical number := [steadyChain.getBlock 2 number, steadyChain.getBlock 2 number]

theorem steadyChain_lawful : steadyChain.Lawful where
  hashes h h' _ := Option.some.inj (h.symm.trans h')
  reorganized _ _ _ := rfl

theorem steadyChain_follows : steadyChain.Follows steadyAnswers 0 0 1 2 where
  latest := rfl
  common _ := rfl
  view number vault := by
    constructor <;> intros <;> exact ⟨1, _, by decide, by decide, rfl, rfl⟩
  canonical _ := rfl

theorem steadyAnswers_read : ∃ snapshot : ProtocolSnapshot,
    steadyAnswers.readSnapshot autoGateway (fun _ => none) [autoVault] none = .ok snapshot ∧
      snapshot.blockNumber = 4 := by
  let identity : RpcBlockIdentity := ⟨4, "0x1", 10⟩
  have hagreed : assertAgreedBlockIdentities [identity, identity] = .ok identity := by
    simp [assertAgreedBlockIdentities, RpcBlockIdentity.Same.refl, revertIf]
  have hpinned : assertPinnedBlockIdentity identity [identity, identity] = .ok identity := by
    simp [assertPinnedBlockIdentity, hagreed, RpcBlockIdentity.Same.refl, revertIf]
  refine ⟨_, seq_eq_ok.2 ⟨_, rfl, seq_eq_ok.2 ⟨_, rfl, seq_eq_ok.2 ⟨_, rfl, seq_eq_ok.2 ⟨_, rfl,
    seq_eq_ok.2 ⟨identity, hagreed, seq_eq_ok.2 ⟨_, rfl, seq_eq_ok.2 ⟨_, rfl,
      seq_eq_ok.2 ⟨identity, hpinned, rfl⟩⟩⟩⟩⟩⟩⟩⟩, ?_⟩
  rfl

/-- The two endpoints show block four, which is one below the head. -/
theorem snapshot_of_block_steady : ∃ snapshot : ProtocolSnapshot,
    steadyAnswers.readSnapshot autoGateway (fun _ => none) [autoVault] none = .ok snapshot ∧
    snapshot.blockNumber = 4 ∧
    ∃ b : Block, readSnapshot autoGateway (fun _ => none) {
      blockNumber := snapshot.blockNumber
      blockHash := snapshot.blockHash
      blockTimestamp := b.timestamp
      vaults := [autoVault].map fun vault => (vault, b.vaults vault) } none = some snapshot := by
  obtain ⟨snapshot, hread, hnumber⟩ := steadyAnswers_read
  obtain ⟨b, -, -, -, -, hsnapshot⟩ :=
    snapshot_of_block steadyChain_lawful steadyChain_follows hread
  exact ⟨snapshot, hread, hnumber, b, hsnapshot⟩

end Leopold.Keeper
