import Leopold.Keeper.Pruning
import Leopold.Keeper.Scanning
import Leopold.System.Interference

/-!
# The planner on the contract

What the gateway reads is what the vaults answer, and the calldata it encodes is run by the
contract.  An action that is planned is accepted, and takes one of the calls its vault needs; when
nothing is planned, everything that was read is settled.
-/

namespace Leopold.Keeper

open Lib

/-- The state of a round, under the keeper's name for it. -/
def RoundState.ofContract : Leopold.RoundState → RoundState
  | .uninitialized => .uninitialized
  | .open => .open
  | .aggregatePending => .aggregatePending
  | .aggregateFinalized => .aggregateFinalized
  | .empty => .empty
  | .candidateValidityPending => .candidateValidityPending
  | .candidateRejected => .candidateRejected
  | .ticketAccepted => .ticketAccepted
  | .winnerProcessing => .winnerProcessing
  | .winningsAllocated => .winningsAllocated
  | .settled => .settled
  | .reconciliationPending => .reconciliationPending
  | .reconciliationFailed => .reconciliationFailed
  | .readyToAllocate => .readyToAllocate
  | .allocationProcessing => .allocationProcessing

/-- `roundInfo` of the vault, as the gateway decodes it. -/
def roundInfo (v : PlainVault) (roundId : Nat) : RoundSnapshot where
  roundId
  opensAt := (v.rounds roundId).opensAt
  closesAt := (v.rounds roundId).closesAt
  state := .ofContract (v.rounds roundId).state
  publicAggregateTwab := (v.rounds roundId).publicAggregateTwab
  publicPrize := (v.rounds roundId).publicPrize
  participantCount := (v.rounds roundId).participantCountSnapshot
  selectionCursor := (v.rounds roundId).selectionCursor
  allocationCursor := (v.rounds roundId).allocationCursor
  candidateValidityHandle := none

/-- The answers are those of the vault; what the escrow says of accounts is left open. -/
structure VaultView.Shows (view : VaultView) (v : PlainVault) : Prop where
  activeRoundId : view.activeRoundId = v.activeRoundId
  roundInfo : view.roundInfo = Keeper.roundInfo v

/-- The contracts of the vaults a keeper is configured with, and the services it uses. -/
structure Deployment (X : Type) where
  vaults : List VaultConfig
  config : VaultConfig → Config
  externals : VaultConfig → Externals Nat Bool X
  keeper : Address
  gateway : GatewayConfig
  /-- The public decryption service, asked about a handle; a handle is its clear value here. -/
  publicDecrypt : Nat → Cleartexts × DecryptionProof

namespace Deployment

variable {X : Type} (d : Deployment X)

/-- The vaults have no automatic entry, the keeper is an outside account, and the decryption
service answers with the clear value and a proof of it. -/
structure Sound (O : VaultConfig → Observables X) : Prop where
  lawful : ∀ vault ∈ d.vaults,
    (d.externals vault).Lawful (O vault) (d.config vault).vault (d.config vault).asset
  keeper : ∀ vault ∈ d.vaults, (d.config vault).External d.keeper
  manual : ∀ vault ∈ d.vaults, vault.automaticEntry = false
  authentic : ∀ clear, d.publicDecrypt clear = (.encode clear, ⟨true⟩)

/-- `encodeAction`: the call of an action; `candidate` is the random number a draw takes.  The
contracts do not have the entry points of automatic entry. -/
def encodeAction (action : LifecycleAction) (candidate : Nat) (w : PlainWorld X) :
    Option (Call Nat Nat Bool) :=
  let round := w.vault.rounds action.roundId
  match action.kind with
  | .registerAutoEntry | .pruneAutoEntry => none
  | .closeRound => some .closeRound
  | .finalizeAggregate =>
    let proof := d.publicDecrypt round.aggregateTwab
    some (.finalizeAggregate action.roundId proof.1 proof.2)
  | .settleEmptyRound => some (.settleEmptyRound action.roundId)
  | .generateRandomCandidate => some (.generateRandomCandidate action.roundId candidate)
  | .finalizeCandidateValidity =>
    let proof := d.publicDecrypt round.candidateValid.toNat
    some (.finalizeCandidateValidity action.roundId proof.1 proof.2)
  | .processSelection => (actionChunkSize action).map (.processSelection action.roundId)
  | .finalizeReconciliation =>
    let proof := d.publicDecrypt round.reconciliationValid.toNat
    some (.finalizeSelectionReconciliation action.roundId proof.1 proof.2)
  | .recoverFailedReconciliation => some (.recoverFailedReconciliation action.roundId)
  | .processAllocation => (actionChunkSize action).map (.processAllocation action.roundId)
  | .finalizeSettlement => some (.finalizeSettlement action.roundId)

/-- The states of the vaults. -/
abbrev Worlds (X : Type) := VaultConfig → PlainWorld X

/-- The block shows the vaults as they are. -/
structure Shows (chain : ChainView) (worlds : Worlds X) : Prop where
  vaults : chain.vaults.map (·.1) = d.vaults
  views : ∀ entry ∈ chain.vaults, entry.2.Shows (worlds entry.1).vault
  blockTimestamp : ∀ vault ∈ d.vaults, (worlds vault).now = chain.blockTimestamp

/-- Every vault is in a state of one of its runs. -/
def Reachable (worlds : Worlds X) : Prop :=
  ∀ vault ∈ d.vaults,
    (system Fhe.plain (d.externals vault) (d.config vault)).Reachable (worlds vault)

end Deployment

/-! ### Reading a vault -/

section Read

variable {X : Type} {config : GatewayConfig} {checkpoint : String → Option String}
  {vault : VaultConfig} {view : VaultView} {hint : Option SnapshotReadHint} {shot : VaultSnapshot}
  {w : PlainWorld X} {r : Nat}

/-- The checkpoint of the historical scan. -/
def historicalKey (vault : VaultConfig) : String := "historical:" ++ vault.address.toLower

/-- Where the historical scan of a vault goes on. -/
def cursor (checkpoint : String → Option String) (vault : VaultConfig) : Option Nat :=
  (checkpoint (historicalKey vault)).elim (some 0) bigInt

theorem page_of_cursor {position : Nat} (count size : Nat)
    (h : cursor checkpoint vault = some position) :
    persistentCircularScanPage count (checkpoint (historicalKey vault)) size =
      some (circularScanPage count position size) := by
  rw [FileJournalStore.persistentCircularScanPage_eq,
    show (checkpoint (historicalKey vault)).elim (some 0) bigInt = some position from h,
    Option.map_some]

/-- The rounds of a vault that was read are those of the page of its scan, the active one, and the
hinted one. -/
theorem readVault_page (h : readVault config checkpoint vault view hint = some shot) :
    ∃ page, persistentCircularScanPage (view.activeRoundId - 1)
        (checkpoint (historicalKey vault)) config.historicalScanSize = some page ∧
      shot.rounds = (readRoundIds vault view page hint).map (readRound view) := by
  simp only [readVault, Option.bind_eq_bind, Option.bind_eq_some_iff, Option.pure_def,
    Option.some.injEq] at h
  obtain ⟨page, hpage, _, _, rfl⟩ := h
  exact ⟨page, hpage, rfl⟩

/-- A vault without automatic entry is read without candidates. -/
theorem readVault_manual (hmanual : vault.automaticEntry = false)
    (h : readVault config checkpoint vault view hint = some shot) :
    shot.autoEntryCandidates = [] := by
  obtain ⟨_, _, _, _, hcandidates⟩ := readVault_eq h
  rw [hmanual] at hcandidates
  exact (Option.some.inj hcandidates).symm

theorem autoEntryAction_none {now : Nat} (h : shot.autoEntryCandidates = []) :
    autoEntryAction now shot = none := by
  cases hauto : autoEntryAction now shot with
  | none => rfl
  | some action =>
    obtain ⟨_, _, _, candidate, hmem, _⟩ := autoEntryAction_eq_some hauto
    rw [h] at hmem
    exact absurd hmem List.not_mem_nil

theorem mem_readRoundIds_of_index {page : ScanPage} {index : Nat} (h : index ∈ page.indexes) :
    index + 1 ∈ readRoundIds vault view page hint := by
  have hbase : index + 1 ∈ page.indexes.map (· + 1) ++ [view.activeRoundId] :=
    List.mem_append_left _ (List.mem_map_of_mem h)
  unfold readRoundIds
  rcases hint with _ | ⟨address, account, _ | roundId⟩
  · exact hbase
  · exact hbase
  · dsimp only
    split_ifs
    · exact List.mem_append_left _ hbase
    · exact hbase

theorem readRound_state (h : view.Shows w.vault) :
    (readRound view r).state = .ofContract (w.vault.rounds r).state := by
  rw [readRound, h.roundInfo]
  rfl

/-- The active round is read, and found open. -/
theorem openRound_read (h : view.Shows w.vault)
    (hopen : (w.vault.rounds w.vault.activeRoundId).state = .open)
    (hread : readVault config checkpoint vault view hint = some shot) :
    openRound shot = some (readRound view w.vault.activeRoundId) := by
  obtain ⟨_, hactive, _, ⟨page, hrounds⟩, _⟩ := readVault_eq hread
  rw [openRound, hactive, findRound_map_readRound hrounds mem_readRoundIds, h.activeRoundId,
    Option.filter_some, if_pos]
  rw [readRound_state h, hopen]
  rfl

/-- A closure is planned as soon as the active round is over. -/
theorem dueClosure_read {now : Nat} (h : view.Shows w.vault)
    (hopen : (w.vault.rounds w.vault.activeRoundId).state = .open)
    (hread : readVault config checkpoint vault view hint = some shot) :
    dueClosure now shot =
      if now < (w.vault.rounds w.vault.activeRoundId).closesAt then none
      else some (createAction shot (readRound view w.vault.activeRoundId) .closeRound
        (toString (w.vault.rounds w.vault.activeRoundId).closesAt) none none) := by
  have hcloses : (readRound view w.vault.activeRoundId).closesAt =
      (w.vault.rounds w.vault.activeRoundId).closesAt := by
    rw [readRound, h.roundInfo]
    rfl
  unfold dueClosure
  rw [openRound_read h hopen hread]
  simp only [hcloses]

/-- The rounds that are unfinished are the closed ones, among those read, that are not settled. -/
theorem mem_unfinishedRounds (h : view.Shows w.vault)
    (hread : readVault config checkpoint vault view hint = some shot) {round : RoundSnapshot} :
    round ∈ unfinishedRounds shot ↔ ∃ r, round = readRound view r ∧ round ∈ shot.rounds ∧
      r < w.vault.activeRoundId ∧ (w.vault.rounds r).state ≠ .settled := by
  obtain ⟨_, hactive, _, ⟨page, hrounds⟩, _⟩ := readVault_eq hread
  have hsettled (s : Leopold.RoundState) :
      (RoundState.ofContract s != .settled) = true ↔ s ≠ .settled := by
    cases s <;> decide
  rw [unfinishedRounds, List.mem_mergeSort, List.mem_filter, hactive, h.activeRoundId,
    Bool.and_eq_true, decide_eq_true_eq]
  constructor
  · rintro ⟨hmem, hlt, hstate⟩
    have hread := hmem
    rw [hrounds] at hread
    obtain ⟨r, _, rfl⟩ := List.mem_map.1 hread
    rw [readRound_state h] at hstate
    exact ⟨r, rfl, hmem, hlt, (hsettled _).1 hstate⟩
  · rintro ⟨r, rfl, hmem, hlt, hstate⟩
    refine ⟨hmem, hlt, ?_⟩
    rw [readRound_state h]
    exact (hsettled _).2 hstate

end Read

/-! ### The call of a planned action -/

namespace Deployment

variable {X : Type} {d : Deployment X} {O : VaultConfig → Observables X} {worlds : Worlds X}
  {w : PlainWorld X} {view : VaultView} {shot : VaultSnapshot} {r : Nat}

/-- The planner asks of a round what its state asks for. -/
theorem encode_actionForRound (hd : d.Sound O) (h : view.Shows w.vault) (shot : VaultSnapshot)
    (r candidate : Nat) :
    (actionForRound shot (readRound view r)).bind (d.encodeAction · candidate w) =
      World.settlingCall r candidate w := by
  have hstate := readRound_state h (r := r)
  unfold actionForRound World.settlingCall
  cases hs : (w.vault.rounds r).state <;> rw [hs] at hstate <;>
    simp only [hs, hstate, RoundState.ofContract, Option.bind_some, Option.bind_none, encodeAction,
      createAction, actionChunkSize, Option.map_some, hd.authentic, readRound_roundId] <;> rfl

/-- If no closure is planned, none is due. -/
theorem dueClosure_none {snapshot : ProtocolSnapshot}
    (h : ((snapshot.vaults.filterMap (dueClosure snapshot.blockTimestamp)).mergeSort
      closureOrder).head? = none) (hshot : shot ∈ snapshot.vaults) :
    dueClosure snapshot.blockTimestamp shot = none := by
  by_contra hne
  obtain ⟨closure, hdue⟩ := Option.ne_none_iff_exists'.1 hne
  have hmem : closure ∈ (snapshot.vaults.filterMap
      (dueClosure snapshot.blockTimestamp)).mergeSort closureOrder :=
    List.mem_mergeSort.2 (List.mem_filterMap.2 ⟨shot, hshot, hdue⟩)
  rw [List.head?_eq_none_iff.1 h] at hmem
  exact absurd hmem List.not_mem_nil

/-- Where the action of a fleet without automatic entry comes from: closures come first. -/
theorem planNextAction_manual {snapshot : ProtocolSnapshot} {action : LifecycleAction}
    (hmanual : ∀ shot ∈ snapshot.vaults, shot.autoEntryCandidates = [])
    (h : planNextAction snapshot = some action) :
    (∃ shot ∈ snapshot.vaults, dueClosure snapshot.blockTimestamp shot = some action) ∨
      (∀ shot ∈ snapshot.vaults, dueClosure snapshot.blockTimestamp shot = none) ∧
        ∃ shot ∈ snapshot.vaults, ∃ round ∈ unfinishedRounds shot,
          actionForRound shot round = some action := by
  rcases planNextAction_source h with hdue | ⟨shot, hshot, hauto⟩ | hround
  · exact .inl hdue
  · rw [autoEntryAction_none (hmanual shot hshot)] at hauto
    cases hauto
  · cases hhead : ((snapshot.vaults.filterMap
        (dueClosure snapshot.blockTimestamp)).mergeSort closureOrder).head? with
    | some closure =>
      simp only [planNextAction, hhead, Option.some_or] at h
      obtain rfl := Option.some.inj h
      have hmem := List.mem_of_mem_head? hhead
      rw [List.mem_mergeSort, List.mem_filterMap] at hmem
      exact .inl hmem
    | none => exact .inr ⟨fun _ hshot => dueClosure_none hhead hshot, hround⟩

/-- Nothing is planned when no closure is due and no round that was read is unfinished. -/
theorem planNextAction_none {snapshot : ProtocolSnapshot} (h : planNextAction snapshot = none)
    (hshot : shot ∈ snapshot.vaults) : dueClosure snapshot.blockTimestamp shot = none ∧
      ∀ round ∈ unfinishedRounds shot, actionForRound shot round = none := by
  rw [planNextAction, Option.or_eq_none_iff, Option.or_eq_none_iff] at h
  obtain ⟨⟨hhead, _⟩, hrounds⟩ := h
  exact ⟨dueClosure_none hhead hshot, List.findSome?_eq_none_iff.1
    (List.findSome?_eq_none_iff.1 hrounds shot (List.mem_mergeSort.2 hshot))⟩

/-- A vault of a snapshot, with what was read of it. -/
theorem exists_read {config : GatewayConfig} {checkpoint : String → Option String}
    {chain : ChainView} {hint : Option SnapshotReadHint} {snapshot : ProtocolSnapshot}
    (hshows : d.Shows chain worlds)
    (hread : readSnapshot config checkpoint chain hint = some snapshot)
    (hshot : shot ∈ snapshot.vaults) : shot.vault ∈ d.vaults ∧
      ∃ view : VaultView, view.Shows (worlds shot.vault).vault ∧
        readVault config checkpoint shot.vault view hint = some shot := by
  obtain ⟨entry, hentry, hvault⟩ := exists_readVault (readSnapshot_vaults hread) hshot
  obtain ⟨hsame, _⟩ := readVault_eq hvault
  rw [hsame, ← hshows.vaults]
  exact ⟨List.mem_map_of_mem hentry, entry.2, hshows.views entry hentry, hvault⟩

/-- Every vault is in the snapshot. -/
theorem exists_shot {config : GatewayConfig} {checkpoint : String → Option String}
    {chain : ChainView} {hint : Option SnapshotReadHint} {snapshot : ProtocolSnapshot}
    {vault : VaultConfig} (hshows : d.Shows chain worlds)
    (hread : readSnapshot config checkpoint chain hint = some snapshot)
    (hvault : vault ∈ d.vaults) : ∃ shot ∈ snapshot.vaults, shot.vault = vault := by
  rw [← hshows.vaults] at hvault
  obtain ⟨entry, hentry, rfl⟩ := List.mem_map.1 hvault
  obtain ⟨i, hi, rfl⟩ := List.mem_iff_getElem.1 hentry
  have hall := readSnapshot_vaults hread
  have hlength := hall.length_eq
  have hat := List.forall₂_iff_get.1 hall
  exact ⟨snapshot.vaults[i], List.getElem_mem (hlength ▸ hi),
    (readVault_eq (hat.2 i hi (hlength ▸ hi))).1⟩

theorem readSnapshot_timestamp {config : GatewayConfig} {checkpoint : String → Option String}
    {chain : ChainView} {hint : Option SnapshotReadHint} {snapshot : ProtocolSnapshot}
    (hread : readSnapshot config checkpoint chain hint = some snapshot) :
    snapshot.blockTimestamp = chain.blockTimestamp := by
  simp only [readSnapshot, Option.bind_eq_bind, Option.bind_eq_some_iff, Option.pure_def,
    Option.some.injEq] at hread
  obtain ⟨_, _, rfl⟩ := hread
  rfl

variable {checkpoint : String → Option String} {chain : ChainView}
  {hint : Option SnapshotReadHint} {snapshot : ProtocolSnapshot} {action : LifecycleAction}

/-- The call of a planned action is a closure that is due, or, while none is, the call that a closed
round asks for. -/
theorem planned_call (hd : d.Sound O) (hw : d.Reachable worlds) (hshows : d.Shows chain worlds)
    (hread : readSnapshot d.gateway checkpoint chain hint = some snapshot)
    (hplan : planNextAction snapshot = some action) (candidate : Nat) :
    action.vault ∈ d.vaults ∧
      let w := worlds action.vault
      let closesAt := (w.vault.rounds w.vault.activeRoundId).closesAt
      (closesAt ≤ w.now ∧ d.encodeAction action candidate w = some .closeRound) ∨
        ∃ r, 0 < r ∧ r < w.vault.activeRoundId ∧ (w.vault.rounds r).state ≠ .settled ∧
          w.now < closesAt ∧
          d.encodeAction action candidate w = World.settlingCall r candidate w := by
  have hopen {vault : VaultConfig} (hvault : vault ∈ d.vaults) :=
    (World.reachable_bonded (hw vault hvault)).shape.active_open
  have hmanual : ∀ shot ∈ snapshot.vaults, shot.autoEntryCandidates = [] := by
    intro shot hshot
    obtain ⟨hvault, view, _, hshot⟩ := exists_read hshows hread hshot
    exact readVault_manual (hd.manual _ hvault) hshot
  rcases planNextAction_manual hmanual hplan with ⟨shot, hshot, hdue⟩ | ⟨hnone, shot, hshot, round,
    hround, haction⟩
  · obtain ⟨hvault, view, hview, hshot⟩ := exists_read hshows hread hshot
    rw [dueClosure_read hview (hopen hvault) hshot, readSnapshot_timestamp hread,
      ← hshows.blockTimestamp _ hvault] at hdue
    split_ifs at hdue with hlt
    obtain rfl := Option.some.inj hdue
    exact ⟨hvault, .inl ⟨Nat.not_lt.1 hlt, rfl⟩⟩
  · have hdue := hnone shot hshot
    obtain ⟨hvault, view, hview, hshot⟩ := exists_read hshows hread hshot
    rw [dueClosure_read hview (hopen hvault) hshot, readSnapshot_timestamp hread,
      ← hshows.blockTimestamp _ hvault] at hdue
    split_ifs at hdue with hlt
    obtain ⟨r, rfl, _, hclosed, hunsettled⟩ := (mem_unfinishedRounds hview hshot).1 hround
    have hencode := encode_actionForRound hd hview shot r candidate
    obtain ⟨kind, version, cursor, _, hsame⟩ := actionForRound_eq_some haction
    have hsamevault : action.vault = shot.vault := by rw [hsame]; rfl
    rw [haction, Option.bind_some] at hencode
    rw [hsamevault]
    refine ⟨hvault, .inr ⟨r, Nat.pos_of_ne_zero ?_, hclosed, hunsettled, hlt, hencode⟩⟩
    -- round 0 asks for nothing
    rintro rfl
    have hzero := (World.reachable_bonded (hw _ hvault)).shape.zero
    have hstate := readRound_state hview (r := 0)
    rw [hzero] at hstate
    simp only [actionForRound, hstate, Round.unset, RoundState.ofContract] at haction
    cases haction

/-- **Legal.**  A planned action is of a configured vault, and its call is accepted there: it takes
one of the calls the vault needs, or draws a candidate that will be rejected. -/
theorem planned_accepted (hd : d.Sound O) (hw : d.Reachable worlds) (hshows : d.Shows chain worlds)
    (hread : readSnapshot d.gateway checkpoint chain hint = some snapshot)
    (hplan : planNextAction snapshot = some action) (candidate : Nat)
    (hclock : ∀ vault ∈ d.vaults,
      (worlds vault).now + (d.config vault).roundDuration < 2 ^ 64)
    (hattempts : ∀ vault ∈ d.vaults, ∀ r, (worlds vault).vault.candidateAttempts r + 1 < 2 ^ 32) :
    action.vault ∈ d.vaults ∧ ∃ c w',
      d.encodeAction action candidate (worlds action.vault) = some c ∧
      exec Fhe.plain (d.externals action.vault) (d.config action.vault) d.keeper
        (worlds action.vault) c = .ok w' ∧
      (w'.remaining (d.config action.vault) <
          (worlds action.vault).remaining (d.config action.vault) ∨
        c.rejected (worlds action.vault).vault = true) ∧
      ∀ r, w'.vault.candidateAttempts r ≤ (worlds action.vault).vault.candidateAttempts r + 1 := by
  obtain ⟨hvault, hcall⟩ := planned_call hd hw hshows hread hplan candidate
  have hE := hd.lawful _ hvault
  have hreach := hw _ hvault
  have hkeeper := hd.keeper _ hvault
  refine ⟨hvault, ?_⟩
  rcases hcall with ⟨hdue, hencode⟩ | ⟨r, hpos, hclosed, hunsettled, hdue, hencode⟩
  · obtain ⟨hcfg, _, _⟩ := World.reachable_timed hE hreach
    obtain ⟨w', hw'⟩ := World.closeRound_accepted d.keeper hE hreach (hclock _ hvault) hdue
    refine ⟨_, w', hencode, hw',
      .inl (World.closeRound_remaining_lt hreach hcfg.duration_pos hw'), ?_⟩
    obtain ⟨v, hv, rfl⟩ := World.onVault_eq_ok.1 hw'
    obtain ⟨_, _, _, _, gs, rfl⟩ := Vault.closeRound_ok hv
    exact fun _ => Nat.le_succ _
  · obtain ⟨c, w', hc, hsettles, hw'⟩ := World.settlingCall_isOk hE hreach hkeeper hdue hpos hclosed
      hunsettled (hattempts _ hvault r) candidate
    exact ⟨c, w', hencode.trans hc, hw',
      World.exec_remaining_lt hE hreach hkeeper hdue hpos hclosed hsettles hw',
      (World.exec_only (World.reachable_bonded hreach).shape hsettles hw').attempts⟩

/-- **Complete.**  When nothing is planned, no active round is over, and every round that was read
is settled. -/
theorem unplanned_settled (hd : d.Sound O) (hw : d.Reachable worlds) (hshows : d.Shows chain worlds)
    (hread : readSnapshot d.gateway checkpoint chain hint = some snapshot)
    (hplan : planNextAction snapshot = none) {vault : VaultConfig} (hvault : vault ∈ d.vaults) :
    let w := worlds vault
    w.now < (w.vault.rounds w.vault.activeRoundId).closesAt ∧
      ∃ page, persistentCircularScanPage (w.vault.activeRoundId - 1)
          (checkpoint (historicalKey vault)) d.gateway.historicalScanSize = some page ∧
        ∀ index ∈ page.indexes, (w.vault.rounds (index + 1)).state = .settled := by
  obtain ⟨shot, hmem, rfl⟩ := exists_shot hshows hread hvault
  obtain ⟨_, view, hview, hshot⟩ := exists_read hshows hread hmem
  obtain ⟨hdue, hrounds⟩ := planNextAction_none hplan hmem
  have hshape := (World.reachable_bonded (hw _ hvault)).shape
  rw [dueClosure_read hview hshape.active_open hshot, readSnapshot_timestamp hread,
    ← hshows.blockTimestamp _ hvault] at hdue
  split_ifs at hdue with hlt
  obtain ⟨page, hpage, hids⟩ := readVault_page hshot
  rw [hview.activeRoundId] at hpage
  refine ⟨hlt, page, hpage, fun index hindex => ?_⟩
  have hfull : index < (worlds shot.vault).vault.activeRoundId - 1 := by
    rw [FileJournalStore.persistentCircularScanPage_eq] at hpage
    obtain ⟨position, _, rfl⟩ := Option.map_eq_some_iff.1 hpage
    exact FileJournalStore.fullPage.lt index hindex
  have hclosed := hshape.closed (index + 1) (Nat.succ_pos _) (by omega)
  by_contra hunsettled
  have hread : readRound view (index + 1) ∈ shot.rounds := by
    rw [hids]
    exact List.mem_map_of_mem (mem_readRoundIds_of_index hindex)
  have hnone := hrounds _ ((mem_unfinishedRounds hview hshot).2
    ⟨index + 1, rfl, hread, by omega, hunsettled⟩)
  have hencode := encode_actionForRound hd hview shot (index + 1) 0
  rw [hnone, Option.bind_none] at hencode
  unfold World.settlingCall at hencode
  cases hs : ((worlds shot.vault).vault.rounds (index + 1)).state <;>
    simp only [hs] at hencode hclosed hunsettled <;> simp_all

/-! ### A snapshot of the vaults -/

/-- The answers of a vault whose escrow knows no automatic entry. -/
def viewOf (v : PlainVault) (bondAmount : Nat) (candidateValidityHandle : Nat → String) :
    VaultView where
  activeRoundId := v.activeRoundId
  bondAmount
  roundInfo := roundInfo v
  candidateValidityHandle
  autoEntryAccounts := []
  isAutoEntryEnabled _ _ := false
  automationBondCredit _ := 0
  isRegistered _ _ := false
  isAutoEntryScheduled _ := false

/-- The vaults can be read if the cursors are numerals. -/
theorem exists_snapshot (hd : d.Sound O)
    (hcursors : ∀ vault ∈ d.vaults, ∃ position, cursor checkpoint vault = some position) {now : Nat}
    (hnow : ∀ vault ∈ d.vaults, (worlds vault).now = now) : ∃ chain snapshot,
      d.Shows chain worlds ∧ readSnapshot d.gateway checkpoint chain none = some snapshot := by
  let views := d.vaults.map fun vault => (vault, viewOf (worlds vault).vault 0 fun _ => "")
  have hread : ∀ entry ∈ views, ∃ shot,
      readVault d.gateway checkpoint entry.1 entry.2 none = some shot := by
    intro entry hentry
    obtain ⟨vault, hvault, rfl⟩ := List.mem_map.1 hentry
    obtain ⟨position, hposition⟩ := hcursors vault hvault
    have hpage (count : Nat) := page_of_cursor count d.gateway.historicalScanSize hposition
    simp only [historicalKey] at hpage
    simp [readVault, viewOf, hpage, hd.manual vault hvault]
  obtain ⟨shots, hshots⟩ : ∃ shots, views.mapM (fun entry =>
      readVault d.gateway checkpoint entry.1 entry.2 none) = some shots := by
    generalize views = views at hread
    induction views with
    | nil => exact ⟨[], rfl⟩
    | cons entry rest ih =>
      obtain ⟨shot, hshot⟩ := hread entry List.mem_cons_self
      obtain ⟨shots, hshots⟩ := ih fun e he => hread e (List.mem_cons_of_mem _ he)
      refine ⟨shot :: shots, ?_⟩
      simp only [List.mapM_cons, hshot, hshots, Option.bind_eq_bind, Option.bind_some,
        Option.pure_def]
  refine ⟨⟨0, "", now, views⟩, ⟨SEPOLIA_CHAIN_ID, 0, "", now, shots⟩, ⟨?_, ?_, hnow⟩, ?_⟩
  · simp only [views, List.map_map]
    exact List.map_id _
  · intro entry hentry
    obtain ⟨vault, _, rfl⟩ := List.mem_map.1 hentry
    exact ⟨rfl, rfl⟩
  · exact Option.bind_eq_some_iff.2 ⟨shots, hshots, rfl⟩

/-! ### Legal and complete -/

/-- **The planner is legal and complete on the contract.**  Whatever cursors the keeper reads with,
a planned action is of a configured vault and its call is accepted there, whatever candidate is
drawn: it takes one of the calls the vault needs, or draws a candidate that will be rejected.  When
nothing is planned no active round is over and every round of the page is settled, so that all of
them are if the page holds all of them. -/
theorem planner_legal_complete (hd : d.Sound O) (hw : d.Reachable worlds)
    (hshows : d.Shows chain worlds)
    (hread : readSnapshot d.gateway checkpoint chain hint = some snapshot)
    (hclock : ∀ vault ∈ d.vaults,
      (worlds vault).now + (d.config vault).roundDuration < 2 ^ 64)
    (hattempts : ∀ vault ∈ d.vaults, ∀ r, (worlds vault).vault.candidateAttempts r + 1 < 2 ^ 32) :
    (∀ action, planNextAction snapshot = some action → ∀ candidate,
      let w := worlds action.vault
      action.vault ∈ d.vaults ∧ ∃ c w', d.encodeAction action candidate w = some c ∧
        exec Fhe.plain (d.externals action.vault) (d.config action.vault) d.keeper w c = .ok w' ∧
        (w'.remaining (d.config action.vault) < w.remaining (d.config action.vault) ∨
          c.rejected w.vault = true)) ∧
    (planNextAction snapshot = none → ∀ vault ∈ d.vaults,
      let w := worlds vault
      w.now < (w.vault.rounds w.vault.activeRoundId).closesAt ∧
        (∃ page, persistentCircularScanPage (w.vault.activeRoundId - 1)
            (checkpoint (historicalKey vault)) d.gateway.historicalScanSize = some page ∧
          FileJournalStore.FullPage d.gateway.historicalScanSize (w.vault.activeRoundId - 1) page ∧
          ∀ index ∈ page.indexes, (w.vault.rounds (index + 1)).state = .settled) ∧
        (w.vault.activeRoundId ≤ d.gateway.historicalScanSize + 1 →
          ∀ r, 0 < r → r < w.vault.activeRoundId → (w.vault.rounds r).state = .settled)) := by
  refine ⟨fun action hplan candidate => ?_, fun hplan vault hvault => ?_⟩
  · obtain ⟨hvault, c, w', hencode, hexec, hless, _⟩ :=
      planned_accepted hd hw hshows hread hplan candidate hclock hattempts
    exact ⟨hvault, c, w', hencode, hexec, hless⟩
  · obtain ⟨hdue, page, hpage, hsettled⟩ := unplanned_settled hd hw hshows hread hplan hvault
    have hpaged := hpage
    rw [FileJournalStore.persistentCircularScanPage_eq] at hpaged
    obtain ⟨position, _, rfl⟩ := Option.map_eq_some_iff.1 hpaged
    refine ⟨hdue, ⟨_, hpage, FileJournalStore.fullPage, hsettled⟩, fun hsize r hpos hclosed => ?_⟩
    have hmem : r - 1 ∈ (circularScanPage ((worlds vault).vault.activeRoundId - 1) position
        d.gateway.historicalScanSize).indexes := by
      rw [FileJournalStore.circularScanPage_indexes, Nat.min_eq_left (by omega)]
      exact mem_arc (Nat.le_refl _) (by omega)
    have hround := hsettled (r - 1) hmem
    rwa [Nat.sub_add_cancel hpos] at hround

end Deployment

namespace Demo

def everyday : VaultConfig := ⟨1, "Everyday", "0x01", "0x02", false⟩

/-- Alice's keeper serves one vault. -/
def deployment : Deployment MockChain where
  vaults := [everyday]
  config _ := Leopold.Demo.cfg
  externals _ := Leopold.Demo.externals
  keeper := Leopold.Demo.alice
  gateway := ⟨1, 1, id⟩
  publicDecrypt clear := (.encode clear, ⟨true⟩)

theorem sound : deployment.Sound fun _ => mockObservables where
  lawful _ _ := Leopold.Demo.lawful
  keeper _ _ := show Leopold.Demo.cfg.External Leopold.Demo.alice by decide
  manual vault hvault := by
    obtain rfl := List.mem_singleton.1 hvault
    rfl
  authentic _ := rfl

end Demo

open Leopold.Demo World in
/-- The keeper closes the round of alice and bob when it is over. -/
theorem planner_legal_complete_overdue : ∃ w chain snapshot,
    outcome cfg token 100 Leopold.Demo.chain overdueScript = .ok w ∧
    (w.vault.rounds 1).closesAt ≤ w.now ∧
    Demo.deployment.Shows chain (fun _ => w) ∧
    readSnapshot Demo.deployment.gateway (fun _ => none) chain none = some snapshot ∧
    (planNextAction snapshot = none →
      w.now < (w.vault.rounds w.vault.activeRoundId).closesAt) ∧
    ∀ action, planNextAction snapshot = some action → ∃ c w',
      Demo.deployment.encodeAction action 0 w = some c ∧
      exec Fhe.plain externals cfg alice w c = .ok w' := by
  obtain ⟨w, hw, hclock, _, hdue, hattempts⟩ := ends_overdue
  have hreach : Demo.deployment.Reachable fun _ => w := fun _ _ => outcome_reachable hw
  have hcursor : ∀ vault ∈ Demo.deployment.vaults, ∃ position,
      cursor (fun _ => none) vault = some position := fun _ _ => ⟨0, rfl⟩
  obtain ⟨chain, snapshot, hshows, hread⟩ :=
    Deployment.exists_snapshot Demo.sound hcursor fun _ _ => (rfl : w.now = w.now)
  obtain ⟨hlegal, hcomplete⟩ := Deployment.planner_legal_complete Demo.sound hreach hshows hread
    (fun _ _ => hclock) (fun _ _ r => by rw [hattempts]; exact (by decide : 0 + 1 < 2 ^ 32))
  refine ⟨w, chain, snapshot, hw, hdue, hshows, hread, fun hplan => ?_, fun action hplan => ?_⟩
  · exact (hcomplete hplan Demo.everyday List.mem_cons_self).1
  · obtain ⟨_, c, w', hencode, hexec, _⟩ := hlegal action hplan 0
    exact ⟨c, w', hencode, hexec⟩

end Leopold.Keeper
