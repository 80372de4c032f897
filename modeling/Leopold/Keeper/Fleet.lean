import Leopold.Keeper.Broadcasts
import Leopold.Keeper.Settlement
import Leopold.Lib.Patience

/-!
# The keeper settles its vaults

The keeper reads a page of past rounds, takes the action that is planned, and stores the cursor of
the next page; other accounts use the vaults in between.  While no further round ends, a bounded
number of iterations of the keeper settles every closed round of every vault.
-/

namespace Leopold.Keeper

open Lib

/-- The vaults on the chain, and the checkpoints of the keeper's journal. -/
structure Fleet (X : Type) where
  worlds : Deployment.Worlds X
  checkpoint : String → Option String

inductive FleetLabel (X : Type)
  /-- The keeper reads a snapshot, and nothing is planned. -/
  | idle
  /-- The keeper takes the planned action; `candidate` is the random number a draw takes. -/
  | act (action : LifecycleAction) (candidate : Nat)
  /-- Another step of one vault. -/
  | other (vault : VaultConfig) (label : Label Nat Nat Bool X)
  | tick (now : Nat)

/-- An iteration of the keeper. -/
def FleetLabel.isIteration {X : Type} : FleetLabel X → Bool
  | .idle | .act .. => true
  | _ => false

namespace Deployment

variable {X : Type} (d : Deployment X)

/-- A read stores the cursor of the next page of every vault. -/
def Saved (f f' : Fleet X) : Prop :=
  ∀ vault ∈ d.vaults, ∃ page,
    persistentCircularScanPage ((f.worlds vault).vault.activeRoundId - 1)
        (f.checkpoint (historicalKey vault)) d.gateway.historicalScanSize = some page ∧
      f'.checkpoint (historicalKey vault) = some (toString page.nextCursor)

/-- One step, while no further round ends.  An iteration is one step: nobody acts between the
snapshot that is planned from and the execution of the call.  After an action the keeper reads
again, with pages nobody plans from: what becomes of the cursors then is left open. -/
def FleetStep (f : Fleet X) : FleetLabel X → Fleet X → Prop
  | .idle, f' => ∃ chain snapshot, d.Shows chain f.worlds ∧
      readSnapshot d.gateway f.checkpoint chain none = some snapshot ∧
      planNextAction snapshot = none ∧ f'.worlds = f.worlds ∧ d.Saved f f'
  | .act action candidate, f' => ∃ chain snapshot c w', d.Shows chain f.worlds ∧
      readSnapshot d.gateway f.checkpoint chain none = some snapshot ∧
      planNextAction snapshot = some action ∧
      d.encodeAction action candidate (f.worlds action.vault) = some c ∧
      exec Fhe.plain (d.externals action.vault) (d.config action.vault) d.keeper
        (f.worlds action.vault) c = .ok w' ∧
      f'.worlds = Function.update f.worlds action.vault w'
  | .other vault label, f' => vault ∈ d.vaults ∧ (∀ now, label ≠ .tick now) ∧ ∃ w',
      Step Fhe.plain (d.externals vault) (d.config vault) (f.worlds vault) label w' ∧
      f' = { f with worlds := Function.update f.worlds vault w' }
  | .tick now, f' => (∀ vault ∈ d.vaults, (f.worlds vault).now ≤ now ∧
        (f.worlds vault).vault.dueClosures (d.config vault) now =
          (f.worlds vault).vault.dueClosures (d.config vault) (f.worlds vault).now) ∧
      f' = { f with worlds := fun vault => { f.worlds vault with now } }

/-- The step draws a candidate that will be rejected. -/
def rejects (f : Fleet X) : FleetLabel X → Bool
  | .act action candidate => (d.encodeAction action candidate (f.worlds action.vault)).any
      (Call.rejected (f.worlds action.vault).vault)
  | .other vault label => label.rejected (f.worlds vault).vault
  | _ => false

/-- How many calls settle every round of every vault up to the present, at most. -/
def remaining (f : Fleet X) : Nat :=
  ∑ vault ∈ d.vaults.toFinset, (f.worlds vault).remaining (d.config vault)

/-- So many pages show every round that is closed, or due to be. -/
def Within (pages : Nat) (f : Fleet X) : Prop :=
  ∀ vault ∈ d.vaults, (f.worlds vault).vault.activeRoundId +
      (f.worlds vault).vault.dueClosures (d.config vault) (f.worlds vault).now ≤
    pages * d.gateway.historicalScanSize + 1

/-- The runs of the fleet while no further round ends, from any states of its vaults and any
cursors. -/
def fleet (pages : Nat) : TransitionSystem (Fleet X) (FleetLabel X) where
  init f := d.Reachable f.worlds ∧ d.Within pages f
  step := d.FleetStep

variable {d} {O : VaultConfig → Observables X} {f f' : Fleet X} {vault : VaultConfig}
  {pages n : Nat}

/-! ### Steps -/

theorem remaining_update (hvault : vault ∈ d.vaults) (w : PlainWorld X)
    (hworlds : f'.worlds = Function.update f.worlds vault w) :
    d.remaining f' + (f.worlds vault).remaining (d.config vault) =
      d.remaining f + w.remaining (d.config vault) := by
  have hsum : d.remaining f' = ∑ v ∈ d.vaults.toFinset,
      Function.update (fun v => (f.worlds v).remaining (d.config v)) vault
        (w.remaining (d.config vault)) v := by
    refine Finset.sum_congr rfl fun v _ => ?_
    rw [hworlds]
    by_cases hv : v = vault
    · subst hv
      rw [Function.update_self, Function.update_self]
    · rw [Function.update_of_ne hv, Function.update_of_ne hv]
  rw [hsum]
  exact sum_update_add (List.mem_toFinset.2 hvault) _ _

theorem vault_remaining_le (hvault : vault ∈ d.vaults) :
    (f.worlds vault).remaining (d.config vault) ≤ d.remaining f :=
  Finset.single_le_sum (f := fun v => (f.worlds v).remaining (d.config v))
    (fun _ _ => Nat.zero_le _) (List.mem_toFinset.2 hvault)

/-- What a step does to the vaults. -/
inductive Moves (d : Deployment X) (f f' : Fleet X) : Prop
  /-- One vault takes a step of its own, but time does not pass. -/
  | one {vault : VaultConfig} {label : Label Nat Nat Bool X} {w' : PlainWorld X}
      (hvault : vault ∈ d.vaults) (hlabel : ∀ now, label ≠ .tick now)
      (hstep : Step Fhe.plain (d.externals vault) (d.config vault) (f.worlds vault) label w')
      (hworlds : f'.worlds = Function.update f.worlds vault w')
  /-- Time passes for all of them, and no further round ends. -/
  | time {now : Nat}
      (hnow : ∀ vault ∈ d.vaults, (f.worlds vault).now ≤ now ∧
        (f.worlds vault).vault.dueClosures (d.config vault) now =
          (f.worlds vault).vault.dueClosures (d.config vault) (f.worlds vault).now)
      (hworlds : f'.worlds = fun vault => { f.worlds vault with now })
  | none (hworlds : f'.worlds = f.worlds)

theorem fleetStep_moves (hd : d.Sound O) (hw : d.Reachable f.worlds) {l : FleetLabel X}
    (h : d.FleetStep f l f') : d.Moves f f' := by
  cases l with
  | idle =>
    obtain ⟨_, _, _, _, _, hworlds, _⟩ := h
    exact .none hworlds
  | act action candidate =>
    obtain ⟨chain, snapshot, c, w', hshows, hread, hplan, _, hexec, hworlds⟩ := h
    obtain ⟨hvault, _⟩ := planned_call hd hw hshows hread hplan candidate
    have hstep : Step Fhe.plain (d.externals action.vault) (d.config action.vault)
      (f.worlds action.vault) (.call d.keeper c) w' := ⟨hd.keeper _ hvault, hexec⟩
    exact .one hvault (by rintro _ ⟨⟩) hstep hworlds
  | other vault label =>
    obtain ⟨hvault, hlabel, w', hstep, rfl⟩ := h
    exact .one hvault hlabel hstep rfl
  | tick now =>
    obtain ⟨hnow, rfl⟩ := h
    exact .time hnow rfl

/-- A vault goes on as one of its own runs does. -/
theorem Moves.reachable (h : d.Moves f f') (hw : d.Reachable f.worlds) :
    d.Reachable f'.worlds := by
  intro v hv
  cases h with
  | @one vault label w' hvault _ hstep hworlds =>
    rw [hworlds]
    by_cases hsame : v = vault
    · subst hsame
      rw [Function.update_self]
      exact (hw v hv).tail hstep
    · rw [Function.update_of_ne hsame]
      exact hw v hv
  | @time now hnow hworlds =>
    rw [hworlds]
    exact (hw v hv).tail (l := .tick now) ⟨(hnow v hv).1, rfl⟩
  | none hworlds =>
    rw [hworlds]
    exact hw v hv

/-- The rounds that are closed or due to be stay as many as they are. -/
theorem Moves.within (hd : d.Sound O) (h : d.Moves f f') (hw : d.Reachable f.worlds)
    (hwithin : d.Within pages f) : d.Within pages f' := by
  intro v hv
  have hbound := hwithin v hv
  cases h with
  | @one vault label w' hvault hlabel hstep hworlds =>
    rw [hworlds]
    by_cases hsame : v = vault
    · subst hsame
      rw [Function.update_self,
        (World.step_settlement (hd.lawful v hv) (hw v hv) hstep
          fun now hl => absurd hl (hlabel now)).1]
      exact hbound
    · rw [Function.update_of_ne hsame]
      exact hbound
  | time hnow hworlds =>
    rw [hworlds]
    simp only [(hnow v hv).2]
    exact hbound
  | none hworlds =>
    rw [hworlds]
    exact hbound

/-- Every state of a run of the fleet has its vaults in states of their runs. -/
theorem fleet_reachable (hd : d.Sound O) (h : (d.fleet pages).Reachable f) :
    d.Reachable f.worlds ∧ d.Within pages f := by
  refine h.invariant (I := fun f => d.Reachable f.worlds ∧ d.Within pages f)
    (fun _ hinit => hinit) fun f l f' _ hI hstep => ?_
  have hmoves := fleetStep_moves hd hI.1 hstep
  exact ⟨hmoves.reachable hI.1, hmoves.within hd hI.1 hI.2⟩

/-- The step leaves what is left alone, takes one of the calls that are left, or draws a candidate
that will be rejected. -/
def Advances (d : Deployment X) (f : Fleet X) (l : FleetLabel X) (f' : Fleet X) : Prop :=
  (d.remaining f' = d.remaining f ∧ ∀ vault ∈ d.vaults,
      (f.worlds vault).SameSettlement (d.config vault) (f'.worlds vault)) ∨
    d.remaining f' < d.remaining f ∨
    (d.rejects f l = true ∧ 0 < d.remaining f ∧ d.remaining f' ≤ d.remaining f + 1)

/-- A step of one vault. -/
theorem advances_of_step (hd : d.Sound O) (hw : d.Reachable f.worlds) {l : FleetLabel X}
    {label : Label Nat Nat Bool X} {w' : PlainWorld X} (hvault : vault ∈ d.vaults)
    (hlabel : ∀ now, label ≠ .tick now)
    (hstep : Step Fhe.plain (d.externals vault) (d.config vault) (f.worlds vault) label w')
    (hworlds : f'.worlds = Function.update f.worlds vault w')
    (hrejects : label.rejected (f.worlds vault).vault = true → d.rejects f l = true) :
    d.Advances f l f' := by
  have hsum := remaining_update hvault w' hworlds
  have hle := vault_remaining_le hvault (f := f)
  rcases (World.step_settlement (hd.lawful _ hvault) (hw _ hvault) hstep
    fun now hl => absurd hl (hlabel now)).2 with hsame | hless | ⟨hback, hpos, hmore⟩
  · have hremaining := hsame.remaining
    refine .inl ⟨by omega, fun v _ => ?_⟩
    rw [hworlds]
    by_cases hv : v = vault
    · subst hv
      rw [Function.update_self]
      exact hsame
    · rw [Function.update_of_ne hv]
      exact .refl _ _
  · exact .inr (.inl (by omega))
  · exact .inr (.inr ⟨hrejects hback, by omega, by omega⟩)

/-- **Step lemma.**  Every step of the fleet advances it, or leaves what is left alone. -/
theorem fleetStep_advances (hd : d.Sound O) (hw : d.Reachable f.worlds) {l : FleetLabel X}
    (h : d.FleetStep f l f') : d.Advances f l f' := by
  cases l with
  | idle =>
    obtain ⟨_, _, _, _, _, hworlds, _⟩ := h
    rw [Advances, remaining, remaining, hworlds]
    exact .inl ⟨rfl, fun _ _ => .refl _ _⟩
  | act action candidate =>
    obtain ⟨chain, snapshot, c, w', hshows, hread, hplan, hencode, hexec, hworlds⟩ := h
    obtain ⟨hvault, _⟩ := planned_call hd hw hshows hread hplan candidate
    have hstep : Step Fhe.plain (d.externals action.vault) (d.config action.vault)
      (f.worlds action.vault) (.call d.keeper c) w' := ⟨hd.keeper _ hvault, hexec⟩
    refine advances_of_step hd hw hvault (by rintro _ ⟨⟩) hstep hworlds fun hrejected => ?_
    rw [rejects, hencode]
    exact hrejected
  | other vault label =>
    obtain ⟨hvault, hlabel, w', hstep, rfl⟩ := h
    exact advances_of_step hd hw hvault hlabel hstep rfl id
  | tick now =>
    obtain ⟨hnow, rfl⟩ := h
    have hsame : ∀ vault ∈ d.vaults, (f.worlds vault).SameSettlement (d.config vault)
        { f.worlds vault with now } := fun vault hvault =>
      World.SameOpen.same ⟨rfl, (hnow vault hvault).2, fun _ => rfl⟩ fun _ _ => rfl
    refine .inl ⟨Finset.sum_congr rfl fun vault hvault => ?_, hsame⟩
    exact (hsame vault (List.mem_toFinset.1 hvault)).remaining

/-- An action of the keeper is not idle. -/
theorem act_remaining (hd : d.Sound O) (hw : d.Reachable f.worlds) {action : LifecycleAction}
    {candidate : Nat} (h : d.FleetStep f (.act action candidate) f') :
    d.remaining f' ≠ d.remaining f ∨
      (d.rejects f (.act action candidate) = true ∧ 0 < d.remaining f) := by
  obtain ⟨chain, snapshot, c, w', hshows, hread, hplan, hencode, hexec, hworlds⟩ := h
  obtain ⟨hvault, hcall⟩ := planned_call hd hw hshows hread hplan candidate
  have hE := hd.lawful _ hvault
  have hreach := hw _ hvault
  have hkeeper := hd.keeper _ hvault
  have hsum := remaining_update hvault w' hworlds
  have hle := vault_remaining_le hvault (f := f)
  rw [rejects, hencode, Option.any_some]
  rcases hcall with ⟨hdue, hclosure⟩ | ⟨r, hpos, hclosed, hunsettled, hdue, hcall⟩
  · rw [hencode, Option.some.injEq] at hclosure
    subst hclosure
    obtain ⟨hcfg, _, _⟩ := World.reachable_timed hE hreach
    have hless := World.closeRound_remaining_lt hreach hcfg.duration_pos hexec
    exact .inl (by omega)
  · have hsettles : c.settles = some r :=
      World.settlingCall_settles (hcall.symm.trans hencode)
    rcases World.exec_remaining_lt hE hreach hkeeper hdue hpos hclosed hsettles hexec with
      hless | hrejected
    · exact .inl (by omega)
    · refine .inr ⟨hrejected, (Nat.pos_of_ne_zero fun hzero => hunsettled ?_).trans_le hle⟩
      exact (World.settled_of_remaining hreach hzero).2 r hpos hclosed

/-! ### Idle iterations -/

/-- What `n` idle iterations have shown of a vault: no closure is due, and as many pages as that,
up to where the scan goes on, are settled. -/
structure Swept (size n : Nat) (cfg : Config) (w : PlainWorld X) (cursor : Option Nat) :
    Prop where
  dueClosures : 0 < n → w.vault.dueClosures cfg w.now = 0
  scanned : ∃ position,
    (0 < w.vault.activeRoundId - 1 → ∀ p, cursor = some p → p % (w.vault.activeRoundId - 1) =
      (position + n * min (w.vault.activeRoundId - 1) size) % (w.vault.activeRoundId - 1)) ∧
    ∀ index ∈ arc (w.vault.activeRoundId - 1) position
        (n * min (w.vault.activeRoundId - 1) size),
      (w.vault.rounds (index + 1)).state = .settled

section Sweep

variable {size : Nat} {cfg : Config} {w w' : PlainWorld X} {position : Nat}

theorem Swept.zero (saved : Option Nat) : Swept size 0 cfg w saved where
  dueClosures h := absurd h (Nat.lt_irrefl 0)
  scanned := by
    refine ⟨saved.getD 0, fun _ p hp => ?_, fun index hindex => ?_⟩
    · rw [hp, Option.getD_some, Nat.zero_mul, Nat.add_zero]
    · rw [Nat.zero_mul] at hindex
      exact absurd hindex List.not_mem_nil

/-- What was shown stays so while nothing is settled or closed. -/
theorem Swept.same {saved : Option Nat} (h : Swept size n cfg w saved)
    (hsame : w.SameSettlement cfg w') : Swept size n cfg w' saved := by
  obtain ⟨position, hcursor, hsettled⟩ := h.scanned
  refine ⟨fun hn => hsame.dueClosures.trans (h.dueClosures hn), position, ?_,
    fun index hindex => ?_⟩
  · rw [hsame.activeRoundId]
    exact hcursor
  · rw [hsame.activeRoundId] at hindex
    rcases Nat.eq_zero_or_pos (w.vault.activeRoundId - 1) with hzero | hpos
    · rw [hzero, Nat.zero_min, Nat.mul_zero] at hindex
      exact absurd hindex List.not_mem_nil
    · have hlt := lt_of_mem_arc hpos hindex
      rw [hsame.closed (index + 1) (by omega)]
      exact hsettled index hindex

/-- One more page goes on where the pages before it ended. -/
theorem Swept.page (h : Swept size n cfg w (some position))
    (hdue : w.vault.dueClosures cfg w.now = 0)
    (hpage : ∀ index ∈ (circularScanPage (w.vault.activeRoundId - 1) position size).indexes,
      (w.vault.rounds (index + 1)).state = .settled) :
    Swept size (n + 1) cfg w
      (some (circularScanPage (w.vault.activeRoundId - 1) position size).nextCursor) := by
  obtain ⟨start, hcursor, hsettled⟩ := h.scanned
  refine ⟨fun _ => hdue, start, fun hpos p hp => ?_, fun index hindex => ?_⟩
  · obtain rfl := Option.some.inj hp
    rw [FileJournalStore.circularScanPage_nextCursor hpos.ne', Nat.mod_mod, Nat.add_mod,
      hcursor hpos _ rfl, ← Nat.add_mod, Nat.add_assoc, Nat.add_mul, Nat.one_mul]
  · rcases Nat.eq_zero_or_pos (w.vault.activeRoundId - 1) with hzero | hpos
    · rw [hzero, Nat.zero_min, Nat.mul_zero] at hindex
      exact absurd hindex List.not_mem_nil
    · rw [Nat.add_mul, Nat.one_mul, arc_add, List.mem_append] at hindex
      rcases hindex with hindex | hindex
      · exact hsettled index hindex
      · refine hpage index ?_
        rw [FileJournalStore.circularScanPage_indexes, arc_congr (hcursor hpos _ rfl)]
        exact hindex

/-- Enough pages show every closed round. -/
theorem Swept.all {saved : Option Nat} (h : Swept size n cfg w saved)
    (hn : 0 < n) (hsize : w.vault.activeRoundId ≤ n * size + 1) : w.remaining cfg = 0 := by
  obtain ⟨position, _, hsettled⟩ := h.scanned
  refine World.remaining_eq_zero ((World.dueClosures_eq_zero cfg).1 (h.dueClosures hn))
    fun r hpos hclosed => ?_
  have hlong : w.vault.activeRoundId - 1 ≤ n * min (w.vault.activeRoundId - 1) size := by
    rcases Nat.le_total (w.vault.activeRoundId - 1) size with hle | hle
    · rw [Nat.min_eq_left hle]
      exact Nat.le_mul_of_pos_left _ hn
    · rw [Nat.min_eq_right hle]
      omega
  have hmem := hsettled (r - 1) (mem_arc hlong (by omega))
  rwa [Nat.sub_add_cancel hpos] at hmem

end Sweep

/-! ### Runs -/

/-- What `n` idle iterations have shown of the fleet. -/
def Idle (d : Deployment X) (n : Nat) (f : Fleet X) : Prop :=
  ∀ vault ∈ d.vaults, Swept d.gateway.historicalScanSize n (d.config vault) (f.worlds vault)
    (cursor f.checkpoint vault)

/-- An idle iteration shows one more page of every vault. -/
theorem idle_step (hd : d.Sound O) (hw : d.Reachable f.worlds) (h : d.FleetStep f .idle f')
    (hidle : d.Idle n f) : d.Idle (n + 1) f' := by
  obtain ⟨chain, snapshot, hshows, hread, hplan, hworlds, hsaved⟩ := h
  intro vault hvault
  obtain ⟨hdue, page, hpage, hsettled⟩ := unplanned_settled hd hw hshows hread hplan hvault
  obtain ⟨page', hpage', hnext⟩ := hsaved vault hvault
  obtain rfl := Option.some.inj (hpage'.symm.trans hpage)
  rw [FileJournalStore.persistentCircularScanPage_eq] at hpage
  obtain ⟨position, hposition, rfl⟩ := Option.map_eq_some_iff.1 hpage
  have hswept := hidle vault hvault
  rw [show cursor f.checkpoint vault = some position from hposition] at hswept
  rw [hworlds, cursor, hnext, Option.elim_some, bigInt_toString]
  exact hswept.page ((World.dueClosures_eq_zero _).2 hdue) hsettled

/-- Idling goes on only while something was not shown. -/
theorem remaining_of_idle (hd : d.Sound O) (h : (d.fleet pages).Reachable f)
    (hidle : d.Idle pages f) : d.remaining f = 0 := by
  obtain ⟨hw, hwithin⟩ := fleet_reachable hd h
  refine Finset.sum_eq_zero fun vault hvault => ?_
  rw [List.mem_toFinset] at hvault
  have hbound := hwithin vault hvault
  rcases Nat.eq_zero_or_pos pages with rfl | hpos
  · -- no round is closed, and none is due to be
    have hactive := (World.reachable_bonded (hw vault hvault)).shape.active_pos
    exact World.remaining_eq_zero ((World.dueClosures_eq_zero (d.config vault)).1 (by omega))
      fun r hr hclosed => by omega
  · exact (hidle vault hvault).all hpos (by omega)

theorem patient (hd : d.Sound O) : TransitionSystem.Patient (d.fleet pages) d.remaining
    FleetLabel.isIteration d.rejects pages d.Idle where
  start _ _ _ := .zero _
  finished := remaining_of_idle hd
  step {f l f' n} hf hstep hidle := by
    obtain ⟨hw, _⟩ := fleet_reachable hd hf
    rcases fleetStep_advances hd hw hstep with ⟨hsame, hsettlement⟩ | hrest
    · cases l with
      | idle => exact .inl ⟨hsame, idle_step hd hw hstep hidle⟩
      | act action candidate =>
        rcases act_remaining hd hw hstep with hchanged | ⟨hback, hpos⟩
        · exact absurd hsame hchanged
        · exact .inr (.inr ⟨hback, hpos, hsame ▸ Nat.le_succ _⟩)
      | other vault label =>
        obtain ⟨_, _, _, _, rfl⟩ := id hstep
        exact .inl ⟨hsame, fun v hv => (hidle v hv).same (hsettlement v hv)⟩
      | tick now =>
        obtain ⟨_, rfl⟩ := id hstep
        exact .inl ⟨hsame, fun v hv => (hidle v hv).same (hsettlement v hv)⟩
    · exact .inr hrest

/-! ### The keeper is never stuck -/

/-- The next iteration of the keeper, and as many after it as calls are left, meet no limit of the
contracts, and the cursors are numerals. -/
structure Ready (d : Deployment X) (f : Fleet X) : Prop where
  addresses : (d.vaults.map (·.address.toLower)).Nodup
  cursors : ∀ vault ∈ d.vaults, ∃ position, cursor f.checkpoint vault = some position
  clock : ∃ now, ∀ vault ∈ d.vaults,
    (f.worlds vault).now = now ∧ now + (d.config vault).roundDuration < 2 ^ 64
  attempts : ∀ vault ∈ d.vaults, ∀ r,
    (f.worlds vault).vault.candidateAttempts r + d.remaining f < 2 ^ 32

theorem historicalKey_inj {vault vault' : VaultConfig}
    (hdistinct : (d.vaults.map (·.address.toLower)).Nodup) (hvault : vault ∈ d.vaults)
    (hvault' : vault' ∈ d.vaults) (h : historicalKey vault = historicalKey vault') :
    vault = vault' :=
  List.inj_on_of_nodup_map hdistinct hvault hvault' ((String.append_right_inj _).1 h)

/-- The cursors can be stored. -/
theorem Ready.exists_saved (h : d.Ready f) : ∃ checkpoint,
    d.Saved f ⟨f.worlds, checkpoint⟩ ∧ d.Ready ⟨f.worlds, checkpoint⟩ := by
  choose! position hposition using h.cursors
  let page (vault : VaultConfig) := circularScanPage ((f.worlds vault).vault.activeRoundId - 1)
    (position vault) d.gateway.historicalScanSize
  let checkpoint (key : String) : Option String :=
    (d.vaults.find? fun vault => decide (historicalKey vault = key)).map fun vault =>
      toString (page vault).nextCursor
  have hstored : ∀ vault ∈ d.vaults,
      checkpoint (historicalKey vault) = some (toString (page vault).nextCursor) := by
    intro vault hvault
    have hfound : (d.vaults.find? fun v => decide (historicalKey v = historicalKey vault)) =
        some vault := by
      rcases hfind : d.vaults.find? (fun v => decide (historicalKey v = historicalKey vault)) with
        _ | other
      · rw [List.find?_eq_none] at hfind
        exact absurd (decide_eq_true rfl) (hfind vault hvault)
      · have hkey : historicalKey other = historicalKey vault := by
          simpa using List.find?_some hfind
        rw [historicalKey_inj h.addresses (List.mem_of_find?_eq_some hfind) hvault hkey]
    simp only [checkpoint, hfound, Option.map_some]
  refine ⟨checkpoint, fun vault hvault => ⟨page vault, page_of_cursor _ _ (hposition vault hvault),
      hstored vault hvault⟩,
    h.addresses, fun vault hvault => ⟨(page vault).nextCursor, ?_⟩, h.clock, h.attempts⟩
  show (checkpoint (historicalKey vault)).elim (some 0) bigInt = _
  rw [hstored vault hvault, Option.elim_some, bigInt_toString]

/-- What is planned is left to do. -/
theorem planned_remaining_pos (hd : d.Sound O) (hw : d.Reachable f.worlds) {chain : ChainView}
    {snapshot : ProtocolSnapshot} {action : LifecycleAction} (hshows : d.Shows chain f.worlds)
    (hread : readSnapshot d.gateway f.checkpoint chain none = some snapshot)
    (hplan : planNextAction snapshot = some action) : 0 < d.remaining f := by
  obtain ⟨hvault, hcall⟩ := planned_call hd hw hshows hread hplan 0
  refine (Nat.pos_of_ne_zero fun hzero => ?_).trans_le (vault_remaining_le hvault)
  obtain ⟨hlt, hsettled⟩ := World.settled_of_remaining (hw _ hvault) hzero
  rcases hcall with ⟨hdue, _⟩ | ⟨r, hpos, hclosed, hunsettled, _⟩
  · omega
  · exact hunsettled (hsettled r hpos hclosed)

/-- The smallest candidate is never rejected. -/
theorem planned_zero (hd : d.Sound O) (hw : d.Reachable f.worlds) {chain : ChainView}
    {snapshot : ProtocolSnapshot} {action : LifecycleAction} (hshows : d.Shows chain f.worlds)
    (hread : readSnapshot d.gateway f.checkpoint chain none = some snapshot)
    (hplan : planNextAction snapshot = some action) {c : Call Nat Nat Bool} {w' : PlainWorld X}
    (hencode : d.encodeAction action 0 (f.worlds action.vault) = some c)
    (hexec : exec Fhe.plain (d.externals action.vault) (d.config action.vault) d.keeper
      (f.worlds action.vault) c = .ok w') : c.rejected (f.worlds action.vault).vault = false := by
  obtain ⟨_, hcall⟩ := planned_call hd hw hshows hread hplan 0
  rcases hcall with ⟨_, hclosure⟩ | ⟨r, _, _, _, _, hcall⟩
  · obtain rfl := Option.some.inj (hencode.symm.trans hclosure)
    rfl
  · exact World.settlingCall_zero (hcall.symm.trans hencode) hexec

/-- **Step lemma.**  The keeper can go on, with a draw that is accepted if it draws. -/
theorem Ready.exists_iteration (hd : d.Sound O) (hw : d.Reachable f.worlds) (h : d.Ready f) :
    ∃ l f', l.isIteration = true ∧ d.FleetStep f l f' ∧ d.rejects f l = false ∧ d.Ready f' := by
  obtain ⟨now, hnow⟩ := h.clock
  obtain ⟨chain, snapshot, hshows, hread⟩ :=
    exists_snapshot hd h.cursors fun vault hvault => (hnow vault hvault).1
  cases hplan : planNextAction snapshot with
  | none =>
    obtain ⟨checkpoint, hsaved, hready⟩ := h.exists_saved
    exact ⟨.idle, ⟨f.worlds, checkpoint⟩, rfl, ⟨chain, snapshot, hshows, hread, hplan, rfl, hsaved⟩,
      rfl, hready⟩
  | some action =>
    have hpos := planned_remaining_pos hd hw hshows hread hplan
    obtain ⟨hvault, c, w', hencode, hexec, hless, hcounted⟩ := planned_accepted hd hw hshows hread
      hplan 0 (fun vault hvault => (hnow vault hvault).1.symm ▸ (hnow vault hvault).2)
      (fun vault hvault r => by have := h.attempts vault hvault r; omega)
    have hvalid := planned_zero hd hw hshows hread hplan hencode hexec
    rw [hvalid] at hless
    have hless := hless.resolve_right (by rintro ⟨⟩)
    let f' : Fleet X := ⟨Function.update f.worlds action.vault w', f.checkpoint⟩
    have hsum := remaining_update hvault w' (show f'.worlds = _ from rfl)
    refine ⟨.act action 0, f', rfl, ⟨chain, snapshot, c, w', hshows, hread, hplan, hencode, hexec,
      rfl⟩, ?_, h.addresses, h.cursors, ⟨now, fun vault hvault' => ⟨?_, (hnow vault hvault').2⟩⟩,
      fun vault hvault' r => ?_⟩
    · rw [rejects, hencode, Option.any_some, hvalid]
    · show (Function.update f.worlds action.vault w' vault).now = now
      by_cases hsame : vault = action.vault
      · subst hsame
        rw [Function.update_self, exec_now (hd.keeper _ hvault) hexec]
        exact (hnow _ hvault').1
      · rw [Function.update_of_ne hsame]
        exact (hnow _ hvault').1
    · show (Function.update f.worlds action.vault w' vault).vault.candidateAttempts r +
        d.remaining f' < 2 ^ 32
      have hbound := h.attempts vault hvault' r
      by_cases hsame : vault = action.vault
      · subst hsame
        rw [Function.update_self]
        have := hcounted r
        omega
      · rw [Function.update_of_ne hsame]
        omega

/-- The keeper can go on for as long as it takes. -/
theorem Ready.exists_run (hd : d.Sound O) (hf : (d.fleet pages).Reachable f) (h : d.Ready f)
    (n : Nat) : ∃ steps f', (d.fleet pages).Trace f steps f' ∧
      TransitionSystem.worked FleetLabel.isIteration steps = n ∧
      TransitionSystem.setbacks d.rejects steps = 0 ∧ d.Ready f' := by
  induction n with
  | zero => exact ⟨[], f, .nil, rfl, rfl, h⟩
  | succ n ih =>
    obtain ⟨steps, f', hrun, hworked, hback, hready⟩ := ih
    obtain ⟨hw, _⟩ := fleet_reachable hd (hrun.reachable hf)
    obtain ⟨l, f'', hiteration, hstep, hvalid, hready'⟩ := hready.exists_iteration hd hw
    refine ⟨_, f'', hrun.snoc hstep, ?_, ?_, hready'⟩
    · rw [TransitionSystem.worked_snoc, hworked, hiteration]
      rfl
    · rw [TransitionSystem.setbacks_snoc, hback, hvalid]
      rfl

/-! ### Iterations of the engine -/

/-- **A broadcast is an action of the fleet.**  Where the engine broadcasts a transaction, it was
signed for an action and its calldata, and the fleet acts when the contract takes the call of that
action in the state the engine planned from. -/
theorem fleetStep_of_broadcast {options : EngineOptions} {rounds : Nat}
    {transaction : SignedLifecycleTransaction} {t : Answers}
    (h : (Engine.runOnce options rounds).run.Asks (.broadcast transaction) [] t)
    (hread : ∀ snapshot : ProtocolSnapshot, ⟨.readSnapshot none, .ok snapshot⟩ ∈ t →
      ∃ chain, d.Shows chain f.worlds ∧
        readSnapshot d.gateway f.checkpoint chain none = some snapshot) :
    ∃ (action : LifecycleAction) (data : String),
      ⟨.encodeAction action, .ok data⟩ ∈ t ∧ ⟨.sign action data, .ok transaction⟩ ∈ t ∧
      ∀ candidate c w' checkpoint,
        d.encodeAction action candidate (f.worlds action.vault) = some c →
        exec Fhe.plain (d.externals action.vault) (d.config action.vault) d.keeper
          (f.worlds action.vault) c = .ok w' →
        d.FleetStep f (.act action candidate)
          ⟨Function.update f.worlds action.vault w', checkpoint⟩ := by
  obtain ⟨clearance, hvalid, rfl⟩ : Engine.Cleared options (.broadcast transaction) t :=
    Protocol.Safe.allowed_of_asks Engine.runOnce_records h
  obtain ⟨chain, hshows, hsnapshot⟩ := hread clearance.snapshot
    (by simp [Clearance.answers, Clearance.prepared])
  refine ⟨clearance.action, clearance.data, ?_, ?_, fun candidate c w' checkpoint hencode hexec =>
    ⟨chain, clearance.snapshot, c, w', hshows, hsnapshot, hvalid.planned, hencode, hexec, rfl⟩⟩
  · simp [Clearance.answers, Clearance.prepared]
  · simp [Clearance.answers]

/-! ### Everything is settled -/

/-- **The keeper settles its vaults.**  Let `pages` pages show every round of each vault that is
closed or due to be.  Then a run of the fleet with `pages` iterations of the keeper for each call
that is left, and twice as many for each rejected draw, settles everything: whatever the cursors
were, whatever other accounts do in between, and as long as no further round ends. -/
theorem keeper_settles (hd : d.Sound O) (hf : (d.fleet pages).Reachable f)
    {steps : List (TransitionSystem.Taken (Fleet X) (FleetLabel X))}
    (hrun : (d.fleet pages).Trace f steps f')
    (hlong : pages * (d.remaining f + 2 * TransitionSystem.setbacks d.rejects steps) ≤
      TransitionSystem.worked FleetLabel.isIteration steps) :
    ∀ vault ∈ d.vaults, let w := f'.worlds vault
      w.now < (w.vault.rounds w.vault.activeRoundId).closesAt ∧
      ∀ r, 0 < r → r < w.vault.activeRoundId → (w.vault.rounds r).state = .settled := by
  intro vault hvault
  have hzero := (patient hd).measure_eq_zero hf hrun hlong
  obtain ⟨hw, _⟩ := fleet_reachable hd (hrun.reachable hf)
  exact World.settled_of_remaining (hw vault hvault)
    (Finset.sum_eq_zero_iff.1 hzero vault (List.mem_toFinset.2 hvault))

end Deployment

open Leopold.Demo World in
/-- The keeper settles the round of alice and bob on its own. -/
theorem keeper_settles_overdue : ∃ w,
    outcome cfg token 100 Leopold.Demo.chain overdueScript = .ok w ∧
    (w.vault.rounds 1).closesAt ≤ w.now ∧ ∃ pages steps f',
      (Demo.deployment.fleet pages).Trace ⟨fun _ => w, fun _ => none⟩ steps f' ∧
      ∀ r, 0 < r → r < (f'.worlds Demo.everyday).vault.activeRoundId →
        ((f'.worlds Demo.everyday).vault.rounds r).state = .settled := by
  obtain ⟨w, hw, hclock, hfew, hdue, hattempts⟩ := ends_overdue
  let f : Fleet MockChain := ⟨fun _ => w, fun _ => none⟩
  let pages := w.vault.activeRoundId + w.vault.dueClosures cfg w.now
  have hwithin : Demo.deployment.Within pages f := by
    intro vault _
    show w.vault.activeRoundId + w.vault.dueClosures cfg w.now ≤ pages * 1 + 1
    omega
  have hf : (Demo.deployment.fleet pages).Reachable f :=
    .of_init ⟨fun _ _ => outcome_reachable hw, hwithin⟩
  have hone : Demo.deployment.remaining f = w.remaining cfg := Finset.sum_singleton _ _
  have hready : Demo.deployment.Ready f := by
    refine ⟨List.nodup_singleton _, fun _ _ => ⟨0, rfl⟩, ⟨w.now, fun _ _ => ⟨rfl, hclock⟩⟩,
      fun _ _ r => ?_⟩
    show w.vault.candidateAttempts r + _ < _
    rw [hattempts, hone, Nat.zero_add]
    exact hfew
  obtain ⟨steps, f', hrun, hworked, hback, _⟩ :=
    hready.exists_run Demo.sound hf (pages * Demo.deployment.remaining f)
  refine ⟨w, hw, hdue, pages, steps, f', hrun, ?_⟩
  exact (Deployment.keeper_settles Demo.sound hf hrun (by rw [hworked, hback, Nat.mul_zero,
    Nat.add_zero]) Demo.everyday List.mem_cons_self).2

end Leopold.Keeper
