import Leopold.Contracts.Mocks
import Leopold.System.Calls

/-!
# Scripts

A script is a list of calls of the contracts, of direct finalizations of unwrap requests at the
wrapper, and of the times between them, over the mocks of the third-party contracts.  Playing it
runs the system, so the state it ends in is one that a run reaches.  The deployments below are the
ones the concrete runs of the development start from.
-/

namespace Leopold

open Lib

/-- What a script does next. -/
inductive Event
  | call (sender : Address) (call : Call Nat Nat Bool)
  | tick (now : Nat)
  | finalizeUnwrap (id : RequestId) (amount : Nat)

instance (cfg : Config) (a : Address) : Decidable (cfg.External a) :=
  inferInstanceAs (Decidable (_ ∧ _))

namespace World

variable (cfg : Config) (underlying : Address)

/-- One event; a call needs an outside account, and time does not run backwards. -/
def play (w : PlainWorld MockChain) : Event → Except Revert (PlainWorld MockChain)
  | .call sender call =>
    if cfg.External sender then exec Fhe.plain (mockExternals cfg underlying) cfg sender w call
    else .error .external
  | .tick now => if w.now ≤ now then .ok { w with now := now } else .error .external
  | .finalizeUnwrap id amount => do
    let x ← orRevert .external (w.ext.finalizeUnwrap cfg.asset id amount ⟨true⟩)
    return { w with ext := x }

/-- The events of a script in order. -/
def playAll (events : List Event) (w : PlainWorld MockChain) :
    Except Revert (PlainWorld MockChain) :=
  events.foldlM (play cfg underlying) w

/-- Where a script ends after the deployment. -/
def outcome (now : Nat) (x : MockChain) (events : List Event) :
    Except Revert (PlainWorld MockChain) := do
  let w ← construct Fhe.plain (mockExternals cfg underlying) cfg 0 now x
  playAll cfg underlying events w

variable {cfg underlying} {w w' : PlainWorld MockChain} {events : List Event} {now : Nat}
  {x : MockChain}

theorem play_step {e : Event} (h : play cfg underlying w e = .ok w') :
    ∃ l, (system Fhe.plain (mockExternals cfg underlying) cfg).step w l w' := by
  cases e with
  | call sender call =>
    simp only [play] at h
    split_ifs at h with hsender
    exact ⟨.call sender call, hsender, h⟩
  | tick now =>
    simp only [play] at h
    split_ifs at h with hnow
    exact ⟨.tick now, hnow, (ok_eq_ok.1 h).symm⟩
  | finalizeUnwrap id amount =>
    obtain ⟨x, hx, h⟩ := seq_eq_ok.1 h
    exact ⟨.thirdParty x, MockChain.finalizeUnwrap_thirdParty (orRevert_eq_ok.1 hx),
      (ok_eq_ok.1 h).symm⟩

/-- A script that plays is a run. -/
theorem playAll_trace (h : playAll cfg underlying events w = .ok w') :
    ∃ steps, (system Fhe.plain (mockExternals cfg underlying) cfg).Trace w steps w' := by
  suffices ∀ {u : PlainWorld MockChain} {steps},
      (system Fhe.plain (mockExternals cfg underlying) cfg).Trace w steps u →
      playAll cfg underlying events u = .ok w' →
      ∃ steps, (system Fhe.plain (mockExternals cfg underlying) cfg).Trace w steps w' from
    this .nil h
  clear h
  induction events with
  | nil =>
    intro u steps hu h
    obtain rfl : u = w' := ok_eq_ok.1 h
    exact ⟨steps, hu⟩
  | cons e events ih =>
    intro u steps hu h
    obtain ⟨u', hu', h⟩ := seq_eq_ok.1 h
    obtain ⟨l, hl⟩ := play_step hu'
    exact ih (hu.snoc hl) h

theorem outcome_trace (h : outcome cfg underlying now x events = .ok w) :
    ∃ w₀ steps, (system Fhe.plain (mockExternals cfg underlying) cfg).init w₀ ∧
      (system Fhe.plain (mockExternals cfg underlying) cfg).Trace w₀ steps w := by
  obtain ⟨w₀, hw₀, h⟩ := seq_eq_ok.1 h
  obtain ⟨steps, hsteps⟩ := playAll_trace h
  exact ⟨w₀, steps, ⟨0, now, x, hw₀⟩, hsteps⟩

theorem outcome_reachable (h : outcome cfg underlying now x events = .ok w) :
    (system Fhe.plain (mockExternals cfg underlying) cfg).Reachable w := by
  obtain ⟨w₀, steps, hinit, hsteps⟩ := outcome_trace h
  exact (hsteps.invariant (I := fun _ _ => True) (.of_init hinit) trivial
    fun _ _ _ _ _ _ _ => trivial).1

/-- Whether a script ends in a state that passes a check. -/
def endsWith (check : PlainWorld MockChain → Bool) : Except Revert (PlainWorld MockChain) → Bool
  | .ok w => check w
  | .error _ => false

theorem exists_of_endsWith {check : PlainWorld MockChain → Bool}
    {m : Except Revert (PlainWorld MockChain)} (h : endsWith check m = true) : ∃ w, m = .ok w ∧ check w = true := by
  cases m with
  | ok w => exact ⟨w, rfl, h⟩
  | error e => cases h

end World

/-! ## A deployment over the mocks -/

namespace Demo

open World

/-- Alice and bob register and save, bob sponsors the prize, and the round is settled up to its
last pass, which pays bob. -/
def script : List Event :=
  [.call alice (.registerForRound 10 1), .call bob (.registerForRound 10 1),
    .call alice (.deposit 64 0), .call bob (.deposit 64 0), .call bob (.contributeSponsor 1 7),
    .call bob (.setAutoSavePreference .autoSave), .tick 170, .call alice .closeRound,
    .call alice (.finalizeAggregate 1 (.encode 8192) ⟨true⟩),
    .call alice (.generateRandomCandidate 1 5000), .call alice (.processSelection 1 4),
    .call bob (.finalizeSelectionReconciliation 1 (.encode 1) ⟨true⟩),
    .call bob (.processAllocation 1 4)]

/-- The state the script ends in. -/
def Ends (w : PlainWorld MockChain) : Prop := outcome cfg token 100 chain script = .ok w

theorem lawful : externals.Lawful mockObservables cfg.vault cfg.asset :=
  mockExternals_lawful cfg token

theorem Ends.reachable {w : PlainWorld MockChain} (h : Ends w) :
    (system Fhe.plain externals cfg).Reachable w := outcome_reachable h

theorem ends_allocated : ∃ w, Ends w ∧ (w.vault.rounds 1).state = .winningsAllocated := by
  have hends : endsWith (fun w => decide ((w.vault.rounds 1).state = .winningsAllocated))
      (outcome cfg token 100 chain script) = true := by decide +kernel
  obtain ⟨w, hw, hcheck⟩ := exists_of_endsWith hends
  exact ⟨w, hw, of_decide_eq_true hcheck⟩

/-! ## With a strategy -/

theorem strategyLawful : strategyExternals.Lawful mockObservables strategyCfg.vault
    strategyCfg.asset := mockExternals_lawful strategyCfg token

/-- Alice saves, and the excess over the liquidity target is burned for a deployment. -/
def burnScript : List Event :=
  [.call alice (.deposit 64 0), .call bob (.openStrategyEpoch .deploy), .tick 4000,
    .call bob (.requestStrategyAmount 1)]

end Demo

end Leopold
