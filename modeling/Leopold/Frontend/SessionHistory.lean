import Leopold.Frontend.WalletSession
import Leopold.Lib.Transition

/-!
# The account behind a session

The auth provider commits the account its wallet reports and counts the changes.  A history of
commits and reducer events keeps what was committed at every earlier moment; financial actions are
enabled only while the account has stayed the one the session was opened with.
-/

namespace Leopold.Frontend

open Lib

/-- The references of the auth provider: the committed account, whether any was committed, and the
number of changes. -/
structure ProviderAccount where
  account : Option Address
  known : Bool
  revision : Nat
  deriving DecidableEq, Repr

def initialProviderAccount : ProviderAccount where
  account := none
  known := false
  revision := 0

def commitProviderAccount (provider : ProviderAccount) (next : Option Address) :
    ProviderAccount :=
  let changed := provider.known &&
    match provider.account with
    | none => next.isSome
    | some _ => next.isNone || !walletsMatch provider.account next
  { account := next
    known := true
    revision := if changed then provider.revision + 1 else provider.revision }

section Commit

variable {provider : ProviderAccount} {next : Option Address}

/-- A commit counts as a change exactly if another account was committed before. -/
theorem commitProviderAccount_eq :
    commitProviderAccount provider next =
      { account := next
        known := true
        revision :=
          if provider.known = true ∧ provider.account ≠ next then provider.revision + 1
          else provider.revision } := by
  rcases provider with ⟨_ | a, known, revision⟩ <;> rcases next with _ | b <;> cases known <;>
    simp [commitProviderAccount, walletsMatch]

theorem le_commitProviderAccount_revision :
    provider.revision ≤ (commitProviderAccount provider next).revision := by
  rw [commitProviderAccount_eq]
  dsimp only
  split_ifs <;> omega

/-- Where the count stays, so does a known account. -/
theorem commitProviderAccount_same (hknown : provider.known = true)
    (h : (commitProviderAccount provider next).revision = provider.revision) :
    provider.account = next := by
  rw [commitProviderAccount_eq] at h
  by_contra hne
  simp [hknown, hne] at h

end Commit

/-! ### Histories -/

/-- The revision an event opens the session with. -/
def WalletSessionEvent.carriedRevision : WalletSessionEvent → Option Nat
  | .connected _ providerRevision _ | .wrongNetwork _ providerRevision _ => some providerRevision
  | _ => none

/-- The event names no attempt, or the current one. -/
def WalletSessionEvent.isCurrent (state : WalletSessionControl) : WalletSessionEvent → Bool
  | .connected attemptId _ _ | .wrongNetwork attemptId _ _ => isCurrentAttempt state attemptId
  | _ => true

/-- The present of a history, and what is remembered of it: the provider at every moment so far,
and the revision of the last opening event, of all and of those that were not stale. -/
structure SessionHistory where
  provider : ProviderAccount
  control : WalletSessionControl
  past : List ProviderAccount
  carried : Option Nat
  opened : Option Nat
  deriving DecidableEq, Repr

def initialSessionHistory : SessionHistory where
  provider := initialProviderAccount
  control := initialWalletSessionControl
  past := [initialProviderAccount]
  carried := none
  opened := none

inductive SessionLabel
  | commit (next : Option Address)
  | event (event : WalletSessionEvent)
  deriving DecidableEq, Repr

namespace SessionHistory

def commit (s : SessionHistory) (next : Option Address) : SessionHistory :=
  let provider := commitProviderAccount s.provider next
  { s with
    provider
    past := provider :: s.past }

def dispatch (s : SessionHistory) (event : WalletSessionEvent) : SessionHistory :=
  { s with
    control := walletSessionReducer s.control event
    carried := event.carriedRevision.or s.carried
    opened := if event.isCurrent s.control then event.carriedRevision.or s.opened else s.opened }

/-- Opening events carry a revision that was current at some moment. -/
inductive Step : SessionHistory → SessionLabel → SessionHistory → Prop
  | commit {s : SessionHistory} (next : Option Address) : Step s (.commit next) (s.commit next)
  | event {s : SessionHistory} {event : WalletSessionEvent}
      (h : ∀ revision, event.carriedRevision = some revision →
        ∃ provider ∈ s.past, provider.revision = revision) :
      Step s (.event event) (s.dispatch event)

def histories : TransitionSystem SessionHistory SessionLabel where
  init s := s = initialSessionHistory
  step := Step

/-- The inputs of a snapshot see the present. -/
structure Sees (inputs : WalletSessionInputs) (s : SessionHistory) : Prop where
  control : inputs.control = s.control
  revision : inputs.provider.revision = s.provider.revision
  accountKnown : inputs.provider.accountKnown = s.provider.known
  activeAccount : inputs.provider.activeAccount = s.provider.account

/-- What every history keeps. -/
structure Kept (s : SessionHistory) : Prop where
  present : s.provider ∈ s.past
  /-- Counts only grow. -/
  counted : ∀ provider ∈ s.past, provider.revision ≤ s.provider.revision
  /-- Moments of one count have one account. -/
  stretch : ∀ provider ∈ s.past, provider.revision = s.provider.revision →
    provider.known = true → s.provider.known = true ∧ provider.account = s.provider.account
  connecting : s.control.intent = .connecting → s.control.status = .connecting
  active : s.control.intent = .active → s.control.providerRevision = s.opened

theorem Kept.init : Kept initialSessionHistory where
  present := by simp [initialSessionHistory]
  counted := by simp [initialSessionHistory]
  stretch := by simp [initialSessionHistory]
  connecting := nofun
  active := nofun

theorem Kept.commit {s : SessionHistory} (h : s.Kept) (next : Option Address) :
    (s.commit next).Kept where
  present := List.mem_cons_self
  counted provider hprovider := by
    rcases List.mem_cons.1 hprovider with rfl | hpast
    · exact Nat.le_refl _
    · exact (h.counted provider hpast).trans le_commitProviderAccount_revision
  stretch provider hprovider hcount hknown := by
    have hpresent : (s.commit next).provider = commitProviderAccount s.provider next := rfl
    rcases List.mem_cons.1 hprovider with rfl | hpast
    · exact ⟨hknown, rfl⟩
    · -- The count did not move with this commit, so neither did the account.
      have hle := h.counted provider hpast
      have hstep := @le_commitProviderAccount_revision s.provider next
      rw [hpresent] at hcount
      obtain ⟨hnow, hsame⟩ := h.stretch provider hpast (by omega) hknown
      have hkept : s.provider.account = next := commitProviderAccount_same hnow (by omega)
      exact ⟨rfl, hsame.trans hkept⟩
  connecting := h.connecting
  active := h.active

theorem Kept.dispatch {s : SessionHistory} (h : s.Kept) (event : WalletSessionEvent) :
    (s.dispatch event).Kept where
  present := h.present
  counted := h.counted
  stretch := h.stretch
  connecting := by
    have hconnecting := h.connecting
    show (walletSessionReducer s.control event).intent = _ →
      (walletSessionReducer s.control event).status = _
    cases event with
    | sdkReady reason =>
      simp only [walletSessionReducer]
      split_ifs with hboot
      · intro hintent
        rw [hconnecting hintent] at hboot
        cases hboot
      · exact hconnecting
    | restoreStarted | connectStarted => exact fun _ => rfl
    | connectPhase =>
      simp only [walletSessionReducer]
      split_ifs
      · exact hconnecting
      · exact fun _ => rfl
    | connected | wrongNetwork =>
      simp only [walletSessionReducer]
      split_ifs
      · exact hconnecting
      · nofun
    | invalidate => nofun
    | connectFailed =>
      simp only [walletSessionReducer]
      split
      · exact hconnecting
      · nofun
  active := by
    have hactive := h.active
    show (walletSessionReducer s.control event).intent = _ →
      (walletSessionReducer s.control event).providerRevision = (s.dispatch event).opened
    cases event with
    | sdkReady reason =>
      simp only [walletSessionReducer]
      split
      · exact hactive
      · exact hactive
    | restoreStarted | connectStarted | invalidate => nofun
    | connectPhase =>
      simp only [walletSessionReducer]
      split
      · exact hactive
      · rename_i hcurrent
        intro hintent
        exact absurd (Or.inr (by rw [show s.control.intent = .active from hintent]; decide))
          hcurrent
    | connected attemptId revision epoch | wrongNetwork attemptId revision epoch =>
      simp only [walletSessionReducer, SessionHistory.dispatch, WalletSessionEvent.isCurrent,
        WalletSessionEvent.carriedRevision]
      by_cases hcurrent : isCurrentAttempt s.control attemptId = true
      · simp [hcurrent, activate]
      · simpa [hcurrent] using hactive
    | connectFailed =>
      simp only [walletSessionReducer]
      split
      · exact hactive
      · nofun

theorem Kept.of_reachable {s : SessionHistory} (h : histories.Reachable s) : s.Kept := by
  refine h.invariant ?_ ?_
  · rintro s rfl
    exact .init
  · intro s label s' _ hkept hstep
    cases hstep with
    | commit next => exact hkept.commit next
    | event => exact hkept.dispatch _

/-- What enabled financial actions say about the whole history. -/
structure Unbroken (s : SessionHistory) (inputs : WalletSessionInputs) : Prop where
  intent : s.control.intent = .active
  aligned : ∃ wallet, inputs.verifiedFinancialWallet = some wallet ∧
    s.provider.account = some wallet ∧ inputs.runtime.dynamicPrimaryWallet = some wallet ∧
    inputs.runtime.wagmiAccount = some wallet ∧ inputs.runtime.walletClientAccount = some wallet
  providerChain : inputs.provider.chainId = some LEOPOLD_CHAIN_ID
  clientChain : inputs.runtime.walletClientChainId = some LEOPOLD_CHAIN_ID
  health : inputs.networkHealth.state = .healthy

/-- The account of every commit since the revision was current is the present one. -/
def UnchangedSince (s : SessionHistory) (revision : Nat) : Prop :=
  ∀ provider ∈ s.past, revision ≤ provider.revision → provider.known = true →
    provider.account = s.provider.account

instance (s : SessionHistory) (revision : Nat) : Decidable (s.UnchangedSince revision) :=
  inferInstanceAs (Decidable (∀ provider ∈ s.past, _))

/-- Financial actions are enabled only in an active session whose accounts and networks are
aligned, and whose account has not changed since the revision of the last opening event that was
not stale was current. -/
theorem financial_actions_unbroken {s : SessionHistory} {inputs : WalletSessionInputs}
    (hs : histories.Reachable s) (hsees : Sees inputs s)
    (h : (deriveWalletSession inputs).canUseFinancialActions = true) :
    Unbroken s inputs ∧ ∃ revision, s.opened = some revision ∧ s.UnchangedSince revision := by
  have hkept := Kept.of_reachable hs
  obtain ⟨hintent, hrevision, hknown, ⟨wallet, hverified, haccount, hruntime⟩, hchain,
    hclientChain, hhealth⟩ := canUse_spec (by rw [hsees.control]; exact hkept.connecting) h
  rw [hsees.control] at hintent hrevision
  rw [hsees.activeAccount] at haccount
  refine ⟨⟨hintent, ⟨wallet, hverified, haccount, hruntime⟩, hchain, hclientChain, hhealth⟩,
    s.provider.revision, ?_, fun provider hpast hsince hprovider => ?_⟩
  · rw [← hkept.active hintent, hrevision, hsees.revision]
  · have hcount : provider.revision = s.provider.revision :=
      Nat.le_antisymm (hkept.counted provider hpast) hsince
    exact (hkept.stretch provider hpast hcount hprovider).2

/-! ### A stale event after the session was opened -/

def walletA : Address := ⟨1⟩

def walletB : Address := ⟨2⟩

/-- B is committed, then A, and a session is opened for A. -/
def openedForA : SessionHistory :=
  ((initialSessionHistory.commit (some walletB)).commit (some walletA)).dispatch
    (.connected none 1 none)

/-- Then an opening event of an older attempt arrives, with the revision of B. -/
def staleOpening : SessionHistory :=
  openedForA.dispatch (.connected (some "connect-0") 0 none)

theorem reachable_openedForA : histories.Reachable openedForA :=
  (((TransitionSystem.Reachable.of_init rfl).tail (Step.commit _)).tail (Step.commit _)).tail
    (Step.event (by rintro _ ⟨⟩; decide))

theorem reachable_staleOpening : histories.Reachable staleOpening :=
  reachable_openedForA.tail (Step.event (by rintro _ ⟨⟩; decide))

def alignedRuntime : WalletRuntimeObservation where
  dynamicPrimaryWallet := some walletA
  dynamicLinkedWallets := []
  dynamicWalletObjectForVerifiedAddress := some ⟨"a", walletA⟩
  wagmiAccount := some walletA
  walletClientAccount := some walletA
  walletClientId := none
  walletClientChainId := some LEOPOLD_CHAIN_ID

def healthy : WalletRpcHealth where
  state := .healthy
  checkedAt := none
  dynamicWalletChainId := none
  walletClientChainId := none
  appChainId := none
  technicalDetail := none

/-- A is the verified wallet, and everything else is on its side. -/
def alignedInputs (s : SessionHistory) : WalletSessionInputs where
  initialized := true
  verifiedFinancialWallet := some walletA
  control := s.control
  provider := {
    revision := s.provider.revision
    available := true
    connected := true
    accountKnown := s.provider.known
    activeAccount := s.provider.account
    chainId := some LEOPOLD_CHAIN_ID }
  runtime := alignedRuntime
  networkHealth := healthy

theorem sees_alignedInputs (s : SessionHistory) : Sees (alignedInputs s) s := ⟨rfl, rfl, rfl, rfl⟩

theorem financial_actions_unbroken_openedForA :
    Unbroken openedForA (alignedInputs openedForA) ∧
      ∃ revision, openedForA.opened = some revision ∧ openedForA.UnchangedSince revision :=
  financial_actions_unbroken reachable_openedForA (sees_alignedInputs openedForA) (by decide)

/-- With stale events counted, the account has changed since the revision of the last one. -/
theorem stale_opening_counted :
    histories.Reachable staleOpening ∧ Sees (alignedInputs staleOpening) staleOpening ∧
      (deriveWalletSession (alignedInputs staleOpening)).canUseFinancialActions = true ∧
      staleOpening.carried = some 0 ∧ ¬ staleOpening.UnchangedSince 0 :=
  ⟨reachable_staleOpening, sees_alignedInputs staleOpening, by decide, by decide, by decide⟩

end SessionHistory

end Leopold.Frontend
