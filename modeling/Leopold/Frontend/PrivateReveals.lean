import Leopold.Frontend.PrivateDisplay

/-!
# Private values of an earlier session

After the clean-up for a change of session, no reveal of an earlier session that was still in
flight may write a value.  `revealPrivateBalance` looks at its run id again and never does; the
reveals of a vault do not look again, and the values stay one session's exactly in the runs where
none of them is overtaken by a clean-up.
-/

namespace Leopold.Frontend

open Lib

namespace PrivateDisplay

variable {config : FinancialConfig} {s t u : PrivateDisplay}

/-- Who revealed what is on display or marked as revealed. -/
def origins (s : PrivateDisplay) : List Origin :=
  s.privateBalance.toList.map (·.origin) ++ s.privateBalanceRevealed.toList ++
    s.vaultPositions.map (·.2.origin) ++ s.revealedVaults.map (·.2) ++
    s.privateResults.map (·.2.origin) ++ s.revealedResults.map (·.2) ++
    s.privateEligibility.map (·.2.origin)

/-- The reveal began after the last clean-up for a change of session, or in the session of that
clean-up. -/
def Own (s : PrivateDisplay) (origin : Origin) : Prop :=
  origin.begun = s.cleanups ∨ origin.session = s.cleaned

/-- Nothing of an earlier session is on display. -/
def ShowsOwn (s : PrivateDisplay) : Prop :=
  ∀ origin ∈ s.origins, s.Own origin

instance (origin : Origin) : Decidable (s.Own origin) := inferInstanceAs (Decidable (_ ∨ _))

instance : Decidable s.ShowsOwn := inferInstanceAs (Decidable (∀ origin ∈ s.origins, s.Own origin))

/-- The reveal of a vault is at its decryption. -/
def decryptsVault : RevealWork → Bool
  | .vault _ _ (.decrypting ..) => true
  | _ => false

/-- The value comes to the reveal of a vault that began in an earlier session, before the last
clean-up for a change of session. -/
def Overtaken (s : PrivateDisplay) : Label → Prop
  | .resume reveal (.clear _) =>
    decryptsVault reveal.work = true ∧ reveal.begun ≠ s.cleanups ∧
      reveal.view.session ≠ s.cleaned
  | _ => False

instance (label : Label) : Decidable (s.Overtaken label) := by
  unfold Overtaken
  split <;> infer_instance

/-! ### Run ids -/

/-- The run id of a private balance reveal is not newer than the provider's, and where it is the
same no clean-up came between. -/
def Numbered (s : PrivateDisplay) (reveal : Reveal) : Prop :=
  match reveal.work with
  | .balance locals _ =>
    locals.runId ≤ s.privateRevealRun ∧
      (locals.runId = s.privateRevealRun → reveal.begun = s.cleanups)
  | _ => True

/-- What every step but a clean-up and an overtaken reveal does: it writes its own values only, and
the run ids stay in order. -/
structure Orderly (s t : PrivateDisplay) : Prop where
  cleanups : t.cleanups = s.cleanups
  cleaned : t.cleaned = s.cleaned
  run : s.privateRevealRun ≤ t.privateRevealRun
  origins : ∀ origin ∈ t.origins, origin ∈ s.origins ∨ t.Own origin
  reveals : ∀ reveal ∈ t.reveals, reveal ∈ s.reveals ∨ t.Numbered reveal

namespace Orderly

theorem numbered (h : Orderly s t) {reveal : Reveal} (hreveal : s.Numbered reveal) :
    t.Numbered reveal := by
  obtain ⟨work, view, begun⟩ := reveal
  cases work with
  | vault | refresh => trivial
  | balance locals await =>
    obtain ⟨hle, hsame⟩ : locals.runId ≤ s.privateRevealRun ∧
      (locals.runId = s.privateRevealRun → begun = s.cleanups) := hreveal
    refine ⟨hle.trans h.run, fun heq => ?_⟩
    have hrun : s.privateRevealRun = t.privateRevealRun := le_antisymm h.run (heq ▸ hle)
    exact (hsame (heq.trans hrun.symm)).trans h.cleanups.symm

theorem own (h : Orderly s t) {origin : Origin} (horigin : s.Own origin) : t.Own origin := by
  rwa [Own, h.cleanups, h.cleaned]

theorem refl (s : PrivateDisplay) : Orderly s s :=
  ⟨rfl, rfl, Nat.le_refl _, fun _ h => .inl h, fun _ h => .inl h⟩

theorem trans (h : Orderly s t) (h' : Orderly t u) : Orderly s u where
  cleanups := h'.cleanups.trans h.cleanups
  cleaned := h'.cleaned.trans h.cleaned
  run := h.run.trans h'.run
  origins origin horigin := by
    rcases h'.origins origin horigin with hold | hown
    · exact (h.origins origin hold).imp_right h'.own
    · exact .inr hown
  reveals reveal hreveal := by
    rcases h'.reveals reveal hreveal with hold | hnew
    · exact (h.reveals reveal hold).imp_right h'.numbered
    · exact .inr hnew

theorem showsOwn (h : Orderly s t) (hs : s.ShowsOwn) : t.ShowsOwn := fun origin horigin =>
  (h.origins origin horigin).elim (fun hold => h.own (hs origin hold)) id

theorem allNumbered (h : Orderly s t) (hs : ∀ reveal ∈ s.reveals, s.Numbered reveal) :
    ∀ reveal ∈ t.reveals, t.Numbered reveal := fun reveal hreveal =>
  (h.reveals reveal hreveal).elim (fun hold => h.numbered (hs reveal hold)) id

end Orderly

/-! ### The private balance -/

theorem invalidatePrivateBalance_orderly : Orderly s s.invalidatePrivateBalance where
  cleanups := rfl
  cleaned := rfl
  run := Nat.le_succ _
  origins origin horigin := by
    simp only [origins, invalidatePrivateBalance, Option.toList_none, List.map_nil,
      List.nil_append] at horigin
    simp only [origins, List.mem_append] at horigin ⊢
    tauto
  reveals _ h := .inl h

/-- A new await of work whose run id is in order. -/
theorem suspend_orderly {work : RevealWork} {view : View}
    (hwork : s.Numbered ⟨work, view, s.cleanups⟩) : Orderly s (s.suspend work view) where
  cleanups := rfl
  cleaned := rfl
  run := Nat.le_refl _
  origins _ h := .inl h
  reveals reveal hreveal := by
    rcases List.mem_cons.1 hreveal with rfl | hold
    · exact .inr hwork
    · exact .inl hold

theorem goOn_orderly {reveal : Reveal} {work : RevealWork}
    (hwork : s.Numbered { reveal with work }) : Orderly s (s.goOn reveal work) where
  cleanups := rfl
  cleaned := rfl
  run := Nat.le_refl _
  origins _ h := .inl h
  reveals reveal hreveal := by
    rcases List.mem_cons.1 hreveal with rfl | hold
    · exact .inr hwork
    · exact .inl hold

theorem refreshPrivateBalanceHandle_orderly {view : View} :
    Orderly s (s.refreshPrivateBalanceHandle config view) := by
  have hnext : Orderly s { s with privateRevealRun := s.privateRevealRun + 1 } :=
    ⟨rfl, rfl, Nat.le_succ _, fun _ h => .inl h, fun _ h => .inl h⟩
  simp only [refreshPrivateBalanceHandle]
  split
  · exact hnext.trans invalidatePrivateBalance_orderly
  split
  · exact hnext.trans invalidatePrivateBalance_orderly
  · exact hnext
  · refine hnext.trans (.trans ?_ (suspend_orderly trivial))
    exact ⟨rfl, rfl, Nat.le_refl _, fun _ h => .inl h, fun _ h => .inl h⟩

/-- A step that leaves nothing of the private balance on display, and nothing else changed. -/
theorem hidden_orderly (handle : Option Handle) (status : PrivateBalanceStatus)
    (diagnostic : Option PrivateBalanceDiagnostic) :
    Orderly s { s with
      privateBalanceHandle := handle
      privateBalance := none
      privateBalanceRevealed := none
      privateBalanceStatus := status
      privateBalanceDiagnostic := diagnostic } where
  cleanups := rfl
  cleaned := rfl
  run := Nat.le_refl _
  origins origin horigin := by
    simp only [origins, Option.toList_none, List.map_nil, List.nil_append] at horigin
    simp only [origins, List.mem_append] at horigin ⊢
    tauto
  reveals _ h := .inl h

theorem finishRefresh_orderly {view : View} {runId : Nat} {token : Address}
    {result : Except String PrivateBalanceIdentity} :
    Orderly s (s.finishRefresh config view runId token result) := by
  cases result <;> (simp only [finishRefresh]; split)
  · exact .refl s
  · exact hidden_orderly ..
  · exact .refl s
  · exact hidden_orderly ..

theorem failBalance_orderly {view : View} {locals : BalanceReveal} {message : String} :
    Orderly s (s.failBalance config view locals message) := by
  simp only [failBalance]
  split
  · exact .refl s
  split
  · exact (hidden_orderly s.privateBalanceHandle _ _).trans refreshPrivateBalanceHandle_orderly
  · exact hidden_orderly s.privateBalanceHandle _ _

theorem onStage_orderly {locals : BalanceReveal} : Orderly s (s.onStage locals) := by
  simp only [onStage]
  split
  · exact ⟨rfl, rfl, Nat.le_refl _, fun _ h => .inl h, fun _ h => .inl h⟩
  · exact .refl s

theorem onIdentity_orderly {locals : BalanceReveal} : Orderly s (s.onIdentity locals) := by
  simp only [onIdentity]
  split
  · exact .refl s
  · exact ⟨rfl, rfl, Nat.le_refl _, fun _ h => .inl h, fun _ h => .inl h⟩

theorem revealPrivateBalance_orderly {view : View} : Orderly s (s.revealPrivateBalance view) := by
  refine .trans (t := { s with
    privateRevealRun := s.privateRevealRun + 1
    privateBalanceHandle := none
    privateBalanceStatus := .readingHandle
    privateBalanceDiagnostic := none }) ?_ (suspend_orderly ⟨Nat.le_refl _, fun _ => rfl⟩)
  exact ⟨rfl, rfl, Nat.le_succ _, fun _ h => .inl h, fun _ h => .inl h⟩

/-- The run id was looked at again, so no clean-up came between. -/
theorem settleBalance_orderly {reveal : Reveal} {locals : BalanceReveal}
    {await : BalanceAwait} {identity : PrivateBalanceIdentity} {value : Nat}
    (hwork : reveal.work = .balance locals await) (hreveal : s.Numbered reveal) :
    Orderly s (s.settleBalance config reveal locals identity value) := by
  simp only [settleBalance]
  split
  · exact failBalance_orderly
  · rename_i hrun
    rw [Numbered, hwork] at hreveal
    have hbegun : reveal.begun = s.cleanups := hreveal.2 (not_not.1 hrun)
    refine ⟨rfl, rfl, Nat.le_refl _, fun origin horigin => ?_, fun _ h => .inl h⟩
    simp only [origins, Option.toList_some, List.map_cons, List.map_nil, List.mem_append,
      List.mem_singleton] at horigin ⊢
    rcases horigin with (((((rfl | rfl) | h) | h) | h) | h) | h
    · exact .inr (.inl hbegun)
    · exact .inr (.inl hbegun)
    all_goals tauto

section Resume

variable {reveal : Reveal} {locals : BalanceReveal} {await : BalanceAwait}

theorem caught_orderly {α : Type} {result : Except String α} {next : α → PrivateDisplay}
    (h : ∀ a, Orderly s (next a)) : Orderly s (s.caught config reveal locals result next) := by
  cases result with
  | ok a => exact h a
  | error => exact failBalance_orderly

/-- The reveal goes on, with the same run id. -/
theorem goOn_balance_orderly (hwork : reveal.work = .balance locals await)
    (hreveal : s.Numbered reveal) (hst : Orderly s t) {locals' : BalanceReveal}
    (hrun : locals'.runId = locals.runId) {await' : BalanceAwait} :
    Orderly s (t.goOn reveal (.balance locals' await')) := by
  refine hst.trans (goOn_orderly ?_)
  have h := hst.numbered hreveal
  rw [Numbered, hwork] at h
  change locals'.runId ≤ t.privateRevealRun ∧
    (locals'.runId = t.privateRevealRun → reveal.begun = t.cleanups)
  rwa [hrun]

theorem resumeBalance_orderly (hwork : reveal.work = .balance locals await)
    (hreveal : s.Numbered reveal) {reply : RevealReply} :
    Orderly s (s.resumeBalance config reveal locals await reply) := by
  unfold resumeBalance
  split
  · refine caught_orderly fun _ => caught_orderly fun clients => caught_orderly fun token => ?_
    refine goOn_balance_orderly hwork hreveal (.refl s) ?_
    rfl
  · simp only []
    split
    · exact failBalance_orderly
    · refine goOn_balance_orderly hwork hreveal onStage_orderly ?_
      rfl
  · refine caught_orderly fun requested => ?_
    simp only []
    split
    · refine goOn_balance_orderly hwork hreveal onIdentity_orderly ?_
      rfl
    · refine goOn_balance_orderly hwork hreveal
        (onIdentity_orderly.trans (onStage_orderly.trans onStage_orderly)) ?_
      rfl
  · refine caught_orderly fun value => ?_
    refine goOn_balance_orderly hwork hreveal onStage_orderly ?_
    rfl
  · refine caught_orderly fun identity => ?_
    split
    · exact failBalance_orderly
    · refine goOn_balance_orderly hwork hreveal onStage_orderly ?_
      rfl
  · exact settleBalance_orderly hwork hreveal
  · exact failBalance_orderly
  · exact .refl s

end Resume

/-! ### The reveals of a vault -/

theorem mem_origins_showVault {slug : VaultId} {shown : Shown} {kind : VaultReveal} :
    shown.origin ∈ (s.showVault slug shown kind).origins := by
  cases kind <;> simp [showVault, origins, record]

theorem mem_map_record {α : Type} {items : List (VaultId × α)} {slug : VaultId} {item : α}
    {f : VaultId × α → Origin} {origin : Origin} (h : origin ∈ (record items slug item).map f) :
    origin = f (slug, item) ∨ origin ∈ items.map f := by
  obtain ⟨entry, hentry, rfl⟩ := List.mem_map.1 h
  rcases mem_record hentry with rfl | hold
  · exact .inl rfl
  · exact .inr (List.mem_map_of_mem hold)

theorem origins_showVault {slug : VaultId} {shown : Shown} {kind : VaultReveal} {origin : Origin}
    (h : origin ∈ (s.showVault slug shown kind).origins) :
    origin = shown.origin ∨ origin ∈ s.origins := by
  cases kind <;> simp only [showVault, origins, List.mem_append] at h ⊢
  -- What was written over is at the new entry, everything else where it was.
  all_goals
    rcases h with (((((h | h) | h) | h) | h) | h) | h
    all_goals first
      | tauto
      | rcases mem_map_record h with rfl | h
        · exact .inl rfl
        · tauto

theorem showVault_orderly {slug : VaultId} {shown : Shown} {kind : VaultReveal}
    (hown : s.Own shown.origin) : Orderly s (s.showVault slug shown kind) := by
  have horigins : ∀ origin ∈ (s.showVault slug shown kind).origins,
      origin ∈ s.origins ∨ s.Own origin := fun origin horigin =>
    (origins_showVault horigin).symm.imp_right fun h => by rw [h]; exact hown
  cases kind <;> exact ⟨rfl, rfl, Nat.le_refl _, horigins, fun _ h => .inl h⟩

theorem goOnVault_orderly {reveal : Reveal} {kind : VaultReveal} {slug : VaultId}
    {await : Except String VaultAwait} : Orderly s (s.goOnVault reveal kind slug await) := by
  cases await with
  | ok => exact goOn_orderly trivial
  | error => exact .refl s

/-- Only the answer of the decryption writes. -/
theorem resumeVault_orderly {reveal : Reveal} {kind : VaultReveal} {slug : VaultId}
    {await : VaultAwait} {reply : RevealReply} (hwork : reveal.work = .vault kind slug await)
    (hin : ¬ s.Overtaken (.resume reveal reply)) :
    Orderly s (s.resumeVault config reveal kind slug await reply) := by
  unfold resumeVault
  split
  · exact goOnVault_orderly
  · exact goOnVault_orderly
  · exact goOnVault_orderly
  · exact goOnVault_orderly
  · refine showVault_orderly ?_
    have hdecrypts : decryptsVault reveal.work = true := by rw [hwork]; rfl
    have hin : ¬ (_ ∧ reveal.begun ≠ s.cleanups ∧ reveal.view.session ≠ s.cleaned) := hin
    exact or_iff_not_and_not.2 fun h => hin ⟨hdecrypts, h⟩
  · exact .refl s

/-! ### Steps and runs -/

/-- What holds of every state reached. -/
def Ordered (s : PrivateDisplay) : Prop := ∀ reveal ∈ s.reveals, s.Numbered reveal

theorem resume_orderly {reveal : Reveal} {reply : RevealReply} (hs : s.Numbered reveal)
    (hin : ¬ s.Overtaken (.resume reveal reply)) : Orderly s (s.resume config reveal reply) := by
  unfold resume
  split
  · next hwork => exact resumeBalance_orderly hwork hs
  · next hwork => exact resumeVault_orderly hwork hin
  · split
    · exact finishRefresh_orderly
    · exact finishRefresh_orderly
    · exact .refl s

/-- Every step but a clean-up is orderly, unless it answers an overtaken reveal. -/
theorem next_orderly {label : Label} (hs : s.Ordered) (henabled : s.Enabled label)
    (hcleanup : label ≠ .cleanup) (hin : ¬ s.Overtaken label) :
    Orderly s (s.next config label) := by
  cases label with
  | cleanup => exact absurd rfl hcleanup
  | effects | ethereum =>
    exact ⟨rfl, rfl, Nat.le_refl _, fun _ h => .inl h, fun _ h => .inl h⟩
  | revealPrivateBalance => exact revealPrivateBalance_orderly
  | revealVault => exact suspend_orderly trivial
  | refreshPrivateBalanceHandle => exact refreshPrivateBalanceHandle_orderly
  | invalidatePrivateBalance => exact invalidatePrivateBalance_orderly
  | hidePrivateBalance =>
    refine ⟨rfl, rfl, Nat.le_refl _, fun origin horigin => ?_, fun _ h => .inl h⟩
    simp only [next, origins, Option.toList_none, List.append_nil] at horigin
    simp only [origins, List.mem_append] at horigin ⊢
    tauto
  | hideVault slug =>
    refine ⟨rfl, rfl, Nat.le_refl _, fun origin horigin => ?_, fun _ h => .inl h⟩
    simp only [next, origins, List.mem_append, List.mem_map, List.mem_filter] at horigin ⊢
    grind
  | resume reveal reply =>
    have herase : Orderly s { s with reveals := s.reveals.erase reveal } :=
      ⟨rfl, rfl, Nat.le_refl _, fun _ h => .inl h, fun _ h => .inl (List.mem_of_mem_erase h)⟩
    exact herase.trans (resume_orderly (herase.numbered (hs reveal henabled)) hin)

/-- The clean-up empties the display and ends every reveal of the private balance. -/
theorem cleanup_spec (hs : s.Ordered) : s.cleanup.Ordered ∧ s.cleanup.ShowsOwn := by
  constructor
  · intro reveal hreveal
    have h : s.Numbered reveal := hs reveal hreveal
    obtain ⟨work, view, begun⟩ := reveal
    cases work with
    | vault | refresh => trivial
    | balance locals await =>
      have hle : locals.runId ≤ s.privateRevealRun := h.1
      have hrun : s.cleanup.privateRevealRun = s.privateRevealRun + 1 := rfl
      refine ⟨by omega, fun heq => ?_⟩
      omega
  · intro origin horigin
    simp [origins, cleanup, invalidatePrivateBalance] at horigin

theorem step_spec {label : Label} (hs : s.Ordered) (hown : s.ShowsOwn)
    (henabled : s.Enabled label) (hin : ¬ s.Overtaken label) :
    (s.next config label).Ordered ∧ (s.next config label).ShowsOwn := by
  by_cases hcleanup : label = .cleanup
  · subst hcleanup
    exact cleanup_spec hs
  · have h : Orderly s (s.next config label) := next_orderly hs henabled hcleanup hin
    exact ⟨h.allNumbered hs, h.showsOwn hown⟩

/-- The value of an overtaken reveal is shown. -/
theorem overtaken_spec {label : Label} (h : s.Overtaken label) :
    ¬ (s.next config label).ShowsOwn := by
  cases label with
  | resume reveal reply =>
    cases reply with
    | clear value =>
      obtain ⟨hwork, hbegun, hsession⟩ : decryptsVault reveal.work = true ∧
        reveal.begun ≠ s.cleanups ∧ reveal.view.session ≠ s.cleaned := h
      unfold decryptsVault at hwork
      split at hwork
      · next kind slug clients vaultAddress handle heq =>
        simp only [next, resume, heq, resumeVault]
        intro hown
        rcases hown _ mem_origins_showVault with h | h
        · exact hbegun (h.trans (by cases kind <;> rfl))
        · exact hsession (h.trans (by cases kind <;> rfl))
      · cases hwork
    | _ => cases h
  | _ => cases h

theorem init_spec {view : View} {ethereum : Bool} :
    (init view ethereum).Ordered ∧ (init view ethereum).ShowsOwn :=
  ⟨fun _ h => absurd h List.not_mem_nil, fun _ h => absurd h (by simp [origins, init])⟩

section Trace

variable {steps : List (TransitionSystem.Taken PrivateDisplay Label)}

theorem showsOwn_of_trace (hs : (system config).init s) (h : (system config).Trace s steps t)
    (hin : ∀ step ∈ steps, ¬ step.source.Overtaken step.label) :
    ∀ step ∈ steps, step.target.ShowsOwn := by
  have hinv : (system config).Reachable t ∧
      ((∀ step ∈ steps, ¬ step.source.Overtaken step.label) →
        (t.Ordered ∧ t.ShowsOwn) ∧ ∀ step ∈ steps, step.target.ShowsOwn) := by
    refine TransitionSystem.Trace.invariant (I := fun steps t =>
      (∀ step ∈ steps, ¬ step.source.Overtaken step.label) →
        (t.Ordered ∧ t.ShowsOwn) ∧ ∀ step ∈ steps, step.target.ShowsOwn) (.of_init hs) ?_ ?_ h
    · obtain ⟨view, ethereum, rfl⟩ := hs
      exact fun _ => ⟨init_spec, fun _ h => absurd h List.not_mem_nil⟩
    · rintro steps u label u' - ih ⟨henabled, rfl⟩ hin
      obtain ⟨hin, hlast⟩ := List.forall_mem_append.1 hin
      have hlast : ¬ u.Overtaken label := hlast _ List.mem_cons_self
      obtain ⟨⟨hordered, hown⟩, hsteps⟩ := ih hin
      have hnext : (u.next config label).Ordered ∧ (u.next config label).ShowsOwn :=
        step_spec hordered hown henabled hlast
      exact ⟨hnext, List.forall_mem_append.2 ⟨hsteps, List.forall_mem_singleton.2 hnext.2⟩⟩
  exact (hinv.2 hin).2

theorem not_overtaken_of_trace (h : (system config).Trace s steps t)
    (hown : ∀ step ∈ steps, step.target.ShowsOwn) :
    ∀ step ∈ steps, ¬ step.source.Overtaken step.label := by
  induction h with
  | nil => exact fun _ h => absurd h List.not_mem_nil
  | snoc _ hl ih =>
    obtain ⟨hsteps, hlast⟩ := List.forall_mem_append.1 hown
    refine List.forall_mem_append.2 ⟨ih hsteps, List.forall_mem_singleton.2 fun hover => ?_⟩
    have hlast := List.forall_mem_singleton.1 hlast
    obtain ⟨-, rfl⟩ := hl
    exact overtaken_spec hover hlast

/-- In every run, what is on display is the session's own in every state reached exactly when no
reveal of a vault is overtaken by a clean-up for a change of session. -/
theorem shows_own_iff (hs : (system config).init s) (h : (system config).Trace s steps t) :
    (∀ step ∈ steps, step.target.ShowsOwn) ↔
      ∀ step ∈ steps, ¬ step.source.Overtaken step.label :=
  ⟨not_overtaken_of_trace h, showsOwn_of_trace hs h⟩

end Trace

/-! ### A value that is shown to the next session -/

def leopoldConfig : FinancialConfig where
  lcUsdc := some ⟨3⟩
  vaults := [{ slug := .weekly, name := "Weekly", vault := some ⟨4⟩ }]
  sanitizeTechnicalDetail := id

/-- A render in a connected session. -/
def connectedAs (wallet : Address) (epoch : Nat) : View where
  authenticated := true
  identityKey := some "user"
  clientReady := true
  accountStatus := .signedInReady
  walletSession := deriveWalletSession {
    initialized := true
    verifiedFinancialWallet := some wallet
    control := {
      intent := .active
      status := .connected
      reason := .connected
      epoch
      providerRevision := some epoch
      connectOrigin := none
      connectAttemptId := none
      connectStartedAt := none
      connectPhase := none }
    provider := {
      revision := epoch
      available := true
      connected := true
      accountKnown := true
      activeAccount := some wallet
      chainId := some LEOPOLD_CHAIN_ID }
    runtime := {
      dynamicPrimaryWallet := some wallet
      dynamicLinkedWallets := [⟨"wallet", wallet⟩]
      dynamicWalletObjectForVerifiedAddress := some ⟨"wallet", wallet⟩
      wagmiAccount := some wallet
      walletClientAccount := some wallet
      walletClientId := some "client"
      walletClientChainId := some LEOPOLD_CHAIN_ID }
    networkHealth := SessionHistory.healthy }
  publicClient := true
  walletClient := some ⟨"client", some wallet⟩
  deploymentVerified := true
  enteredVaults := []
  publicVaultState := []

/-- The await of a reveal of the weekly vault that began before every change of session. -/
def weeklyReveal (view : View) (await : VaultAwait) : Reveal :=
  ⟨.vault .vault .weekly await, view, 0⟩

/-- The first wallet reveals a position; the session changes to the second wallet and is cleaned
up while the decryption runs. -/
def overtakenReveal : List PrivateDisplay.Label :=
  let view := connectedAs ⟨1⟩ 1
  [.cleanup, .revealVault view .vault .weekly, .resume (weeklyReveal view .access) .done,
    .resume (weeklyReveal view (.handle ⟨some ⟨1⟩, ⟨1⟩⟩ ⟨4⟩)) (.handle 7),
    .effects (connectedAs ⟨2⟩ 2), .cleanup,
    .resume (weeklyReveal view (.decrypting ⟨some ⟨1⟩, ⟨1⟩⟩ ⟨4⟩ 7)) (.clear 1000)]

theorem shows_own_iff_overtakenReveal :
    (∀ step ∈ (init (connectedAs ⟨1⟩ 1) true).steps leopoldConfig overtakenReveal,
        step.target.ShowsOwn) ↔
      ∀ step ∈ (init (connectedAs ⟨1⟩ 1) true).steps leopoldConfig overtakenReveal,
        ¬ step.source.Overtaken step.label :=
  shows_own_iff ⟨_, _, rfl⟩ (trace_steps leopoldConfig _ overtakenReveal (by decide +kernel))

/-- What the second wallet sees. -/
def leakedDisplay : PrivateDisplay :=
  overtakenReveal.foldl (next leopoldConfig) (init (connectedAs ⟨1⟩ 1) true)

theorem reachable_leakedDisplay : (system leopoldConfig).Reachable leakedDisplay :=
  (trace_steps leopoldConfig _ overtakenReveal (by decide +kernel)).reachable
    (.of_init ⟨_, _, rfl⟩)

/-- The position of the first wallet is shown, and marked revealed, in the session of the second. -/
theorem value_shown_to_later_session :
    (system leopoldConfig).Reachable leakedDisplay ∧
      leakedDisplay.accountRef = some ⟨2⟩ ∧
      leakedDisplay.vaultPositions.map (fun entry =>
        (entry.1, entry.2.value, entry.2.origin.account)) = [(.weekly, 1000, ⟨1⟩)] ∧
      leakedDisplay.revealedVaults.map (·.1) = [.weekly] ∧
      ¬ ∀ s, (system leopoldConfig).Reachable s → s.ShowsOwn :=
  ⟨reachable_leakedDisplay, by decide +kernel, by decide +kernel, by decide +kernel,
    fun h => absurd (h _ reachable_leakedDisplay) (by decide +kernel)⟩

end PrivateDisplay

end Leopold.Frontend
