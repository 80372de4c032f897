import Leopold.System.PublicPart
import Leopold.System.Scripts

/-!
# What a run makes public

Two runs with the same public calls, in which the same decryption proofs are accepted, have the
same public parts: round states and cursors, participants, checkpoint times, public figures, the
kinds and owners of the grants, the ledgers of the escrow and of the adapter, and the error of a
call that reverts.  Amounts, balances, candidates and winners do not show.
-/

namespace Leopold

open Lib

variable {E64 E128 EBool X Y : Type}

/-- The public part of a call. -/
def Call.erase : Call E64 E128 EBool → Call Unit Unit Unit
  | .registerForRound value roundId => .registerForRound value roundId
  | .acceptBondRegistration roundId account => .acceptBondRegistration roundId account
  | .deposit _ dataLength => .deposit () dataLength
  | .onConfidentialTransferReceived holder _ dataLength =>
    .onConfidentialTransferReceived holder () dataLength
  | .withdraw input => .withdraw input.erase
  | .contributeSponsor roundId units => .contributeSponsor roundId units
  | .openStrategyEpoch kind => .openStrategyEpoch kind
  | .requestStrategyAmount epochId => .requestStrategyAmount epochId
  | .finalizeStrategyDeployment epochId clearAmount proof =>
    .finalizeStrategyDeployment epochId clearAmount proof
  | .finalizeStrategyReplenishment epochId cleartexts proof =>
    .finalizeStrategyReplenishment epochId cleartexts proof
  | .harvestStrategyYield => .harvestStrategyYield
  | .setStrategyPaused paused => .setStrategyPaused paused
  | .emergencyUnwindStrategy => .emergencyUnwindStrategy
  | .cancelAgingStrategyEpoch epochId => .cancelAgingStrategyEpoch epochId
  | .cancelExpiredStrategyEpoch epochId clearAmount proof =>
    .cancelExpiredStrategyEpoch epochId clearAmount proof
  | .closeRound => .closeRound
  | .finalizeAggregate roundId cleartexts proof => .finalizeAggregate roundId cleartexts proof
  | .generateRandomCandidate roundId _ => .generateRandomCandidate roundId ()
  | .finalizeCandidateValidity roundId cleartexts proof =>
    .finalizeCandidateValidity roundId cleartexts proof
  | .processSelection roundId maxParticipants => .processSelection roundId maxParticipants
  | .finalizeSelectionReconciliation roundId cleartexts proof =>
    .finalizeSelectionReconciliation roundId cleartexts proof
  | .processAllocation roundId maxParticipants => .processAllocation roundId maxParticipants
  | .finalizeSettlement roundId => .finalizeSettlement roundId
  | .recoverFailedReconciliation roundId => .recoverFailedReconciliation roundId
  | .settleEmptyRound roundId => .settleEmptyRound roundId
  | .withdrawWinnings input => .withdrawWinnings input.erase
  | .materializeMyRoundWeight roundId => .materializeMyRoundWeight roundId
  | .setAutoSavePreference preference => .setAutoSavePreference preference
  | .creditProgress roundId pass participants progressor =>
    .creditProgress roundId pass participants progressor
  | .finalizeRound roundId completedPasses => .finalizeRound roundId completedPasses
  | .claimBondRefund roundId accepts => .claimBondRefund roundId accepts
  | .withdrawSettlementRewards accepts => .withdrawSettlementRewards accepts
  | .deployAssets amount => .deployAssets amount
  | .withdrawPrincipal amount => .withdrawPrincipal amount
  | .harvest => .harvest
  | .setPaused paused => .setPaused paused
  | .emergencyExit => .emergencyExit

def Label.erase (pub : X → Y) : Label E64 E128 EBool X → Label Unit Unit Unit Y
  | .call sender c => .call sender c.erase
  | .tick now => .tick now
  | .thirdParty ext => .thirdParty (pub ext)
  | .forceNative amount => .forceNative amount

/-- The answer to the check of a decryption proof that a call makes. -/
def accepted (fhe : Fhe E64 E128 EBool) (w : World E64 E128 EBool X) :
    Call E64 E128 EBool → Bool
  | .finalizeAggregate roundId cleartexts proof =>
    fhe.checkSignatures128 (w.vault.rounds roundId).aggregateTwab cleartexts.word proof
  | .finalizeCandidateValidity roundId cleartexts proof =>
    fhe.checkSignaturesBool (w.vault.rounds roundId).candidateValid (cleartexts.word == 1) proof
  | .finalizeSelectionReconciliation roundId cleartexts proof =>
    fhe.checkSignaturesBool (w.vault.rounds roundId).reconciliationValid (cleartexts.word == 1)
      proof
  | .finalizeStrategyReplenishment epochId cleartexts proof =>
    fhe.checkSignatures64 (w.vault.strategyEpochs epochId).amount cleartexts.word proof
  | _ => false

/-- The public answer of the wrapper to the finalization of an unwrap request that a call makes. -/
def released (E : Externals E64 EBool X) (pub : X → Y) (w : World E64 E128 EBool X) :
    Call E64 E128 EBool → Option Y
  | .finalizeStrategyDeployment epochId clearAmount proof
  | .cancelExpiredStrategyEpoch epochId clearAmount proof =>
    (E.finalizeUnwrap w.ext (w.vault.strategyEpochs epochId).unwrapRequestId clearAmount
      proof).map pub
  | _ => none

/-- The public contracts, with one answer to the finalization of unwrap requests. -/
def Externals.finalizing (S : Externals Unit Unit Y) (answer : Option Y) : Externals Unit Unit Y :=
  { S with finalizeUnwrap := fun _ _ _ _ => answer }

section

variable {fhe : Fhe E64 E128 EBool} {E : Externals E64 EBool X} {S : Externals Unit Unit Y}
  {pub : X → Y} {cfg : Config} {w w₁ w₂ : World E64 E128 EBool X} {sender : Address}

theorem Externals.Shadows.finalizing (h : E.Shadows S pub) (answer : Option Y) :
    E.Shadows (S.finalizing answer) pub where
  __ := h

/-- **A call over the public part.**  Over the erased handles a call does to the public part what
it does over the handles, and reverts with the same error. -/
theorem exec_erase (h : E.Shadows S pub) {call : Call E64 E128 EBool} :
    (exec fhe E cfg sender w call).map (World.erase pub) =
      exec (.erased (accepted fhe w call)) (S.finalizing (released E pub w call)) cfg sender
        (w.erase pub) call.erase := by
  replace h := h.finalizing (released E pub w call)
  cases call with
  | registerForRound => exact World.registerForRound_erase
  | acceptBondRegistration => exact World.onVault_erase Vault.acceptBondRegistration_erase
  | deposit => exact World.deposit_erase h
  | onConfidentialTransferReceived =>
    simp only [exec, Call.erase]
    exact World.onVault_erase
      (map_fst_image (fun _ => ()) Vault.onConfidentialTransferReceived_erase)
  | withdraw => exact map_fst_image (fun _ => ()) (World.withdraw_erase h)
  | contributeSponsor => exact World.contributeSponsor_erase h
  | openStrategyEpoch => exact map_fst_image id World.openStrategyEpoch_erase
  | requestStrategyAmount => exact World.requestStrategyAmount_erase h
  | finalizeStrategyDeployment => exact World.finalizeStrategyDeployment_erase h rfl
  | finalizeStrategyReplenishment => exact World.finalizeStrategyReplenishment_erase h rfl
  | harvestStrategyYield => exact map_fst_image id (World.harvestStrategyYield_erase h)
  | setStrategyPaused => exact World.setStrategyPaused_erase
  | emergencyUnwindStrategy => exact World.emergencyUnwindStrategy_erase h
  | cancelAgingStrategyEpoch => exact World.cancelAgingStrategyEpoch_erase
  | cancelExpiredStrategyEpoch => exact World.cancelExpiredStrategyEpoch_erase h rfl
  | closeRound => exact World.onVault_erase Vault.closeRound_erase
  | finalizeAggregate => exact World.onVault_erase (Vault.finalizeAggregate_erase rfl)
  | generateRandomCandidate => exact World.onVault_erase Vault.generateRandomCandidate_erase
  | finalizeCandidateValidity =>
    exact World.onVault_erase (Vault.finalizeCandidateValidity_erase rfl)
  | processSelection => exact World.processSelection_erase
  | finalizeSelectionReconciliation =>
    exact World.onVault_erase (Vault.finalizeSelectionReconciliation_erase rfl)
  | processAllocation => exact World.processAllocation_erase
  | finalizeSettlement => exact World.finalizeSettlement_erase
  | recoverFailedReconciliation => exact World.recoverFailedReconciliation_erase
  | settleEmptyRound => exact World.settleEmptyRound_erase
  | withdrawWinnings => exact map_fst_image (fun _ => ()) (World.withdrawWinnings_erase h)
  | materializeMyRoundWeight =>
    simp only [exec, Call.erase]
    exact World.onVault_erase (map_fst_image (fun _ => ()) Vault.materializeMyRoundWeight_erase)
  | setAutoSavePreference => rfl
  | creditProgress => exact World.onEscrow_erase
  | finalizeRound => exact World.onEscrow_erase
  | claimBondRefund => exact World.onEscrow_erase
  | withdrawSettlementRewards => exact World.onEscrow_erase
  | deployAssets => exact World.onAdapter_erase (Adapter.deployAssets_shadow h)
  | withdrawPrincipal => exact World.onAdapter_erase (Adapter.withdrawPrincipal_shadow h)
  | harvest => exact World.onAdapter_erase (Adapter.harvest_shadow h)
  | setPaused paused =>
    show ((w.adapter.setPaused cfg sender paused).map _).map _ =
      (w.adapter.setPaused cfg sender paused).map _
    cases w.adapter.setPaused cfg sender paused <;> rfl
  | emergencyExit => exact World.onAdapter_erase (Adapter.emergencyExit_shadow h)

/-! ### Two runs -/

/-- What a step declassifies: the answers to the checks of its proofs. -/
def declassified (fhe : Fhe E64 E128 EBool) (E : Externals E64 EBool X) (pub : X → Y)
    (w : World E64 E128 EBool X) : Label E64 E128 EBool X → Bool × Option Y
  | .call _ call => (accepted fhe w call, released E pub w call)
  | _ => (false, none)

/-- Two runs side by side whose steps are alike in public: encrypted inputs, random candidates and
the third-party contracts' private state may differ. -/
inductive Alongside (fhe : Fhe E64 E128 EBool) (E : Externals E64 EBool X) (cfg : Config)
    (pub : X → Y) : World E64 E128 EBool X → World E64 E128 EBool X → Prop
  | init {nativeBalance now : Nat} {x₁ x₂ : X} {w₁ w₂ : World E64 E128 EBool X}
      (hx : pub x₁ = pub x₂) (h₁ : World.construct fhe E cfg nativeBalance now x₁ = .ok w₁)
      (h₂ : World.construct fhe E cfg nativeBalance now x₂ = .ok w₂) :
      Alongside fhe E cfg pub w₁ w₂
  | step {w₁ w₂ w₁' w₂' : World E64 E128 EBool X} {l₁ l₂ : Label E64 E128 EBool X}
      (h : Alongside fhe E cfg pub w₁ w₂) (hlabel : l₁.erase pub = l₂.erase pub)
      (hagree : declassified fhe E pub w₁ l₁ = declassified fhe E pub w₂ l₂)
      (h₁ : Step fhe E cfg w₁ l₁ w₁') (h₂ : Step fhe E cfg w₂ l₂ w₂') :
      Alongside fhe E cfg pub w₁' w₂'

/-- Calls that are alike in public do the same to equal public parts. -/
theorem exec_alike (hE : E.Shadows S pub) (hpublic : w₁.erase pub = w₂.erase pub)
    {call₁ call₂ : Call E64 E128 EBool} (hcall : call₁.erase = call₂.erase)
    (hagree : declassified fhe E pub w₁ (.call sender call₁) =
      declassified fhe E pub w₂ (.call sender call₂)) :
    (exec fhe E cfg sender w₁ call₁).map (World.erase pub) =
      (exec fhe E cfg sender w₂ call₂).map (World.erase pub) := by
  obtain ⟨haccepted, hreleased⟩ := Prod.mk.inj hagree
  rw [exec_erase hE, exec_erase hE, hpublic, hcall, haccepted, hreleased]

theorem erase_eq_of_step {w₁' w₂' : World E64 E128 EBool X} {l₁ l₂ : Label E64 E128 EBool X}
    (hE : E.Shadows S pub) (hpublic : w₁.erase pub = w₂.erase pub)
    (hlabel : l₁.erase pub = l₂.erase pub)
    (hagree : declassified fhe E pub w₁ l₁ = declassified fhe E pub w₂ l₂)
    (h₁ : Step fhe E cfg w₁ l₁ w₁') (h₂ : Step fhe E cfg w₂ l₂ w₂') :
    w₁'.erase pub = w₂'.erase pub := by
  cases l₁ with
  | call sender call₁ =>
    cases l₂ with
    | call sender₂ call₂ =>
      obtain ⟨rfl, hcall⟩ := Label.call.inj hlabel
      have halike : (exec fhe E cfg sender w₁ call₁).map (World.erase pub) = _ :=
        exec_alike hE hpublic hcall hagree
      rw [h₁.2, h₂.2] at halike
      exact Except.ok.inj halike
    | _ => cases hlabel
  | tick now =>
    cases l₂ with
    | tick now₂ =>
      obtain rfl := Label.tick.inj hlabel
      obtain ⟨⟨-, rfl⟩, ⟨-, rfl⟩⟩ := And.intro h₁ h₂
      exact congrArg (fun u : World Unit Unit Unit Y => { u with now }) hpublic
    | _ => cases hlabel
  | thirdParty x₁ =>
    cases l₂ with
    | thirdParty x₂ =>
      obtain ⟨⟨-, rfl⟩, ⟨-, rfl⟩⟩ := And.intro h₁ h₂
      rw [show World.erase pub { w₁ with ext := x₁ } = { w₁.erase pub with ext := pub x₁ } from rfl,
        hpublic, Label.thirdParty.inj hlabel]
      rfl
    | _ => cases hlabel
  | forceNative amount =>
    cases l₂ with
    | forceNative amount₂ =>
      obtain rfl := Label.forceNative.inj hlabel
      obtain ⟨rfl, rfl⟩ := And.intro h₁ h₂
      exact congrArg (fun u : World Unit Unit Unit Y => { u with escrow :=
        { u.escrow with nativeBalance := u.escrow.nativeBalance + amount } }) hpublic
    | _ => cases hlabel

/-- **Secrecy.**  After any two runs that are alike in public the public parts are equal, and so
are the public results of any two further calls that are alike, also where they revert. -/
theorem public_alike (hE : E.Shadows S pub) (h : Alongside fhe E cfg pub w₁ w₂) :
    w₁.erase pub = w₂.erase pub ∧
      ∀ sender call₁ call₂, call₁.erase = call₂.erase →
        declassified fhe E pub w₁ (.call sender call₁) =
          declassified fhe E pub w₂ (.call sender call₂) →
        (exec fhe E cfg sender w₁ call₁).map (World.erase pub) =
          (exec fhe E cfg sender w₂ call₂).map (World.erase pub) := by
  suffices hpublic : w₁.erase pub = w₂.erase pub from
    ⟨hpublic, fun _ _ _ hcall hagree => exec_alike hE hpublic hcall hagree⟩
  induction h with
  | @init nativeBalance now x₁ x₂ w₁ w₂ hx h₁ h₂ =>
    have herase (x : X) : (World.construct fhe E cfg nativeBalance now x).map (World.erase pub) =
        World.construct (.erased true) S cfg nativeBalance now (pub x) := World.construct_erase hE
    have hequal := (herase x₁).trans ((congrArg _ hx).trans (herase x₂).symm)
    rw [h₁, h₂] at hequal
    exact Except.ok.inj hequal
  | step _ hlabel hagree h₁ h₂ ih => exact erase_eq_of_step hE ih hlabel hagree h₁ h₂

end

/-! ### The mocks -/

/-- The public part of the mock contracts. -/
structure PublicChain where
  supply : Nat
  underlying : Address → Nat
  comet : Address → Nat
  cometPrincipal : Address → Int

def MockChain.publicChain (x : MockChain) : PublicChain :=
  ⟨x.supply, x.underlying, x.comet, x.cometPrincipal⟩

namespace PublicChain

def transferUnderlying (holder recipient : Address) (amount : Nat) (y : PublicChain) :
    Option PublicChain :=
  if y.underlying holder < amount then none
  else
    let debited := Function.update y.underlying holder (y.underlying holder - amount)
    some { y with
      underlying := Function.update debited recipient (debited recipient + amount) }

def transfer (recipient : Address) (y : PublicChain) : Option (PublicChain × Unit) :=
  if recipient = 0 then none else some (y, ())

def wrap (asset caller : Address) (amount : Nat) (y : PublicChain) :
    Option (PublicChain × Unit) :=
  if y.underlying caller < amount then none
  else if y.supply + amount < 2 ^ 64 then
    (y.transferUnderlying caller asset amount).map fun y' =>
      ({ y with underlying := y'.underlying, supply := y.supply + amount }, ())
  else none

def cometSupply (market caller : Address) (amount : Nat) (y : PublicChain) : Option PublicChain :=
  (y.transferUnderlying caller market amount).map fun y => { y with
    comet := Function.update y.comet caller (y.comet caller + amount)
    cometPrincipal := Function.update y.cometPrincipal caller (y.cometPrincipal caller + amount) }

def cometWithdraw (market caller : Address) (amount : Nat) (y : PublicChain) :
    Option PublicChain :=
  let amount := if amount = 2 ^ 256 - 1 then y.comet caller else amount
  if y.comet caller < amount then none
  else ({ y with
    comet := Function.update y.comet caller (y.comet caller - amount)
    cometPrincipal := Function.update y.cometPrincipal caller (y.cometPrincipal caller - amount)
    }).transferUnderlying market caller amount

end PublicChain

/-- The public part of the mocks deployed for a vault. -/
def publicMocks (cfg : Config) (underlying : Address) : Externals Unit Unit PublicChain where
  underlying := underlying
  rate := 1
  decimals := 6
  confidentialTransfer y _ recipient _ := y.transfer recipient
  transferAndCallSend y _ recipient _ := y.transfer recipient
  transferAndCallRefund y _ holder _ _ := (y.transfer holder).map Prod.fst
  wrap y caller _ amount := y.wrap cfg.asset caller amount
  unwrap y caller holder _ _ := if caller ≠ holder then none else some (y, 0)
  finalizeUnwrap _ _ _ _ := none
  underlyingBalanceOf y a := y.underlying a
  safeTransferFrom y _ holder recipient amount := y.transferUnderlying holder recipient amount
  safeTransfer y holder recipient amount := y.transferUnderlying holder recipient amount
  forceApprove y _ _ _ := some y
  cometBaseToken _ := underlying
  cometBaseScale _ := 1000000
  cometIsSupplyPaused _ := false
  cometIsWithdrawPaused _ := false
  cometBalanceOf y a := y.comet a
  cometUserPrincipal y a := y.cometPrincipal a
  cometSupply y caller amount := y.cometSupply cfg.compoundComet caller amount
  cometWithdraw y caller amount := y.cometWithdraw cfg.compoundComet caller amount
  thirdParty _ _ := True

namespace MockChain

variable {x : MockChain} {holder recipient caller asset market : Address} {amount : Nat}

theorem transfer_public : (x.transfer holder recipient amount).map (fun r => (r.1.publicChain, ())) =
    x.publicChain.transfer recipient := by
  unfold transfer
  rw [apply_ite (Option.map _)]
  rfl

theorem transferUnderlying_public :
    (x.transferUnderlying holder recipient amount).map publicChain =
      x.publicChain.transferUnderlying holder recipient amount := by
  unfold transferUnderlying
  rw [apply_ite (Option.map publicChain)]
  rfl

theorem wrap_public :
    (x.wrap asset caller recipient amount).map (fun r => (r.1.publicChain, ())) =
      x.publicChain.wrap asset caller amount := by
  unfold wrap PublicChain.wrap
  rw [← transferUnderlying_public]
  by_cases hpoor : x.underlying caller < amount
  · rw [if_pos hpoor, if_pos (show x.publicChain.underlying caller < amount from hpoor)]
    rfl
  rw [if_neg hpoor, if_neg (show ¬ x.publicChain.underlying caller < amount from hpoor)]
  by_cases hfits : x.supply + amount < 2 ^ 64
  · rw [dif_pos hfits, if_pos (show x.publicChain.supply + amount < 2 ^ 64 from hfits),
      Option.map_map, Option.map_map]
    rfl
  · rw [dif_neg hfits, if_neg (show ¬ x.publicChain.supply + amount < 2 ^ 64 from hfits)]
    rfl

theorem refund_public {accepted : Bool} {sent : Nat} :
    ((x.transfer holder recipient (if accepted then 0 else sent)).map Prod.fst).map publicChain =
      (x.publicChain.transfer recipient).map Prod.fst := by
  have hmoved : (x.transfer holder recipient (if accepted then 0 else sent)).map _ = _ :=
    transfer_public
  rw [← hmoved, Option.map_map, Option.map_map]
  rfl

theorem unwrap_public :
    (x.unwrap caller holder recipient amount).map (fun r => (r.1.publicChain, 0)) =
      if caller ≠ holder then none else some (x.publicChain, 0) := by
  unfold unwrap
  rw [apply_ite (Option.map _)]
  rfl

theorem cometSupply_public :
    (x.cometSupply market caller amount).map publicChain =
      x.publicChain.cometSupply market caller amount := by
  unfold cometSupply PublicChain.cometSupply
  rw [← transferUnderlying_public, Option.map_map, Option.map_map]
  rfl

theorem cometWithdraw_public :
    (x.cometWithdraw market caller amount).map publicChain =
      x.publicChain.cometWithdraw market caller amount := by
  unfold cometWithdraw
  dsimp only
  rw [apply_ite (Option.map publicChain), transferUnderlying_public]
  rfl

end MockChain

theorem mocks_shadows (cfg : Config) (underlying : Address) :
    (mockExternals cfg underlying).Shadows (publicMocks cfg underlying)
      MockChain.publicChain where
  underlying := rfl
  rate := rfl
  decimals := rfl
  confidentialTransfer _ _ _ _ := MockChain.transfer_public
  transferAndCallSend _ _ _ _ := MockChain.transfer_public
  transferAndCallRefund _ _ _ _ _ := MockChain.refund_public
  wrap _ _ _ _ := MockChain.wrap_public
  unwrap _ _ _ _ _ := MockChain.unwrap_public
  underlyingBalanceOf _ _ := rfl
  safeTransferFrom _ _ _ _ _ := MockChain.transferUnderlying_public
  safeTransfer _ _ _ _ := MockChain.transferUnderlying_public
  forceApprove _ _ _ _ := rfl
  cometBaseToken _ := rfl
  cometBaseScale _ := rfl
  cometIsSupplyPaused _ := rfl
  cometIsWithdrawPaused _ := rfl
  cometBalanceOf _ _ := rfl
  cometUserPrincipal _ _ := rfl
  cometSupply _ _ _ := MockChain.cometSupply_public
  cometWithdraw _ _ _ := MockChain.cometWithdraw_public

open Demo World in
/-- Alice saves different amounts in two deployments; withdrawing less than she has in one and
more than she has in the other looks the same. -/
theorem public_alike_withdraw : ∃ w₁ w₂,
    outcome cfg token 100 chain [.call alice (.deposit 64 0)] = .ok w₁ ∧
    outcome cfg token 100 chain [.call alice (.deposit 32 0)] = .ok w₂ ∧
    (exec Fhe.plain externals cfg alice w₁ (.withdraw ⟨50, true⟩)).map
        (World.erase MockChain.publicChain) =
      (exec Fhe.plain externals cfg alice w₂ (.withdraw ⟨50, true⟩)).map
        (World.erase MockChain.publicChain) := by
  have hplays : ∀ amount ∈ [64, 32], endsWith (fun _ => true)
      (outcome cfg token 100 chain [.call alice (.deposit amount 0)]) = true := by decide +kernel
  obtain ⟨w₁, h₁, -⟩ := exists_of_endsWith (hplays 64 (by decide))
  obtain ⟨w₂, h₂, -⟩ := exists_of_endsWith (hplays 32 (by decide))
  refine ⟨w₁, w₂, h₁, h₂, ?_⟩
  obtain ⟨u, hu, hdeposit₁⟩ := seq_eq_ok.1 h₁
  obtain ⟨u', hu', hdeposit₂⟩ := seq_eq_ok.1 h₂
  obtain rfl := Except.ok.inj (hu.symm.trans hu')
  have hexternal : cfg.External alice := by decide
  have hexec {call : Call Nat Nat Bool} {w : PlainWorld MockChain}
      (h : playAll cfg token [.call alice call] u = .ok w) :
      exec Fhe.plain externals cfg alice u call = .ok w := by
    obtain ⟨_, hplay, hlast⟩ := seq_eq_ok.1 h
    obtain rfl := Except.ok.inj hlast
    rwa [play, if_pos hexternal] at hplay
  have halongside : Alongside Fhe.plain externals cfg MockChain.publicChain w₁ w₂ := by
    have hstep {amount : Nat} {w : PlainWorld MockChain}
        (h : playAll cfg token [.call alice (.deposit amount 0)] u = .ok w) :
        Step Fhe.plain externals cfg u (.call alice (.deposit amount 0)) w := ⟨hexternal, hexec h⟩
    have hfirst := hstep hdeposit₁
    have hsecond := hstep hdeposit₂
    refine .step (.init rfl hu hu) ?_ ?_ hfirst hsecond
    · rfl
    · rfl
  exact (public_alike (mocks_shadows cfg token) halongside).2 alice _ _ rfl rfl

end Leopold
