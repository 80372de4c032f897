import Leopold.System.LedgerView
import Leopold.System.Shape
import Leopold.Contracts.AdapterSpec

/-!
# The books of a run

Every step of the system moves the vault's ledger by postings, and what is in transition is
exactly what the active strategy epoch had burned.  So the ledger of every reachable state is
sound.
-/

namespace Leopold

open Lib

variable {X : Type}

/-- What the constructors of the contracts checked. -/
structure Deployed (E : Externals Nat Bool X) (cfg : Config) : Prop where
  rate_pos : 0 < E.rate
  duration_pos : 0 < cfg.roundDuration
  duration_le : cfg.roundDuration ≤ MAX_ROUND_DURATION
  firstOpens_pos : 0 < cfg.firstRoundOpensAt
  vault_ne_zero : cfg.vault ≠ 0
  reward_pos : 0 < cfg.settlementRewardPerParticipantPass
  bond_gt : cfg.settlementRewardPerParticipantPass * 2 < cfg.settlementBondAmount

namespace World

variable (O : Observables X) (cfg : Config)

/-- The ledger of a state of the system. -/
def ledger (w : PlainWorld X) : Ledger Address :=
  w.vault.books (O.confidentialBalance w.ext cfg.vault) w.adapter.deployedPrincipalBasis

/-- The active strategy epoch. -/
def activeEpoch {E64 E128 EBool : Type} (w : World E64 E128 EBool X) : StrategyEpoch E64 :=
  w.vault.strategyEpochs w.vault.activeStrategyEpochId

/-- Principal is in transition exactly while the active epoch waits for its unwrap, whose request
the wrapper still holds or has finalized. -/
structure EpochSound (w : PlainWorld X) : Prop where
  in_transit : w.vault.principalInTransition =
    if w.activeEpoch.state = .unwrapPending then w.activeEpoch.amount else 0
  requested : w.activeEpoch.state = .unwrapPending →
    O.unwrapRequest w.ext w.activeEpoch.unwrapRequestId =
        .outstanding cfg.vault w.activeEpoch.amount ∨
      O.unwrapRequest w.ext w.activeEpoch.unwrapRequestId = .finalized

/-- The invariant of the books. -/
structure Booked (E : Externals Nat Bool X) (w : PlainWorld X) : Prop where
  shape : w.vault.Shape Fhe.plain
  kept : (w.ledger O cfg).Kept E.rate
  epoch : w.EpochSound O cfg

end World

section

variable {E : Externals Nat Bool X} {O : Observables X} {cfg : Config}
  (hE : E.Lawful O cfg.vault cfg.asset) (hcfg : Deployed E cfg) {w w' : PlainWorld X}

include hE in
/-- Wrapping mints `n / rate` to the vault and touches no unwrap request. -/
theorem Vault.wrapUnderlying_lawful {n wrapped : Nat} {x x' : X}
    (h : Vault.wrapUnderlying E cfg n x = .ok (x', wrapped)) :
    wrapped = n / E.rate ∧
      O.confidentialBalance x' cfg.vault = O.confidentialBalance x cfg.vault + wrapped ∧
      O.unwrapRequest x' = O.unwrapRequest x := by
  obtain ⟨x₁, x₂, h1, h2, h3⟩ := Vault.wrapUnderlying_ok h
  obtain ⟨hb1, hr1⟩ := hE.forceApprove h1
  obtain ⟨hw, hb2, hr2⟩ := hE.wrap h2
  obtain ⟨hb3, hr3⟩ := hE.forceApprove h3
  exact ⟨hw, by rw [hb3, hb2, hb1], by rw [hr3, hr2, hr1]⟩

include hE hcfg in
theorem Vault.wrapUnderlying_mul {n wrapped : Nat} {x x' : X}
    (h : Vault.wrapUnderlying E cfg (n * E.rate) x = .ok (x', wrapped)) :
    wrapped = n ∧ O.confidentialBalance x' cfg.vault = O.confidentialBalance x cfg.vault + n ∧
      O.unwrapRequest x' = O.unwrapRequest x := by
  obtain ⟨hw, hb, hr⟩ := Vault.wrapUnderlying_lawful hE h
  rw [Nat.mul_div_cancel _ hcfg.rate_pos] at hw
  exact ⟨hw, by rw [hb, hw], hr⟩

namespace World

/-! ## Postings of the calls -/

include hE in
theorem deposit_moves {sender : Address} (hsender : cfg.External sender)
    (hs : (w.ledger O cfg).Kept E.rate) {n d : Nat}
    (h : deposit Fhe.plain E cfg sender n d w = .ok w') :
    Ledger.Moves E.rate (w.ledger O cfg) (w'.ledger O cfg) := by
  obtain ⟨x₁, sent, v, accepted, x₂, hsend, hv, hrefund, rfl⟩ := deposit_ok h
  obtain ⟨hb₁, _⟩ := hE.send hsend hsender.ne_vault
  have hlt := hE.balance_lt x₁ cfg.vault
  obtain ⟨hb₂, _⟩ := hE.refund hrefund hsender.ne_vault (by omega)
  have hpost := Vault.onConfidentialTransferReceived_books hs (by omega) hv
  have hbalance : O.confidentialBalance x₂ cfg.vault =
      O.confidentialBalance w.ext cfg.vault + if accepted then sent else 0 := by
    cases accepted with
    | false =>
      rw [if_neg Bool.false_ne_true] at hb₂ ⊢
      omega
    | true =>
      rw [if_pos rfl] at hb₂ ⊢
      omega
  rw [ledger, ledger, hbalance]
  exact .single hpost

/-- `withdraw` asks for nothing that the account or the pool could not pay. -/
theorem eligibleWithdrawal_le (sender : Address) (requested : Nat) (v : PlainVault) :
    eligibleWithdrawal Fhe.plain sender requested v ≤ v.principal sender ∧
      eligibleWithdrawal Fhe.plain sender requested v ≤ v.liquidPrincipal := by
  rw [eligibleWithdrawal, Fhe.plain_select64, Fhe.plain_asEuint64 (by decide)]
  split_ifs with hc
  · rw [Fhe.plain_and, Bool.and_eq_true_iff, Fhe.plain_le64, Fhe.plain_le64,
      decide_eq_true_iff, decide_eq_true_iff] at hc
    exact hc
  · exact ⟨Nat.zero_le _, Nat.zero_le _⟩

include hE in
theorem withdraw_moves {sender : Address} (hsender : cfg.External sender)
    (hs : (w.ledger O cfg).Kept E.rate) {input : EncryptedInput Nat} {sent : Nat}
    (h : withdraw Fhe.plain E cfg sender input w = .ok (w', sent)) :
    Ledger.Moves E.rate (w.ledger O cfg) (w'.ledger O cfg) := by
  obtain ⟨_, x, v, hsend, hv, rfl⟩ := withdraw_ok h
  obtain ⟨hsent, hb, _⟩ := hE.transfer hsend hsender.ne_vault
  have helig := eligibleWithdrawal_le sender input.handle w.vault
  have hle : sent ≤ eligibleWithdrawal Fhe.plain sender input.handle w.vault := by
    rw [hsent]
    split_ifs
    · exact Nat.le_refl _
    · exact Nat.zero_le _
  have hbalance : O.confidentialBalance x cfg.vault =
      O.confidentialBalance w.ext cfg.vault - sent := by omega
  rw [ledger, ledger, hbalance]
  exact .single (Vault.recordWithdrawal_books hs (hle.trans helig.1) (hle.trans helig.2) hv)

include hE hcfg in
theorem contributeSponsor_moves {sender : Address} (hs : (w.ledger O cfg).Kept E.rate)
    {r units : Nat} (h : contributeSponsor Fhe.plain E cfg sender r units w = .ok w') :
    Ledger.Moves E.rate (w.ledger O cfg) (w'.ledger O cfg) := by
  obtain ⟨hr, x₁, x₂, wrapped, gs, hpay, hwrap, rfl⟩ := contributeSponsor_ok h
  obtain ⟨rfl, hb, _⟩ := Vault.wrapUnderlying_mul hE hcfg hwrap
  rw [(hE.safeTransferFrom hpay).1] at hb
  have hlt := hE.balance_lt x₂ cfg.vault
  have hsolvent := hs.solvent
  have hsplit := hs.prize_split
  have hzero : ∀ s, w.vault.activeRoundId + 2 ≤ s → w.vault.sponsoredPrize s = 0 :=
    hs.sponsored_zero
  have hpost : Ledger.Posting MAX_POOL_BASE_UNITS E.rate (w.ledger O cfg) _ :=
    .sponsor r wrapped hr (hb ▸ hlt)
  have hle : w.vault.sponsoredPrize r ≤ w.vault.liquidPrizeAssets := by
    simp only [ledger, Vault.books] at hsplit
    rcases hr with rfl | rfl <;> omega
  rw [ledger, ledger, Vault.books_grant]
  simp only [ledger, Vault.books] at hpost hsolvent ⊢
  rw [hb, Fhe.plain_add64 (by omega), Fhe.plain_add64 (by omega)]
  exact .single hpost

include hE in
theorem withdrawWinnings_moves {sender : Address} (hsender : cfg.External sender)
    (hs : (w.ledger O cfg).Kept E.rate) {input : EncryptedInput Nat} {sent : Nat}
    (h : withdrawWinnings Fhe.plain E cfg sender input w = .ok (w', sent)) :
    Ledger.Moves E.rate (w.ledger O cfg) (w'.ledger O cfg) := by
  obtain ⟨x, gs, hsend, rfl⟩ := withdrawWinnings_ok h
  obtain ⟨hsent, hb, _⟩ := hE.transfer hsend hsender.ne_vault
  have helig : eligibleWinnings Fhe.plain sender input.handle w.vault ≤
      w.vault.winnings sender := by
    rw [eligibleWinnings, Fhe.plain_select64, Fhe.plain_asEuint64 (by decide)]
    split_ifs with hc
    · rw [Fhe.plain_and, Bool.and_eq_true_iff, Fhe.plain_le64, decide_eq_true_iff] at hc
      exact hc.1
    · exact Nat.zero_le _
  have hle : sent ≤ w.vault.winnings sender := by
    rw [hsent]
    split_ifs
    · exact helig
    · exact Nat.zero_le _
  have hwin : w.vault.winnings sender ≤ w.vault.winningsLiability := hs.winnings_le sender
  have hsolvent := hs.solvent
  have hbal := hs.balance_lt
  have hsplit := hs.prize_split
  have hpost : Ledger.Posting MAX_POOL_BASE_UNITS E.rate (w.ledger O cfg) _ :=
    .payWinnings sender sent hle
  rw [ledger, ledger, Vault.books_grant]
  simp only [ledger, Vault.books] at hpost hsolvent hbal hsplit ⊢
  have hbalance : O.confidentialBalance x cfg.vault =
      O.confidentialBalance w.ext cfg.vault - sent := by omega
  rw [hbalance, Fhe.plain_sub64 (by omega) hle, Fhe.plain_sub64 (by omega) (by omega),
    Fhe.plain_sub64 (by omega) (by omega)]
  exact .single hpost

/-- What a deployment takes is liquid. -/
theorem excess_le (hs : (w.ledger O cfg).Kept E.rate) :
    excess Fhe.plain w.vault ≤ w.vault.liquidPrincipal := by
  have htotal : w.vault.totalPrincipal ≤ MAX_POOL_BASE_UNITS := hs.total_le
  have hsplit : w.vault.totalPrincipal = w.vault.liquidPrincipal + w.vault.deployedPrincipal +
    w.vault.principalInTransition + w.vault.strategyShortfall := hs.total_split
  have hcap := Vault.cap_lt
  rw [excess, Fhe.plain_select64, Fhe.plain_asEuint64 (by decide), Fhe.plain_gt64]
  split_ifs with hgt
  · rw [decide_eq_true_iff] at hgt
    rw [Fhe.plain_sub64 (by omega) (Nat.le_of_lt hgt)]
    exact Nat.sub_le _ _
  · exact Nat.zero_le _

include hE in
/-- An unwrap of liquid principal burns its full amount. -/
theorem unwrap_liquid (hs : (w.ledger O cfg).Kept E.rate) {n : Nat} {x : X} {id : RequestId}
    (hle : n ≤ w.vault.liquidPrincipal)
    (h : E.unwrap w.ext cfg.vault cfg.vault cfg.vault n = some (x, id)) :
    O.unwrapRequest x id = .outstanding cfg.vault n ∧
      O.confidentialBalance x cfg.vault = O.confidentialBalance w.ext cfg.vault - n := by
  obtain ⟨_, hreq, hb⟩ := hE.unwrap h
  have hsolvent : w.vault.liquidPrincipal + w.vault.liquidPrizeAssets ≤
    O.confidentialBalance w.ext cfg.vault := hs.solvent
  rw [if_pos (by omega)] at hreq hb
  refine ⟨?_, by omega⟩
  rw [hreq, Function.update_self]

include hE in
theorem requestStrategyAmount_moves (hs : (w.ledger O cfg).Kept E.rate) {id : Nat}
    (h : requestStrategyAmount Fhe.plain E cfg id w = .ok w') :
    Ledger.Moves E.rate (w.ledger O cfg) (w'.ledger O cfg) := by
  obtain ⟨_, _, _, _, ⟨_, n, x, req, gs, hn, hunwrap, rfl⟩ | ⟨_, d, gs, rfl⟩⟩ :=
    requestStrategyAmount_ok h
  · have hle : n ≤ w.vault.liquidPrincipal := hn ▸ excess_le hs
    obtain ⟨_, hb⟩ := unwrap_liquid hE hs hle hunwrap
    have hpost : Ledger.Posting MAX_POOL_BASE_UNITS E.rate (w.ledger O cfg) _ :=
      .transit n hle
    have htotal := hs.total_le
    have hsplit := hs.total_split
    have hcap := Vault.cap_lt
    rw [ledger, ledger, Vault.books_grant, Vault.books_setEpoch]
    simp only [ledger, Vault.books] at hpost htotal hsplit ⊢
    rw [hb, Fhe.plain_sub64 (by omega) hle, Fhe.plain_add64 (by omega)]
    exact .single hpost
  · exact .refl

include hE in
/-- The wrapper finalizes the request of the active epoch only for the amount in transition. -/
theorem finalizeUnwrap_inTransit (hs : w.EpochSound O cfg) {n : Nat} {proof : DecryptionProof}
    {x : X} (hstate : w.activeEpoch.state = .unwrapPending)
    (h : E.finalizeUnwrap w.ext w.activeEpoch.unwrapRequestId n proof = some x) :
    n = w.vault.principalInTransition ∧
      O.confidentialBalance x = O.confidentialBalance w.ext := by
  obtain ⟨⟨recipient, hreq⟩, _, hb⟩ := hE.finalizeUnwrap h
  refine ⟨?_, hb⟩
  rw [hs.in_transit, if_pos hstate]
  rcases hs.requested hstate with hout | hfin
  · rw [hout] at hreq
    injection hreq with _ hn
    exact hn.symm
  · rw [hfin] at hreq
    nomatch hreq

include hE in
theorem finalizeStrategyDeployment_moves (hB : w.Booked O cfg E) {id n : Nat}
    {proof : DecryptionProof}
    (h : finalizeStrategyDeployment Fhe.plain E cfg id n proof w = .ok w') :
    Ledger.Moves E.rate (w.ledger O cfg) (w'.ledger O cfg) := by
  obtain ⟨rfl, hstate, hn, x₁, x₂, a, x₃, x₄, gs, h1, h2, h3, h4, rfl⟩ :=
    finalizeStrategyDeployment_ok h
  obtain ⟨htransit, hb₁⟩ := finalizeUnwrap_inTransit hE hB.epoch hstate h1
  obtain ⟨hbasis, hl₃⟩ := Adapter.deployAssets_ok hE h3
  have hb : O.confidentialBalance x₄ = O.confidentialBalance w.ext := by
    rw [(hE.forceApprove h4).1, hl₃.1, (hE.forceApprove h2).1, hb₁]
  have hpost : Ledger.Posting MAX_POOL_BASE_UNITS E.rate (w.ledger O cfg) _ :=
    .deploy n (Nat.le_of_eq htransit)
  have htotal := hB.kept.total_le
  have hsplit := hB.kept.total_split
  have hcap := Vault.cap_lt
  rw [ledger, ledger, Vault.books_grant, Vault.books_setEpoch]
  simp only [ledger, Vault.books] at hpost htotal hsplit ⊢
  rw [hb, hbasis, Fhe.plain_asEuint64 (by omega),
    Fhe.plain_sub64 (by omega) (Nat.le_of_eq htransit), Fhe.plain_add64 (by omega)]
  exact .single hpost

include hE hcfg in
theorem finalizeStrategyReplenishment_moves (hs : (w.ledger O cfg).Kept E.rate) {id : Nat}
    {c : Cleartexts} {proof : DecryptionProof}
    (h : finalizeStrategyReplenishment Fhe.plain E cfg id c proof w = .ok w') :
    Ledger.Moves E.rate (w.ledger O cfg) (w'.ledger O cfg) := by
  obtain ⟨_, _, n, hn, hle, a, x₁, x₂, wrapped, gs, h1, h2, rfl⟩ :=
    finalizeStrategyReplenishment_ok h
  obtain ⟨_, hbasis, hl₁⟩ := Adapter.withdrawPrincipal_ok hE h1
  obtain ⟨rfl, hb, _⟩ := Vault.wrapUnderlying_mul hE hcfg h2
  have hlt := hE.balance_lt x₂ cfg.vault
  rw [hl₁.1] at hb
  have hdeployed : wrapped ≤ w.vault.deployedPrincipal := by
    have heq : w.vault.deployedPrincipal * E.rate = w.adapter.deployedPrincipalBasis :=
      hs.basis_eq
    exact Nat.le_of_mul_le_mul_right (heq ▸ hle) hcfg.rate_pos
  have hpost : Ledger.Posting MAX_POOL_BASE_UNITS E.rate (w.ledger O cfg) _ :=
    .replenish wrapped hdeployed (hb ▸ hlt)
  have htotal := hs.total_le
  have hsplit := hs.total_split
  have hcap := Vault.cap_lt
  have hunits : uint64 wrapped = wrapped := Nat.mod_eq_of_lt (by omega)
  rw [ledger, ledger, Vault.books_grant, Vault.books_setEpoch]
  simp only [ledger, Vault.books, hunits] at hpost htotal hsplit ⊢
  rw [hb, hbasis, Fhe.plain_asEuint64 (by omega), Fhe.plain_sub64 (by omega) hdeployed,
    Fhe.plain_add64 (by omega)]
  exact .single hpost

include hE in
theorem harvestStrategyYield_moves (hs : (w.ledger O cfg).Kept E.rate) {harvested : Nat}
    (h : harvestStrategyYield Fhe.plain E cfg w = .ok (w', harvested)) :
    Ledger.Moves E.rate (w.ledger O cfg) (w'.ledger O cfg) := by
  obtain ⟨a, x₁, recovered, h1, hrest⟩ := harvestStrategyYield_ok h
  obtain ⟨hbasis, hl₁⟩ := Adapter.harvest_ok hE h1
  rcases hrest with ⟨_, rfl⟩ | ⟨x₂, wrapped, v, h2, h3, rfl⟩
  · simp only [ledger, hbasis, hl₁.1]
    exact .refl
  · obtain ⟨_, hb, _⟩ := Vault.wrapUnderlying_lawful hE h2
    have hlt := hE.balance_lt x₂ cfg.vault
    rw [hl₁.1] at hb
    simp only [ledger, hbasis, hb]
    exact .single (Vault.realizeSurplus_books hs (hb ▸ hlt) h3)

include hE hcfg in
theorem cancelExpiredStrategyEpoch_moves (hB : w.Booked O cfg E) {id n : Nat}
    {proof : DecryptionProof}
    (h : cancelExpiredStrategyEpoch Fhe.plain E cfg id n proof w = .ok w') :
    Ledger.Moves E.rate (w.ledger O cfg) (w'.ledger O cfg) := by
  obtain ⟨rfl, ⟨_, rfl⟩ | ⟨hstate, hn, x₁, x₂, wrapped, gs, h1, h2, rfl⟩⟩ :=
    cancelExpiredStrategyEpoch_ok h
  · exact .refl
  · obtain ⟨htransit, hb₁⟩ := finalizeUnwrap_inTransit hE hB.epoch hstate h1
    obtain ⟨rfl, hb, _⟩ := Vault.wrapUnderlying_mul hE hcfg h2
    have hlt := hE.balance_lt x₂ cfg.vault
    rw [hb₁] at hb
    have hpost : Ledger.Posting MAX_POOL_BASE_UNITS E.rate (w.ledger O cfg) _ :=
      .cancel wrapped (Nat.le_of_eq htransit) (hb ▸ hlt)
    have htotal := hB.kept.total_le
    have hsplit := hB.kept.total_split
    have hcap := Vault.cap_lt
    rw [ledger, ledger, Vault.books_grant, Vault.books_setEpoch]
    simp only [ledger, Vault.books] at hpost htotal hsplit ⊢
    rw [hb, Fhe.plain_asEuint64 (by omega),
      Fhe.plain_sub64 (by omega) (Nat.le_of_eq htransit), Fhe.plain_add64 (by omega)]
    exact .single hpost

/-- The parts of a recovered amount, in tokens: what covers the basis, what exceeds it and what
is missing. -/
theorem recovered_units (deployed : Nat) {rate recovered : Nat} (hrate : 0 < rate)
    (hr : recovered % rate = 0) :
    min recovered (deployed * rate) / rate + (deployed * rate - recovered) / rate = deployed ∧
      min recovered (deployed * rate) / rate +
        (recovered - min recovered (deployed * rate)) / rate = recovered / rate ∧
      ((recovered - min recovered (deployed * rate)) / rate = 0 ↔
        recovered - min recovered (deployed * rate) = 0) := by
  obtain ⟨k, rfl⟩ := Nat.dvd_of_mod_eq_zero hr
  rw [Nat.mul_comm rate k, Nat.mul_min_mul_right, ← Nat.sub_mul, ← Nat.sub_mul,
    Nat.mul_div_cancel _ hrate, Nat.mul_div_cancel _ hrate, Nat.mul_div_cancel _ hrate,
    Nat.mul_div_cancel _ hrate, Nat.mul_eq_zero]
  omega

include hE hcfg in
theorem emergencyUnwindStrategy_moves (hs : (w.ledger O cfg).Kept E.rate)
    (h : emergencyUnwindStrategy Fhe.plain E cfg w = .ok w') :
    Ledger.Moves E.rate (w.ledger O cfg) (w'.ledger O cfg) := by
  obtain ⟨a, x₁, recovered, shortfall, x₂, v, gs, h1, hr, _, hwrap, hv, rfl⟩ :=
    emergencyUnwindStrategy_ok h
  obtain ⟨hbasis, rfl, hl₁⟩ := Adapter.emergencyExit_ok hE h1
  have heq : w.vault.deployedPrincipal * E.rate = w.adapter.deployedPrincipalBasis :=
    hs.basis_eq
  obtain ⟨hshort, hunits, hsurplus⟩ :=
    recovered_units w.vault.deployedPrincipal hcfg.rate_pos hr
  rw [heq] at hshort hunits hsurplus
  -- the tokens that arrive are those recovered
  have hb : O.confidentialBalance x₂ cfg.vault =
      O.confidentialBalance w.ext cfg.vault + recovered / E.rate := by
    rcases hwrap with ⟨rfl, rfl⟩ | ⟨wrapped, hwrap⟩
    · rw [hl₁.1, Nat.zero_div, Nat.add_zero]
    · obtain ⟨rfl, hb, _⟩ := Vault.wrapUnderlying_lawful hE hwrap
      rw [hb, hl₁.1]
  have hlt := hE.balance_lt x₂ cfg.vault
  rw [hb, ← hunits] at hlt
  have htotal := hs.total_le
  have hsplit := hs.total_split
  have hsolvent := hs.solvent
  have hprize := hs.prize_split
  have hsur := hs.surplus_eq
  have hcap := Vault.cap_lt
  rw [ledger, ledger, Vault.books_grant, hb, ← hunits, hbasis]
  generalize min recovered w.adapter.deployedPrincipalBasis / E.rate = n at *
  generalize (w.adapter.deployedPrincipalBasis - recovered) / E.rate = k at *
  generalize (recovered - min recovered w.adapter.deployedPrincipalBasis) / E.rate = m at *
  have hunwind : Ledger.Posting MAX_POOL_BASE_UNITS E.rate (w.ledger O cfg) _ :=
    .unwind n k hshort (by simp only [ledger, Vault.books]; omega)
  simp only [ledger, Vault.books] at hunwind htotal hsplit hsolvent hprize hsur ⊢
  have hclear : ∀ i, i ≤ n + k ∨ i ≤ m → Fhe.plain.asEuint64 (uint64 i) = i := by
    intro i hi
    rw [uint64, Nat.mod_eq_of_lt (by omega), Fhe.plain_asEuint64 (by omega)]
  rw [unwoundPrincipal, hclear n (by omega), hclear m (by omega)] at hv
  rw [hclear k (by omega), Fhe.plain_asEuint64 (n := 0) (by decide)]
  rcases hv with ⟨hzero, rfl⟩ | ⟨_, hv⟩
  · have hm0 : m = 0 := hsurplus.2 hzero
    dsimp only
    rw [hm0, Nat.add_zero, Fhe.plain_add64 (by omega), Fhe.plain_add64 (by omega)]
    exact .single hunwind
  · obtain ⟨_, gs', rfl⟩ := Vault.realizeSurplus_ok hv
    simp only [Vault.grant]
    rw [Fhe.plain_add64 (by omega), Fhe.plain_add64 (by omega), Fhe.plain_add64 (by omega),
      Fhe.plain_add64 (by omega), Fhe.plain_add64 (by omega), ← Nat.add_assoc]
    refine .tail (.single hunwind) (Ledger.Posting.harvest m ?_)
    simp only
    omega

/-! ## Postings of a call -/

/-- Rounds that keep their reserves leave the ledger alone. -/
theorem ledger_setRound {r : Nat} {round : PlainRound}
    (h : round.reservedPrize = (w.vault.rounds r).reservedPrize) :
    ledger O cfg { w with vault := w.vault.setRound r round } = w.ledger O cfg :=
  Vault.books_setRound_of_reserved h

theorem processAllocation_moves (hB : w.Booked O cfg E) {sender : Address} {r n : Nat}
    (h : processAllocation Fhe.plain cfg sender r n w = .ok w') :
    Ledger.Moves E.rate (w.ledger O cfg) (w'.ledger O cfg) := by
  obtain ⟨_, _, v₁, v₂, processed, v₃, e, hstart, hacc, _, hloop, _, rfl⟩ :=
    processAllocation_ok h
  obtain ⟨hstate, rfl⟩ := Vault.startAllocation_ok hstart
  obtain ⟨_, hlt⟩ := hB.shape.closed_of_state (by rcases hstate with h | h <;> rw [h] <;> nofun)
    (by rcases hstate with h | h <;> rw [h] <;> nofun)
  rw [ledger, ledger, Vault.finishAllocation_eq, Vault.books_setRound_of_reserved,
    Vault.books_setRound_of_reserved]
  · have hkept : (w.ledger O cfg).Kept E.rate := hB.kept
    rw [ledger] at hkept
    generalize O.confidentialBalance w.ext cfg.vault = balance at hkept ⊢
    generalize w.adapter.deployedPrincipalBasis = basis at hkept ⊢
    have hbooks : v₂.books balance basis = w.vault.books balance basis := by
      rw [Vault.accrueEligible_books hacc, Vault.books_setRound_of_reserved]
      rfl
    rw [← hbooks] at hkept ⊢
    have hlt₂ : r < (v₂.books balance basis).activeRoundId := by
      rw [hbooks]
      exact hlt
    -- each participant makes postings on a ledger that is still sound
    refine (Vault.forList_invariant (I := fun _ u =>
      Ledger.Moves E.rate (v₂.books balance basis) (u.books balance basis) ∧
        r < u.activeRoundId) ?_ (Vault.forParticipants_ok
          (fun a u u' hu => congrFun (Vault.allocateParticipant_participants hu) r) hloop).2
      ⟨.refl, hlt₂⟩).1
    rintro a _ u u' ⟨hmoves, hltu⟩ hstep
    have hstep' := Vault.allocateParticipant_books (hkept.postings hmoves) hltu hstep
    refine ⟨hmoves.trans hstep', ?_⟩
    obtain ⟨_, prize, autoSaved, obs, cum, gs, _, _, _, _, rfl⟩ :=
      Vault.allocateParticipant_ok (Nat.ne_of_lt hltu) hstep
    exact hltu
  · rfl
  · rw [Vault.setRound_rounds_self]

theorem settle_ledger {r passes : Nat} (h : settle cfg r passes w = .ok w') :
    w'.ledger O cfg = w.ledger O cfg := by
  obtain ⟨e, _, rfl⟩ := settle_ok h
  exact Vault.books_setRound_of_reserved rfl

theorem rollPrizeForward_moves (hs : (w.ledger O cfg).Kept E.rate) {r : Nat} {v : PlainVault}
    (hr : r < w.vault.activeRoundId)
    (h : w.vault.rollPrizeForward Fhe.plain cfg r = .ok v) :
    Ledger.Moves E.rate (w.ledger O cfg) (ledger O cfg { w with vault := v }) :=
  .single (Vault.rollPrizeForward_books hs hr h)

/-- The pass of a selection changes no cell. -/
theorem processSelection_ledger {sender : Address} {r n : Nat}
    (h : processSelection Fhe.plain cfg sender r n w = .ok w') :
    w'.ledger O cfg = w.ledger O cfg := by
  obtain ⟨_, v₁, processed, v₂, e, hstart, _, hloop, _, rfl⟩ := processSelection_ok h
  rw [ledger, ledger]
  generalize O.confidentialBalance w.ext cfg.vault = balance
  generalize w.adapter.deployedPrincipalBasis = basis
  have h₁ : v₁.books balance basis = w.vault.books balance basis := by
    rcases Vault.startSelection_ok hstart with ⟨_, gs, rfl⟩ | ⟨_, rfl⟩
    · rw [Vault.books_grant, Vault.books_setRound_of_reserved]
      rfl
    · rfl
  have h₂ : v₂.books balance basis = w.vault.books balance basis := by
    refine Vault.forList_invariant
      (I := fun _ u => u.books balance basis = w.vault.books balance basis) ?_
      (Vault.forParticipants_ok
        (fun a u u' hu => congrFun (Vault.selectParticipant_participants hu) r) hloop).2 h₁
    intro a _ u u' hu hstep
    obtain ⟨weight, gs, _, rfl⟩ := Vault.selectParticipant_ok hstep
    rw [Vault.books_grant, Vault.books_setRound_of_reserved, ← hu]
    · rfl
    · rfl
  have h₃ : ∀ round : PlainRound, round.reservedPrize = (v₂.rounds r).reservedPrize →
      (v₂.setRound r round).books balance basis = w.vault.books balance basis :=
    fun round hround => (Vault.books_setRound_of_reserved hround).trans h₂
  rcases Vault.requestReconciliation_eq Fhe.plain cfg r (v₂.setRound r
      { v₂.rounds r with selectionCursor := (v₁.rounds r).selectionCursor + processed })
    with ⟨_, gs, heq⟩ | ⟨_, heq⟩
  · simp only [heq]
    rw [Vault.books_grant, Vault.books_setRound_of_reserved]
    · exact h₃ _ rfl
    · rfl
  · simp only [heq]
    exact h₃ _ rfl

include hE hcfg in
/-- **Refinement.**  A call of an outside account moves the ledger by postings, with exact
arithmetic. -/
theorem exec_moves {sender : Address} (hsender : cfg.External sender) (hB : w.Booked O cfg E)
    {c : Call Nat Nat Bool} (h : exec Fhe.plain E cfg sender w c = .ok w') :
    Ledger.Moves E.rate (w.ledger O cfg) (w'.ledger O cfg) := by
  by_cases hres : c.reserved = true
  · exact absurd h (exec_reserved hsender hres)
  have hs := hB.kept
  cases c with
  | registerForRound value r =>
    obtain ⟨e, v, _, hv, rfl⟩ := registerForRound_ok h
    obtain ⟨_, _, rfl, _, _, _, gs, rfl⟩ := Vault.acceptBondRegistration_ok hv
    rw [ledger, ledger, Vault.books_grant, Vault.books_setRound_of_reserved]
    · exact .refl
    · rfl
  | deposit n d => exact deposit_moves hE hsender hs h
  | withdraw input =>
    obtain ⟨⟨w₁, sent⟩, hop, rfl⟩ := map_eq_ok.1 h
    exact withdraw_moves hE hsender hs hop
  | contributeSponsor r units => exact contributeSponsor_moves hE hcfg hs h
  | openStrategyEpoch kind =>
    obtain ⟨⟨w₁, id⟩, hop, rfl⟩ := map_eq_ok.1 h
    obtain ⟨_, _, _, _, epoch, _, _, _, rfl⟩ := openStrategyEpoch_ok hop
    exact .refl
  | requestStrategyAmount id => exact requestStrategyAmount_moves hE hs h
  | finalizeStrategyDeployment id n proof => exact finalizeStrategyDeployment_moves hE hB h
  | finalizeStrategyReplenishment id cl proof =>
    exact finalizeStrategyReplenishment_moves hE hcfg hs h
  | harvestStrategyYield =>
    obtain ⟨⟨w₁, n⟩, hop, rfl⟩ := map_eq_ok.1 h
    exact harvestStrategyYield_moves hE hs hop
  | setStrategyPaused paused =>
    obtain rfl := setStrategyPaused_ok h
    exact .refl
  | emergencyUnwindStrategy => exact emergencyUnwindStrategy_moves hE hcfg hs h
  | cancelAgingStrategyEpoch id =>
    obtain ⟨_, _, rfl⟩ := cancelAgingStrategyEpoch_ok h
    exact .refl
  | cancelExpiredStrategyEpoch id n proof => exact cancelExpiredStrategyEpoch_moves hE hcfg hB h
  | closeRound =>
    obtain ⟨v, hv, rfl⟩ := onVault_eq_ok.1 h
    exact .single (Vault.closeRound_books hs hv)
  | finalizeAggregate r cl proof =>
    obtain ⟨v, hv, rfl⟩ := onVault_eq_ok.1 h
    obtain ⟨_, n, _, _, rfl⟩ := Vault.finalizeAggregate_ok hv
    rw [ledger_setRound]
    rfl
  | generateRandomCandidate r candidate =>
    obtain ⟨v, hv, rfl⟩ := onVault_eq_ok.1 h
    obtain ⟨_, _, _, round, attempts, gs, rfl, hround⟩ := Vault.generateRandomCandidate_ok hv
    rw [ledger, ledger, Vault.books_grant, Vault.books_setRound_of_reserved]
    · exact .refl
    · rcases hround with ⟨_, rfl⟩ | ⟨_, rfl⟩ <;> rfl
  | finalizeCandidateValidity r cl proof =>
    obtain ⟨v, hv, rfl⟩ := onVault_eq_ok.1 h
    obtain ⟨_, valid, gs, _, rfl⟩ := Vault.finalizeCandidateValidity_ok hv
    rw [ledger, ledger, Vault.books_grant, Vault.books_setRound_of_reserved]
    cases valid <;> rfl
  | processSelection r n =>
    rw [processSelection_ledger h]
  | finalizeSelectionReconciliation r cl proof =>
    obtain ⟨v, hv, rfl⟩ := onVault_eq_ok.1 h
    obtain ⟨_, valid, _, rfl⟩ := Vault.finalizeSelectionReconciliation_ok hv
    rw [ledger_setRound]
    rfl
  | processAllocation r n => exact processAllocation_moves hB h
  | finalizeSettlement r =>
    obtain ⟨_, hsettle⟩ := finalizeSettlement_ok h
    rw [settle_ledger hsettle]
  | recoverFailedReconciliation r =>
    obtain ⟨hstate, v, hroll, hsettle⟩ := recoverFailedReconciliation_ok h
    obtain ⟨_, hlt⟩ := hB.shape.closed_of_state (by rw [hstate]; nofun) (by rw [hstate]; nofun)
    rw [settle_ledger hsettle]
    exact rollPrizeForward_moves hs hlt hroll
  | settleEmptyRound r =>
    obtain ⟨hstate, v, hroll, hsettle⟩ := settleEmptyRound_ok h
    obtain ⟨_, hlt⟩ := hB.shape.closed_of_state (by rw [hstate]; nofun) (by rw [hstate]; nofun)
    rw [settle_ledger hsettle]
    exact rollPrizeForward_moves hs hlt hroll
  | withdrawWinnings input =>
    obtain ⟨⟨w₁, sent⟩, hop, rfl⟩ := map_eq_ok.1 h
    exact withdrawWinnings_moves hE hsender hs hop
  | materializeMyRoundWeight r =>
    simp only [exec, onVault_eq_ok, map_eq_ok, Prod.exists] at h
    obtain ⟨v, ⟨v', weight, hv, rfl⟩, rfl⟩ := h
    obtain ⟨gs, rfl⟩ := Vault.materializeMyRoundWeight_ok hv
    exact .refl
  | setAutoSavePreference preference =>
    simp only [exec, onVault_eq_ok, ok_eq_ok] at h
    obtain ⟨v, rfl, rfl⟩ := h
    exact .refl
  | claimBondRefund r accepts =>
    obtain ⟨e, _, rfl⟩ := onEscrow_eq_ok.1 h
    exact .refl
  | withdrawSettlementRewards accepts =>
    obtain ⟨e, _, rfl⟩ := onEscrow_eq_ok.1 h
    exact .refl
  | setPaused paused =>
    obtain ⟨a, ha, rfl⟩ := map_eq_ok.1 h
    simp only [Adapter.setPaused, seq_eq_ok, revertIf_eq_ok, pure_eq_ok, ok_eq_ok] at ha
    obtain ⟨_, _, rfl⟩ := ha
    exact .refl
  | _ => exact absurd rfl hres

end World

end

end Leopold
