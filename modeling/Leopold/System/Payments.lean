import Leopold.System.Timeline

/-!
# Payments

The tokens of the vault cover its liquid principal and its prizes together, so an account is paid
in full what it is entitled to: its winnings at any time, and its liquid principal while a round is
open.
-/

namespace Leopold

open Lib

namespace Vault

variable {cfg : Config} {v : PlainVault} {now b t : Nat} {a : Address} {f : Nat → Nat}

/-- A checkpoint at the present is accepted. -/
theorem Timed.checkpointUser_isOk (h : v.Timed cfg now) (hnow : now < 2 ^ 64)
    (hb : b ≤ MAX_POOL_BASE_UNITS) : ∃ v', checkpointUser Fhe.plain cfg a b now v = .ok v' := by
  obtain ⟨obs, c, hrec, _⟩ := (h.recorded a).record hnow (hb.trans_lt cap_lt)
  simp only [checkpointUser, hrec, bind_ok, pure_eq_ok]
  exact ⟨_, rfl⟩

variable (cfg) in
theorem accrueEligible_isOk {r : Nat} (h : (v.rounds r).eligibleTimestamp ≤ t) :
    ∃ v', accrueEligible Fhe.plain cfg r t v = .ok v' := by
  simp only [accrueEligible, Vault.sub, checkedSub, if_pos h, bind_ok]
  split_ifs <;> exact ⟨_, rfl⟩

variable (cfg) in
/-- A change of a balance is accepted when the accrual is not ahead of time. -/
theorem changeEligible_isOk (h : (v.rounds v.activeRoundId).eligibleTimestamp ≤ t) :
    ∃ v', changeEligible Fhe.plain cfg a f t v = .ok v' := by
  unfold changeEligible
  split_ifs
  · obtain ⟨v', hv'⟩ := accrueEligible_isOk cfg h
    rw [hv', bind_ok]
    exact ⟨_, rfl⟩
  · exact ⟨_, rfl⟩

end Vault

namespace World

variable {X : Type} {E : Externals Nat Bool X} {O : Observables X} {cfg : Config}
  {w : PlainWorld X} {sender : Address} {n : Nat}

/-- A proved encryption of `n`. -/
def encrypted (n : Nat) : EncryptedInput Nat := ⟨n, true⟩

theorem fromExternal_encrypted : (encrypted n).fromExternal = .ok n := rfl

/-- A transfer that the balance covers moves the full amount. -/
theorem transfer_full (hE : E.Lawful O cfg.vault cfg.asset) (hsender : cfg.External sender)
    {x : X} (hn : n ≤ O.confidentialBalance x cfg.vault) :
    ∃ x', E.confidentialTransfer x cfg.vault sender n = some (x', n) ∧
      O.confidentialBalance x' cfg.vault + n = O.confidentialBalance x cfg.vault := by
  obtain ⟨⟨x', sent⟩, hx'⟩ := Option.isSome_iff_exists.1
    (hE.transfer_isSome x sender n hsender.ne_zero)
  obtain ⟨rfl, hbalance, _⟩ := hE.transfer hx' hsender.ne_vault
  rw [if_pos hn] at hx' hbalance
  exact ⟨x', hx', hbalance⟩

/-- Winnings are paid in full. -/
theorem withdrawWinnings_pays (hE : E.Lawful O cfg.vault cfg.asset) (hB : w.Booked O cfg E)
    (hsender : cfg.External sender) (hn : n ≤ w.vault.winnings sender) :
    ∃ w', withdrawWinnings Fhe.plain E cfg sender (encrypted n) w = .ok (w', n) ∧
      O.confidentialBalance w'.ext cfg.vault + n = O.confidentialBalance w.ext cfg.vault := by
  have hwin : w.vault.winnings sender ≤ w.vault.winningsLiability := hB.kept.winnings_le sender
  have hsplit := hB.kept.prize_split
  have hsolvent := hB.kept.solvent
  simp only [ledger, Vault.books] at hsplit hsolvent
  have hliquid : n ≤ w.vault.liquidPrizeAssets := by omega
  obtain ⟨x', hx', hbalance⟩ := transfer_full hE hsender (x := w.ext) (n := n) (by omega)
  have heligible : Fhe.plain.select64 (Fhe.plain.and (Fhe.plain.le64 n (w.vault.winnings sender))
      (Fhe.plain.le64 n w.vault.liquidPrizeAssets)) n (Fhe.plain.asEuint64 0) = n := by
    rw [Fhe.plain_le64, Fhe.plain_le64, decide_eq_true hn, decide_eq_true hliquid]
    rfl
  simp only [withdrawWinnings, fromExternal_encrypted, bind_ok, heligible, hx', orRevert,
    pure_eq_ok, ok_eq_ok, Prod.mk.injEq, and_true]
  exact ⟨_, rfl, hbalance⟩

/-- Liquid principal is paid in full while a round is open. -/
theorem withdraw_pays (hE : E.Lawful O cfg.vault cfg.asset) (hB : w.Booked O cfg E)
    (hT : w.vault.Timed cfg w.now) (hsender : cfg.External sender)
    (hopen : w.vault.isActiveRoundOpen w.now = true) (hn : n ≤ w.vault.principal sender)
    (hliquid : n ≤ w.vault.liquidPrincipal) :
    ∃ w', withdraw Fhe.plain E cfg sender (encrypted n) w = .ok (w', n) ∧
      O.confidentialBalance w'.ext cfg.vault + n = O.confidentialBalance w.ext cfg.vault := by
  have hsolvent := hB.kept.solvent
  simp only [ledger, Vault.books] at hsolvent
  obtain ⟨x', hx', hbalance⟩ := transfer_full hE hsender (x := w.ext) (n := n) (by omega)
  have heligible : Fhe.plain.select64 (Fhe.plain.and (Fhe.plain.le64 n (w.vault.principal sender))
      (Fhe.plain.le64 n w.vault.liquidPrincipal)) n (Fhe.plain.asEuint64 0) = n := by
    rw [Fhe.plain_le64, Fhe.plain_le64, decide_eq_true hn, decide_eq_true hliquid]
    rfl
  obtain ⟨hlt, hnow, _, hle, _⟩ := hT.open_bounds hopen
  have hcap : w.vault.principal sender ≤ MAX_POOL_BASE_UNITS :=
    (hB.kept.principal_le sender).trans hB.kept.total_le
  have hb : Fhe.plain.sub64 (w.vault.principal sender) n ≤ MAX_POOL_BASE_UNITS := by
    rw [Fhe.plain_sub64 (hcap.trans_lt Vault.cap_lt) hn]
    omega
  obtain ⟨v₁, hcheck⟩ := hT.checkpointUser_isOk (a := sender) hlt hb
  obtain ⟨v₂, hchange⟩ := Vault.changeEligible_isOk cfg (a := sender)
    (f := fun eligible => Fhe.plain.sub64 eligible n) (t := w.now) (v := { v₁ with
      principal := Function.update v₁.principal sender
        (Fhe.plain.sub64 (w.vault.principal sender) n)
      totalPrincipal := Fhe.plain.sub64 v₁.totalPrincipal n
      liquidPrincipal := Fhe.plain.sub64 v₁.liquidPrincipal n }) (by
    obtain ⟨obs, c, gs, _, rfl⟩ := Vault.checkpointUser_ok hcheck
    exact hle)
  have hrecord : ∃ v', w.vault.recordWithdrawal Fhe.plain cfg sender n w.now = .ok v' := by
    simp only [Vault.recordWithdrawal, hnow, hcheck, bind_ok, hchange, pure_eq_ok]
    exact ⟨_, rfl⟩
  obtain ⟨v', hv'⟩ := hrecord
  simp only [withdraw, hopen, revertIf, fromExternal_encrypted, bind_ok, heligible, hx', orRevert,
    hv', pure_eq_ok]
  exact ⟨_, rfl, hbalance⟩

/-- **Solvency and full payment.**  In every reachable state the tokens of the vault cover the
liquid principal and the prizes; so winnings, and liquid principal while a round is open, are paid
in full to whoever is entitled to them. -/
theorem solvent_and_pays (hE : E.Lawful O cfg.vault cfg.asset)
    (h : (system Fhe.plain E cfg).Reachable w) :
    w.vault.liquidPrincipal + w.vault.liquidPrizeAssets ≤ O.confidentialBalance w.ext cfg.vault ∧
    (∀ sender, cfg.External sender → ∀ n ≤ w.vault.winnings sender,
      ∃ w', withdrawWinnings Fhe.plain E cfg sender (encrypted n) w = .ok (w', n) ∧
        O.confidentialBalance w'.ext cfg.vault + n = O.confidentialBalance w.ext cfg.vault) ∧
    (∀ sender, cfg.External sender → w.vault.isActiveRoundOpen w.now = true →
      ∀ n ≤ w.vault.principal sender, n ≤ w.vault.liquidPrincipal →
        ∃ w', withdraw Fhe.plain E cfg sender (encrypted n) w = .ok (w', n) ∧
          O.confidentialBalance w'.ext cfg.vault + n = O.confidentialBalance w.ext cfg.vault) := by
  obtain ⟨_, hB, hT⟩ := reachable_timed hE h
  exact ⟨hB.kept.solvent, fun sender hsender n hn => withdrawWinnings_pays hE hB hsender hn,
    fun sender hsender hopen n hn hliquid =>
      withdraw_pays hE hB hT hsender hopen hn hliquid⟩

/-- The tokens at the end of the script. -/
theorem solvent_and_pays_script : ∃ w, Demo.Ends w ∧
    w.vault.liquidPrincipal + w.vault.liquidPrizeAssets ≤
      mockObservables.confidentialBalance w.ext Demo.cfg.vault ∧
    ∀ n ≤ w.vault.winnings Demo.bob,
      ∃ w', withdrawWinnings Fhe.plain Demo.externals Demo.cfg Demo.bob (encrypted n) w =
        .ok (w', n) := by
  obtain ⟨w, hw, _⟩ := Demo.ends_allocated
  obtain ⟨hsolvent, hpays, _⟩ := solvent_and_pays Demo.lawful hw.reachable
  refine ⟨w, hw, hsolvent, fun n hn => ?_⟩
  obtain ⟨w', hw', _⟩ := hpays Demo.bob (by decide) n hn
  exact ⟨w', hw'⟩

end World

end Leopold
