import Leopold.Frontend.V2Withdrawal

/-!
# What a withdrawal unwraps

The vault pays the whole amount of a request or nothing, and the balance has a new handle either
way; the handle is all the operation looks at.  So it unwraps only what was paid exactly when the
amount can be paid at the moment the withdrawal is mined.
-/

namespace Leopold.Frontend

open Lib

variable {X : Type} {E : Externals Nat Bool X} {O : Observables X} {cfg : Config}
  {account : Leopold.Address} {asset : V2Asset} {amount sent : Nat} {w w' : PlainWorld X}

/-- What the wrapper does for an account: a transfer of the vault is credited to it, and an unwrap
is accepted and burns the amount when its balance covers it, and nothing otherwise. -/
structure Credits (E : Externals Nat Bool X) (O : Observables X) (vault account : Leopold.Address) :
    Prop where
  transfer : ∀ {x x' amount sent},
    E.confidentialTransfer x vault account amount = some (x', sent) →
      O.confidentialBalance x' account = O.confidentialBalance x account + sent
  unwrap : ∀ {x x' amount id}, E.unwrap x account account account amount = some (x', id) →
    O.unwrapRequest x' id =
        .outstanding account (if amount ≤ O.confidentialBalance x account then amount else 0) ∧
      O.confidentialBalance x' account +
          (if amount ≤ O.confidentialBalance x account then amount else 0) =
        O.confidentialBalance x account
  unwrap_isSome : ∀ x amount, (E.unwrap x account account account amount).isSome

/-! ### What the vault pays -/

theorem recordWithdrawal_principal {v v' : PlainVault} {now : Nat}
    (h : v.recordWithdrawal Fhe.plain cfg account sent now = .ok v') :
    v'.principal account = Fhe.plain.sub64 (v.principal account) sent := by
  obtain ⟨v₁, v₂, gs, hcheck, hchange, rfl⟩ := Vault.recordWithdrawal_ok h
  have hbooks : (v₂.books 0 0).principal = _ :=
    congrArg Ledger.principal (Vault.changeEligible_books hchange)
  exact (congrFun hbooks account).trans (Function.update_self _ _ _)

/-- The amount, or zero where a bound is exceeded. -/
theorem eligible_eq {owed liquid : Nat} :
    Fhe.plain.select64 (Fhe.plain.and (Fhe.plain.le64 amount owed) (Fhe.plain.le64 amount liquid))
      amount (Fhe.plain.asEuint64 0) = if amount ≤ owed ∧ amount ≤ liquid then amount else 0 := by
  rw [Fhe.plain_select64, Fhe.plain_and, Fhe.plain_le64, Fhe.plain_le64, ← Bool.decide_and,
    Fhe.plain_asEuint64 (by decide)]
  simp only [decide_eq_true_eq]

namespace V2Asset

/-- The tokens of the vault cover what it can pay. -/
theorem liquid_le (hB : w.Booked O cfg E) :
    asset.liquid w ≤ O.confidentialBalance w.ext cfg.vault := by
  have hsolvent := hB.kept.solvent
  simp only [World.ledger, Vault.books] at hsolvent
  cases asset <;> simp only [liquid] <;> omega

theorem owed_lt (hB : w.Booked O cfg E) : asset.owed w account < 2 ^ 64 := by
  have hsolvent := hB.kept.solvent
  have hsplit := hB.kept.prize_split
  have hlt := hB.kept.balance_lt
  have hwin : w.vault.winnings account ≤ w.vault.winningsLiability := hB.kept.winnings_le account
  have hprincipal : w.vault.principal account ≤ MAX_POOL_BASE_UNITS :=
    (hB.kept.principal_le account).trans hB.kept.total_le
  have hcap := Vault.cap_lt
  simp only [World.ledger, Vault.books] at hsolvent hsplit hlt
  cases asset <;> simp only [owed] <;> omega

/-- What the token is asked to send. -/
def eligible (asset : V2Asset) (account : Leopold.Address) (amount : Nat) (w : PlainWorld X) : Nat :=
  if asset.Payable account amount w then amount else 0

theorem withdraw_ok (h : asset.withdraw E cfg account amount w = .ok (w', sent)) :
    (asset = .savings → w.vault.isActiveRoundOpen w.now = true) ∧
      E.confidentialTransfer w.ext cfg.vault account (asset.eligible account amount w) =
        some (w'.ext, sent) ∧
      asset.owed w' account = Fhe.plain.sub64 (asset.owed w account) sent := by
  cases asset with
  | savings =>
    obtain ⟨hopen, x, v, hsend, hrecord, rfl⟩ := World.withdraw_ok h
    refine ⟨fun _ => hopen, ?_, recordWithdrawal_principal hrecord⟩
    rwa [World.eligibleWithdrawal, World.encrypted, eligible_eq] at hsend
  | winnings =>
    obtain ⟨x, gs, hsend, rfl⟩ := World.withdrawWinnings_ok h
    refine ⟨by rintro ⟨⟩, ?_, Function.update_self _ _ _⟩
    rwa [World.eligibleWinnings, World.encrypted, eligible_eq] at hsend

variable (hE : E.Lawful O cfg.vault cfg.asset) (hcredits : Credits E O cfg.vault account)
  (haccount : cfg.External account)

include hE hcredits haccount in
/-- The vault pays the amount or nothing. -/
theorem withdraw_paid (hB : w.Booked O cfg E)
    (h : asset.withdraw E cfg account amount w = .ok (w', sent)) :
    sent = asset.eligible account amount w ∧
      asset.owed w' account + sent = asset.owed w account ∧
      O.confidentialBalance w'.ext account = O.confidentialBalance w.ext account + sent := by
  obtain ⟨-, hsend, howed⟩ := withdraw_ok h
  have helig : asset.eligible account amount w ≤ asset.owed w account ∧
      asset.eligible account amount w ≤ asset.liquid w := by
    rw [eligible]
    split_ifs with hpayable
    · exact hpayable
    · exact ⟨Nat.zero_le _, Nat.zero_le _⟩
  obtain ⟨hsent, -⟩ := hE.transfer hsend haccount.ne_vault
  rw [if_pos (helig.2.trans (liquid_le hB))] at hsent
  refine ⟨hsent, ?_, hcredits.transfer hsend⟩
  rw [howed, Fhe.plain_sub64 (owed_lt hB) (hsent ▸ helig.1)]
  exact Nat.sub_add_cancel (hsent ▸ helig.1)

theorem withdraw_zero (h : ¬ asset.Payable account amount w) :
    asset.withdraw E cfg account amount w = asset.withdraw E cfg account 0 w := by
  have hzero {owed liquid : Nat} (hnot : ¬ (amount ≤ owed ∧ amount ≤ liquid)) :
      Fhe.plain.select64 (Fhe.plain.and (Fhe.plain.le64 amount owed)
        (Fhe.plain.le64 amount liquid)) amount (Fhe.plain.asEuint64 0) =
      Fhe.plain.select64 (Fhe.plain.and (Fhe.plain.le64 0 owed)
        (Fhe.plain.le64 0 liquid)) 0 (Fhe.plain.asEuint64 0) := by
    rw [eligible_eq, eligible_eq, if_neg hnot, ite_self]
  cases asset with
  | savings =>
    have hsame := @hzero (w.vault.principal account) w.vault.liquidPrincipal h
    simp only [withdraw, World.withdraw, World.fromExternal_encrypted, bind_ok, hsame]
  | winnings =>
    have hsame := @hzero (w.vault.winnings account) w.vault.liquidPrizeAssets h
    simp only [withdraw, World.withdrawWinnings, World.fromExternal_encrypted, bind_ok, hsame]

include hE haccount in
/-- A request that cannot be paid is answered with zero. -/
theorem withdraw_unpaid (hw : (system Fhe.plain E cfg).Reachable w)
    (hopen : asset = .savings → w.vault.isActiveRoundOpen w.now = true)
    (h : ¬ asset.Payable account amount w) :
    ∃ w', asset.withdraw E cfg account amount w = .ok (w', 0) := by
  obtain ⟨-, hB, hT⟩ := World.reachable_timed hE hw
  rw [withdraw_zero h]
  cases asset with
  | savings =>
    obtain ⟨w', hw', -⟩ := World.withdraw_pays hE hB hT haccount (hopen rfl) (Nat.zero_le _)
      (Nat.zero_le _)
    exact ⟨w', hw'⟩
  | winnings =>
    obtain ⟨w', hw', -⟩ := World.withdrawWinnings_pays hE hB haccount (Nat.zero_le _)
    exact ⟨w', hw'⟩

end V2Asset

/-! ### The operation -/

namespace V2Withdrawal

variable {s s' : V2Withdrawal X} {handle burned : Nat} {paid : Option V2Payment → Prop}

/-- The vault has paid the amount. -/
def Paid (amount : Nat) (payment : Option V2Payment) : Prop :=
  amount ≠ 0 ∧ ∃ p, payment = some p ∧ p.sent = amount ∧ p.owedAfter + amount = p.owedBefore ∧
    p.privateAfter = p.privateBefore + amount

/-- The unwrap took `burned` from the private balance. -/
def Burned (burn : Option V2Burn) (burned : Nat) : Prop :=
  ∃ b, burn = some b ∧ b.privateAfter + burned = b.privateBefore

/-- How far the operation is at each await, where a payment is one that is `paid`. -/
def Phase (E : Externals Nat Bool X) (cfg : Config) (amount : Nat)
    (paid : Option V2Payment → Prop) (s : V2Withdrawal X) : Prop :=
  match s.await with
  | .topology => (system Fhe.plain E cfg).Reachable s.world ∧ amount ≠ 0
  | .decrypt handle _ | .encrypt handle | .sign handle | .withdrawal handle =>
    ((system Fhe.plain E cfg).Reachable s.world ∧ amount ≠ 0) ∧ handle ≤ s.handle
  | .withdrawalReceipt _ success => success = true → paid s.payment
  | .currentHandle _ | .encryptUnwrap | .signUnwrap | .unwrap | .unwrapReceipt none =>
    paid s.payment
  | .unwrapReceipt (some (_, burned)) | .requestEvent _ burned | .decryptPublic _ burned =>
    paid s.payment ∧ Burned s.burn burned
  | .signFinalize _ | .finalize _ | .finalizeReceipt _ | .resolved =>
    paid s.payment ∧ Burned s.burn amount
  | .failed _ => True

structure Inv (E : Externals Nat Bool X) (cfg : Config) (amount : Nat)
    (paid : Option V2Payment → Prop) (s : V2Withdrawal X) : Prop where
  phase : Phase E cfg amount paid s
  submitted : s.unwrapSubmitted = true → paid s.payment

theorem Inv.paidOut (h : Inv E cfg amount (Paid amount) s) : s.PaidOut amount where
  resolved hawait := by
    have hphase := h.phase
    rw [Phase, hawait] at hphase
    obtain ⟨⟨-, payment, hpayment, hsent, howed, hcredited⟩, burn, hburn, hburned⟩ := hphase
    refine ⟨payment, burn, hpayment, hburn, hsent, howed, ?_⟩
    omega
  unwraps hsubmitted := by
    obtain ⟨hpositive, payment, hpayment, hsent, -⟩ := h.submitted hsubmitted
    exact ⟨payment, hpayment, hsent ▸ hpositive⟩

theorem Inv.start (hw : (system Fhe.plain E cfg).Reachable w) :
    Inv E cfg amount paid (start amount w handle) := by
  refine ⟨?_, by rintro ⟨⟩⟩
  rw [Phase, V2Withdrawal.start]
  split_ifs with hamount
  · trivial
  · exact ⟨hw, hamount⟩

theorem Inv.fail (h : Inv E cfg amount paid s) {error : V2WithdrawalError} :
    Inv E cfg amount paid (s.fail error) := ⟨trivial, h.submitted⟩

theorem Inv.others (h : Inv E cfg amount paid s) {label : Leopold.Label Nat Nat Bool X}
    (hstep : Step Fhe.plain E cfg s.world label w) (hhandle : s.handle ≤ handle) :
    Inv E cfg amount paid { s with world := w, handle := handle } := by
  refine ⟨?_, h.submitted⟩
  have hphase := h.phase
  unfold Phase at hphase ⊢
  dsimp only
  cases hawait : s.await with
  | topology =>
    rw [hawait] at hphase
    exact ⟨hphase.1.tail hstep, hphase.2⟩
  | decrypt | encrypt | sign | withdrawal =>
    rw [hawait] at hphase
    exact ⟨⟨hphase.1.1.tail hstep, hphase.1.2⟩, hphase.2.trans hhandle⟩
  | unwrapReceipt request => cases request <;> rwa [hawait] at hphase
  | _ => rwa [hawait] at hphase

/-- An await is answered. -/
theorem Inv.answered (h : Inv E cfg amount paid s) :
    Inv E cfg amount paid (s.answered account asset amount) := by
  have hphase := h.phase
  unfold Phase at hphase
  rw [V2Withdrawal.answered]
  cases hawait : s.await with
  | topology =>
    rw [hawait] at hphase
    dsimp only
    split_ifs
    · exact h.fail
    · exact ⟨⟨hphase, le_rfl⟩, h.submitted⟩
  | decrypt handle available =>
    rw [hawait] at hphase
    dsimp only
    split_ifs
    · exact h.fail
    · exact ⟨hphase, h.submitted⟩
  | withdrawalReceipt handle success =>
    rw [hawait] at hphase
    dsimp only
    split_ifs with hsuccess
    · exact ⟨hphase hsuccess, h.submitted⟩
    · exact h.fail
  | currentHandle handle =>
    rw [hawait] at hphase
    dsimp only
    split_ifs
    · exact h.fail
    · exact ⟨hphase, h.submitted⟩
  | signUnwrap =>
    rw [hawait] at hphase
    exact ⟨hphase, fun _ => hphase⟩
  | unwrapReceipt request =>
    rw [hawait] at hphase
    cases request with
    | none => exact h.fail
    | some request => exact ⟨hphase, h.submitted⟩
  | decryptPublic id burned =>
    rw [hawait] at hphase
    dsimp only
    split_ifs with hburned
    · exact h.fail
    · obtain rfl := not_not.1 hburned
      exact ⟨hphase, h.submitted⟩
  | finalizeReceipt success =>
    rw [hawait] at hphase
    dsimp only
    split_ifs
    · exact ⟨hphase, h.submitted⟩
    · exact h.fail
  | withdrawal | unwrap | finalize | resolved | failed => exact h
  | _ =>
    rw [hawait] at hphase
    exact ⟨hphase, h.submitted⟩

/-- What the withdrawal did, as it is recorded. -/
def paymentOf (O : Observables X) (account : Leopold.Address) (asset : V2Asset)
    (w w' : PlainWorld X) (sent : Nat) : V2Payment where
  sent := sent
  owedBefore := asset.owed w account
  owedAfter := asset.owed w' account
  privateBefore := O.confidentialBalance w.ext account
  privateAfter := O.confidentialBalance w'.ext account

/-- The withdrawal is mined without a revert. -/
theorem mined_withdrawal {old : Nat} (hawait : s.await = .withdrawal old)
    (hwithdraw : asset.withdraw E cfg account amount s.world = .ok (w', sent)) :
    s.mined E O cfg account asset amount handle = { s with
      world := w'
      handle := handle
      await := .withdrawalReceipt old true
      payment := some (paymentOf O account asset s.world w' sent) } := by
  rw [V2Withdrawal.mined, hawait]
  dsimp only
  rw [hwithdraw]
  rfl

/-- The transaction that was broadcast is mined. -/
theorem Inv.mined (hcredits : Credits E O cfg.vault account) (h : Inv E cfg amount paid s)
    (hpaid : ∀ old w' sent, s.await = .withdrawal old →
      asset.withdraw E cfg account amount s.world = .ok (w', sent) →
      (system Fhe.plain E cfg).Reachable s.world → amount ≠ 0 →
        paid (some (paymentOf O account asset s.world w' sent))) :
    Inv E cfg amount paid (s.mined E O cfg account asset amount handle) := by
  have hphase := h.phase
  unfold Phase at hphase
  rw [V2Withdrawal.mined]
  cases hawait : s.await with
  | withdrawal old =>
    rw [hawait] at hphase
    dsimp only
    cases hwithdraw : asset.withdraw E cfg account amount s.world with
    | ok result =>
      have hnew := hpaid old result.1 result.2 hawait hwithdraw hphase.1.1 hphase.1.2
      exact ⟨fun _ => hnew, fun _ => hnew⟩
    | error e => exact ⟨fun h => absurd h (by decide), h.submitted⟩
  | unwrap =>
    rw [hawait] at hphase
    dsimp only
    cases hunwrap : E.unwrap s.world.ext account account account amount with
    | some result =>
      obtain ⟨hrequest, hburned⟩ := hcredits.unwrap hunwrap
      refine ⟨⟨hphase, _, rfl, ?_⟩, h.submitted⟩
      rw [hrequest]
      exact hburned
    | none => exact ⟨hphase, h.submitted⟩
  | finalize id =>
    rw [hawait] at hphase
    dsimp only
    cases E.finalizeUnwrap s.world.ext id amount ⟨true⟩ with
    | some x => exact ⟨hphase, h.submitted⟩
    | none => exact ⟨hphase, h.submitted⟩
  | _ => exact h

theorem Inv.next (hcredits : Credits E O cfg.vault account) (h : Inv E cfg amount paid s)
    {label : Label X} (henabled : s.Enabled E cfg label)
    (hpaid : ∀ handle old w' sent, label = .mined handle → s.await = .withdrawal old →
      asset.withdraw E cfg account amount s.world = .ok (w', sent) →
      (system Fhe.plain E cfg).Reachable s.world → amount ≠ 0 →
        paid (some (paymentOf O account asset s.world w' sent))) :
    Inv E cfg amount paid (s.next E O cfg account asset amount label) := by
  cases label with
  | others label world handle => exact h.others henabled.1 henabled.2
  | answered => exact h.answered
  | throws error => exact h.fail
  | mined handle => exact h.mined hcredits fun old w' sent => hpaid handle old w' sent rfl

section

variable (hE : E.Lawful O cfg.vault cfg.asset) (hcredits : Credits E O cfg.vault account)
  (haccount : cfg.External account)

include hE hcredits haccount in
theorem paidOut_of_spared (h : (withdrawals E O cfg account asset amount).ReachableVia
    (fun s label _ => s.Spared account asset amount label) s) : s.PaidOut amount := by
  have hinv : Inv E cfg amount (Paid amount) s := by
    refine h.invariant ?_ ?_
    · rintro s ⟨w, handle, hw, rfl⟩
      exact .start hw
    · rintro s label s' - hinv ⟨henabled, rfl⟩ hspared
      refine hinv.next hcredits henabled fun handle old w' sent hlabel hawait hwithdraw hw hpos => ?_
      subst hlabel
      have hB := (World.reachable_timed hE hw).2.1
      obtain ⟨hsent, howed, hcredited⟩ :=
        V2Asset.withdraw_paid hE hcredits haccount hB hwithdraw
      have hpayable := hspared old hawait (V2Asset.withdraw_ok hwithdraw).1
      obtain rfl : sent = amount := hsent.trans (if_pos hpayable)
      exact ⟨hpos, _, rfl, rfl, howed, hcredited⟩
  exact hinv.paidOut

/-- A withdrawal whose balance has a new handle goes on to its unwrap. -/
theorem run_to_unwrap {old : Nat} (hawait : s.await = .withdrawalReceipt old true)
    (hhandle : s.handle ≠ old) : (withdrawals E O cfg account asset amount).Run s
      { s.goOn .unwrap with unwrapSubmitted := true } := by
  have hreceipt : s.answered account asset amount = s.goOn (.currentHandle old) := by
    rw [V2Withdrawal.answered, hawait]
    rfl
  have hchanged : (s.goOn (.currentHandle old)).answered account asset amount =
      s.goOn .encryptUnwrap := if_neg hhandle
  have henabled : s.broadcast = false ∧ s.ended = false := by
    rw [broadcast, ended, hawait]
    exact ⟨rfl, rfl⟩
  exact .head ⟨.answered, ⟨henabled, hreceipt.symm⟩, trivial⟩
    (.head (b := s.goOn .encryptUnwrap) ⟨.answered, ⟨⟨rfl, rfl⟩, hchanged.symm⟩, trivial⟩
      (.head ⟨.answered, ⟨⟨rfl, rfl⟩, rfl⟩, trivial⟩
        (.single ⟨.answered, ⟨⟨rfl, rfl⟩, rfl⟩, trivial⟩)))

include hE hcredits in
/-- An unwrap that the private balance covers goes on to resolve, whatever it comes from. -/
theorem run_from_unwrap (hawait : s.await = .unwrap)
    (hcovered : amount ≤ O.confidentialBalance s.world.ext account) :
    ∃ t, (withdrawals E O cfg account asset amount).Run s t ∧ t.await = .resolved ∧
      t.payment = s.payment ∧ Burned t.burn amount := by
  obtain ⟨⟨x, id⟩, hunwrap⟩ :=
    Option.isSome_iff_exists.1 (hcredits.unwrap_isSome s.world.ext amount)
  obtain ⟨hrequest, hburned⟩ := hcredits.unwrap hunwrap
  rw [if_pos hcovered] at hrequest hburned
  have haccepted : (E.finalizeUnwrap x id amount ⟨true⟩).isSome :=
    hE.finalizeUnwrap_isSome hrequest rfl
  obtain ⟨y, hfinalize⟩ := Option.isSome_iff_exists.1 haccepted
  let requested : V2Withdrawal X := { s with
    world := { s.world with ext := x }
    await := .unwrapReceipt (some (id, amount))
    burn := some ⟨O.confidentialBalance s.world.ext account, O.confidentialBalance x account⟩ }
  let finalized : V2Withdrawal X := { requested with
    world := { s.world with ext := y }
    await := .finalizeReceipt true }
  have hmined : s.next E O cfg account asset amount (.mined (s.handle + 1)) = requested := by
    rw [V2Withdrawal.next, V2Withdrawal.mined, hawait]
    dsimp only
    rw [hunwrap]
    dsimp only
    rw [hrequest]
  have hpaid : (requested.goOn (.decryptPublic id amount)).answered account asset amount =
      requested.goOn (.signFinalize id) := if_neg (not_not.2 rfl)
  have hclosed : (requested.goOn (.finalize id)).next E O cfg account asset amount
      (.mined (s.handle + 1)) = finalized := by
    rw [V2Withdrawal.next, V2Withdrawal.mined]
    dsimp only [goOn, requested]
    rw [hfinalize]
  have hbroadcast : s.broadcast = true := by
    rw [broadcast, hawait]
  refine ⟨finalized.goOn .resolved, ?_, rfl, rfl, _, rfl, hburned⟩
  exact .head ⟨.mined (s.handle + 1), ⟨⟨hbroadcast, Nat.lt_succ_self _⟩, hmined.symm⟩, trivial⟩
    (.head ⟨.answered, ⟨⟨rfl, rfl⟩, rfl⟩, trivial⟩
      (.head ⟨.answered, ⟨⟨rfl, rfl⟩, rfl⟩, trivial⟩
        (.head ⟨.answered, ⟨⟨rfl, rfl⟩, hpaid.symm⟩, trivial⟩
          (.head ⟨.answered, ⟨⟨rfl, rfl⟩, rfl⟩, trivial⟩
            (.head ⟨.mined (s.handle + 1), ⟨⟨rfl, Nat.lt_succ_self _⟩, hclosed.symm⟩, trivial⟩
              (.single ⟨.answered, ⟨⟨rfl, rfl⟩, rfl⟩, trivial⟩))))))

include hE hcredits haccount in
/-- Once a withdrawal that is not paid was mined, the operation can get to its unwrap, and past it
where the account keeps as much privately. -/
theorem unwraps_of_not_spared {label : Label X}
    (h : (withdrawals E O cfg account asset amount).Reachable s)
    (hstep : (withdrawals E O cfg account asset amount).step s label s')
    (hnot : ¬ s.Spared account asset amount label) :
    (∃ t, (withdrawals E O cfg account asset amount).Run s' t ∧ ¬ t.PaidOut amount) ∧
    (amount ≤ O.confidentialBalance s'.world.ext account →
      ∃ t, (withdrawals E O cfg account asset amount).Run s' t ∧ t.UnwrappedOwn amount) := by
  have hinv : Inv E cfg amount (fun _ => True) s := by
    refine h.invariant ?_ ?_
    · rintro s ⟨w, handle, hw, rfl⟩
      exact .start hw
    · rintro s label s' - hinv ⟨henabled, rfl⟩
      exact hinv.next hcredits henabled fun _ _ _ _ _ _ _ _ _ => trivial
  cases label with
  | others | answered | throws => exact absurd trivial hnot
  | mined handle =>
    simp only [Spared, not_forall] at hnot
    obtain ⟨old, hawait, hopen, hpayable⟩ := hnot
    obtain ⟨⟨-, hhandle⟩, rfl⟩ := hstep
    have hphase := hinv.phase
    rw [Phase, hawait] at hphase
    obtain ⟨⟨hw, -⟩, hold⟩ := hphase
    obtain ⟨w', hwithdraw⟩ := V2Asset.withdraw_unpaid hE haccount hw hopen hpayable
    obtain ⟨-, howed, hcredited⟩ := V2Asset.withdraw_paid hE hcredits haccount
      (World.reachable_timed hE hw).2.1 hwithdraw
    let unpaid : V2Withdrawal X := { s with
      world := w'
      handle := handle
      await := .withdrawalReceipt old true
      payment := some (paymentOf O account asset s.world w' 0) }
    have hmined : s.next E O cfg account asset amount (.mined handle) = unpaid :=
      mined_withdrawal hawait hwithdraw
    have hsubmitted := @run_to_unwrap _ E O cfg account asset amount unpaid old rfl
      (hold.trans_lt hhandle).ne'
    rw [hmined]
    refine ⟨⟨_, hsubmitted, fun hpaid => ?_⟩, fun hcovered => ?_⟩
    · obtain ⟨payment, hpayment, hsent⟩ := hpaid.unwraps rfl
      obtain rfl := Option.some.inj hpayment
      exact hsent rfl
    · have hresolves : ∃ t, (withdrawals E O cfg account asset amount).Run
          { unpaid.goOn .unwrap with unwrapSubmitted := true } t ∧ t.await = .resolved ∧
          t.payment = unpaid.payment ∧ Burned t.burn amount :=
        run_from_unwrap hE hcredits rfl hcovered
      obtain ⟨t, hrun, hresolved, hpayment, hburned⟩ := hresolves
      exact ⟨t, hsubmitted.trans hrun, hresolved, ⟨_, hpayment, rfl, howed, hcredited⟩, hburned⟩

include hE hcredits haccount in
/-- **A withdrawal unwraps what the vault has paid**, in the runs in which it is mined when the
amount can be paid; in every other run its unwrap can follow all the same, and it resolves with
other private funds of an account that has them. -/
theorem unwraps_paid_iff :
    (∀ s, (withdrawals E O cfg account asset amount).ReachableVia
      (fun s label _ => s.Spared account asset amount label) s → s.PaidOut amount) ∧
    ∀ s label s', (withdrawals E O cfg account asset amount).Reachable s →
      (withdrawals E O cfg account asset amount).step s label s' →
      ¬ s.Spared account asset amount label →
      (∃ t, (withdrawals E O cfg account asset amount).Run s' t ∧ ¬ t.PaidOut amount) ∧
      (amount ≤ O.confidentialBalance s'.world.ext account →
        ∃ t, (withdrawals E O cfg account asset amount).Run s' t ∧ t.UnwrappedOwn amount) :=
  ⟨fun _ h => paidOut_of_spared hE hcredits haccount h,
    fun _ _ _ h hstep hnot => unwraps_of_not_spared hE hcredits haccount h hstep hnot⟩

end

open Demo in
/-- The mock wrapper credits what the vault sends and burns what is covered. -/
theorem mock_credits (hne : account ≠ cfg.vault) :
    Credits (mockExternals cfg token) mockObservables cfg.vault account where
  transfer {x x' amount sent} h := by
    obtain ⟨-, hbalance, -⟩ := MockChain.transfer_ok h
    show x'.balance account = _
    rw [hbalance, MockChain.moved_recipient hne]
    rfl
  unwrap {x x' amount id} h := by
    obtain ⟨-, hrequest, hbalance⟩ := MockChain.unwrap_ok h
    refine ⟨(congrFun hrequest id).trans (Function.update_self _ _ _), ?_⟩
    show x'.balance account + _ = x.balance account
    rw [hbalance, Function.update_self]
    exact Nat.sub_add_cancel (x.covered_le _ _)
  unwrap_isSome x amount := by
    show (x.unwrap account account account amount).isSome
    rw [MockChain.unwrap, if_neg (not_not.2 rfl)]
    rfl

section

open Demo

/-- A vault with a strategy and long rounds. -/
def longCfg : Config := { strategyCfg with roundDuration := 8192 }

/-- Alice saves half of her private balance, and a deployment leaves less than that liquid. -/
def deployScript : List Event :=
  [.call alice (.deposit 32 0), .call bob (.openStrategyEpoch .deploy), .tick 4000,
    .call bob (.requestStrategyAmount 1)]

/-- Alice withdraws what the vault owes her and cannot pay, and unwraps what she kept. -/
theorem unwraps_paid_iff_alice :
    ∃ t, (withdrawals (mockExternals longCfg token) mockObservables longCfg alice .savings
      32).Reachable t ∧ t.UnwrappedOwn 32 := by
  have hends : World.endsWith (fun w => decide (w.vault.principal alice = 32 ∧
      w.vault.liquidPrincipal = 24 ∧ w.vault.isActiveRoundOpen w.now = true ∧
      (((V2Asset.savings.withdraw (mockExternals longCfg token) longCfg alice 32 w).toOption.map
        fun result => decide (32 ≤ mockObservables.confidentialBalance result.1.ext alice)) =
          some true)))
      (World.outcome longCfg token 100 chain deployScript) = true := by decide +kernel
  obtain ⟨w, hw, hcheck⟩ := World.exists_of_endsWith hends
  obtain ⟨howed, hliquid, hopen, hkept⟩ := of_decide_eq_true hcheck
  have hs : (withdrawals (mockExternals longCfg token) mockObservables longCfg alice .savings
      32).Reachable { start 32 w 1 with await := .withdrawal 1 } := by
    have hcovered : ¬ 32 > V2Asset.owed .savings w alice := by
      rw [V2Asset.owed, howed]
      decide
    have hstart := TransitionSystem.Reachable.of_init
      (S := withdrawals (mockExternals longCfg token) mockObservables longCfg alice .savings 32)
      ⟨w, 1, World.outcome_reachable hw, rfl⟩
    have hencrypt := (hstart.tail (l := Label.answered) ⟨⟨rfl, rfl⟩, rfl⟩).tail
      (l := Label.answered) ⟨⟨rfl, rfl⟩, (if_neg hcovered).symm⟩
    exact (hencrypt.tail (l := Label.answered) ⟨⟨rfl, rfl⟩, rfl⟩).tail (l := Label.answered)
      ⟨⟨rfl, rfl⟩, rfl⟩
  have hprivate : 32 ≤ mockObservables.confidentialBalance
      (next (mockExternals longCfg token) mockObservables longCfg alice .savings 32
        { start 32 w 1 with await := .withdrawal 1 } (.mined 2)).world.ext alice := by
    cases hwithdraw : V2Asset.savings.withdraw (mockExternals longCfg token) longCfg alice 32 w with
    | error e =>
      rw [hwithdraw] at hkept
      cases hkept
    | ok result =>
      rw [hwithdraw] at hkept
      rw [next, mined_withdrawal rfl hwithdraw]
      exact of_decide_eq_true (Option.some.inj hkept)
  obtain ⟨-, hunpaid⟩ := @unwraps_paid_iff _ _ _ _ alice .savings 32
    (mockExternals_lawful longCfg token) (mock_credits (by decide)) (by decide)
  obtain ⟨-, hown⟩ := hunpaid _ (.mined 2) _ hs ⟨⟨rfl, Nat.one_lt_two⟩, rfl⟩ fun hspared => by
    obtain ⟨-, hle⟩ := hspared 1 rfl fun _ => hopen
    rw [V2Asset.liquid] at hle
    exact absurd (hle.trans hliquid.le) (by decide)
  obtain ⟨t, hrun, ht⟩ := hown hprivate
  exact ⟨t, hrun.reachable (hs.tail (l := Label.mined 2) ⟨⟨rfl, Nat.one_lt_two⟩, rfl⟩), ht⟩

end

end V2Withdrawal

end Leopold.Frontend
