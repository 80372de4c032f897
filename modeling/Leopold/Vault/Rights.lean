import Leopold.Vault.JointInversion

/-!
# Rights on the handles of `LeopoldVault`

Whoever computes with a handle or decrypts it must have been granted it before.  The vault grants
itself each handle that it writes to its storage, because a later call could not compute with it
otherwise, and grants each account the handles of its balance and of its winnings.  `Grants` is
what one function of the vault does to this: it keeps the entries of the access list, covers what
it writes, and lets others decrypt nothing but what it names.
-/

namespace Leopold

open Lib

variable {E64 E128 EBool X : Type} {fhe : Fhe E64 E128 EBool} {E : Externals E64 EBool X}
  {cfg : Config}

/-- The handle of a storage slot that was never written. -/
def Handle.Unset (fhe : Fhe E64 E128 EBool) : Handle E64 E128 EBool → Prop
  | .uint64 h => h = fhe.null64
  | .uint128 h => h = fhe.null128
  | .bool h => h = fhe.nullBool

/-- A grant that `may` permits. -/
def Grant.Within (may : Address → Handle E64 E128 EBool → Prop) : Grant E64 E128 EBool → Prop
  | .allow h account => may account h
  | .makePubliclyDecryptable _ => True

/-- `may` holds of every handle of a round. -/
structure Round.Covered (may : Handle E64 E128 EBool → Prop) (round : Round E64 E128 EBool) :
    Prop where
  aggregateTwab : may (.uint128 round.aggregateTwab)
  candidate : may (.uint128 round.candidate)
  candidateValid : may (.bool round.candidateValid)
  acceptedTicket : may (.uint128 round.acceptedTicket)
  reservedPrize : may (.uint64 round.reservedPrize)
  selectionCumulative : may (.uint128 round.selectionCumulative)
  encryptedWinnerCount : may (.uint64 round.encryptedWinnerCount)
  reconciliationValid : may (.bool round.reconciliationValid)
  eligibleBalance : may (.uint64 round.eligibleBalance)
  eligibleCumulative : may (.uint128 round.eligibleCumulative)

theorem Round.Covered.mono {may may' : Handle E64 E128 EBool → Prop}
    {round : Round E64 E128 EBool} (hmay : ∀ h, may h → may' h) (h : round.Covered may) :
    round.Covered may' where
  aggregateTwab := hmay _ h.aggregateTwab
  candidate := hmay _ h.candidate
  candidateValid := hmay _ h.candidateValid
  acceptedTicket := hmay _ h.acceptedTicket
  reservedPrize := hmay _ h.reservedPrize
  selectionCumulative := hmay _ h.selectionCumulative
  encryptedWinnerCount := hmay _ h.encryptedWinnerCount
  reconciliationValid := hmay _ h.reconciliationValid
  eligibleBalance := hmay _ h.eligibleBalance
  eligibleCumulative := hmay _ h.eligibleCumulative

namespace Vault

/-- The vault may use every handle of its storage, and every account those of its own balance and
winnings. -/
structure Covered (cfg : Config) (may : Address → Handle E64 E128 EBool → Prop)
    (v : Vault E64 E128 EBool) : Prop where
  rounds : ∀ r, (v.rounds r).Covered (may cfg.vault)
  observations : ∀ a, ∀ o ∈ v.observations a,
    may cfg.vault (.uint64 o.balance) ∧ may cfg.vault (.uint128 o.cumulative)
  principal : ∀ a, may cfg.vault (.uint64 (v.principal a)) ∧ may a (.uint64 (v.principal a))
  winnings : ∀ a, may cfg.vault (.uint64 (v.winnings a)) ∧ may a (.uint64 (v.winnings a))
  winnerPredicate : ∀ r a, may cfg.vault (.bool (v.winnerPredicate r a))
  totalPrincipal : may cfg.vault (.uint64 v.totalPrincipal)
  liquidPrincipal : may cfg.vault (.uint64 v.liquidPrincipal)
  deployedPrincipal : may cfg.vault (.uint64 v.deployedPrincipal)
  principalInTransition : may cfg.vault (.uint64 v.principalInTransition)
  strategyShortfall : may cfg.vault (.uint64 v.strategyShortfall)
  liquidPrizeAssets : may cfg.vault (.uint64 v.liquidPrizeAssets)
  realizedSurplus : may cfg.vault (.uint64 v.realizedSurplus)
  reservedPrize : may cfg.vault (.uint64 v.reservedPrize)
  winningsLiability : may cfg.vault (.uint64 v.winningsLiability)
  sponsoredPrize : ∀ r, may cfg.vault (.uint64 (v.sponsoredPrize r))
  uncommittedYield : may cfg.vault (.uint64 v.uncommittedYield)
  strategyEpochs : ∀ id, may cfg.vault (.uint64 (v.strategyEpochs id).amount)

/-- `account` may use and decrypt the handle: it was granted, or never written. -/
def May (fhe : Fhe E64 E128 EBool) (v : Vault E64 E128 EBool) (account : Address)
    (h : Handle E64 E128 EBool) : Prop := h.Unset fhe ∨ .allow h account ∈ v.acl

theorem within_may (fhe : Fhe E64 E128 EBool) (v : Vault E64 E128 EBool) :
    ∀ g ∈ v.acl, g.Within (v.May fhe) := by
  intro g hg
  cases g with
  | allow h account => exact .inr hg
  | makePubliclyDecryptable h => trivial

/-- The entries for the balance and the winnings of an account. -/
def ownGrants (v : Vault E64 E128 EBool) (a : Address) : List (Grant E64 E128 EBool) :=
  [.allow (.uint64 (v.principal a)) a, .allow (.uint64 (v.winnings a)) a]

/-- The access list keeps its entries; the new ones cover each handle that was written, and those
that are not to the vault are among `gs`. -/
structure Grants (cfg : Config) (gs : List (Grant E64 E128 EBool))
    (v v' : Vault E64 E128 EBool) : Prop where
  kept : v.acl ⊆ v'.acl
  added : ∀ g ∈ v'.acl, g ∈ v.acl ∨ (∃ h, g = cfg.allowThis h) ∨ g ∈ gs
  covered : ∀ {may : Address → Handle E64 E128 EBool → Prop},
    (∀ g ∈ v'.acl, g.Within may) → v.Covered cfg may → v'.Covered cfg may

variable {v v' v'' : Vault E64 E128 EBool} {gs gs' : List (Grant E64 E128 EBool)}
  {may may' : Address → Handle E64 E128 EBool → Prop} {r : Nat} {a : Address}

namespace Covered

theorem mono (hmay : ∀ account h, may account h → may' account h) (h : v.Covered cfg may) :
    v.Covered cfg may' where
  rounds r := (h.rounds r).mono (hmay _)
  observations a o ho := (h.observations a o ho).imp (hmay _ _) (hmay _ _)
  principal a := (h.principal a).imp (hmay _ _) (hmay _ _)
  winnings a := (h.winnings a).imp (hmay _ _) (hmay _ _)
  winnerPredicate r a := hmay _ _ (h.winnerPredicate r a)
  totalPrincipal := hmay _ _ h.totalPrincipal
  liquidPrincipal := hmay _ _ h.liquidPrincipal
  deployedPrincipal := hmay _ _ h.deployedPrincipal
  principalInTransition := hmay _ _ h.principalInTransition
  strategyShortfall := hmay _ _ h.strategyShortfall
  liquidPrizeAssets := hmay _ _ h.liquidPrizeAssets
  realizedSurplus := hmay _ _ h.realizedSurplus
  reservedPrize := hmay _ _ h.reservedPrize
  winningsLiability := hmay _ _ h.winningsLiability
  sponsoredPrize r := hmay _ _ (h.sponsoredPrize r)
  uncommittedYield := hmay _ _ h.uncommittedYield
  strategyEpochs id := hmay _ _ (h.strategyEpochs id)

theorem grant (h : v.Covered cfg may) (gs : List (Grant E64 E128 EBool)) :
    (v.grant gs).Covered cfg may := { h with }

theorem update_round {round : Round E64 E128 EBool} (h : v.Covered cfg may)
    (hround : round.Covered (may cfg.vault)) :
    ∀ s, (Function.update v.rounds r round s).Covered (may cfg.vault) :=
  (Function.forall_update_iff _ fun _ round => Round.Covered _ round).2
    ⟨hround, fun s _ => h.rounds s⟩

theorem setRound {round : Round E64 E128 EBool} (h : v.Covered cfg may)
    (hround : round.Covered (may cfg.vault)) : (v.setRound r round).Covered cfg may :=
  { h with rounds := h.update_round hround }

theorem update_epoch {id : Nat} {epoch : StrategyEpoch E64} (h : v.Covered cfg may)
    (hepoch : may cfg.vault (.uint64 epoch.amount)) :
    ∀ s, may cfg.vault (.uint64 (Function.update v.strategyEpochs id epoch s).amount) :=
  (Function.forall_update_iff _
    fun _ (epoch : StrategyEpoch E64) => may cfg.vault (.uint64 epoch.amount)).2
    ⟨hepoch, fun s _ => h.strategyEpochs s⟩

theorem setEpoch {id : Nat} {epoch : StrategyEpoch E64} (h : v.Covered cfg may)
    (hepoch : may cfg.vault (.uint64 epoch.amount)) : (v.setEpoch id epoch).Covered cfg may :=
  { h with strategyEpochs := h.update_epoch hepoch }

/-- The entry of a table at `k` is written. -/
theorem update {f : Nat → E64} {k : Nat} {x : E64} (hx : may cfg.vault (.uint64 x))
    (hf : ∀ b, may cfg.vault (.uint64 (f b))) :
    ∀ b, may cfg.vault (.uint64 (Function.update f k x b)) :=
  (Function.forall_update_iff f fun _ h => may cfg.vault (.uint64 h)).2 ⟨hx, fun b _ => hf b⟩

/-- The entry of `a` in a table of amounts is written. -/
theorem update_own {f : Address → E64} {x : E64} (hx : may cfg.vault (.uint64 x))
    (hown : may a (.uint64 x))
    (hf : ∀ b, may cfg.vault (.uint64 (f b)) ∧ may b (.uint64 (f b))) :
    ∀ b, may cfg.vault (.uint64 (Function.update f a x b)) ∧
      may b (.uint64 (Function.update f a x b)) :=
  (Function.forall_update_iff f fun b h => may cfg.vault (.uint64 h) ∧ may b (.uint64 h)).2
    ⟨⟨hx, hown⟩, fun b _ => hf b⟩

end Covered

namespace Grants

theorem refl (v : Vault E64 E128 EBool) : Grants cfg gs v v :=
  ⟨List.Subset.refl _, fun _ hg => .inl hg, fun _ h => h⟩

theorem trans (h : Grants cfg gs v v') (h' : Grants cfg gs v' v'') : Grants cfg gs v v'' where
  kept := List.Subset.trans h.kept h'.kept
  added g hg := (h'.added g hg).elim (h.added g) .inr
  covered hmay hv := h'.covered hmay (h.covered (fun g hg => hmay g (h'.kept hg)) hv)

theorem mono (h : Grants cfg gs v v') (hgs : gs ⊆ gs') : Grants cfg gs' v v' where
  kept := h.kept
  added g hg := (h.added g hg).imp_right (Or.imp_right (hgs ·))
  covered := h.covered

theorem weaken (h : Grants cfg [] v v') : Grants cfg gs v v' := h.mono (List.nil_subset gs)

/-- Writes before and after a step, with the entries `new` that cover both. -/
theorem around {u u' : Vault E64 E128 EBool} (new : List (Grant E64 E128 EBool))
    (h : Grants cfg [] u u') (hacl : u.acl = v.acl) (hacl' : v'.acl = u'.acl ++ new)
    (hnew : ∀ g ∈ new, (∃ h, g = cfg.allowThis h) ∨ g ∈ gs)
    (hbefore : ∀ {may : Address → Handle E64 E128 EBool → Prop},
      (∀ g ∈ new, g.Within may) → v.Covered cfg may → u.Covered cfg may)
    (hafter : ∀ {may : Address → Handle E64 E128 EBool → Prop},
      (∀ g ∈ new, g.Within may) → u'.Covered cfg may → v'.Covered cfg may) :
    Grants cfg gs v v' where
  kept := by
    rw [← hacl, hacl']
    exact List.subset_append_of_subset_left _ h.kept
  added g hg := by
    rw [hacl', List.mem_append] at hg
    rw [← hacl]
    rcases hg with hg | hg
    · exact (h.added g hg).imp_right fun h => .inl (h.resolve_right List.not_mem_nil)
    · exact .inr (hnew g hg)
  covered hmay hv := by
    rw [hacl'] at hmay
    have hnew := fun g hg => hmay g (List.mem_append_right _ hg)
    have hold := fun g hg => hmay g (List.mem_append_left _ hg)
    exact hafter hnew (h.covered hold (hbefore hnew hv))

/-- A write with the entries `new` that cover it. -/
theorem write (new : List (Grant E64 E128 EBool)) (hacl : v'.acl = v.acl ++ new)
    (hnew : ∀ g ∈ new, (∃ h, g = cfg.allowThis h) ∨ g ∈ gs)
    (hcovered : ∀ {may : Address → Handle E64 E128 EBool → Prop},
      (∀ g ∈ new, g.Within may) → v.Covered cfg may → v'.Covered cfg may) :
    Grants cfg gs v v' :=
  around new (.refl v) rfl hacl hnew (fun _ hv => hv) hcovered

/-- A write of no handles. -/
theorem unwritten (hacl : v'.acl = v.acl)
    (hcovered : ∀ {may : Address → Handle E64 E128 EBool → Prop}, v.Covered cfg may →
      v'.Covered cfg may) : Grants cfg gs v v' where
  kept := hacl ▸ List.Subset.refl _
  added _ hg := .inl (hacl ▸ hg)
  covered _ := hcovered

/-- A write to one round that keeps its handles. -/
theorem setRound {round : Round E64 E128 EBool}
    (hround : ∀ {may : Handle E64 E128 EBool → Prop}, (v.rounds r).Covered may →
      round.Covered may) : Grants cfg gs v (v.setRound r round) :=
  unwritten rfl fun hv => hv.setRound (hround (hv.rounds r))

/-- A write that is followed by entries to the vault. -/
theorem write_this (hs : List (Handle E64 E128 EBool)) (hacl : v'.acl = v.acl)
    (hcovered : ∀ {may : Address → Handle E64 E128 EBool → Prop}, (∀ h ∈ hs, may cfg.vault h) →
      v.Covered cfg may → v'.Covered cfg may) :
    Grants cfg gs v (v'.grant (hs.map cfg.allowThis)) := by
  refine write _ (congrArg (· ++ _) hacl) ?_ fun hmay hv => (hcovered ?_ hv).grant _
  · exact List.forall_mem_map.2 fun h _ => .inl ⟨h, rfl⟩
  · exact fun h hh => hmay _ (List.mem_map_of_mem hh)

end Grants

/-! ## The private functions -/

theorem initializeRound_grants {t : Nat} (h : initializeRound fhe cfg r t v = .ok v') :
    Grants cfg gs v v' := by
  simp only [initializeRound, seq_eq_ok, pure_eq_ok, ok_eq_ok] at h
  obtain ⟨_, _, rfl⟩ := h
  refine Grants.write_this [.uint64 _, .uint128 _] rfl fun hmay hv => ?_
  simp only [List.forall_mem_cons] at hmay
  exact hv.setRound { hv.rounds r with
    eligibleBalance := hmay.1
    eligibleCumulative := hmay.2.1 }

theorem accrueEligible_grants {t : Nat} (h : accrueEligible fhe cfg r t v = .ok v') :
    Grants cfg gs v v' := by
  simp only [accrueEligible, seq_eq_ok] at h
  obtain ⟨elapsed, _, h⟩ := h
  split_ifs at h with helapsed
  · rw [pure_eq_ok, ok_eq_ok] at h
    exact h ▸ .refl v
  · rw [pure_eq_ok, ok_eq_ok] at h
    subst h
    refine Grants.write_this [.uint128 _] rfl fun hmay hv => ?_
    exact hv.setRound { hv.rounds r with
      eligibleCumulative := hmay _ (List.mem_singleton_self _) }

/-- The checkpoints that `record` answers are old ones or hold what it wrote. -/
theorem mem_record {b : E64} {cumulative : E128} {t : Nat}
    {observations written : List (Observation E64 E128)}
    (h : record fhe b t observations = .ok (written, cumulative)) {o : Observation E64 E128}
    (ho : o ∈ written) : o ∈ observations ∨ (o.balance = b ∧ o.cumulative = cumulative) := by
  unfold record at h
  split at h
  · rw [ok_eq_ok, Prod.mk.injEq] at h
    obtain ⟨rfl, rfl⟩ := h
    exact (List.mem_append.1 ho).imp_right fun ho => by simp [List.mem_singleton.1 ho]
  · next previous _ =>
    simp only [seq_eq_ok] at h
    obtain ⟨elapsed, _, h⟩ := h
    split_ifs at h with helapsed
    all_goals
      rw [pure_eq_ok, ok_eq_ok, Prod.mk.injEq] at h
      obtain ⟨rfl, rfl⟩ := h
    · exact (List.mem_append.1 ho).imp List.mem_of_mem_dropLast
        fun ho => by simp [List.mem_singleton.1 ho]
    · exact (List.mem_append.1 ho).imp_right fun ho => by simp [List.mem_singleton.1 ho]

theorem checkpointUser_grants {b : E64} {t : Nat} (h : checkpointUser fhe cfg a b t v = .ok v') :
    Grants cfg gs v v' := by
  simp only [checkpointUser, seq_eq_ok, Prod.exists, pure_eq_ok, ok_eq_ok] at h
  obtain ⟨written, cumulative, hrecord, rfl⟩ := h
  refine Grants.write_this [.uint64 _, .uint128 _] rfl ?_
  intro may hmay hv
  simp only [List.forall_mem_cons] at hmay
  refine { hv with
    observations := (Function.forall_update_iff _
      fun _ (written : List (Observation E64 E128)) => ∀ o ∈ written,
        may cfg.vault (.uint64 o.balance) ∧ may cfg.vault (.uint128 o.cumulative)).2
      ⟨fun o ho => ?_, fun b _ => hv.observations b⟩ }
  rcases mem_record hrecord ho with ho | ⟨hbalance, hcumulative⟩
  · exact hv.observations a o ho
  · rw [hbalance, hcumulative]
    exact ⟨hmay.1, hmay.2.1⟩

theorem changeEligible_grants {f : E64 → E64} {t : Nat}
    (h : changeEligible fhe cfg a f t v = .ok v') : Grants cfg gs v v' := by
  unfold changeEligible at h
  split_ifs at h with hs
  · simp only [seq_eq_ok, pure_eq_ok, ok_eq_ok] at h
    obtain ⟨v₁, hacc, rfl⟩ := h
    refine (accrueEligible_grants hacc).trans ?_
    refine Grants.write_this [.uint64 _] rfl fun hmay hv => ?_
    exact hv.setRound { hv.rounds v₁.activeRoundId with
      eligibleBalance := hmay _ (List.mem_singleton_self _) }
  · exact ok_eq_ok.1 h ▸ .refl v

theorem changeEligible_keeps {f : E64 → E64} {t : Nat}
    (h : changeEligible fhe cfg a f t v = .ok v') : v'.principal = v.principal ∧
      v'.winnings = v.winnings ∧ v'.totalPrincipal = v.totalPrincipal ∧
      v'.liquidPrincipal = v.liquidPrincipal := by
  rcases changeEligible_ok h with ⟨_, rfl⟩ | ⟨_, _, gs, rfl⟩
  · exact ⟨rfl, rfl, rfl, rfl⟩
  · exact ⟨rfl, rfl, rfl, rfl⟩

/-- A new balance of `a` is written, followed by the accrual and by `_persistPrincipalState`. -/
theorem persistPrincipalState_grants {balance total liquid : E64} {f : E64 → E64} {t : Nat}
    (h : changeEligible fhe cfg a f t { v with
      principal := Function.update v.principal a balance
      totalPrincipal := total
      liquidPrincipal := liquid } = .ok v') :
    Grants cfg [.allow (.uint64 (v'.principal a)) a] v (v'.persistPrincipalState cfg a) := by
  obtain ⟨hprincipal, -, htotal, hliquid⟩ := changeEligible_keeps h
  refine Grants.around _ (changeEligible_grants h) rfl rfl ?_ ?_ fun _ hv => hv.grant _
  · simp only [List.forall_mem_cons, List.not_mem_nil, false_imp_iff, implies_true, and_true]
    exact ⟨.inl ⟨_, rfl⟩, .inr List.mem_cons_self, .inl ⟨_, rfl⟩, .inl ⟨_, rfl⟩⟩
  · intro may hmay hv
    simp only [List.forall_mem_cons] at hmay
    obtain ⟨h1, h2, h3, h4, -⟩ := hmay
    have hp : v'.principal a = balance := by
      rw [hprincipal]
      exact Function.update_self ..
    exact { hv with
      principal := Covered.update_own (hp ▸ h1) (hp ▸ h2) hv.principal
      totalPrincipal := htotal ▸ h3
      liquidPrincipal := hliquid ▸ h4 }

variable (fhe cfg) in
/-- What is saved for a registered account is added to the eligible balance. -/
theorem addEligible_grants (amount : E64) (p : Prop) [Decidable p] (r : Nat)
    (u : Vault E64 E128 EBool) : Grants cfg [] u
      (if p then
        (u.setRound r { u.rounds r with
          eligibleBalance := fhe.add64 (u.rounds r).eligibleBalance amount }).grant
            [cfg.allowThis (.uint64 (fhe.add64 (u.rounds r).eligibleBalance amount))]
      else u) := by
  split_ifs
  · refine Grants.write_this [.uint64 _] rfl fun hmay hu => ?_
    exact hu.setRound { hu.rounds r with
      eligibleBalance := hmay _ (List.mem_singleton_self _) }
  · exact .refl u

theorem bookAllocation_grants (prize autoSaved : E64) (v : Vault E64 E128 EBool) :
    Grants cfg ((v.bookAllocation fhe cfg r a prize autoSaved).ownGrants a) v
      (v.bookAllocation fhe cfg r a prize autoSaved) := by
  unfold bookAllocation
  extract_lets kept v₁ activeRound eligibleBalance v₂ v₃ round v₄
  have hsame : v₂.principal = v₁.principal ∧ v₂.winnings = v₁.winnings ∧
      v₂.totalPrincipal = v₁.totalPrincipal ∧ v₂.liquidPrincipal = v₁.liquidPrincipal := by
    unfold v₂
    split_ifs <;> exact ⟨rfl, rfl, rfl, rfl⟩
  obtain ⟨hprincipal, hwinnings, htotal, hliquid⟩ := hsame
  have hactive : Grants cfg [] v₁ v₂ := addEligible_grants fhe cfg autoSaved _ _ v₁
  refine Grants.around _ hactive rfl rfl ?_ ?_ ?_
  · simp only [List.forall_mem_cons, List.not_mem_nil, false_imp_iff, implies_true, and_true]
    exact ⟨.inl ⟨_, rfl⟩, .inr List.mem_cons_self, .inl ⟨_, rfl⟩,
      .inr (List.mem_cons_of_mem _ List.mem_cons_self), .inl ⟨_, rfl⟩, .inl ⟨_, rfl⟩,
      .inl ⟨_, rfl⟩, .inl ⟨_, rfl⟩, .inl ⟨_, rfl⟩, .inl ⟨_, rfl⟩⟩
  · intro may hmay hv
    simp only [List.forall_mem_cons] at hmay
    obtain ⟨h1, h2, h3, h4, h5, h6, -⟩ := hmay
    have hp : v₂.principal a = fhe.add64 (v.principal a) autoSaved := by
      rw [hprincipal]
      exact Function.update_self ..
    have hw : v₂.winnings a = fhe.add64 (v.winnings a) kept := by
      rw [hwinnings]
      exact Function.update_self ..
    exact { hv with
      principal := Covered.update_own (hp ▸ h1) (hp ▸ h2) hv.principal
      winnings := Covered.update_own (hw ▸ h3) (hw ▸ h4) hv.winnings
      totalPrincipal := htotal ▸ h5
      liquidPrincipal := hliquid ▸ h6 }
  · intro may hmay hv
    simp only [List.forall_mem_cons] at hmay
    obtain ⟨-, -, -, -, -, -, h7, h8, h9, h10, -⟩ := hmay
    have hround : (v₄.rounds r).reservedPrize = fhe.sub64 round.reservedPrize prize :=
      congrArg Round.reservedPrize (setRound_rounds_self ..)
    have hwritten : v₃.Covered cfg may := { hv with
      winningsLiability := h7
      liquidPrizeAssets := h8
      reservedPrize := h9 }
    refine Covered.grant (hwritten.setRound (r := r) ?_) _
    exact { hwritten.rounds r with reservedPrize := hround ▸ h10 }

theorem allocateParticipant_grants {now : Nat}
    (h : allocateParticipant fhe cfg r now a v = .ok v') :
    Grants cfg (v'.ownGrants a) v v' := by
  simp only [allocateParticipant, seq_eq_ok, pure_eq_ok, ok_eq_ok] at h
  obtain ⟨_, _, v₁, hcheck, rfl⟩ := h
  exact (checkpointUser_grants hcheck).trans (bookAllocation_grants _ _ v₁)

theorem selectParticipant_grants (h : selectParticipant fhe cfg r a v = .ok v') :
    Grants cfg gs v v' := by
  simp only [selectParticipant, seq_eq_ok, pure_eq_ok, ok_eq_ok] at h
  obtain ⟨_, _, rfl⟩ := h
  refine Grants.write_this [.bool _, .uint128 _, .uint64 _] rfl ?_
  intro may hmay hv
  simp only [List.forall_mem_cons] at hmay
  have hwinner : ∀ s b, may cfg.vault (.bool (Function.update v.winnerPredicate r
      (Function.update (v.winnerPredicate r) a _) s b)) :=
    (Function.forall_update_iff _ fun _ (p : Address → EBool) => ∀ b, may cfg.vault (.bool (p b))).2
      ⟨(Function.forall_update_iff _ fun _ p => may cfg.vault (.bool p)).2
        ⟨hmay.1, fun b _ => hv.winnerPredicate r b⟩, fun s _ => hv.winnerPredicate s⟩
  exact Covered.setRound { hv with winnerPredicate := hwinner } { hv.rounds r with
    selectionCumulative := hmay.2.1
    encryptedWinnerCount := hmay.2.2.1 }

theorem rollPrizeForward_grants (h : rollPrizeForward fhe cfg r v = .ok v') :
    Grants cfg gs v v' := by
  simp only [rollPrizeForward, seq_eq_ok, pure_eq_ok, ok_eq_ok] at h
  obtain ⟨_, _, rfl⟩ := h
  refine Grants.write_this [.uint64 _, .uint64 _, .uint64 _] rfl ?_
  intro may hmay hv
  simp only [List.forall_mem_cons] at hmay
  refine Covered.setRound { hv with
    sponsoredPrize := Covered.update hmay.1 hv.sponsoredPrize
    reservedPrize := hmay.2.1 } { hv.rounds r with reservedPrize := hmay.2.2.1 }

theorem realizeSurplus_grants {s : E64} {n : Nat}
    (h : World.realizeSurplus fhe cfg s n v = .ok v') : Grants cfg gs v v' := by
  simp only [World.realizeSurplus, seq_eq_ok, pure_eq_ok, ok_eq_ok] at h
  obtain ⟨_, _, rfl⟩ := h
  refine Grants.write_this [.uint64 _, .uint64 _, .uint64 _] rfl fun hmay hv => ?_
  simp only [List.forall_mem_cons] at hmay
  exact { hv with
    uncommittedYield := hmay.1
    realizedSurplus := hmay.2.1
    liquidPrizeAssets := hmay.2.2.1 }

/-! ## The entry points of the vault -/

theorem acceptBondRegistration_grants {sender : Address} {now : Nat}
    (h : acceptBondRegistration fhe cfg sender r a now v = .ok v') : Grants cfg gs v v' := by
  simp only [acceptBondRegistration, seq_eq_ok, pure_eq_ok, ok_eq_ok] at h
  obtain ⟨_, _, _, _, _, _, _, _, v₁, hacc, rfl⟩ := h
  refine Grants.trans (Grants.trans ?_ (accrueEligible_grants hacc)) ?_
  · exact Grants.unwritten rfl fun hv => { hv with }
  exact Grants.write_this [.uint64 _] rfl fun hmay hv => hv.setRound { hv.rounds r with
    eligibleBalance := hmay _ (List.mem_singleton_self _) }

theorem onConfidentialTransferReceived_grants {sender : Address} {n : E64}
    {dataLength now : Nat} {accepted : EBool}
    (h : onConfidentialTransferReceived fhe cfg sender a n dataLength now v =
      .ok (v', accepted)) : Grants cfg [.allow (.uint64 (v'.principal a)) a] v v' := by
  simp only [onConfidentialTransferReceived, seq_eq_ok, pure_eq_ok, ok_eq_ok,
    Prod.mk.injEq] at h
  obtain ⟨_, _, _, _, _, _, v₁, hcheck, v₂, hchange, rfl, _⟩ := h
  exact (checkpointUser_grants hcheck).trans (persistPrincipalState_grants hchange)

/-- The sender of a withdrawal is also granted the amount that it was sent. -/
theorem recordWithdrawal_grants {sent : E64} {now : Nat}
    (h : recordWithdrawal fhe cfg a sent now v = .ok v') :
    Grants cfg [.allow (.uint64 (v'.principal a)) a, .allow (.uint64 sent) a] v v' := by
  simp only [recordWithdrawal, seq_eq_ok, pure_eq_ok, ok_eq_ok] at h
  obtain ⟨v₁, hcheck, v₂, hchange, rfl⟩ := h
  refine ((checkpointUser_grants hcheck).trans (persistPrincipalState_grants hchange)).mono
    (List.subset_append_left _ [.allow (.uint64 sent) a]) |>.trans ?_
  refine Grants.write _ rfl ?_ fun _ hv => hv.grant _
  exact List.forall_mem_singleton.2 (.inr (List.mem_cons_of_mem _ List.mem_cons_self))

/-- A close makes the aggregate of the round public. -/
theorem closeRound_grants {now : Nat} (h : closeRound fhe cfg now v = .ok v') :
    Grants cfg [.makePubliclyDecryptable (.uint128 (v'.rounds v.activeRoundId).aggregateTwab)]
      v v' := by
  simp only [closeRound, seq_eq_ok, checkedAdd_eq_ok] at h
  obtain ⟨_, _, _, _, v₁, hacc, _, ⟨_, rfl⟩, next, ⟨_, rfl⟩, hinit⟩ := h
  have haggregate : (v'.rounds v.activeRoundId).aggregateTwab =
      (v₁.rounds v.activeRoundId).eligibleCumulative := by
    obtain ⟨_, gs, rfl⟩ := initializeRound_ok hinit
    rw [grant_rounds, setRound_rounds_of_ne (Nat.ne_of_lt (Nat.lt_succ_self _))]
    exact congrArg Round.aggregateTwab (setRound_rounds_self ..)
  rw [haggregate]
  refine Grants.trans (Grants.trans (accrueEligible_grants hacc) ?_)
    (initializeRound_grants hinit)
  refine Grants.write _ rfl ?_ ?_
  · simp only [List.forall_mem_cons, List.not_mem_nil, false_imp_iff, implies_true, and_true]
    exact ⟨.inl ⟨_, rfl⟩, .inl ⟨_, rfl⟩, .inl ⟨_, rfl⟩, .inl ⟨_, rfl⟩, .inl ⟨_, rfl⟩,
      .inr List.mem_cons_self⟩
  · intro may hmay hv
    simp only [List.forall_mem_cons] at hmay
    obtain ⟨h1, h2, h3, h4, h5, -⟩ := hmay
    exact { hv with
      rounds := hv.update_round { hv.rounds v.activeRoundId with
        aggregateTwab := h1
        reservedPrize := h2 }
      reservedPrize := h3
      realizedSurplus := h4
      uncommittedYield := h5 }

theorem finalizeAggregate_grants {c : Cleartexts} {proof : DecryptionProof}
    (h : finalizeAggregate fhe r c proof v = .ok v') : Grants cfg gs v v' := by
  obtain ⟨_, n, _, _, rfl⟩ := finalizeAggregate_ok h
  exact Grants.setRound fun h => { h with }

theorem acceptTicket_grants {round : Round E64 E128 EBool} {candidate : E128}
    (hround : ∀ {may : Address → Handle E64 E128 EBool → Prop}, v.Covered cfg may →
      round.Covered (may cfg.vault)) :
    Grants cfg gs v (v.acceptTicket fhe cfg r round candidate) := by
  refine Grants.write_this [.uint128 _] rfl fun hmay hv => ?_
  exact hv.setRound { hround hv with
    acceptedTicket := hmay _ (List.mem_singleton_self _) }

/-- A drawn candidate makes public at most whether it is valid. -/
theorem generateRandomCandidate_grants {candidate : E128}
    (h : generateRandomCandidate fhe cfg r candidate v = .ok v') :
    Grants cfg [.makePubliclyDecryptable (.bool (v'.rounds r).candidateValid)] v v' := by
  simp only [generateRandomCandidate, seq_eq_ok, checkedAdd_eq_ok] at h
  obtain ⟨_, _, _, _, attempt, _, h⟩ := h
  split_ifs at h
  · rw [pure_eq_ok, ok_eq_ok] at h
    subst h
    refine Grants.write ([cfg.allowThis (.uint128 candidate)] ++ [cfg.allowThis (.uint128 _)])
      (List.append_assoc ..) ?_ ?_
    · simp only [List.forall_mem_append, List.forall_mem_singleton]
      exact ⟨.inl ⟨_, rfl⟩, .inl ⟨_, rfl⟩⟩
    · intro may hmay hv
      simp only [List.forall_mem_append, List.forall_mem_singleton] at hmay
      exact { hv with
        rounds := hv.update_round { hv.rounds r with
          candidate := hmay.1
          acceptedTicket := hmay.2 } }
  · rw [pure_eq_ok, ok_eq_ok] at h
    subst h
    rw [grant_rounds, setRound_rounds_self]
    refine Grants.write ([cfg.allowThis (.uint128 candidate)] ++ [cfg.allowThis (.bool _), _])
      (List.append_assoc ..) ?_ ?_
    · simp only [List.forall_mem_append, List.forall_mem_cons, List.not_mem_nil, false_imp_iff,
        implies_true, and_true]
      exact ⟨.inl ⟨_, rfl⟩, .inl ⟨_, rfl⟩, .inr List.mem_cons_self⟩
    · intro may hmay hv
      simp only [List.forall_mem_append, List.forall_mem_cons] at hmay
      exact { hv with
        rounds := hv.update_round { hv.rounds r with
          candidate := hmay.1.1
          candidateValid := hmay.2.1 } }

theorem finalizeCandidateValidity_grants {c : Cleartexts} {proof : DecryptionProof}
    (h : finalizeCandidateValidity fhe cfg r c proof v = .ok v') : Grants cfg gs v v' := by
  simp only [finalizeCandidateValidity, seq_eq_ok] at h
  obtain ⟨_, _, _, _, valid, _, h⟩ := h
  split_ifs at h
  · rw [pure_eq_ok, ok_eq_ok] at h
    subst h
    exact Grants.setRound fun h => { h with }
  · rw [pure_eq_ok, ok_eq_ok] at h
    subst h
    exact acceptTicket_grants fun hv => hv.rounds r

theorem startSelection_grants (h : startSelection fhe cfg r v = .ok v') :
    Grants cfg gs v v' := by
  unfold startSelection at h
  by_cases hs : (v.rounds r).state = .ticketAccepted
  · rw [if_pos hs, ok_eq_ok] at h
    subst h
    refine Grants.write_this [.uint128 _, .uint64 _] rfl fun hmay hv => ?_
    simp only [List.forall_mem_cons] at hmay
    exact hv.setRound { hv.rounds r with
      selectionCumulative := hmay.1
      encryptedWinnerCount := hmay.2.1 }
  · rw [if_neg hs] at h
    obtain ⟨_, _, h⟩ := seq_eq_ok.1 h
    exact ok_eq_ok.1 h ▸ .refl v

/-- A traversal that is complete makes public whether it reconciles. -/
theorem requestReconciliation_grants (v : Vault E64 E128 EBool) :
    Grants cfg [.makePubliclyDecryptable
      (.bool ((v.requestReconciliation fhe cfg r).rounds r).reconciliationValid)] v
      (v.requestReconciliation fhe cfg r) := by
  unfold requestReconciliation
  extract_lets round cumulativeMatches exactlyOne reconciled
  split_ifs
  · rw [grant_rounds, setRound_rounds_self]
    refine Grants.write _ rfl ?_ ?_
    · simp only [List.forall_mem_cons, List.not_mem_nil, false_imp_iff, implies_true, and_true]
      exact ⟨.inl ⟨_, rfl⟩, .inr List.mem_cons_self⟩
    · intro may hmay hv
      refine Covered.grant (hv.setRound (r := r) ?_) _
      exact { hv.rounds r with reconciliationValid := hmay _ List.mem_cons_self }
  · exact .refl v

theorem finalizeSelectionReconciliation_grants {c : Cleartexts} {proof : DecryptionProof}
    (h : finalizeSelectionReconciliation fhe r c proof v = .ok v') : Grants cfg gs v v' := by
  obtain ⟨_, valid, _, rfl⟩ := finalizeSelectionReconciliation_ok h
  exact Grants.setRound fun h => { h with }

/-- The participant that asks for its weight is granted it. -/
theorem materializeMyRoundWeight_grants {weight : E128}
    (h : materializeMyRoundWeight fhe cfg a r v = .ok (v', weight)) :
    Grants cfg [.allow (.uint128 weight) a] v v' := by
  simp only [materializeMyRoundWeight, seq_eq_ok, pure_eq_ok, ok_eq_ok, Prod.mk.injEq] at h
  obtain ⟨_, _, _, _, _, _, _, _, rfl, rfl⟩ := h
  refine Grants.write _ rfl ?_ fun _ hv => hv.grant _
  simp only [List.forall_mem_cons, List.not_mem_nil, false_imp_iff, implies_true, and_true]
  exact ⟨.inl ⟨_, rfl⟩, .inr List.mem_cons_self⟩

/-! ## The settlement passes -/

theorem forList_select_grants {as : List Address}
    (h : forList (selectParticipant fhe cfg r) as v = .ok v') : Grants cfg gs v v' :=
  forList_invariant (I := fun _ u => Grants cfg gs v u)
    (fun _ _ _ _ hv hselect => hv.trans (selectParticipant_grants hselect)) h (.refl v)

/-- The allocation of a prize to one participant leaves the others as they are. -/
theorem allocateParticipant_others {now : Nat} {b : Address}
    (h : allocateParticipant fhe cfg r now a v = .ok v') (hb : b ≠ a) :
    v'.ownGrants b = v.ownGrants b := by
  simp only [allocateParticipant, seq_eq_ok, pure_eq_ok, ok_eq_ok] at h
  obtain ⟨_, _, v₁, hcheck, rfl⟩ := h
  obtain ⟨_, _, _, _, rfl⟩ := checkpointUser_ok hcheck
  unfold bookAllocation
  extract_lets kept v₁ activeRound eligibleBalance v₂ v₃ round v₄
  have hsame : v₂.principal = v₁.principal ∧ v₂.winnings = v₁.winnings := by
    unfold v₂
    split_ifs <;> exact ⟨rfl, rfl⟩
  have hprincipal : v₂.principal b = v.principal b := by
    rw [hsame.1]
    exact Function.update_of_ne hb ..
  have hwinnings : v₂.winnings b = v.winnings b := by
    rw [hsame.2]
    exact Function.update_of_ne hb ..
  show [Grant.allow (.uint64 (v₂.principal b)) b, .allow (.uint64 (v₂.winnings b)) b] = _
  rw [hprincipal, hwinnings, ownGrants]

/-- An allocation pass over distinct participants grants each its new balance and winnings. -/
theorem forList_allocate_grants {now : Nat} {as : List Address} (hnodup : as.Nodup)
    (h : forList (allocateParticipant fhe cfg r now) as v = .ok v') :
    Grants cfg (as.flatMap v'.ownGrants) v v' ∧
      ∀ b, b ∉ as → v'.ownGrants b = v.ownGrants b := by
  induction as generalizing v with
  | nil => exact ok_eq_ok.1 h ▸ ⟨.refl v, fun _ _ => rfl⟩
  | cons a as ih =>
    obtain ⟨v₁, hallocate, h⟩ := seq_eq_ok.1 h
    obtain ⟨hnotin, hnodup⟩ := List.nodup_cons.1 hnodup
    obtain ⟨hgrants, hothers⟩ := ih hnodup h
    have hown := allocateParticipant_grants hallocate
    rw [← hothers a hnotin] at hown
    rw [List.flatMap_cons]
    refine ⟨(hown.mono (List.subset_append_left _ _)).trans
      (hgrants.mono (List.subset_append_right _ _)), fun b hb => ?_⟩
    obtain ⟨hne, hb⟩ := not_or.1 (List.mem_cons.not.1 hb)
    rw [hothers b hb, allocateParticipant_others hallocate hne]

end Vault

end Leopold
