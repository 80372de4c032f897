import Leopold.Contracts.CompoundAdapter

/-!
# What the adapter does to the vault's books

Each entry point of the adapter, when it returns, moved its principal basis by the amount it
reports and left the wrapper's ledger alone.
-/

namespace Leopold

open Lib

namespace Adapter

variable {X : Type} {E : Externals Nat Bool X} {cfg : Config} {O : Observables X}
  (hE : E.Lawful O cfg.vault cfg.asset) {sender : Address} {a a' : Adapter} {x x' : X} {n : Nat}

include hE in
theorem withdraw_ok {recovered : Nat} (h : withdraw E cfg n x = .ok (x', recovered)) :
    O.SameLedger x x' := by
  simp only [withdraw, seq_eq_ok, orRevert_eq_ok, checkedSub_eq_ok, pure_eq_ok, ok_eq_ok,
    Prod.mk.injEq] at h
  obtain ⟨x₁, h1, _, _, x₂, h2, rfl, _⟩ := h
  exact (hE.cometWithdraw h1).trans (hE.safeTransfer h2)

include hE in
theorem deployAssets_ok {received : Nat}
    (h : deployAssets E cfg sender n a x = .ok (a', x', received)) :
    a'.deployedPrincipalBasis = a.deployedPrincipalBasis + received ∧ O.SameLedger x x' := by
  simp only [deployAssets, seq_eq_ok, revertIf_eq_ok] at h
  obtain ⟨_, _, _, _, _, _, _, _, _, _, _, _, h⟩ := h
  by_cases hn : n = 0
  · rw [if_pos hn] at h
    simp only [pure_eq_ok, ok_eq_ok, Prod.mk.injEq] at h
    obtain ⟨rfl, rfl, rfl⟩ := h
    exact ⟨rfl, .refl _ _⟩
  · rw [if_neg hn] at h
    simp only [seq_eq_ok, orRevert_eq_ok, checkedSub_eq_ok, checkedAdd_eq_ok, pure_eq_ok,
      ok_eq_ok, Prod.mk.injEq] at h
    obtain ⟨x₁, h1, _, _, x₂, h2, x₃, h3, x₄, h4, _, ⟨_, rfl⟩, rfl, rfl, rfl⟩ := h
    exact ⟨rfl, (hE.safeTransferFrom h1).trans <| (hE.forceApprove h2).trans <|
      (hE.cometSupply h3).trans (hE.forceApprove h4)⟩

include hE in
theorem withdrawPrincipal_ok {recovered : Nat}
    (h : withdrawPrincipal E cfg sender n a x = .ok (a', x', recovered)) :
    n ≤ a.deployedPrincipalBasis ∧
      a'.deployedPrincipalBasis = a.deployedPrincipalBasis - n ∧ O.SameLedger x x' := by
  simp only [withdrawPrincipal, seq_eq_ok, revertIf_eq_ok, checkedSub_eq_ok, Prod.exists,
    pure_eq_ok, ok_eq_ok, Prod.mk.injEq] at h
  obtain ⟨_, _, _, _, _, _, _, _, _, _, x₁, r, h1, _, ⟨hle, rfl⟩, rfl, rfl, rfl⟩ := h
  exact ⟨hle, rfl, withdraw_ok hE h1⟩

include hE in
theorem harvest_ok {surplus : Nat} (h : harvest E cfg sender a x = .ok (a', x', surplus)) :
    a'.deployedPrincipalBasis = a.deployedPrincipalBasis ∧ O.SameLedger x x' := by
  simp only [harvest, seq_eq_ok, revertIf_eq_ok] at h
  obtain ⟨_, _, _, _, _, _, _, _, h⟩ := h
  by_cases hm : managedAssets E cfg x ≤ a.deployedPrincipalBasis
  · rw [if_pos hm] at h
    simp only [pure_eq_ok, ok_eq_ok, Prod.mk.injEq] at h
    obtain ⟨rfl, rfl, rfl⟩ := h
    exact ⟨rfl, .refl _ _⟩
  · rw [if_neg hm] at h
    simp only [seq_eq_ok, Prod.exists, pure_eq_ok, ok_eq_ok, Prod.mk.injEq] at h
    obtain ⟨x₁, r, h1, rfl, rfl, rfl⟩ := h
    exact ⟨rfl, withdraw_ok hE h1⟩

include hE in
theorem emergencyExit_ok {recovered shortfall : Nat}
    (h : emergencyExit E cfg sender a x = .ok (a', x', recovered, shortfall)) :
    a'.deployedPrincipalBasis = 0 ∧ shortfall = a.deployedPrincipalBasis - recovered ∧
      O.SameLedger x x' := by
  simp only [emergencyExit, seq_eq_ok, revertIf_eq_ok, Prod.exists, pure_eq_ok, ok_eq_ok,
    Prod.mk.injEq] at h
  obtain ⟨_, _, _, _, x₁, r, h1, rfl, rfl, rfl, rfl⟩ := h
  refine ⟨rfl, ?_, ?_⟩
  · split_ifs <;> omega
  · split_ifs at h1
    · simp only [ok_eq_ok, Prod.mk.injEq] at h1
      obtain ⟨rfl, rfl⟩ := h1
      exact .refl _ _
    · exact withdraw_ok hE h1

end Adapter

end Leopold
