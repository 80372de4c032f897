import Leopold.Frontend.Transactions

/-!
# One storage key for all accounts

What an account reads after somebody's record was saved.  The rows of all accounts share one
storage key, and a write keeps the rows of one account only.
-/

namespace Leopold.Frontend

variable {stored : List SafeTransactionRecord} {record : SafeTransactionRecord}

/-- Saving `record` leaves every other account's rows alone, is seen by its own account, and drops
none of that account's rows whose hash is unresolved. -/
structure Isolated (stored : List SafeTransactionRecord) (record : SafeTransactionRecord) :
    Prop where
  others : ∀ b, sameAccount record.account b = false →
    loadSafeTransactions (persistSafeTransaction stored record) b = loadSafeTransactions stored b
  own : record ∈ loadSafeTransactions (persistSafeTransaction stored record) record.account
  unresolved : ∀ x ∈ stored, sameAccount x.account record.account = true →
    isUnresolvedV2Transaction x = true → x.id ≠ record.id →
    x ∈ loadSafeTransactions (persistSafeTransaction stored record) record.account

/-- The store holds rows of the account of `record` only, and the unresolved ones among them stand
near its front. -/
structure Uncrowded (stored : List SafeTransactionRecord) (record : SafeTransactionRecord) :
    Prop where
  alone : ∀ x ∈ stored, sameAccount x.account record.account = true
  near : ∀ x ∈ stored, isUnresolvedV2Transaction x = true → x.id ≠ record.id →
    ∃ before after, stored = before ++ x :: after ∧
      before.length < 20 ∧ (before.filter (·.id ≠ record.id)).length < 19

/-- An account that reads a row before the write reads one after it only if it is the writer. -/
theorem Isolated.alone (h : Isolated stored record) :
    ∀ x ∈ stored, sameAccount x.account record.account = true := by
  intro x hx
  by_contra hne
  have hother : sameAccount record.account x.account = false := by
    rw [Bool.eq_false_iff]
    intro hsame
    exact hne (sameAccount_iff.2 (sameAccount_iff.1 hsame).symm)
  have hnone : loadSafeTransactions stored x.account = [] := by
    rw [← h.others x.account hother, loadSafeTransactions_persist_other hother]
  rw [loadSafeTransactions, List.take_eq_nil_iff, List.filter_eq_nil_iff] at hnone
  rcases hnone with hlen | hnone
  · exact absurd hlen (by decide)
  · exact hnone x hx (sameAccount_self _)

/-- Saving a record is isolated exactly in an uncrowded store. -/
theorem persist_isolated_iff : Isolated stored record ↔ Uncrowded stored record := by
  have hown : loadSafeTransactions (persistSafeTransaction stored record) record.account =
      persistSafeTransaction stored record :=
    loadSafeTransactions_persist_self (sameAccount_self _)
  constructor
  · intro h
    refine ⟨h.alone, ?_⟩
    intro x hx hopen hid
    have hkept := h.unresolved x hx (h.alone x hx) hopen hid
    rw [hown, mem_persistSafeTransaction_iff hid, List.filter_eq_self.2 h.alone] at hkept
    exact hkept
  · intro h
    refine ⟨?_, ?_, ?_⟩
    · intro b hb
      rw [loadSafeTransactions_persist_other hb, loadSafeTransactions,
        List.filter_eq_nil_iff.2, List.take_nil]
      intro x hx hxb
      have hx' := sameAccount_iff.1 (h.alone x hx)
      rw [sameAccount_iff.2 (hx'.symm.trans (sameAccount_iff.1 hxb))] at hb
      cases hb
    · rw [hown]
      exact mem_persistSafeTransaction_self
    · intro x hx _ hopen hid
      rw [hown, mem_persistSafeTransaction_iff hid, List.filter_eq_self.2 h.alone]
      exact h.near x hx hopen hid

/-- A saved record of another account takes the place of everything stored before. -/
theorem persist_not_isolated :
    let first : SafeTransactionRecord := {
      id := "tx-1", kind := "v2-withdraw-savings", operationId := some "op-1"
      operationStage := none, hash := some "0x11", chainId := 11155111
      account := "0x1111111111111111111111111111111111111111"
      stage := .confirming, errorStage := none, updatedAt := 1 }
    let second : SafeTransactionRecord := {
      first with
      id := "tx-2", operationId := some "op-2", hash := some "0x22"
      account := "0x2222222222222222222222222222222222222222", updatedAt := 2 }
    loadSafeTransactions [first] first.account = [first] ∧
      loadSafeTransactions (persistSafeTransaction [first] second) first.account = [] ∧
      ¬ Isolated [first] second := by
  intro first second
  have hbefore : loadSafeTransactions [first] first.account = [first] := by decide +kernel
  have hafter : loadSafeTransactions (persistSafeTransaction [first] second) first.account = [] := by
    decide +kernel
  refine ⟨hbefore, hafter, ?_⟩
  intro h
  have hsame := h.others first.account (by decide +kernel)
  rw [hbefore, hafter] at hsame
  cases hsame

end Leopold.Frontend
