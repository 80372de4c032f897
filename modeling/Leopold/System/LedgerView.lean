import Leopold.Vault.Inversion
import Leopold.Ledger.Basic

/-!
# The books of the vault

The cells of the vault, read as plaintexts, form a `Ledger`.  Each private function of the vault
that moves an amount makes a posting on it, with exact arithmetic: a sound ledger leaves no
encrypted sum or difference room to wrap.  The functions that only keep time leave it alone.
-/

namespace Leopold

open Lib

/-- The cells of a vault that holds `balance` tokens and whose adapter recorded `basis`. -/
def Vault.books (balance basis : Nat) (v : PlainVault) : Ledger Address where
  principal := v.principal
  totalPrincipal := v.totalPrincipal
  liquidPrincipal := v.liquidPrincipal
  deployedPrincipal := v.deployedPrincipal
  principalInTransition := v.principalInTransition
  strategyShortfall := v.strategyShortfall
  winnings := v.winnings
  winningsLiability := v.winningsLiability
  liquidPrizeAssets := v.liquidPrizeAssets
  realizedSurplus := v.realizedSurplus
  uncommittedYield := v.uncommittedYield
  reservedPrize := v.reservedPrize
  sponsoredPrize := v.sponsoredPrize
  roundReserved r := (v.rounds r).reservedPrize
  activeRoundId := v.activeRoundId
  balance := balance
  basis := basis

/-- The ledger is sound: `MAX_POOL_BASE_UNITS` caps the savings. -/
abbrev Ledger.Kept (rate : Nat) (L : Ledger Address) : Prop :=
  L.Sound MAX_POOL_BASE_UNITS rate

/-- The ledger moves by postings. -/
abbrev Ledger.Moves (rate : Nat) (L L' : Ledger Address) : Prop :=
  Ledger.Postings MAX_POOL_BASE_UNITS rate L L'

namespace Vault

variable {cfg : Config} {balance basis rate : Nat} {v v' : PlainVault}

@[simp] theorem books_grant (gs : List (Grant Nat Nat Bool)) :
    (v.grant gs).books balance basis = v.books balance basis := rfl

@[simp] theorem books_setEpoch (id : Nat) (e : StrategyEpoch Nat) :
    (v.setEpoch id e).books balance basis = v.books balance basis := rfl

theorem books_setRound (r : Nat) (round : PlainRound) :
    (v.setRound r round).books balance basis = { v.books balance basis with
      roundReserved :=
        Function.update (v.books balance basis).roundReserved r round.reservedPrize } := by
  have hround : (fun s => (Function.update v.rounds r round s).reservedPrize) =
      Function.update (fun s => (v.rounds s).reservedPrize) r round.reservedPrize := by
    funext s
    by_cases hs : s = r
    · rw [hs, Function.update_self, Function.update_self]
    · rw [Function.update_of_ne hs, Function.update_of_ne hs]
  simp only [books, setRound, hround]

/-- A round that keeps its reserve leaves the ledger alone. -/
theorem books_setRound_of_reserved {r : Nat} {round : PlainRound}
    (h : round.reservedPrize = (v.rounds r).reservedPrize) :
    (v.setRound r round).books balance basis = v.books balance basis := by
  rw [books_setRound, h]
  exact congrArg (fun f => { v.books balance basis with roundReserved := f })
    (Function.update_eq_self r _)

theorem accrueEligible_books {r t : Nat} (h : accrueEligible Fhe.plain cfg r t v = .ok v') :
    v'.books balance basis = v.books balance basis := by
  obtain ⟨_, gs, rfl⟩ := accrueEligible_ok h
  rw [books_grant]
  refine books_setRound_of_reserved ?_
  rfl

theorem changeEligible_books {a : Address} {f : Nat → Nat} {t : Nat}
    (h : changeEligible Fhe.plain cfg a f t v = .ok v') :
    v'.books balance basis = v.books balance basis := by
  rcases changeEligible_ok h with ⟨_, rfl⟩ | ⟨_, _, gs, rfl⟩
  · rfl
  · rw [books_grant]
    refine books_setRound_of_reserved ?_
    rfl

/-- The bounds under which no operation on the cells wraps. -/
theorem cap_lt : MAX_POOL_BASE_UNITS < 2 ^ 64 := by decide

theorem cap_add_cap_lt : MAX_POOL_BASE_UNITS + MAX_POOL_BASE_UNITS < 2 ^ 64 := by decide

section

variable (hs : (v.books balance basis).Kept rate)

include hs

/-- What arrived and was accepted is saved; what was not accepted is not booked. -/
theorem onConfidentialTransferReceived_books {sender a : Address} {n dataLength now : Nat}
    {accepted : Bool} (hbal : balance + n < 2 ^ 64)
    (h : onConfidentialTransferReceived Fhe.plain cfg sender a n dataLength now v =
      .ok (v', accepted)) :
    Ledger.Posting MAX_POOL_BASE_UNITS rate (v.books balance basis)
      (v'.books (balance + if accepted then n else 0) basis) := by
  obtain ⟨_, _, haccepted, v₁, v₂, gs, hcheck, hchange, rfl⟩ :=
    onConfidentialTransferReceived_ok h
  obtain ⟨obs, cum, gs', _, rfl⟩ := checkpointUser_ok hcheck
  have htotal : v.totalPrincipal ≤ MAX_POOL_BASE_UNITS := hs.total_le
  have hprincipal : v.principal a ≤ v.totalPrincipal := hs.principal_le a
  have hsplit := hs.total_split
  have hcap := cap_lt
  rw [books_grant, changeEligible_books hchange]
  have hsel : (Fhe.plain.select64 accepted n (Fhe.plain.asEuint64 0)) =
      if accepted then n else 0 := rfl
  have hfits : v.totalPrincipal + (if accepted then n else 0) ≤ MAX_POOL_BASE_UNITS := by
    cases accepted with
    | false => exact htotal
    | true =>
      have hle := (Bool.and_eq_true_iff.1 haccepted.symm).1
      rw [Fhe.plain_asEuint64 hcap, Fhe.plain_sub64 hcap htotal, Fhe.plain_le64,
        decide_eq_true_iff] at hle
      rw [if_pos rfl]
      omega
  have hm : balance + (if accepted then n else 0) < 2 ^ 64 := by
    split_ifs <;> omega
  rw [hsel]
  generalize (if accepted then n else 0) = m at hfits hm ⊢
  have hl : v.liquidPrincipal ≤ v.totalPrincipal := by
    simp only [books] at hsplit
    omega
  have hpost : Ledger.Posting MAX_POOL_BASE_UNITS rate (v.books balance basis) _ :=
    .save a m hfits hm
  simp only [books, grant] at hpost ⊢
  rwa [Fhe.plain_add64 (by omega), Fhe.plain_add64 (by omega), Fhe.plain_add64 (by omega)]

theorem recordWithdrawal_books {a : Address} {sent now : Nat} (hp : sent ≤ v.principal a)
    (hl : sent ≤ v.liquidPrincipal)
    (h : recordWithdrawal Fhe.plain cfg a sent now v = .ok v') :
    Ledger.Posting MAX_POOL_BASE_UNITS rate (v.books balance basis)
      (v'.books (balance - sent) basis) := by
  obtain ⟨v₁, v₂, gs, hcheck, hchange, rfl⟩ := recordWithdrawal_ok h
  obtain ⟨obs, cum, gs', _, rfl⟩ := checkpointUser_ok hcheck
  have htotal : v.totalPrincipal ≤ MAX_POOL_BASE_UNITS := hs.total_le
  have hprincipal : v.principal a ≤ v.totalPrincipal := hs.principal_le a
  have hsplit := hs.total_split
  have hcap := cap_lt
  have hlt : v.liquidPrincipal ≤ v.totalPrincipal := by
    simp only [books] at hsplit
    omega
  rw [books_grant, changeEligible_books hchange]
  have hpost : Ledger.Posting MAX_POOL_BASE_UNITS rate (v.books balance basis) _ :=
    .withdraw a sent hp hl
  simp only [books, grant] at hpost ⊢
  rwa [Fhe.plain_sub64 (by omega) hp, Fhe.plain_sub64 (by omega) (by omega),
    Fhe.plain_sub64 (by omega) hl]

theorem realizeSurplus_books {s n : Nat} (hbal : balance + s < 2 ^ 64)
    (h : World.realizeSurplus Fhe.plain cfg s n v = .ok v') :
    Ledger.Posting MAX_POOL_BASE_UNITS rate (v.books balance basis)
      (v'.books (balance + s) basis) := by
  obtain ⟨_, gs, rfl⟩ := realizeSurplus_ok h
  have hsolvent : v.liquidPrincipal + v.liquidPrizeAssets ≤ balance := hs.solvent
  have hsurplus : v.realizedSurplus = v.uncommittedYield := hs.surplus_eq
  have hsplit := hs.prize_split
  have hpost : Ledger.Posting MAX_POOL_BASE_UNITS rate (v.books balance basis) _ :=
    .harvest s hbal
  simp only [books, grant] at hpost hsplit ⊢
  rwa [Fhe.plain_add64 (by omega), Fhe.plain_add64 (by omega), Fhe.plain_add64 (by omega)]

theorem closeRound_books {now : Nat} (h : closeRound Fhe.plain cfg now v = .ok v') :
    Ledger.Posting MAX_POOL_BASE_UNITS rate (v.books balance basis) (v'.books balance basis) := by
  obtain ⟨_, _, _, _, gs, rfl⟩ := closeRound_ok h
  have hsolvent : v.liquidPrincipal + v.liquidPrizeAssets ≤ balance := hs.solvent
  have hbal : balance < 2 ^ 64 := hs.balance_lt
  have hsurplus : v.realizedSurplus = v.uncommittedYield := hs.surplus_eq
  have hsplit := hs.prize_split
  have hzero := hs.roundReserved_zero (v.activeRoundId + 1) (Nat.le_succ _)
  have hpost : Ledger.Posting MAX_POOL_BASE_UNITS rate (v.books balance basis) _ :=
    .close
  -- the opened round has no reserve, so only the closed one changes
  have hopened : (openedRound Fhe.plain cfg v).reservedPrize =
      (v.rounds (v.activeRoundId + 1)).reservedPrize := rfl
  rw [books_grant, books_setRound_of_reserved (by
    rw [hopened, setRound_rounds_of_ne (Nat.succ_ne_self _)]), books_setRound]
  simp only [books] at hpost hsplit hzero ⊢
  have hprize : Fhe.plain.add64 (v.sponsoredPrize v.activeRoundId) v.uncommittedYield =
      v.sponsoredPrize v.activeRoundId + v.uncommittedYield := Fhe.plain_add64 (by omega)
  simp only [closedRound, hprize]
  rwa [Fhe.plain_add64 (by omega), Fhe.plain_sub64 (by omega) (by omega),
    Fhe.plain_asEuint64 (by decide)]

theorem rollPrizeForward_books {r : Nat} (hr : r < v.activeRoundId)
    (h : rollPrizeForward Fhe.plain cfg r v = .ok v') :
    Ledger.Posting MAX_POOL_BASE_UNITS rate (v.books balance basis) (v'.books balance basis) := by
  obtain ⟨_, gs, rfl⟩ := rollPrizeForward_ok h
  have hsolvent : v.liquidPrincipal + v.liquidPrizeAssets ≤ balance := hs.solvent
  have hbal : balance < 2 ^ 64 := hs.balance_lt
  have hsplit := hs.prize_split
  have hle : (v.rounds r).reservedPrize ≤ v.reservedPrize := hs.roundReserved_le r
  have hpost : Ledger.Posting MAX_POOL_BASE_UNITS rate (v.books balance basis) _ :=
    .rollForward r hr
  rw [books_grant, books_setRound]
  simp only [books] at hpost hsplit ⊢
  rwa [Fhe.plain_add64 (by omega), Fhe.plain_sub64 (by omega) (by omega),
    Fhe.plain_asEuint64 (by decide)]

omit hs in
/-- The amounts an allocation books for a participant: a winner is booked the reserved prize, all
of it as savings where that is wanted and fits. -/
theorem award_amounts {winner : Bool} {wanted : AutoSavePreference} {reserved prize autoSaved : Nat}
    (htotal : v.totalPrincipal ≤ MAX_POOL_BASE_UNITS)
    (hprize : prize = Fhe.plain.select64 winner reserved (Fhe.plain.asEuint64 0))
    (hauto : autoSaved = Fhe.plain.select64 (Fhe.plain.and
        (Fhe.plain.and winner (Fhe.plain.asEbool (wanted == .autoSave)))
        (Fhe.plain.le64 prize
          (Fhe.plain.sub64 (Fhe.plain.asEuint64 MAX_POOL_BASE_UNITS) v.totalPrincipal)))
      reserved (Fhe.plain.asEuint64 0)) :
    prize = (if winner then reserved else 0) ∧
      autoSaved = if winner ∧ wanted = .autoSave ∧
        v.totalPrincipal + reserved ≤ MAX_POOL_BASE_UNITS then reserved else 0 := by
  rw [Fhe.plain_asEuint64 cap_lt, Fhe.plain_sub64 cap_lt htotal] at hauto
  rw [Fhe.plain_select64, Fhe.plain_asEuint64 (by decide)] at hprize hauto
  simp only [Fhe.plain_and, Fhe.plain_asEbool, Fhe.plain_le64, Bool.and_eq_true,
    decide_eq_true_eq, beq_iff_eq] at hauto
  refine ⟨hprize, hauto.trans ?_⟩
  cases winner with
  | false => rw [if_neg (by simp), if_neg (by simp)]
  | true =>
    rw [if_pos rfl] at hprize
    subst hprize
    refine if_congr ?_ rfl rfl
    rw [and_assoc]
    exact and_congr_right' (and_congr_right' (by omega))

omit hs in
/-- What is allocated to a participant: nothing, the prize, or the prize as savings. -/
theorem allocated_amounts {winner : Bool} {wanted : AutoSavePreference}
    {reserved prize autoSaved : Nat} (htotal : v.totalPrincipal ≤ MAX_POOL_BASE_UNITS)
    (hprize : prize = Fhe.plain.select64 winner reserved (Fhe.plain.asEuint64 0))
    (hauto : autoSaved = Fhe.plain.select64 (Fhe.plain.and
        (Fhe.plain.and winner (Fhe.plain.asEbool (wanted == .autoSave)))
        (Fhe.plain.le64 prize
          (Fhe.plain.sub64 (Fhe.plain.asEuint64 MAX_POOL_BASE_UNITS) v.totalPrincipal)))
      reserved (Fhe.plain.asEuint64 0)) :
    (prize = 0 ∧ autoSaved = 0) ∨ (prize = reserved ∧ autoSaved = 0) ∨
      (prize = reserved ∧ autoSaved = reserved ∧
        v.totalPrincipal + reserved ≤ MAX_POOL_BASE_UNITS) := by
  obtain ⟨rfl, rfl⟩ := award_amounts htotal hprize hauto
  split_ifs with hwon hsave hsave
  · exact .inr (.inr ⟨rfl, rfl, hsave.2.2⟩)
  · exact .inr (.inl ⟨rfl, rfl⟩)
  · exact absurd hsave.1 hwon
  · exact .inl ⟨rfl, rfl⟩

/-- The books after an allocation, without encryption. -/
theorem allocated_books {r : Nat} (a : Address) {prize autoSaved : Nat}
    (obs : List (Observation Nat Nat)) (hprize : prize ≤ (v.rounds r).reservedPrize)
    (hauto : autoSaved ≤ prize)
    (hfits : v.totalPrincipal + autoSaved ≤ MAX_POOL_BASE_UNITS) :
    (allocated Fhe.plain r a prize autoSaved obs v).books balance basis =
      { v.books balance basis with
        roundReserved := Function.update (v.books balance basis).roundReserved r
          ((v.rounds r).reservedPrize - prize)
        reservedPrize := v.reservedPrize - prize
        liquidPrizeAssets := v.liquidPrizeAssets - autoSaved
        principal := Function.update v.principal a (v.principal a + autoSaved)
        totalPrincipal := v.totalPrincipal + autoSaved
        liquidPrincipal := v.liquidPrincipal + autoSaved
        winnings := Function.update v.winnings a (v.winnings a + (prize - autoSaved))
        winningsLiability := v.winningsLiability + (prize - autoSaved) } := by
  have hcap := cap_lt
  have hprincipal : v.principal a ≤ v.totalPrincipal := hs.principal_le a
  have hsolvent : v.liquidPrincipal + v.liquidPrizeAssets ≤ balance := hs.solvent
  have hbal : balance < 2 ^ 64 := hs.balance_lt
  have hwin : v.winnings a ≤ v.winningsLiability := hs.winnings_le a
  have hle : (v.rounds r).reservedPrize ≤ v.reservedPrize := hs.roundReserved_le r
  have hsplit := hs.prize_split
  have htsplit := hs.total_split
  simp only [books] at hsplit htsplit
  have hkept : Fhe.plain.sub64 prize autoSaved = prize - autoSaved :=
    Fhe.plain_sub64 (by omega) hauto
  rw [allocated, books_setRound, books_setRound_of_reserved, hkept]
  · simp only [books]
    rw [Fhe.plain_add64 (by omega), Fhe.plain_add64 (by omega), Fhe.plain_add64 (by omega),
      Fhe.plain_add64 (by omega), Fhe.plain_add64 (by omega),
      Fhe.plain_sub64 (by omega) (by omega), Fhe.plain_sub64 (by omega) (by omega),
      Fhe.plain_sub64 (by omega) (by omega)]
  · rfl

/-- A participant who did not win is allocated nothing; a winner keeps the prize or saves it. -/
theorem allocateParticipant_books {r now : Nat} {a : Address} (hr : r < v.activeRoundId)
    (h : allocateParticipant Fhe.plain cfg r now a v = .ok v') :
    Ledger.Moves rate (v.books balance basis) (v'.books balance basis) := by
  obtain ⟨preference, prize, autoSaved, obs, cum, gs, _, hprize, hauto, _, rfl⟩ :=
    allocateParticipant_ok (Nat.ne_of_lt hr) h
  have htotal : v.totalPrincipal ≤ MAX_POOL_BASE_UNITS := hs.total_le
  rw [books_grant]
  rcases allocated_amounts htotal hprize hauto with ⟨h0, h0'⟩ | ⟨hR, h0⟩ | ⟨hR, hR', hfits⟩
  · rw [allocated_books hs a obs (by omega) (by omega) (by omega), h0, h0']
    have hkeep : Function.update (v.books balance basis).roundReserved r
        (v.rounds r).reservedPrize = (v.books balance basis).roundReserved :=
      Function.update_eq_self r _
    simp only [hkeep, Nat.sub_zero, Nat.add_zero, Function.update_eq_self]
    exact .refl
  · rw [allocated_books hs a obs (by omega) (by omega) (by omega), hR, h0]
    have hpost : Ledger.Posting MAX_POOL_BASE_UNITS rate (v.books balance basis) _ :=
      .award r a hr
    simp only [Nat.sub_self, Nat.sub_zero, Nat.add_zero, Function.update_eq_self]
    exact .single hpost
  · rw [allocated_books hs a obs (by omega) (by omega) (by omega), hR, hR']
    have hpost : Ledger.Posting MAX_POOL_BASE_UNITS rate (v.books balance basis) _ :=
      .autoSave r a hr hfits
    simp only [Nat.sub_self, Nat.add_zero, Function.update_eq_self]
    exact .single hpost

end

end Vault

end Leopold
