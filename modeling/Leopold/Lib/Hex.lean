import Mathlib.Algebra.Order.BigOperators.Group.Finset
import Mathlib.Data.Nat.Digits.Defs
import Mathlib.Tactic.IntervalCases
import Mathlib.Tactic.Ring

/-!
# Hexadecimal text

Natural numbers and byte strings as texts of hexadecimal digits, most significant first.  A text
is a list of digits below sixteen spelled in small letters; the digits of a byte string are the two
halves of each byte, and a number of at most that many digits is read back from its text exactly.
-/

namespace Leopold.Lib.Hex

/-- The value of a hexadecimal digit of either case. -/
def digitValue (c : Char) : Option Nat :=
  if '0' ≤ c ∧ c ≤ '9' then some (c.toNat - '0'.toNat)
  else if 'a' ≤ c ∧ c ≤ 'f' then some (c.toNat - 'a'.toNat + 10)
  else if 'A' ≤ c ∧ c ≤ 'F' then some (c.toNat - 'A'.toNat + 10)
  else none

/-- The number whose digits are given. -/
def value (digits : List Nat) : Nat := digits.foldl (fun n d => 16 * n + d) 0

/-- The digits spelled in small letters. -/
def spell (digits : List Nat) : List Char := digits.map Nat.digitChar

/-- Two digits for each byte. -/
def halves (bytes : List UInt8) : List Nat :=
  bytes.flatMap fun b => [b.toNat / 16, b.toNat % 16]

/-- Bytes from pairs of digits, up to the first pair that is none. -/
def decode : List Char → List UInt8
  | a :: b :: rest =>
    match digitValue a, digitValue b with
    | some x, some y => UInt8.ofNat (16 * x + y) :: decode rest
    | _, _ => []
  | _ => []

variable {digits : List Nat} {bytes : List UInt8} {n k : Nat}

/-! ### Digits -/

theorem digitValue_digitChar {d : Nat} (hd : d < 16) : digitValue d.digitChar = some d := by
  interval_cases d <;> rfl

theorem mapM_digitValue_spell (h : ∀ d ∈ digits, d < 16) :
    (spell digits).mapM digitValue = some digits := by
  induction digits with
  | nil => rfl
  | cons d digits ih =>
    obtain ⟨hd, h⟩ := List.forall_mem_cons.1 h
    rw [spell, List.map_cons, List.mapM_cons, digitValue_digitChar hd]
    change ((spell digits).mapM digitValue).bind _ = _
    rw [ih h]
    rfl

theorem value_eq_ofDigits : value digits = Nat.ofDigits 16 digits.reverse := by
  rw [Nat.ofDigits_eq_foldr, List.foldr_reverse, value]
  simp only [Nat.cast_id, Nat.add_comm]

theorem value_append_singleton (d : Nat) : value (digits ++ [d]) = 16 * value digits + d := by
  rw [value, List.foldl_append]
  rfl

theorem value_replicate_zero_append : value (List.replicate k 0 ++ digits) = value digits := by
  rw [value_eq_ofDigits, value_eq_ofDigits, List.reverse_append, List.reverse_replicate,
    Nat.ofDigits_append_replicate_zero]

/-- Texts of one length have one number each. -/
theorem eq_of_value_eq {digits' : List Nat} (hlength : digits.length = digits'.length)
    (h : ∀ d ∈ digits, d < 16) (h' : ∀ d ∈ digits', d < 16)
    (hvalue : value digits = value digits') : digits = digits' := by
  rw [value_eq_ofDigits, value_eq_ofDigits] at hvalue
  refine List.reverse_injective (Nat.ofDigits_inj_of_len_eq (by decide) (by simpa using hlength)
    ?_ ?_ hvalue)
  · exact fun d hd => h d (List.mem_reverse.1 hd)
  · exact fun d hd => h' d (List.mem_reverse.1 hd)

theorem value_lt (h : ∀ d ∈ digits, d < 16) : value digits < 16 ^ digits.length := by
  have hlt := Nat.ofDigits_lt_base_pow_length (by decide : 1 < 16)
    (fun d hd => h d (List.mem_reverse.1 hd))
  rwa [← value_eq_ofDigits, List.length_reverse] at hlt

/-- The digits a number is written with. -/
theorem exists_digits (n : Nat) : ∃ digits, (∀ d ∈ digits, d < 16) ∧
    Nat.toDigits 16 n = spell digits ∧ value digits = n := by
  induction n using Nat.strongRecOn with
  | ind n ih =>
    rw [Nat.toDigits_eq_if (by decide)]
    split
    · next hn => exact ⟨[n], by simpa using hn, rfl, by simp [value]⟩
    · obtain ⟨digits, hlt, htext, hvalue⟩ := ih (n / 16) (by omega)
      have hd := Nat.mod_lt n (by decide : 0 < 16)
      refine ⟨digits ++ [n % 16], ?_, ?_, ?_⟩
      · intro d hmem
        rcases List.mem_append.1 hmem with hmem | hmem
        · exact hlt d hmem
        · rwa [List.mem_singleton.1 hmem]
      · rw [htext, spell, spell, List.map_append, List.map_singleton]
      · rw [value_append_singleton, hvalue]
        omega

/-! ### Bytes -/

theorem halves_cons (b : UInt8) :
    halves (b :: bytes) = b.toNat / 16 :: b.toNat % 16 :: halves bytes := rfl

theorem length_halves : (halves bytes).length = 2 * bytes.length := by
  induction bytes with
  | nil => rfl
  | cons b bytes ih =>
    rw [halves_cons, List.length_cons, List.length_cons, List.length_cons, ih]
    ring

theorem halves_lt : ∀ d ∈ halves bytes, d < 16 := by
  intro d hd
  obtain ⟨b, -, hd⟩ := List.mem_flatMap.1 hd
  have hb := b.toNat_lt
  rcases List.mem_cons.1 hd with rfl | hd
  · omega
  · rw [List.mem_singleton.1 hd]
    exact Nat.mod_lt _ (by decide)

theorem decode_spell_halves : decode (spell (halves bytes)) = bytes := by
  induction bytes with
  | nil => rfl
  | cons b bytes ih =>
    have hb := b.toNat_lt
    rw [halves_cons, spell, List.map_cons, List.map_cons, decode,
      digitValue_digitChar (by omega), digitValue_digitChar (Nat.mod_lt _ (by decide))]
    change UInt8.ofNat _ :: decode (spell (halves bytes)) = _
    rw [ih, Nat.div_add_mod, UInt8.ofNat_toNat]

/-- An even number of digits are the halves of bytes. -/
theorem exists_halves (h : ∀ d ∈ digits, d < 16) (hlength : digits.length = 2 * k) :
    ∃ bytes, halves bytes = digits ∧ bytes.length = k := by
  induction k generalizing digits with
  | zero => exact ⟨[], (List.length_eq_zero_iff.1 hlength).symm, rfl⟩
  | succ k ih =>
    obtain ⟨x, y, digits, rfl⟩ : ∃ x y rest, digits = x :: y :: rest := by
      match digits, hlength with
      | x :: y :: rest, _ => exact ⟨x, y, rest, rfl⟩
    obtain ⟨hx, h⟩ := List.forall_mem_cons.1 h
    obtain ⟨hy, h⟩ := List.forall_mem_cons.1 h
    simp only [List.length_cons] at hlength
    obtain ⟨bytes, rfl, hbytes⟩ := ih h (by omega)
    have hnat : (UInt8.ofNat (16 * x + y)).toNat = 16 * x + y :=
      UInt8.toNat_ofNat_of_lt' (Nat.lt_of_le_of_lt (by omega : 16 * x + y ≤ 255) (by decide))
    refine ⟨UInt8.ofNat (16 * x + y) :: bytes, ?_, by rw [List.length_cons, hbytes]⟩
    rw [halves_cons, hnat]
    congr 2
    · omega
    · omega

theorem length_decode_le (text : List Char) : 2 * (decode text).length ≤ text.length := by
  induction text using decode.induct with
  | case1 a b rest x y ha hb ih =>
    rw [decode, ha, hb]
    simp only [List.length_cons]
    omega
  | case2 a b rest h =>
    rw [decode]
    split
    · next x y ha hb => exact (h x y ha hb).elim
    · exact Nat.zero_le _
  | case3 text h =>
    rw [decode]
    · exact Nat.zero_le _
    · exact h

end Leopold.Lib.Hex
