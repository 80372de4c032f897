import Leopold.Contracts.Basic

/-!
# The encrypted operations

The contracts never see a plaintext: they hold handles of 64-bit integers, 128-bit integers and
booleans, and ask the coprocessor for operations on them.  `Fhe` is the interface they use; the
model of the vault is written over any `Fhe`.  `Fhe.plain` reads every handle as its plaintext,
with the arithmetic modulo the width that the coprocessor performs.

A plaintext operand of an operation (`FHE.le(amount, uint64(0))`) is written as its trivial
encryption.  The handle of a storage slot that was never written, which the library reads as an
encryption of zero, is `null64`, `null128` or `nullBool`.
-/

namespace Leopold

/-- The operations of the FHE library on handles of three encrypted types. -/
structure Fhe (E64 E128 EBool : Type) where
  null64 : E64
  null128 : E128
  nullBool : EBool
  isInitialized : E64 → Bool
  asEuint64 : Nat → E64
  asEuint128 : Nat → E128
  asEbool : Bool → EBool
  /-- `FHE.asEuint128(euint64)`. -/
  widen : E64 → E128
  /-- `FHE.asEuint64(ebool)`. -/
  ofEbool : EBool → E64
  add64 : E64 → E64 → E64
  sub64 : E64 → E64 → E64
  mul64 : E64 → E64 → E64
  div64 : E64 → E64 → E64
  le64 : E64 → E64 → EBool
  lt64 : E64 → E64 → EBool
  gt64 : E64 → E64 → EBool
  eq64 : E64 → E64 → EBool
  select64 : EBool → E64 → E64 → E64
  add128 : E128 → E128 → E128
  sub128 : E128 → E128 → E128
  mul128 : E128 → E128 → E128
  rem128 : E128 → E128 → E128
  ge128 : E128 → E128 → EBool
  lt128 : E128 → E128 → EBool
  gt128 : E128 → E128 → EBool
  eq128 : E128 → E128 → EBool
  and : EBool → EBool → EBool
  /-- `FHE.checkSignatures` of one handle accepts this cleartext and this proof. -/
  checkSignatures64 : E64 → Nat → DecryptionProof → Bool
  checkSignatures128 : E128 → Nat → DecryptionProof → Bool
  checkSignaturesBool : EBool → Bool → DecryptionProof → Bool

/-- Every handle read as its plaintext.  Decryption proofs are authentic: a signed proof is
accepted exactly for the plaintext of the handle. -/
def Fhe.plain : Fhe Nat Nat Bool where
  null64 := 0
  null128 := 0
  nullBool := false
  isInitialized _ := true
  asEuint64 n := n % 2 ^ 64
  asEuint128 n := n % 2 ^ 128
  asEbool b := b
  widen a := a
  ofEbool b := b.toNat
  add64 a b := (a + b) % 2 ^ 64
  sub64 a b := (a + 2 ^ 64 - b) % 2 ^ 64
  mul64 a b := (a * b) % 2 ^ 64
  div64 a b := a / b
  le64 a b := decide (a ≤ b)
  lt64 a b := decide (a < b)
  gt64 a b := decide (b < a)
  eq64 a b := decide (a = b)
  select64 c a b := if c then a else b
  add128 a b := (a + b) % 2 ^ 128
  sub128 a b := (a + 2 ^ 128 - b) % 2 ^ 128
  mul128 a b := (a * b) % 2 ^ 128
  rem128 a b := a % b
  ge128 a b := decide (b ≤ a)
  lt128 a b := decide (a < b)
  gt128 a b := decide (b < a)
  eq128 a b := decide (a = b)
  and a b := a && b
  checkSignatures64 h clear proof := proof.signed && h == clear
  checkSignatures128 h clear proof := proof.signed && h == clear
  checkSignaturesBool h clear proof := proof.signed && h == clear

/-- A handle of one of the encrypted types. -/
inductive Handle (E64 E128 EBool : Type)
  | uint64 (h : E64)
  | uint128 (h : E128)
  | bool (h : EBool)

/-- An entry of the access list: a persistent grant of a handle to an account, or the flag that
makes a handle publicly decryptable.  Transient allowances end with the transaction and are not
recorded. -/
inductive Grant (E64 E128 EBool : Type)
  | allow (h : Handle E64 E128 EBool) (account : Address)
  | makePubliclyDecryptable (h : Handle E64 E128 EBool)

/-! ## The plaintext reading where no operation wraps -/

namespace Fhe

theorem plain_add64 {a b : Nat} (h : a + b < 2 ^ 64) : plain.add64 a b = a + b :=
  Nat.mod_eq_of_lt h

theorem plain_sub64 {a b : Nat} (ha : a < 2 ^ 64) (h : b ≤ a) : plain.sub64 a b = a - b := by
  show (a + 2 ^ 64 - b) % 2 ^ 64 = a - b
  omega

theorem plain_mul64 {a b : Nat} (h : a * b < 2 ^ 64) : plain.mul64 a b = a * b :=
  Nat.mod_eq_of_lt h

theorem plain_add128 {a b : Nat} (h : a + b < 2 ^ 128) : plain.add128 a b = a + b :=
  Nat.mod_eq_of_lt h

theorem plain_sub128 {a b : Nat} (ha : a < 2 ^ 128) (h : b ≤ a) : plain.sub128 a b = a - b := by
  show (a + 2 ^ 128 - b) % 2 ^ 128 = a - b
  omega

theorem plain_mul128 {a b : Nat} (h : a * b < 2 ^ 128) : plain.mul128 a b = a * b :=
  Nat.mod_eq_of_lt h

theorem plain_asEuint64 {n : Nat} (h : n < 2 ^ 64) : plain.asEuint64 n = n := Nat.mod_eq_of_lt h

theorem plain_asEuint128 {n : Nat} (h : n < 2 ^ 128) : plain.asEuint128 n = n :=
  Nat.mod_eq_of_lt h

@[simp] theorem plain_null64 : plain.null64 = 0 := rfl
@[simp] theorem plain_isInitialized (a : Nat) : plain.isInitialized a = true := rfl
@[simp] theorem plain_asEbool (b : Bool) : plain.asEbool b = b := rfl
@[simp] theorem plain_widen (a : Nat) : plain.widen a = a := rfl
@[simp] theorem plain_ofEbool (b : Bool) : plain.ofEbool b = b.toNat := rfl
@[simp] theorem plain_div64 (a b : Nat) : plain.div64 a b = a / b := rfl
@[simp] theorem plain_le64 (a b : Nat) : plain.le64 a b = decide (a ≤ b) := rfl
@[simp] theorem plain_lt64 (a b : Nat) : plain.lt64 a b = decide (a < b) := rfl
@[simp] theorem plain_gt64 (a b : Nat) : plain.gt64 a b = decide (b < a) := rfl
@[simp] theorem plain_eq64 (a b : Nat) : plain.eq64 a b = decide (a = b) := rfl
@[simp] theorem plain_select64 (c : Bool) (a b : Nat) :
    plain.select64 c a b = if c then a else b := rfl
@[simp] theorem plain_rem128 (a b : Nat) : plain.rem128 a b = a % b := rfl
@[simp] theorem plain_ge128 (a b : Nat) : plain.ge128 a b = decide (b ≤ a) := rfl
@[simp] theorem plain_lt128 (a b : Nat) : plain.lt128 a b = decide (a < b) := rfl
@[simp] theorem plain_gt128 (a b : Nat) : plain.gt128 a b = decide (b < a) := rfl
@[simp] theorem plain_eq128 (a b : Nat) : plain.eq128 a b = decide (a = b) := rfl
@[simp] theorem plain_and (a b : Bool) : plain.and a b = (a && b) := rfl

end Fhe

end Leopold
