import Mathlib.Data.Int.Basic
import Mathlib.Tactic.Ring

/-!
# 32-bit integers on a wire

The `int` of the source is an integer reduced to 32 bits in two's complement; in memory
it is four bytes, least significant first. Division and remainder truncate.
-/
namespace EnterosC

abbrev Byte := UInt8

/-- The value an `int` holds after a result `x` is stored in it. -/
def aInt (x : ℤ) : ℤ := Int.bmod x (2 ^ 32)

def EsInt (x : ℤ) : Prop := -2 ^ 31 ≤ x ∧ x < 2 ^ 31

instance (x : ℤ) : Decidable (EsInt x) := inferInstanceAs (Decidable (_ ∧ _))

theorem aInt_eq {x : ℤ} (h : EsInt x) : aInt x = x := by
  obtain ⟨h₁, h₂⟩ := h
  unfold aInt
  rw [Int.bmod_eq_of_le] <;> norm_num <;> omega

theorem esInt_aInt (x : ℤ) : EsInt (aInt x) := by
  have h₁ := Int.le_bmod (x := x) (m := 2 ^ 32) (by norm_num)
  have h₂ := Int.bmod_lt (x := x) (m := 2 ^ 32) (by norm_num)
  unfold EsInt aInt
  norm_num at h₁ h₂ ⊢
  omega

theorem aInt_le {x : ℤ} (h : 0 ≤ x) : aInt x ≤ x := by
  have hresto : x % 2 ^ 32 ≤ x := by
    norm_num
    omega
  unfold aInt
  rw [Int.bmod_def]
  norm_num at hresto ⊢
  split <;> omega

theorem aInt_emod (x : ℤ) : aInt (x % 2 ^ 32) = aInt x := by
  unfold aInt
  exact_mod_cast Int.emod_bmod x (2 ^ 32)

section Bytes

def bytesNat : ℕ → ℕ → List Byte
  | 0, _ => []
  | w + 1, n => UInt8.ofNat (n % 256) :: bytesNat w (n / 256)

def natBytes : List Byte → ℕ
  | [] => 0
  | b :: bs => b.toNat + 256 * natBytes bs

@[simp] theorem length_bytesNat (w n : ℕ) : (bytesNat w n).length = w := by
  induction w generalizing n with
  | zero => rfl
  | succ w ih => simp [bytesNat, ih]

theorem natBytes_bytesNat (w n : ℕ) : natBytes (bytesNat w n) = n % 256 ^ w := by
  induction w generalizing n with
  | zero => simp [bytesNat, natBytes, Nat.mod_one]
  | succ w ih =>
    have hb : (UInt8.ofNat (n % 256)).toNat = n % 256 := by
      rw [UInt8.toNat_ofNat']
      exact Nat.mod_mod n 256
    simp only [bytesNat, natBytes, hb, ih]
    rw [pow_succ, Nat.mul_comm (256 ^ w) 256, Nat.mod_mul]

def bytesInt (x : ℤ) : List Byte := bytesNat 4 (x % 2 ^ 32).toNat

@[simp] theorem length_bytesInt (x : ℤ) : (bytesInt x).length = 4 := length_bytesNat 4 _

/-- The `memcpy` of an `int` out of a buffer at an offset; `none` past its end. -/
def leerInt (xs : List Byte) (desde : ℕ) : Option ℤ :=
  if desde + 4 ≤ xs.length then some (aInt (natBytes ((xs.drop desde).take 4))) else none

theorem leerInt_bytesInt (antes despues : List Byte) (x : ℤ) :
    leerInt (antes ++ bytesInt x ++ despues) antes.length = some (aInt x) := by
  have htrozo : ((antes ++ bytesInt x ++ despues).drop antes.length).take 4 = bytesInt x := by
    rw [List.append_assoc, List.drop_left]
    exact List.take_left' (length_bytesInt x)
  have hlargo : antes.length + 4 ≤ (antes ++ bytesInt x ++ despues).length := by
    simp only [List.length_append, length_bytesInt]
    omega
  have hpos : 0 ≤ x % 2 ^ 32 := Int.emod_nonneg x (by decide)
  have hlt : x % 2 ^ 32 < 2 ^ 32 := Int.emod_lt_of_pos x (by decide)
  rw [leerInt, if_pos hlargo, htrozo, bytesInt, natBytes_bytesNat, Nat.mod_eq_of_lt,
    Int.toNat_of_nonneg hpos, aInt_emod]
  norm_num at hlt ⊢
  omega

end Bytes

end EnterosC
