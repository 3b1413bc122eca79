import DevScan.Lib.SizeT
import Mathlib.Data.Nat.Bitwise

/-!
# `Lib/Int32.lean` — `int` and `DWORD` of 32 bits

Where a program casts a `size_t` to an `int` the number is taken modulo 2³² and the upper half
of the residues is negative. A number below `bound` stays what it is (`toInt_of_lt`); taking the
`int` off a larger one leaves a number that is still no `int` (`bound_le_sub`).
-/

set_option autoImplicit false

namespace DevScan.Lib.Int32

def modulus : Nat := 0x100000000

/-- One more than the largest `int`. -/
def bound : Nat := 0x80000000

/-- `static_cast < int >` -/
def toInt (a : Nat) : Int :=
  if a % modulus < bound then (a % modulus : Nat) else ((a % modulus : Nat) : Int) - modulus

/-- The `DWORD` an `int` is assigned to. -/
def toDword (i : Int) : Nat := (i % modulus).toNat

/-- Sums of `DWORD`s. -/
def add (a b : Nat) : Nat := (a + b) % modulus

theorem bound_lt_modulus : bound < modulus := by decide

theorem toInt_of_lt {a : Nat} (h : a < bound) : toInt a = a := by
  have hmodulus := bound_lt_modulus
  rw [toInt, Nat.mod_eq_of_lt (Nat.lt_trans h hmodulus), if_pos h]

theorem toInt_lt (a : Nat) : toInt a < bound := by
  have hmodulus := bound_lt_modulus
  have hmod : a % modulus < modulus := Nat.mod_lt a (by decide)
  rw [toInt]
  split
  · omega
  · omega

theorem toInt_neg {a : Nat} (hle : bound ≤ a) (hlt : a < modulus) : toInt a < 0 := by
  rw [toInt, Nat.mod_eq_of_lt hlt, if_neg (Nat.not_lt.mpr hle)]
  omega

theorem toInt_mod (a : Nat) : toInt (a % modulus) = toInt a := by
  rw [toInt, toInt, Nat.mod_mod]

/-- What is taken off a number of 2³¹ or more by its value as an `int` leaves 2³¹ or more. -/
theorem bound_le_sub {a k : Nat} (ha : bound ≤ a) (hk : k ≤ (toInt a).toNat) : bound ≤ a - k := by
  have hmodulus := bound_lt_modulus
  have hdiv := Nat.div_add_mod a modulus
  rw [toInt] at hk
  split at hk
  · rename_i hlow
    have hpos : 0 < a / modulus := Nat.pos_of_ne_zero fun hzero => by
      rw [hzero, Nat.mul_zero, Nat.zero_add] at hdiv
      omega
    have hle : modulus ≤ modulus * (a / modulus) := Nat.le_mul_of_pos_right modulus hpos
    omega
  · have hneg : a % modulus < modulus := Nat.mod_lt a (by decide)
    omega

/-- A difference of small `size_t`s that has wrapped is itself again as an `int`. -/
theorem toInt_sub {a b : Nat} (ha : a < bound) (hb : b < bound) :
    toInt (SizeT.sub a b) = (a : Int) - b := by
  by_cases hle : b ≤ a
  · have hbound : bound < SizeT.modulus := by decide
    rw [SizeT.sub_of_le hle (by omega), toInt_of_lt (by omega)]
    omega
  · have hresidue : SizeT.sub a b % modulus = modulus - (b - a) := by
      simp only [SizeT.sub, SizeT.modulus, modulus, bound] at ha hb ⊢
      omega
    have htwice : modulus = bound + bound := by decide
    rw [toInt, hresidue, if_neg (by omega)]
    omega

theorem toDword_natCast {a : Nat} (h : a < modulus) : toDword a = a := by
  rw [toDword, Int.emod_eq_of_lt (Int.natCast_nonneg a) (Int.ofNat_lt.mpr h), Int.toNat_natCast]

/-- The mask `~3U` clears the last two bits. -/
theorem and_mask {n : Nat} (h : n < modulus) : n &&& 0xFFFFFFFC = n / 4 * 4 := by
  have hmask : (0xFFFFFFFC : Nat) = (2 ^ 30 - 1) <<< 2 := by decide
  have hshift : n / 4 * 4 = n >>> 2 <<< 2 := by
    rw [Nat.shiftRight_eq_div_pow, Nat.shiftLeft_eq]
  rw [hmask, hshift]
  apply Nat.eq_of_testBit_eq
  intro i
  rw [Nat.testBit_and, Nat.testBit_shiftLeft, Nat.testBit_shiftLeft, Nat.testBit_shiftRight,
    Nat.testBit_two_pow_sub_one]
  by_cases hi : 2 ≤ i
  · by_cases hlt : i - 2 < 30
    · simp [hi, hlt]
    · have hbig : n < 2 ^ i := Nat.lt_of_lt_of_le h
        (Nat.pow_le_pow_right (Nat.two_pos) (show 32 ≤ i by omega))
      simp [hi, hlt, Nat.testBit_lt_two_pow hbig]
  · simp [hi]

end DevScan.Lib.Int32
