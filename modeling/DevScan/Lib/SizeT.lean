import Mathlib.Data.Nat.Basic

/-!
# `Lib/SizeT.lean` — `size_t` and `ssize_t` of 64 bits

A `size_t` is a natural number below `SizeT.modulus`, its arithmetic is modulo that, and the two
conversions to and from `ssize_t` are those of two's complement. Where nothing overflows they are
what one reads them as; these are the lemmas.
-/

set_option autoImplicit false

namespace DevScan.Lib.SizeT

def modulus : Nat := 0x10000000000000000

/-- One more than the largest `ssize_t`. -/
def signedBound : Nat := 0x8000000000000000

def add (a b : Nat) : Nat := (a + b) % modulus

def sub (a b : Nat) : Nat := (a + modulus - b) % modulus

/-- `static_cast < ssize_t >` -/
def toSigned (a : Nat) : Int := if a < signedBound then a else (a : Int) - modulus

/-- The `size_t` a `ssize_t` is assigned to. -/
def ofSigned (i : Int) : Nat := (i % modulus).toNat

theorem add_of_lt {a b : Nat} (h : a + b < modulus) : add a b = a + b := Nat.mod_eq_of_lt h

theorem sub_of_le {a b : Nat} (hle : b ≤ a) (ha : a < modulus) : sub a b = a - b := by
  rw [sub, Nat.sub_add_comm hle, Nat.add_mod_right]
  exact Nat.mod_eq_of_lt (Nat.lt_of_le_of_lt (Nat.sub_le a b) ha)

theorem toSigned_of_lt {a : Nat} (h : a < signedBound) : toSigned a = a := if_pos h

/-- What a `size_t` becomes as a `ssize_t` is the same number, or negative. -/
theorem eq_of_toSigned {a : Nat} (ha : a < modulus) {i : Int} (h : i = toSigned a) (hi : 0 ≤ i) :
    i = a := by
  rw [toSigned] at h
  split at h
  · exact h
  · omega

/-- Only the largest `size_t` becomes -1. -/
theorem toSigned_ne_neg_one {a : Nat} (ha : a + 1 < modulus) : -1 ≠ toSigned a := by
  rw [toSigned]
  split
  · omega
  · omega

theorem ofSigned_natCast {a : Nat} (h : a < modulus) : ofSigned a = a := by
  rw [ofSigned, Int.emod_eq_of_lt (Int.natCast_nonneg a) (Int.ofNat_lt.mpr h), Int.toNat_natCast]

/-- The error value is the largest `size_t`. -/
theorem ofSigned_neg_one : ofSigned (-1) = modulus - 1 := rfl

theorem signedBound_lt_modulus : signedBound < modulus := by decide

end DevScan.Lib.SizeT
