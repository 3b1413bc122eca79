import Mathlib.Data.List.Induction
import Mathlib.Data.Nat.Digits.Defs

/-!
# `Lib/Numeral.lean` — numbers written with the leading digit first

What digits are worth in a base, the most significant one in front: the order in which numbers are
written down, and that of the bytes on a network. A numeral that is cut in two is worth what its
front is worth, moved up by the length of the rest, and the rest (`value_append`), which never
reaches into the front (`value_lt`). A number that is small enough can be written down with so many
digits (`write`), in one way (`write_value`); and where each digit is written down in a smaller
base, the whole is (`value_flatMap_write`).
-/

set_option autoImplicit false

namespace DevScan.Lib.Numeral

variable {base : Nat} {front rest : List Nat}

/-- What the digits are worth. -/
def value (base : Nat) (digits : List Nat) : Nat := Nat.ofDigits base digits.reverse

@[simp] theorem value_nil (base : Nat) : value base [] = 0 := rfl

theorem value_append (base : Nat) (front rest : List Nat) :
    value base (front ++ rest) = value base front * base ^ rest.length + value base rest := by
  rw [value, List.reverse_append, Nat.ofDigits_append, List.length_reverse, Nat.add_comm,
    Nat.mul_comm]
  rfl

theorem value_concat (base : Nat) (front : List Nat) (digit : Nat) :
    value base (front ++ [digit]) = value base front * base + digit := by
  have hdigit : value base [digit] = digit := Nat.ofDigits_singleton
  rw [value_append, hdigit, List.length_singleton, Nat.pow_one]

theorem value_lt (hbase : 1 < base) (hrest : ∀ digit ∈ rest, digit < base) :
    value base rest < base ^ rest.length := by
  rw [← List.length_reverse]
  exact Nat.ofDigits_lt_base_pow_length hbase fun digit h => hrest digit (List.mem_reverse.mp h)

/-- Only digits that are all the largest one are worth the most. -/
theorem value_eq_pred_iff (hbase : 1 < base) (hrest : ∀ digit ∈ rest, digit < base) :
    value base rest = base ^ rest.length - 1 ↔ ∀ digit ∈ rest, digit = base - 1 := by
  induction rest using List.reverseRecOn with
  | nil => simp
  | append_singleton rest digit ih =>
    have hfront : ∀ digit ∈ rest, digit < base := fun d hd => hrest d (List.mem_append_left _ hd)
    have hdigit : digit < base := hrest digit (by simp)
    have hlt := value_lt hbase hfront
    have hle : value base rest * base ≤ (base ^ rest.length - 1) * base :=
      Nat.mul_le_mul_right base (Nat.le_pred_of_lt hlt)
    rw [Nat.sub_mul, Nat.one_mul] at hle
    rw [value_concat, List.length_append, List.length_singleton, Nat.pow_succ]
    have hpos : base ≤ base ^ rest.length * base :=
      Nat.le_mul_of_pos_left base (Nat.pow_pos (Nat.lt_trans Nat.one_pos hbase))
    simp only [List.mem_append, List.mem_singleton, or_imp, forall_and, forall_eq]
    rw [← ih hfront]
    constructor
    · intro heq
      have hlast : digit = base - 1 := by omega
      refine ⟨?_, hlast⟩
      have hmul : value base rest * base = (base ^ rest.length - 1) * base := by
        rw [Nat.sub_mul, Nat.one_mul]
        omega
      exact Nat.eq_of_mul_eq_mul_right (Nat.lt_trans Nat.one_pos hbase) hmul
    · rintro ⟨hmost, hlast⟩
      rw [hmost, Nat.sub_mul, Nat.one_mul]
      omega

/-! ## Writing a number down -/

/-- The last `width` digits of a number. -/
def write (base : Nat) : Nat → Nat → List Nat
  | 0, _ => []
  | width + 1, n => write base width (n / base) ++ [n % base]

@[simp] theorem length_write (base width n : Nat) : (write base width n).length = width := by
  induction width generalizing n with
  | zero => rfl
  | succ width ih => rw [write, List.length_append, ih, List.length_singleton]

theorem write_lt (hbase : 1 < base) (width n : Nat) : ∀ digit ∈ write base width n, digit < base := by
  induction width generalizing n with
  | zero => simp [write]
  | succ width ih =>
    intro digit hdigit
    rcases List.mem_append.mp hdigit with hdigit | hdigit
    · exact ih _ digit hdigit
    · obtain rfl := List.mem_singleton.mp hdigit
      exact Nat.mod_lt n (Nat.lt_trans Nat.one_pos hbase)

theorem value_write {width n : Nat} (hn : n < base ^ width) : value base (write base width n) = n := by
  induction width generalizing n with
  | zero =>
    rw [Nat.pow_zero] at hn
    rw [Nat.lt_one_iff.mp hn]
    rfl
  | succ width ih =>
    have hfront : n / base < base ^ width := Nat.div_lt_of_lt_mul (by rwa [← Nat.pow_succ'])
    rw [write, value_concat, ih hfront, Nat.mul_comm, Nat.div_add_mod]

theorem write_value (hbase : 1 < base) (hrest : ∀ digit ∈ rest, digit < base) :
    write base rest.length (value base rest) = rest := by
  induction rest using List.reverseRecOn with
  | nil => rfl
  | append_singleton rest digit ih =>
    have hdigit : digit < base := hrest digit (by simp)
    have hpos : 0 < base := Nat.lt_trans Nat.one_pos hbase
    have hdiv : (value base rest * base + digit) / base = value base rest := by
      rw [Nat.mul_comm, Nat.mul_add_div hpos, Nat.div_eq_of_lt hdigit, Nat.add_zero]
    have hmod : (value base rest * base + digit) % base = digit := by
      rw [Nat.mul_comm, Nat.mul_add_mod, Nat.mod_eq_of_lt hdigit]
    rw [List.length_append, List.length_singleton, value_concat, write, hdiv, hmod,
      ih fun d hd => hrest d (List.mem_append_left _ hd)]

/-- Digits that are written down in turn, each with so many digits of a smaller base. -/
theorem value_flatMap_write {width : Nat} (hrest : ∀ digit ∈ rest, digit < base ^ width) :
    value base (rest.flatMap (write base width)) = value (base ^ width) rest := by
  induction rest using List.reverseRecOn with
  | nil => rfl
  | append_singleton rest digit ih =>
    have hdigit : digit < base ^ width := hrest digit (by simp)
    rw [List.flatMap_append, List.flatMap_singleton, value_append, length_write, value_write hdigit,
      value_concat, ih fun d hd => hrest d (List.mem_append_left _ hd)]

end DevScan.Lib.Numeral
