import Mathlib.Logic.Function.Basic

/-!
# `Lib/Holdings.lean` — numbers that are given out and taken back

A table says who holds each number. A number is **taken** by a holder when it is free and
**released** when the holder is through with it; then it may be given out again, to anybody. What
a holder relies on is that its numbers stay its own: taking a free number and releasing another
holder's number do not disturb it (`take_of_held`, `release_of_held`).

A number may be the **sole** one of a holder (`Sole`). Once that is released the holder is
**empty-handed** until it takes another one, however often the number changes hands meanwhile.
-/

set_option autoImplicit false

namespace DevScan.Lib.Holdings

variable {κ ω : Type*} {t : κ → Option ω} {n m : κ} {o o' : ω}

section Tables

variable [DecidableEq κ]

def take (t : κ → Option ω) (n : κ) (o : ω) : κ → Option ω := Function.update t n (some o)

def release (t : κ → Option ω) (n : κ) : κ → Option ω := Function.update t n none

@[simp] theorem take_self : take t n o n = some o := Function.update_self ..

theorem take_of_held (hfree : t n = none) (h : t m = some o) : take t n o' m = some o := by
  have hne : m ≠ n := by
    rintro rfl
    exact absurd (hfree.symm.trans h) (by simp)
  rw [take, Function.update_of_ne hne, h]

theorem release_of_held (hother : t n ≠ some o) (h : t m = some o) : release t n m = some o := by
  have hne : m ≠ n := by
    rintro rfl
    exact hother h
  rw [release, Function.update_of_ne hne, h]

theorem release_of_ne (hne : m ≠ n) : release t n m = t m := Function.update_of_ne hne ..

/-- Who holds a number after it was taken has just taken it, or held it before. -/
theorem held_of_take (h : take t n o' m = some o) : m = n ∧ o' = o ∨ t m = some o := by
  rw [take, Function.update_apply] at h
  split at h
  · rename_i heq
    exact Or.inl ⟨heq, Option.some.inj h⟩
  · exact Or.inr h

theorem held_of_release (h : release t n m = some o) : m ≠ n ∧ t m = some o := by
  rw [release, Function.update_apply] at h
  split at h
  · cases h
  · rename_i hne
    exact ⟨hne, h⟩

end Tables

/-- Different holders hold different numbers. -/
theorem ne_of_holders (hn : t n = some o) (hm : t m = some o') (hne : o ≠ o') : n ≠ m := by
  rintro rfl
  exact hne (Option.some.inj (hn.symm.trans hm))

/-- The holder holds no number. -/
def EmptyHanded (t : κ → Option ω) (o : ω) : Prop := ∀ m, t m ≠ some o

/-- The holder holds no other number. -/
def Sole (t : κ → Option ω) (o : ω) (n : κ) : Prop := ∀ m, t m = some o → m = n

theorem EmptyHanded.sole (h : EmptyHanded t o) : Sole t o n := fun m hm => absurd hm (h m)

variable [DecidableEq κ]

theorem EmptyHanded.take (h : EmptyHanded t o) (hne : o' ≠ o) : EmptyHanded (take t n o') o := by
  intro m hm
  rcases held_of_take hm with ⟨-, heq⟩ | hm
  · exact hne heq
  · exact h m hm

theorem EmptyHanded.release (h : EmptyHanded t o) : EmptyHanded (release t n) o :=
  fun m hm => h m (held_of_release hm).2

theorem EmptyHanded.take_sole (h : EmptyHanded t o) : Sole (Holdings.take t n o) o n := by
  intro m hm
  rcases held_of_take hm with ⟨heq, -⟩ | hm
  · exact heq
  · exact absurd hm (h m)

theorem Sole.take (h : Sole t o n) (hne : o' ≠ o) : Sole (take t m o') o n := by
  intro k hk
  rcases held_of_take hk with ⟨-, heq⟩ | hk
  · exact absurd heq hne
  · exact h k hk

theorem Sole.release (h : Sole t o n) : EmptyHanded (release t n) o := by
  intro m hm
  obtain ⟨hne, hm⟩ := held_of_release hm
  exact hne (h m hm)

theorem Sole.release_other (h : Sole t o n) : Sole (Holdings.release t m) o n :=
  fun k hk => h k (held_of_release hk).2

end DevScan.Lib.Holdings
