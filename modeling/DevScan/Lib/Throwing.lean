import Mathlib.Logic.Basic

/-!
# `Lib/Throwing.lean` — what a sequence that returns has established

The functions of the repository read a value by a chain of accessors, each of which may throw.
These are the rules that take such a chain apart when it is known to have returned.
-/

set_option autoImplicit false

namespace DevScan.Lib

universe u v

variable {ε : Type u} {α β : Type v}

theorem bind_eq_ok {x : Except ε α} {f : α → Except ε β} {b : β} :
    (x >>= f) = .ok b ↔ ∃ a, x = .ok a ∧ f a = .ok b := by
  cases x with
  | ok a => simp [bind, Except.bind]
  | error e => simp [bind, Except.bind]

theorem pure_eq_ok {a b : α} : (pure a : Except ε α) = .ok b ↔ a = b := by
  simp [pure, Except.pure]

/-- A branch that ends in another result is not the one that was taken. -/
theorem ite_eq_ok_of_ne {p : Prop} [Decidable p] {x y : Except ε α} {b : α} (h : x ≠ .ok b) :
    (if p then x else y) = .ok b ↔ ¬p ∧ y = .ok b := by
  by_cases hp : p
  · simp [hp, h]
  · simp [hp]

/-! What holds of everything the rest can return holds of what the chain returns. -/

theorem of_bind_eq_ok {P : β → Prop} {x : Except ε α} {f : α → Except ε β}
    (h : ∀ a b, f a = .ok b → P b) : ∀ b, (x >>= f) = .ok b → P b := by
  intro b hb
  obtain ⟨a, -, hfa⟩ := bind_eq_ok.mp hb
  exact h a b hfa

theorem of_ite_eq_ok {p : Prop} [Decidable p] {P : α → Prop} {x y : Except ε α}
    (hx : ∀ a, x = .ok a → P a) (hy : ∀ a, y = .ok a → P a) :
    ∀ a, (if p then x else y) = .ok a → P a := by
  intro a ha
  by_cases hp : p
  · rw [if_pos hp] at ha
    exact hx a ha
  · rw [if_neg hp] at ha
    exact hy a ha

end DevScan.Lib
