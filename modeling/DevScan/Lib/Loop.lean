import Mathlib.Data.Option.Basic

/-!
# `Lib/Loop.lean` — loops that need not end

A loop is what a round leads to: the state at the start of the next one, or `none` where the loop
is left. Nothing makes it end, so that it does is a property (`Ends`), next to what holds of the
states it goes through (`Visits`). Both are read off one round at a time.
-/

set_option autoImplicit false

namespace DevScan.Lib.Loop

variable {σ : Type*} (next : σ → Option σ)

/-- The state a number of rounds later, as long as the loop lasts. -/
def later (s : σ) : Nat → Option σ
  | 0 => some s
  | n + 1 => (next s).bind fun t => later t n

def Ends (s : σ) : Prop := ∃ n, later next s n = none

def Visits (s t : σ) : Prop := ∃ n, later next s n = some t

/-- The loop ends, and a round that is entered is entered in a state of the given kind. -/
def Safe (P : σ → Prop) (s : σ) : Prop := Ends next s ∧ ∀ t, Visits next s t → P t

variable {next} {s t : σ} {P : σ → Prop}

theorem ends_of_none (h : next s = none) : Ends next s := ⟨1, by simp [later, h]⟩

theorem ends_iff_of_some (h : next s = some t) : Ends next s ↔ Ends next t := by
  constructor
  · rintro ⟨n, hn⟩
    cases n with
    | zero => exact absurd hn (by simp [later])
    | succ n => exact ⟨n, by simpa [later, h] using hn⟩
  · rintro ⟨n, hn⟩
    exact ⟨n + 1, by simpa [later, h] using hn⟩

theorem visits_iff {u : σ} :
    Visits next s u ↔ u = s ∨ ∃ t, next s = some t ∧ Visits next t u := by
  constructor
  · rintro ⟨n, hn⟩
    cases n with
    | zero => exact Or.inl (Option.some.inj hn).symm
    | succ n =>
      obtain ⟨t, ht, hrest⟩ := Option.bind_eq_some_iff.mp hn
      exact Or.inr ⟨t, ht, n, hrest⟩
  · rintro (rfl | ⟨t, ht, n, hn⟩)
    · exact ⟨0, rfl⟩
    · exact ⟨n + 1, Option.bind_eq_some_iff.mpr ⟨t, ht, hn⟩⟩

/-- **The last round.** -/
theorem safe_iff_of_none (h : next s = none) : Safe next P s ↔ P s := by
  constructor
  · exact fun hsafe => hsafe.2 s (visits_iff.mpr (Or.inl rfl))
  · intro hs
    refine ⟨ends_of_none h, fun u hu => ?_⟩
    rcases visits_iff.mp hu with rfl | ⟨t, ht, -⟩
    · exact hs
    · exact absurd (h.symm.trans ht) (by simp)

/-- **Every other one.** -/
theorem safe_iff_of_some (h : next s = some t) : Safe next P s ↔ P s ∧ Safe next P t := by
  constructor
  · rintro ⟨hends, hvisits⟩
    refine ⟨hvisits s (visits_iff.mpr (Or.inl rfl)), (ends_iff_of_some h).mp hends, fun u hu => ?_⟩
    exact hvisits u (visits_iff.mpr (Or.inr ⟨t, h, hu⟩))
  · rintro ⟨hs, hends, hvisits⟩
    refine ⟨(ends_iff_of_some h).mpr hends, fun u hu => ?_⟩
    rcases visits_iff.mp hu with rfl | ⟨t', ht', hrest⟩
    · exact hs
    · obtain rfl := Option.some.inj (h.symm.trans ht')
      exact hvisits u hrest

end DevScan.Lib.Loop
