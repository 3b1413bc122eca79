import Mathlib.Logic.Basic

/-!
# `Lib/Drain.lean` — call a handler until it has nothing left

The event loop calls a handler again as long as it returns a positive value. A handler here is a
state transformer that returns a number or throws, together with the **reason the loop ends**: a
size that a positive return value makes smaller.

The rule for the loop is `drain_last`: what it returns is what its last call returns, and that
call is made in a state the invariant holds in. Whatever is to be known about a drained source —
that it is empty, that everything was handled — is read off the last call.
-/

set_option autoImplicit false

namespace DevScan.Lib

universe u v

structure Handler (σ : Type u) (ε : Type v) where
  call : σ → Except ε Int × σ
  size : σ → Nat
  progress : ∀ {s n s'}, call s = (.ok n, s') → 0 < n → size s' < size s

namespace Handler

variable {σ : Type u} {ε : Type v} (h : Handler σ ε)

/-- `do { result = handler(); } while (result > 0);` -/
def drain (s : σ) : Except ε Int × σ :=
  match _hcall : h.call s with
  | (.ok n, s') => if _hn : 0 < n then drain s' else (.ok n, s')
  | (.error e, s') => (.error e, s')
termination_by h.size s
decreasing_by exact h.progress _hcall _hn

theorem drain_again {s s' : σ} {n : Int} (hcall : h.call s = (.ok n, s')) (hn : 0 < n) :
    h.drain s = h.drain s' := by
  rw [drain]
  split
  · rename_i n' s'' hcall'
    rw [hcall] at hcall'
    cases hcall'
    rw [dif_pos hn]
  · rename_i e s'' hcall'
    rw [hcall] at hcall'
    cases hcall'

/-- A call that returns nothing positive, or throws, is the last. -/
theorem drain_done {s : σ} (hlast : ∀ n, (h.call s).1 = .ok n → n ≤ 0) : h.drain s = h.call s := by
  rw [drain]
  split
  · rename_i n s' hcall
    have hn : n ≤ 0 := hlast n (by rw [hcall])
    rw [dif_neg (Int.not_lt.mpr hn), hcall]
  · rename_i e s' hcall
    rw [hcall]

/-- **The rule of the loop.** What a positive return value preserves holds before the last call,
and the last call is what the loop comes to. -/
theorem drain_last {P : σ → Prop}
    (hstep : ∀ s n s', P s → h.call s = (.ok n, s') → 0 < n → P s') {s : σ} (hs : P s) :
    ∃ t, P t ∧ h.drain s = h.call t ∧ ∀ n, (h.call t).1 = .ok n → n ≤ 0 := by
  -- induction on the size, which every further round makes smaller
  induction hsize : h.size s using Nat.strongRecOn generalizing s with
  | ind size ih =>
    by_cases hlast : ∀ n, (h.call s).1 = .ok n → n ≤ 0
    · exact ⟨s, hs, h.drain_done hlast, hlast⟩
    · obtain ⟨n, hlast⟩ := not_forall.mp hlast
      obtain ⟨hn, hpos⟩ := Classical.not_imp.mp hlast
      have hpos : 0 < n := Int.not_le.mp hpos
      have hcall : h.call s = (.ok n, (h.call s).2) := Prod.ext hn rfl
      rw [h.drain_again hcall hpos]
      exact ih _ (hsize ▸ h.progress hcall hpos) (hstep s n _ hs hcall hpos) rfl

/-- What every call keeps, the loop keeps. -/
theorem drain_invariant {P : σ → Prop} (hcall : ∀ s, P s → P (h.call s).2) {s : σ} (hs : P s) :
    P (h.drain s).2 := by
  obtain ⟨t, ht, hdrain, -⟩ := h.drain_last (P := P)
    (fun s n s' hs hcalled _ => by simpa [hcalled] using hcall s hs) hs
  rw [hdrain]
  exact hcall t ht

end Handler
end DevScan.Lib
