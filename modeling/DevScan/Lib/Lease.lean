import DevScan.Lib.Runs
import Mathlib.Data.List.Induction
import Mathlib.Logic.Function.Basic
import Mathlib.Order.Lattice

/-!
# `Lib/Lease.lean` — a table of leases

A lease table maps a key to a value and the deadline of its lease. A key is **renewed**, with a
value and a new deadline that replaces the old one whatever that was; a **sweep** at a time
removes every key whose deadline lies before it. The table is the component's own state; what it
means is said without it, by the history alone (`Held`): the last renewal of the key, and no
sweep since that ran after its deadline.

`run_eq_some_iff` is the agreement of the two. It asks nothing of the clock: sweeps and renewals
may come in any order of their times.
-/

set_option autoImplicit false

namespace DevScan.Lib.Lease

variable {κ ν τ : Type*}

inductive Event (κ ν τ : Type*) where
  | renew (key : κ) (value : ν) (deadline : τ)
  | sweep (now : τ)
  /-- An event that is none of the table's business. -/
  | idle

abbrev Table (κ ν τ : Type*) := κ → Option (ν × τ)

/-- **The meaning of a history.** `k` was last renewed with value `v` and deadline `d`, and no
sweep since has run after `d`. -/
def Held [LT τ] (es : List (Event κ ν τ)) (k : κ) (v : ν) (d : τ) : Prop :=
  ∃ pre post, es = pre ++ .renew k v d :: post ∧ (∀ v' d', .renew k v' d' ∉ post) ∧
    ∀ now, .sweep now ∈ post → ¬d < now

theorem not_held_nil [LT τ] (k : κ) (v : ν) (d : τ) : ¬Held [] k v d := by
  intro hheld
  obtain ⟨pre, post, h, -⟩ := hheld
  exact absurd h (by simp)

/-- A history held with one more event: the event is the renewal, or it is none of the key's and
comes in time. -/
theorem held_concat [LT τ] {es : List (Event κ ν τ)} {e : Event κ ν τ} {k : κ} {v : ν} {d : τ} :
    Held (es ++ [e]) k v d ↔
      e = .renew k v d ∨
        Held es k v d ∧ (∀ v' d', e ≠ .renew k v' d') ∧ ∀ now, e = .sweep now → ¬d < now := by
  constructor
  · intro hheld
    obtain ⟨pre, post, h, hlast, hsweep⟩ := hheld
    cases post using List.reverseRecOn with
    | nil => exact Or.inl (List.singleton_inj.mp (List.append_inj' h rfl).2)
    | append_singleton post e' =>
      have h' : es ++ [e] = (pre ++ .renew k v d :: post) ++ [e'] := by
        rw [h, List.append_assoc, List.cons_append]
      obtain ⟨hes, he⟩ := List.append_inj' h' rfl
      obtain rfl : e = e' := List.singleton_inj.mp he
      refine Or.inr ⟨⟨pre, post, hes, fun v' d' hmem => ?_, fun now hmem => ?_⟩,
        fun v' d' heq => ?_, fun now heq => ?_⟩
      · exact hlast v' d' (List.mem_append_left _ hmem)
      · exact hsweep now (List.mem_append_left _ hmem)
      · exact hlast v' d' (by simp [heq])
      · exact hsweep now (by simp [heq])
  · rintro (rfl | ⟨⟨pre, post, rfl, hlast, hsweep⟩, hrenew, hswept⟩)
    · exact ⟨es, [], rfl, by simp, by simp⟩
    · refine ⟨pre, post ++ [e], by simp, fun v' d' hmem => ?_, fun now hmem => ?_⟩
      · rcases List.mem_append.mp hmem with hmem | hmem
        · exact hlast v' d' hmem
        · exact hrenew v' d' (List.mem_singleton.mp hmem).symm
      · rcases List.mem_append.mp hmem with hmem | hmem
        · exact hsweep now hmem
        · exact hswept now (List.mem_singleton.mp hmem).symm

variable [DecidableEq κ] [LinearOrder τ]

def apply (t : Table κ ν τ) : Event κ ν τ → Table κ ν τ
  | .renew k v d => Function.update t k (some (v, d))
  | .sweep now => fun k => (t k).filter fun lease => ¬lease.2 < now
  | .idle => t

/-- **The table holds what its history says it holds.** -/
theorem run_eq_some_iff {es : List (Event κ ν τ)} {k : κ} {v : ν} {d : τ} :
    run apply (fun _ => none) es k = some (v, d) ↔ Held es k v d := by
  induction es using List.reverseRecOn with
  | nil =>
    rw [run_nil]
    exact iff_of_false (by simp) (not_held_nil k v d)
  | append_singleton es e ih =>
    rw [run_concat, held_concat, ← ih]
    cases e with
    | renew k' v' d' =>
      by_cases hk : k = k'
      · subst hk
        simp only [apply, Function.update_self, Option.some.injEq, Prod.mk.injEq,
          Event.renew.injEq, true_and]
        constructor
        · intro hrenewed
          obtain ⟨rfl, rfl⟩ := hrenewed
          exact Or.inl ⟨rfl, rfl⟩
        · rintro (h | ⟨-, h, -⟩)
          · exact h
          · exact absurd rfl (h v' d')
      · have hk' : ¬k' = k := fun h => hk h.symm
        simp [apply, hk, hk']
    | sweep now => simp [apply, Option.filter_eq_some_iff]
    | idle => simp [apply]

end DevScan.Lib.Lease
