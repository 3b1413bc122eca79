import Mathlib.Data.List.Basic

/-!
# `Lib/Runs.lean` — runs of a total step function

A component is a state type `σ`, an input type `α` and a total `step : σ → α → σ`. A **run** is
what a list of inputs does to a state, and its **transitions** are the pairs (state, input) it
goes through. Every invariant of the development is proved by `run_invariant`: it holds at the
start, and a transition that meets a condition `C` keeps it. The condition is a parameter
because what keeps an invariant is often a property of the input *at the state it meets*.
-/

set_option autoImplicit false

namespace DevScan.Lib

variable {σ α : Type*} (step : σ → α → σ)

/-- The state the inputs `as` lead to. -/
def run (s : σ) (as : List α) : σ := as.foldl step s

/-- The transitions of a run: each input with the state it is taken in. -/
def transitions : σ → List α → List (σ × α)
  | _, [] => []
  | s, a :: as => (s, a) :: transitions (step s a) as

@[simp] theorem run_nil (s : σ) : run step s [] = s := rfl

@[simp] theorem run_cons (s : σ) (a : α) (as : List α) :
    run step s (a :: as) = run step (step s a) as := rfl

theorem run_append (s : σ) (as bs : List α) :
    run step s (as ++ bs) = run step (run step s as) bs := List.foldl_append

theorem run_concat (s : σ) (as : List α) (a : α) :
    run step s (as ++ [a]) = step (run step s as) a := by
  rw [run_append, run_cons, run_nil]

/-- A transition is an input of the run, taken in the state the inputs before it lead to. -/
theorem mem_transitions_iff {s : σ} {as : List α} {p : σ × α} :
    p ∈ transitions step s as ↔
      ∃ pre post, as = pre ++ p.2 :: post ∧ p.1 = run step s pre := by
  induction as generalizing s with
  | nil => simp [transitions]
  | cons a as ih =>
    rw [transitions, List.mem_cons, ih]
    constructor
    · rintro (rfl | ⟨pre, post, rfl, hp⟩)
      · exact ⟨[], as, rfl, rfl⟩
      · exact ⟨a :: pre, post, rfl, hp⟩
    · intro hsplit
      obtain ⟨pre, post, heq, hp⟩ := hsplit
      cases pre with
      | nil =>
        obtain ⟨ha, -⟩ := List.cons.inj heq
        exact Or.inl (Prod.ext hp ha.symm)
      | cons b pre =>
        obtain ⟨rfl, has⟩ := List.cons.inj heq
        exact Or.inr ⟨pre, post, has, hp⟩

/-- Two components that agree step by step agree on runs. -/
theorem run_simulation {σ' α' : Type*} {step' : σ' → α' → σ'} {f : σ → σ'} {g : α → α'}
    (hstep : ∀ s a, f (step s a) = step' (f s) (g a)) (s : σ) (as : List α) :
    f (run step s as) = run step' (f s) (as.map g) := by
  induction as generalizing s with
  | nil => rfl
  | cons a as ih => rw [run_cons, ih, hstep, List.map_cons, run_cons]

/-- **The invariant rule.** What holds at the start and survives every transition that meets
`C` holds after a run all of whose transitions meet `C`. -/
theorem run_invariant {P : σ → Prop} {C : σ → α → Prop}
    (hstep : ∀ s a, P s → C s a → P (step s a)) {s : σ} {as : List α} (hs : P s)
    (hC : ∀ p ∈ transitions step s as, C p.1 p.2) : P (run step s as) := by
  induction as generalizing s with
  | nil => exact hs
  | cons a as ih =>
    have hhead : C s a := hC (s, a) List.mem_cons_self
    exact ih (hstep s a hs hhead) fun p hp => hC p (List.mem_cons_of_mem _ hp)

/-- The same at every state a run goes through, not only at its end. -/
theorem transitions_invariant {P : σ → Prop} {C : σ → α → Prop}
    (hstep : ∀ s a, P s → C s a → P (step s a)) {s : σ} {as : List α} (hs : P s)
    (hC : ∀ p ∈ transitions step s as, C p.1 p.2) : ∀ p ∈ transitions step s as, P p.1 := by
  induction as generalizing s with
  | nil => simp [transitions]
  | cons a as ih =>
    intro p hp
    rcases List.mem_cons.mp hp with rfl | hp
    · exact hs
    · exact ih (hstep s a hs (hC (s, a) List.mem_cons_self))
        (fun q hq => hC q (List.mem_cons_of_mem _ hq)) p hp

/-- **Exact conditions.** If `C` is what a transition has to meet, in the states `Q` describes,
for the next state to be one of them again, and a transition that does not meet it loses `P` at
once, then `P` holds in every state a run reaches if and only if all its transitions meet `C`. -/
theorem run_exact {P Q : σ → Prop} {C : σ → α → Prop} (hP : ∀ s, Q s → P s)
    (hstep : ∀ s a, Q s → C s a → Q (step s a)) (hlost : ∀ s a, Q s → ¬C s a → ¬P (step s a))
    {s : σ} {as : List α} (hs : Q s) :
    (∀ pre, pre <+: as → P (run step s pre)) ↔ ∀ p ∈ transitions step s as, C p.1 p.2 := by
  constructor
  · induction as generalizing s with
    | nil => simp [transitions]
    | cons a as ih =>
      intro hreached p hp
      have hhead : C s a :=
        Classical.byContradiction fun hnot => hlost s a hs hnot (hreached [a] (by simp))
      rcases List.mem_cons.mp hp with rfl | hp
      · exact hhead
      · refine ih (hstep s a hs hhead) (fun pre hpre => ?_) p hp
        exact hreached (a :: pre) (List.cons_prefix_cons.mpr ⟨rfl, hpre⟩)
  · intro hC pre hpre
    obtain ⟨post, rfl⟩ := hpre
    refine hP _ (run_invariant step hstep hs fun p hp => hC p ?_)
    obtain ⟨before, after, hsplit, hstate⟩ := (mem_transitions_iff step).mp hp
    exact (mem_transitions_iff step).mpr ⟨before, after ++ post, by simp [hsplit], hstate⟩

/-- The same for what is asked of the transitions themselves: if in the states `Q` describes `C` is
exactly what a transition has to meet, then all of a run are as asked if and only if all meet
`C`. -/
theorem transitions_exact {Q : σ → Prop} {G C : σ → α → Prop}
    (hexact : ∀ s a, Q s → (G s a ↔ C s a)) (hstep : ∀ s a, Q s → C s a → Q (step s a)) {s : σ}
    {as : List α} (hs : Q s) :
    (∀ p ∈ transitions step s as, G p.1 p.2) ↔ ∀ p ∈ transitions step s as, C p.1 p.2 := by
  induction as generalizing s with
  | nil => simp [transitions]
  | cons a as ih =>
    simp only [transitions, List.forall_mem_cons]
    constructor
    · rintro ⟨hgood, hrest⟩
      have hhead := (hexact s a hs).mp hgood
      exact ⟨hhead, (ih (hstep s a hs hhead)).mp hrest⟩
    · rintro ⟨hhead, hrest⟩
      exact ⟨(hexact s a hs).mpr hhead, (ih (hstep s a hs hhead)).mpr hrest⟩

/-- **Latches.** What a transition never undoes, and brings about exactly under `C`, holds after
a run if and only if it held before or some transition met `C`. -/
theorem run_latch {P : σ → Prop} {C : σ → α → Prop}
    (hstep : ∀ s a, P (step s a) ↔ P s ∨ C s a) (s : σ) (as : List α) :
    P (run step s as) ↔ P s ∨ ∃ p ∈ transitions step s as, C p.1 p.2 := by
  induction as generalizing s with
  | nil => simp [transitions]
  | cons a as ih =>
    rw [run_cons, ih, hstep, transitions, or_assoc]
    simp only [List.mem_cons, exists_eq_or_imp]

end DevScan.Lib
