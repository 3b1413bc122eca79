import DevScan.Lib.Holdings
import Mathlib.Data.List.Count
import Mathlib.Data.List.Nodup

/-!
# `Lib/Custody.lean` — numbers that stand for something that has to be given back

A pool gives out numbers, to us and to others, and gives a number out again once it has been given
back. So a number does not say what it stands for; what we take is therefore counted
(`Holder.own`), and what our returns hit is kept. In a **sound** pool everything we have taken is
under exactly one number or has been given back once (`Sound`); with nothing left under any
number, everything has been given back exactly once (`Sound.returned_once`).
-/

set_option autoImplicit false

namespace DevScan.Lib.Custody

open Holdings (take release take_self take_of_held held_of_take held_of_release release_of_held)

/-- To whom a number has been given: to us, as the one taken after so many others, or not. -/
inductive Holder where
  | own (serial : Nat)
  | other
deriving DecidableEq, Repr

structure Pool (κ : Type*) where
  table : κ → Option Holder := fun _ => none
  /-- How often we have taken one. -/
  taken : Nat := 0
  /-- What was under the numbers we have given back, each time. -/
  returned : List (Option Holder) := []

namespace Pool

variable {κ : Type*} {p : Pool κ} {k m : κ}

/-- The number stands for something of ours. -/
def Owns (p : Pool κ) (k : κ) : Prop := ∃ n, p.table k = some (.own n)

/-- **Nothing lost, and nothing given back twice.** -/
structure Sound (p : Pool κ) : Prop where
  known : ∀ {k n}, p.table k = some (.own n) → n < p.taken
  sole : ∀ {k k' n}, p.table k = some (.own n) → p.table k' = some (.own n) → k = k'
  out : ∀ {k n}, p.table k = some (.own n) → some (.own n) ∉ p.returned
  past : ∀ {n}, some (.own n) ∈ p.returned → n < p.taken
  once : p.returned.Nodup
  accounted : ∀ {n}, n < p.taken → some (.own n) ∈ p.returned ∨ ∃ k, p.table k = some (.own n)

theorem sound_empty : Sound ({} : Pool κ) where
  known h := absurd h (by simp)
  sole h := absurd h (by simp)
  out h := absurd h (by simp)
  past h := absurd h (by simp)
  once := List.nodup_nil
  accounted h := absurd h (by simp)

/-- **With empty hands, everything has been given back once.** -/
theorem Sound.returned_once (h : p.Sound) (hempty : ∀ k, ¬p.Owns k) {n : Nat} (hn : n < p.taken) :
    p.returned.count (some (.own n)) = 1 := by
  rcases h.accounted hn with hreturned | ⟨m, hm⟩
  · exact List.count_eq_one_of_mem h.once hreturned
  · exact absurd ⟨n, hm⟩ (hempty m)

variable [DecidableEq κ]

def takeOwn (p : Pool κ) (k : κ) : Pool κ :=
  { p with table := take p.table k (.own p.taken), taken := p.taken + 1 }

def giveBack (p : Pool κ) (k : κ) : Pool κ :=
  { p with table := release p.table k, returned := p.returned ++ [p.table k] }

def otherTakes (p : Pool κ) (k : κ) : Pool κ := { p with table := take p.table k .other }

def otherGivesBack (p : Pool κ) (k : κ) : Pool κ := { p with table := release p.table k }

namespace Sound

theorem takeOwn (h : p.Sound) (hfree : p.table k = none) : (p.takeOwn k).Sound where
  known hn := by
    rcases held_of_take hn with ⟨-, heq⟩ | hn
    · cases heq
      exact Nat.lt_succ_self _
    · exact Nat.lt_succ_of_lt (h.known hn)
  sole hn hn' := by
    rcases held_of_take hn with ⟨rfl, heq⟩ | hn
    · cases heq
      rcases held_of_take hn' with ⟨rfl, -⟩ | hn'
      · rfl
      · exact absurd (h.known hn') (Nat.lt_irrefl _)
    · rcases held_of_take hn' with ⟨-, heq⟩ | hn'
      · cases heq
        exact absurd (h.known hn) (Nat.lt_irrefl _)
      · exact h.sole hn hn'
  out hn hreturned := by
    rcases held_of_take hn with ⟨-, heq⟩ | hn
    · cases heq
      exact absurd (h.past hreturned) (Nat.lt_irrefl _)
    · exact h.out hn hreturned
  past hreturned := Nat.lt_succ_of_lt (h.past hreturned)
  once := h.once
  accounted hn := by
    rcases Nat.lt_succ_iff_lt_or_eq.mp hn with hlt | rfl
    · rcases h.accounted hlt with hreturned | ⟨m, hm⟩
      · exact Or.inl hreturned
      · exact Or.inr ⟨m, take_of_held hfree hm⟩
    · exact Or.inr ⟨k, take_self⟩

theorem giveBack (h : p.Sound) (hown : p.Owns k) : (p.giveBack k).Sound := by
  obtain ⟨n, hn⟩ := hown
  have hmem : ∀ {o}, o ∈ (p.giveBack k).returned ↔ o ∈ p.returned ∨ o = some (.own n) := by
    intro o
    simp [Pool.giveBack, hn]
  refine ⟨fun hm => h.known (held_of_release hm).2,
    fun hm hm' => h.sole (held_of_release hm).2 (held_of_release hm').2, fun hm hreturned => ?_,
    fun hreturned => ?_, ?_, fun hlt => ?_⟩
  · obtain ⟨hne, hm⟩ := held_of_release hm
    rcases hmem.mp hreturned with hreturned | heq
    · exact h.out hm hreturned
    · exact hne (h.sole hm (hn.trans heq.symm))
  · rcases hmem.mp hreturned with hreturned | heq
    · exact h.past hreturned
    · exact h.known (hn.trans heq.symm)
  · refine h.once.append (List.nodup_singleton _) fun o ho hsingle => ?_
    obtain rfl := List.mem_singleton.mp hsingle
    exact h.out hn (hn ▸ ho)
  · rcases h.accounted hlt with hreturned | ⟨m, hm⟩
    · exact Or.inl (hmem.mpr (Or.inl hreturned))
    · by_cases heq : m = k
      · rw [heq] at hm
        exact Or.inl (hmem.mpr (Or.inr (hm.symm.trans hn)))
      · exact Or.inr ⟨m, (Holdings.release_of_ne heq).trans hm⟩

theorem otherTakes (h : p.Sound) (hfree : p.table k = none) : (p.otherTakes k).Sound := by
  have hkept : ∀ {m n}, (p.otherTakes k).table m = some (.own n) → p.table m = some (.own n) := by
    intro m n hm
    rcases held_of_take hm with ⟨-, heq⟩ | hm
    · cases heq
    · exact hm
  refine ⟨fun hm => h.known (hkept hm), fun hm hm' => h.sole (hkept hm) (hkept hm'),
    fun hm => h.out (hkept hm), h.past, h.once, fun hlt => ?_⟩
  rcases h.accounted hlt with hreturned | ⟨m, hm⟩
  · exact Or.inl hreturned
  · exact Or.inr ⟨m, take_of_held hfree hm⟩

theorem otherGivesBack (h : p.Sound) (hother : p.table k = some .other) :
    (p.otherGivesBack k).Sound := by
  refine ⟨fun hm => h.known (held_of_release hm).2,
    fun hm hm' => h.sole (held_of_release hm).2 (held_of_release hm').2,
    fun hm => h.out (held_of_release hm).2, h.past, h.once, fun hlt => ?_⟩
  rcases h.accounted hlt with hreturned | ⟨m, hm⟩
  · exact Or.inl hreturned
  · exact Or.inr ⟨m, release_of_held (by simp [hother]) hm⟩

end Sound

/-! ## What is ours stays ours -/

theorem owns_takeOwn : (p.takeOwn k).Owns k := ⟨p.taken, take_self⟩

theorem Owns.takeOwn (h : p.Owns m) (hfree : p.table k = none) : (p.takeOwn k).Owns m :=
  h.imp fun _ hn => take_of_held hfree hn

theorem owns_of_takeOwn (h : (p.takeOwn k).Owns m) : m = k ∨ p.Owns m := by
  obtain ⟨n, hn⟩ := h
  rcases held_of_take hn with ⟨heq, -⟩ | hn
  · exact Or.inl heq
  · exact Or.inr ⟨n, hn⟩

theorem Owns.giveBack (h : p.Owns m) (hne : m ≠ k) : (p.giveBack k).Owns m :=
  h.imp fun _ hn => (Holdings.release_of_ne hne).trans hn

theorem owns_of_giveBack (h : (p.giveBack k).Owns m) : m ≠ k ∧ p.Owns m := by
  obtain ⟨n, hn⟩ := h
  obtain ⟨hne, hn⟩ := held_of_release hn
  exact ⟨hne, n, hn⟩

theorem owns_otherTakes_iff (hfree : p.table k = none) : (p.otherTakes k).Owns m ↔ p.Owns m := by
  constructor
  · rintro ⟨n, hn⟩
    rcases held_of_take hn with ⟨-, heq⟩ | hn
    · cases heq
    · exact ⟨n, hn⟩
  · exact fun h => h.imp fun _ hn => take_of_held hfree hn

theorem owns_otherGivesBack_iff (hother : p.table k = some .other) :
    (p.otherGivesBack k).Owns m ↔ p.Owns m := by
  constructor
  · rintro ⟨n, hn⟩
    exact ⟨n, (held_of_release hn).2⟩
  · exact fun h => h.imp fun _ hn => release_of_held (by simp [hother]) hn

end Pool
end DevScan.Lib.Custody
