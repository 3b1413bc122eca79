import Mathlib.Data.List.Basic

/-!
# `Lib/Tokens.lean` — how many tokens a separator cuts a text into

Two facts about `List.splitOn` beside the ones Mathlib has (`splitOn_intercalate`,
`intercalate_splitOn`): the number of tokens is the number of separators plus one, and a text
whose first separator is known is cut there.
-/

set_option autoImplicit false

namespace DevScan.Lib

variable {α : Type*} [DecidableEq α]

theorem splitOn_of_not_mem {c : α} {xs : List α} (h : c ∉ xs) : xs.splitOn c = [xs] := by
  have : ([c].intercalate [xs]).splitOn c = [xs] :=
    List.splitOn_intercalate c (by simpa using h) (by simp)
  simpa [List.intercalate] using this

theorem splitOn_append_cons {c : α} {xs : List α} (h : c ∉ xs) (ys : List α) :
    (xs ++ c :: ys).splitOn c = xs :: ys.splitOn c := by
  refine List.splitOnP_append_cons_of_forall_mem (fun x hx => ?_) c (by simp) ys
  exact beq_eq_false_iff_ne.mpr fun hxc => h (hxc ▸ hx)

theorem not_mem_or_first (c : α) (xs : List α) :
    c ∉ xs ∨ ∃ ys zs, xs = ys ++ c :: zs ∧ c ∉ ys := by
  induction xs with
  | nil => exact Or.inl (by simp)
  | cons x xs ih =>
    by_cases hx : c = x
    · exact Or.inr ⟨[], xs, by simp [hx], by simp⟩
    · rcases ih with h | ⟨ys, zs, rfl, h⟩
      · exact Or.inl (by simp [hx, h])
      · exact Or.inr ⟨x :: ys, zs, rfl, by simp [hx, h]⟩

/-- **Tokens are separators plus one.** -/
theorem length_splitOn (c : α) (xs : List α) : (xs.splitOn c).length = xs.count c + 1 := by
  induction h : xs.length using Nat.strongRecOn generalizing xs with
  | ind n ih =>
    rcases not_mem_or_first c xs with hc | ⟨ys, zs, rfl, hc⟩
    · rw [splitOn_of_not_mem hc, List.count_eq_zero_of_not_mem hc]; rfl
    · have hlt : zs.length < n := by
        rw [← h, List.length_append, List.length_cons]; omega
      rw [splitOn_append_cons hc, List.length_cons, ih _ hlt zs rfl, List.count_append,
        List.count_cons_self, List.count_eq_zero_of_not_mem hc]
      omega

end DevScan.Lib
