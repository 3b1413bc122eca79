import Mathlib.Data.List.Basic
import Mathlib.Data.List.Infix

/-!
# `Lib/Occurrences.lean` — the first occurrence of a pattern in a text

An occurrence of a pattern is a cut `before ++ (pattern ++ behind)` of the text; the **first** one
has the shortest `before`. A text without any is one the pattern is not an infix of. Beside
existence and uniqueness there is what a scan that writes in front of itself needs: where an
occurrence in `inserted ++ rest` can lie.
-/

set_option autoImplicit false

namespace DevScan.Lib

variable {α : Type*} {pattern text before behind : List α}

/-- The pattern occurs behind `before`, in front of `behind`, and nowhere earlier. -/
structure FirstAt (pattern text before behind : List α) : Prop where
  cut : text = before ++ (pattern ++ behind)
  first : ∀ before' behind', text = before' ++ (pattern ++ behind') →
    before.length ≤ before'.length

namespace FirstAt

theorem occurs (h : FirstAt pattern text before behind) : pattern <:+: text :=
  ⟨before, behind, by rw [h.cut, List.append_assoc]⟩

theorem length_eq (h : FirstAt pattern text before behind) :
    text.length = before.length + (pattern.length + behind.length) := by
  rw [h.cut, List.length_append, List.length_append]

/-- The same for what a text has left from a position on. -/
theorem length_sub_eq {pos : Nat} (h : FirstAt pattern (text.drop pos) before behind) :
    text.length - pos = before.length + (pattern.length + behind.length) := by
  rw [← List.length_drop]
  exact h.length_eq

theorem take_length (h : FirstAt pattern text before behind) :
    text.take before.length = before := by
  rw [h.cut, List.take_left]

theorem drop_length (h : FirstAt pattern text before behind) :
    text.drop (before.length + pattern.length) = behind := by
  rw [h.cut, ← List.drop_drop, List.drop_left, List.drop_left]

/-- There is one first occurrence. -/
theorem unique {before' behind' : List α} (h : FirstAt pattern text before behind)
    (h' : FirstAt pattern text before' behind') : before = before' ∧ behind = behind' := by
  have hlen : before.length = before'.length :=
    Nat.le_antisymm (h.first _ _ h'.cut) (h'.first _ _ h.cut)
  obtain ⟨hbefore, hrest⟩ := List.append_inj (h.cut.symm.trans h'.cut) hlen
  exact ⟨hbefore, List.append_cancel_left hrest⟩

/-- In front of the first occurrence there is none. -/
theorem absent_before (h : FirstAt pattern text before behind) (hpattern : pattern ≠ []) :
    ¬pattern <:+: before := by
  rintro ⟨front, rest, hcut⟩
  have hpositive : 0 < pattern.length := List.length_pos_iff.mpr hpattern
  have hle := h.first front (rest ++ (pattern ++ behind)) (by
    rw [h.cut, ← hcut, List.append_assoc, List.append_assoc])
  rw [← hcut, List.length_append, List.length_append] at hle
  omega

theorem nil (pattern behind : List α) : FirstAt pattern (pattern ++ behind) [] behind :=
  ⟨rfl, fun _ _ _ => Nat.zero_le _⟩

end FirstAt

theorem absent_or_firstAt (pattern text : List α) :
    ¬pattern <:+: text ∨ ∃ before behind, FirstAt pattern text before behind := by
  induction text with
  | nil =>
    cases pattern with
    | nil => exact Or.inr ⟨[], [], FirstAt.nil [] []⟩
    | cons c rest => exact Or.inl (by simp)
  | cons c rest ih =>
    by_cases hfront : pattern <+: c :: rest
    · obtain ⟨behind, hcut⟩ := hfront
      exact Or.inr ⟨[], behind, hcut ▸ FirstAt.nil pattern behind⟩
    · rcases ih with habsent | ⟨before, behind, hfirst⟩
      · exact Or.inl fun hinfix => (List.infix_cons_iff.mp hinfix).elim hfront habsent
      · refine Or.inr ⟨c :: before, behind, by rw [hfirst.cut]; rfl, fun before' behind' hcut => ?_⟩
        cases before' with
        | nil => exact absurd ⟨behind', hcut.symm⟩ hfront
        | cons d before' =>
          obtain ⟨-, hrest⟩ := List.cons.inj hcut
          exact Nat.succ_le_succ (hfirst.first _ _ hrest)

/-! ## Occurrences in an inserted text and what follows it -/

/-- **An occurrence the inserted text does not contain ends behind it**: what is left of the rest
is shorter than the rest. -/
theorem behind_lt_of_absent {inserted rest : List α}
    (habsent : ¬pattern <:+: inserted)
    (hcut : inserted ++ rest = before ++ (pattern ++ behind)) : behind.length < rest.length := by
  rw [← List.append_assoc] at hcut
  rcases List.append_eq_append_iff.mp hcut with ⟨used, hused, hrest⟩ | ⟨more, hinserted, -⟩
  · cases used with
    | nil =>
      rw [List.append_nil] at hused
      exact absurd ⟨before, [], by rw [List.append_nil]; exact hused⟩ habsent
    | cons c used => rw [hrest, List.length_append, List.length_cons]; omega
  · exact absurd ⟨before, more, hinserted.symm⟩ habsent

/-- An occurrence starts behind the inserted text, or a part of the pattern that is not empty
ends the inserted text. -/
theorem starts_behind_or_overlaps {inserted rest : List α}
    (habsent : ¬pattern <:+: inserted)
    (hcut : inserted ++ rest = before ++ (pattern ++ behind)) :
    (∃ before', before = inserted ++ before' ∧ rest = before' ++ (pattern ++ behind)) ∨
      ∃ overlap, overlap ≠ [] ∧ overlap <:+ inserted ∧ overlap <+: pattern := by
  rcases List.append_eq_append_iff.mp hcut with ⟨before', hbefore, hrest⟩ | ⟨tail, hinserted, htail⟩
  · exact Or.inl ⟨before', hbefore, hrest⟩
  · cases tail with
    | nil =>
      rw [List.append_nil] at hinserted
      exact Or.inl ⟨[], by rw [hinserted, List.append_nil], htail.symm⟩
    | cons c tail =>
      refine Or.inr ⟨c :: tail, List.cons_ne_nil c tail, ⟨before, hinserted.symm⟩, ?_⟩
      rcases List.append_eq_append_iff.mp htail with ⟨more, hmore, -⟩ | ⟨further, hfurther, -⟩
      · refine absurd ⟨before, more, ?_⟩ habsent
        rw [hinserted, hmore, List.append_assoc]
      · exact ⟨further, hfurther.symm⟩

/-- Where nothing overlaps, the inserted text hides no occurrence and adds none. -/
theorem absent_append {inserted rest : List α} (habsent : ¬pattern <:+: inserted)
    (hoverlap : ∀ overlap, overlap ≠ [] → overlap <:+ inserted → ¬overlap <+: pattern)
    (hrest : ¬pattern <:+: rest) : ¬pattern <:+: inserted ++ rest := by
  rintro ⟨before, behind, hcut⟩
  rw [List.append_assoc] at hcut
  rcases starts_behind_or_overlaps habsent hcut.symm with ⟨before', -, hin⟩ | ⟨p, hp, hsuffix, hin⟩
  · exact hrest ⟨before', behind, by rw [hin, List.append_assoc]⟩
  · exact hoverlap p hp hsuffix hin

theorem FirstAt.append_left {inserted rest : List α} (habsent : ¬pattern <:+: inserted)
    (hoverlap : ∀ overlap, overlap ≠ [] → overlap <:+ inserted → ¬overlap <+: pattern)
    (h : FirstAt pattern rest before behind) :
    FirstAt pattern (inserted ++ rest) (inserted ++ before) behind := by
  refine ⟨by rw [h.cut, List.append_assoc], fun before' behind' hcut => ?_⟩
  rcases starts_behind_or_overlaps habsent hcut with ⟨later, rfl, hin⟩ | ⟨p, hp, hsuffix, hin⟩
  · rw [List.length_append, List.length_append]
    exact Nat.add_le_add_left (h.first _ _ hin) _
  · exact absurd hin (hoverlap p hp hsuffix)

end DevScan.Lib
