import DevScan.Text.Split

/-!
# `Text/Trim.lean` — `hbm/string/trim.cpp`

Six functions take a character away from the ends of a text. They look for the first or the last
other character, and for `npos`, nothing but the character, they do different things: `erase`
takes all of the text away, and `trim_right_if` returns and leaves all of it.

Every other text is a **bare** one, which starts and ends with another character, between two runs
of the character. Each function is one equation about that form.
-/

set_option autoImplicit false

namespace DevScan.Text

/-- `text.find_first_not_of(ch)`; `none` is `npos`. -/
def findFirstNotOf (text : StdString) (ch : Char) : Option Nat :=
  text.findIdx? (· != ch)

/-- The search of `find_last_not_of` in the first so many characters, from the last one down. -/
def lastNotOf (text : StdString) (ch : Char) : Nat → Option Nat
  | 0 => none
  | size + 1 => if text[size]? = some ch then lastNotOf text ch size else some size

/-- `text.find_last_not_of(ch)` -/
def findLastNotOf (text : StdString) (ch : Char) : Option Nat :=
  lastNotOf text ch text.length

/-- `text.erase(pos, count)`; `none` for `count` is `npos`. -/
def erase (text : StdString) (pos : Nat) : Option Nat → StdString
  | some count => text.take pos ++ text.drop (pos + count)
  | none => text.take pos

def trimLeftIf (text : StdString) (ch : Char) : StdString :=
  erase text 0 (findFirstNotOf text ch)

def trimRightIf (text : StdString) (ch : Char) : StdString :=
  match findLastNotOf text ch with
  | none => text
  | some last => erase text (last + 1) none

def trimLeft (text : StdString) : StdString := trimLeftIf text ' '

def trimRight (text : StdString) : StdString := trimRightIf text ' '

def trim (text : StdString) : StdString := trimRight (trimLeft text)

def trimCopy (text : StdString) : StdString :=
  match findFirstNotOf text ' ' with
  | none => []
  | some start => substr text start ((findLastNotOf text ' ').map fun last => last - start + 1)

/-! ## Texts that start and end with another character -/

/-- Nothing of `ch` at either end, and not empty. -/
structure Bare (ch : Char) (core : StdString) : Prop where
  first : ∃ c rest, core = c :: rest ∧ c ≠ ch
  last : ∃ front c, core = front ++ [c] ∧ c ≠ ch

variable {ch : Char} {core : StdString}

theorem Bare.reverse (h : Bare ch core) : Bare ch core.reverse := by
  obtain ⟨⟨c, rest, hcore, hc⟩, ⟨front, d, hcore', hd⟩⟩ := h
  refine ⟨⟨d, front.reverse, ?_, hd⟩, ⟨rest.reverse, c, ?_, hc⟩⟩
  · rw [hcore', List.reverse_append, List.reverse_singleton, List.singleton_append]
  · rw [hcore, List.reverse_cons]

theorem exists_run_in_front (ch : Char) (text : StdString) :
    ∃ n rest, text = List.replicate n ch ++ rest ∧
      (rest = [] ∨ ∃ c rest', rest = c :: rest' ∧ c ≠ ch) := by
  induction text with
  | nil => exact ⟨0, [], rfl, Or.inl rfl⟩
  | cons c text ih =>
    by_cases hc : c = ch
    · obtain ⟨n, rest, rfl, hrest⟩ := ih
      exact ⟨n + 1, rest, by rw [hc, List.replicate_succ, List.cons_append], hrest⟩
    · exact ⟨0, c :: text, rfl, Or.inr ⟨c, text, rfl, hc⟩⟩

theorem exists_run_behind (ch : Char) (text : StdString) :
    ∃ front n, text = front ++ List.replicate n ch ∧
      (front = [] ∨ ∃ front' c, front = front' ++ [c] ∧ c ≠ ch) := by
  obtain ⟨n, rest, htext, hrest⟩ := exists_run_in_front ch text.reverse
  refine ⟨rest.reverse, n, ?_, ?_⟩
  · rw [← List.reverse_reverse text, htext, List.reverse_append, List.reverse_replicate]
  · rcases hrest with rfl | ⟨c, rest', rfl, hc⟩
    · exact Or.inl rfl
    · exact Or.inr ⟨rest'.reverse, c, List.reverse_cons, hc⟩

/-- A text is a run of `ch`, or a bare text between two of them. -/
theorem run_or_bare (ch : Char) (text : StdString) :
    (∃ n, text = List.replicate n ch) ∨
      ∃ n core m, text = List.replicate n ch ++ (core ++ List.replicate m ch) ∧ Bare ch core := by
  obtain ⟨n, rest, rfl, hrest⟩ := exists_run_in_front ch text
  rcases hrest with rfl | ⟨c, rest', hrest, hc⟩
  · exact Or.inl ⟨n, List.append_nil _⟩
  · obtain ⟨front, m, rfl, hfront⟩ := exists_run_behind ch rest
    refine Or.inr ⟨n, front, m, rfl, ?_⟩
    rcases hfront with rfl | ⟨front', d, rfl, hd⟩
    · have hmem : c ∈ List.replicate m ch := by
        rw [List.nil_append] at hrest
        exact hrest ▸ List.mem_cons_self
      exact absurd (List.eq_of_mem_replicate hmem) hc
    · refine ⟨?_, ⟨front', d, rfl, hd⟩⟩
      cases front' with
      | nil => exact ⟨d, [], rfl, hd⟩
      | cons e front' =>
        obtain ⟨rfl, -⟩ := List.cons.inj hrest
        exact ⟨e, front' ++ [d], rfl, hc⟩

/-! ## What the functions make of both forms -/

theorem findFirstNotOf_run (n : Nat) : findFirstNotOf (List.replicate n ch) ch = none := by
  refine List.findIdx?_eq_none_iff.mpr fun c hc => ?_
  rw [List.eq_of_mem_replicate hc, bne_self_eq_false]

theorem findFirstNotOf_bare (h : Bare ch core) (n : Nat) (behind : StdString) :
    findFirstNotOf (List.replicate n ch ++ (core ++ behind)) ch = some n := by
  obtain ⟨c, rest, rfl, hc⟩ := h.first
  have hrun : (List.replicate n ch).findIdx? (· != ch) = none := findFirstNotOf_run n
  rw [findFirstNotOf, List.findIdx?_append, hrun, List.cons_append, List.findIdx?_cons,
    if_pos (bne_iff_ne.mpr hc)]
  simp

theorem lastNotOf_run (n size : Nat) (h : size ≤ n) :
    lastNotOf (List.replicate n ch) ch size = none := by
  induction size with
  | zero => rfl
  | succ size ih =>
    rw [lastNotOf, if_pos (List.getElem?_replicate_of_lt h)]
    exact ih (Nat.le_of_succ_le h)

/-- What lies behind the searched characters does not matter. -/
theorem lastNotOf_append_left (text behind : StdString) (size : Nat) (h : size ≤ text.length) :
    lastNotOf (text ++ behind) ch size = lastNotOf text ch size := by
  induction size with
  | zero => rfl
  | succ size ih =>
    rw [lastNotOf, lastNotOf, List.getElem?_append_left h, ih (Nat.le_of_succ_le h)]

/-- The search goes down through a run of `ch` at the end. -/
theorem lastNotOf_append_run (text : StdString) (n m : Nat) (h : m ≤ n) :
    lastNotOf (text ++ List.replicate n ch) ch (text.length + m) = findLastNotOf text ch := by
  induction m with
  | zero => exact lastNotOf_append_left text _ _ (Nat.le_refl _)
  | succ m ih =>
    have hrun : (text ++ List.replicate n ch)[text.length + m]? = some ch := by
      rw [List.getElem?_append_right (Nat.le_add_right _ _), Nat.add_sub_cancel_left]
      exact List.getElem?_replicate_of_lt h
    rw [← Nat.add_assoc, lastNotOf, if_pos hrun]
    exact ih (Nat.le_of_succ_le h)

theorem findLastNotOf_run (n : Nat) : findLastNotOf (List.replicate n ch) ch = none :=
  lastNotOf_run n _ (Nat.le_of_eq List.length_replicate)

theorem findLastNotOf_concat {c : Char} (hc : c ≠ ch) (front : StdString) (n : Nat) :
    findLastNotOf (front ++ [c] ++ List.replicate n ch) ch = some front.length := by
  have hlast : (front ++ [c])[front.length]? ≠ some ch := by
    rw [List.getElem?_concat_length]
    exact fun heq => hc (Option.some.inj heq)
  have hrun : lastNotOf (front ++ [c] ++ List.replicate n ch) ch ((front ++ [c]).length + n) =
      findLastNotOf (front ++ [c]) ch := lastNotOf_append_run (front ++ [c]) n n (Nat.le_refl n)
  rw [findLastNotOf, List.length_append, List.length_replicate, hrun, findLastNotOf,
    List.length_append, List.length_singleton, lastNotOf, if_neg hlast]

theorem trimLeftIf_run (n : Nat) : trimLeftIf (List.replicate n ch) ch = [] := by
  rw [trimLeftIf, findFirstNotOf_run, erase, List.take_zero]

theorem trimRightIf_run (n : Nat) :
    trimRightIf (List.replicate n ch) ch = List.replicate n ch := by
  rw [trimRightIf, findLastNotOf_run]

theorem trimLeftIf_bare (h : Bare ch core) (n : Nat) (behind : StdString) :
    trimLeftIf (List.replicate n ch ++ (core ++ behind)) ch = core ++ behind := by
  rw [trimLeftIf, findFirstNotOf_bare h, erase, List.take_zero, List.nil_append, Nat.zero_add,
    List.drop_left' List.length_replicate]

theorem findLastNotOf_bare (h : Bare ch core) (front : StdString) (m : Nat) :
    ∃ last, findLastNotOf (front ++ (core ++ List.replicate m ch)) ch = some last ∧
      last + 1 = front.length + core.length := by
  obtain ⟨front', c, rfl, hc⟩ := h.last
  refine ⟨(front ++ front').length, ?_, ?_⟩
  · rw [← findLastNotOf_concat hc (front ++ front') m]
    simp only [List.append_assoc]
  · rw [List.length_append, List.length_append, List.length_singleton, Nat.add_assoc]

theorem trimRightIf_bare (h : Bare ch core) (front : StdString) (m : Nat) :
    trimRightIf (front ++ (core ++ List.replicate m ch)) ch = front ++ core := by
  obtain ⟨last, hfind, hlast⟩ := findLastNotOf_bare h front m
  simp only [trimRightIf, hfind, erase]
  rw [hlast, ← List.append_assoc, List.take_left' List.length_append]

theorem trimCopy_run (n : Nat) : trimCopy (List.replicate n ' ') = [] := by
  rw [trimCopy, findFirstNotOf_run]

theorem trimCopy_bare (h : Bare ' ' core) (n m : Nat) :
    trimCopy (List.replicate n ' ' ++ (core ++ List.replicate m ' ')) = core := by
  obtain ⟨last, hfind, hlast⟩ := findLastNotOf_bare h (List.replicate n ' ') m
  rw [List.length_replicate] at hlast
  obtain ⟨c, rest, hcore, -⟩ := h.first
  have hlen : last - n + 1 = core.length := by
    have hpositive : 0 < core.length := by rw [hcore, List.length_cons]; omega
    omega
  simp only [trimCopy, findFirstNotOf_bare h, hfind, substr, Option.map_some]
  rw [hlen, List.drop_left' List.length_replicate, List.take_left]

/-! ## Left and right -/

/-- What `left` and `right` leave of a text is each other's mirror, and does not start and not end
with `ch`. -/
structure Mirrored (left right : StdString → StdString) (ch : Char) (text : StdString) : Prop where
  mirror : right text = (left text.reverse).reverse
  starts : (left text).head? ≠ some ch
  ends : (right text).getLast? ≠ some ch

theorem mirrored_iff (text : StdString) (ch : Char) :
    Mirrored (trimLeftIf · ch) (trimRightIf · ch) ch text ↔ text = [] ∨ ∃ c ∈ text, c ≠ ch := by
  rcases run_or_bare ch text with ⟨n, rfl⟩ | ⟨n, core, m, rfl, h⟩
  · constructor
    · intro hmirrored
      have hmirror := hmirrored.mirror
      simp only [List.reverse_replicate, trimLeftIf_run, trimRightIf_run, List.reverse_nil]
        at hmirror
      exact Or.inl hmirror
    · rintro (hnil | ⟨c, hc, hne⟩)
      · rw [hnil]
        exact ⟨rfl, Option.some_ne_none ch ∘ Eq.symm, Option.some_ne_none ch ∘ Eq.symm⟩
      · exact absurd (List.eq_of_mem_replicate hc) hne
  · obtain ⟨c, rest, hcore, hc⟩ := h.first
    obtain ⟨front, d, hcore', hd⟩ := h.last
    refine ⟨fun _ => Or.inr ⟨c, ?_, hc⟩, fun _ => ⟨?_, ?_, ?_⟩⟩
    · rw [hcore]
      simp
    · simp only [trimRightIf_bare h, List.reverse_append, List.reverse_replicate]
      rw [List.append_assoc, trimLeftIf_bare h.reverse, List.reverse_append,
        List.reverse_reverse, List.reverse_replicate]
    · simp only [trimLeftIf_bare h]
      rw [hcore]
      exact fun heq => hc (Option.some.inj heq)
    · simp only [trimRightIf_bare h]
      rw [hcore', ← List.append_assoc, List.getLast?_concat]
      exact fun heq => hd (Option.some.inj heq)

/-- In either order, at once or in a copy: the same text is left. -/
theorem trimCopy_eq (text : StdString) :
    trimCopy text = trim text ∧ trimLeft (trimRight text) = trim text := by
  rcases run_or_bare ' ' text with ⟨n, rfl⟩ | ⟨n, core, m, rfl, h⟩
  · have hleft : trimLeft (List.replicate n ' ') = [] := trimLeftIf_run n
    have hright : trimRight (List.replicate n ' ') = List.replicate n ' ' := trimRightIf_run n
    rw [trim, hright, hleft, trimCopy_run]
    exact ⟨rfl, rfl⟩
  · have hleft : trim (List.replicate n ' ' ++ (core ++ List.replicate m ' ')) = core := by
      rw [trim, trimLeft, trimRight, trimLeftIf_bare h]
      exact trimRightIf_bare h [] m
    have hright : trimLeft (trimRight (List.replicate n ' ' ++ (core ++ List.replicate m ' '))) =
        core := by
      have hcore := trimLeftIf_bare h n []
      rw [List.append_nil] at hcore
      rw [trimLeft, trimRight, trimRightIf_bare h, hcore]
    exact ⟨(trimCopy_bare h n m).trans hleft.symm, hright.trans hleft.symm⟩

/-- **When left and right trimming mirror each other**: on every text that is empty or contains
another character than the trimmed one. -/
theorem trims_mirrored_iff (text : StdString) (ch : Char) :
    (Mirrored (trimLeftIf · ch) (trimRightIf · ch) ch text ↔ text = [] ∨ ∃ c ∈ text, c ≠ ch) ∧
    (Mirrored trimLeft trimRight ' ' text ↔ text = [] ∨ ∃ c ∈ text, c ≠ ' ') ∧
    trimCopy text = trim text ∧ trimLeft (trimRight text) = trim text :=
  ⟨mirrored_iff text ch, mirrored_iff text ' ', trimCopy_eq text⟩

/-- Of one blank `trim_left` leaves nothing, and `trim_right` the blank. -/
theorem trims_not_mirrored :
    trimLeft " ".toList = [] ∧ trimRight " ".toList = " ".toList ∧
      ¬Mirrored trimLeft trimRight ' ' " ".toList ∧
      ¬Mirrored (trimLeftIf · ' ') (trimRightIf · ' ') ' ' " ".toList := by
  have hleft : trimLeft " ".toList = [] := by decide
  have hright : trimRight " ".toList = " ".toList := by decide
  have hnot : ¬Mirrored trimLeft trimRight ' ' " ".toList := fun hmirrored =>
    hmirrored.ends (by rw [hright]; decide)
  exact ⟨hleft, hright, hnot, hnot⟩

end DevScan.Text
