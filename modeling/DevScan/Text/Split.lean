import DevScan.Lib.Tokens
import DevScan.Lib.Occurrences

/-!
# `Text/Split.lean` — `hbm::string::split`

A `std::string` is the list of its characters, one `Char` for each `char`. `split` is the loop
of `hbm/string/split.cpp`: find the separator from `pos_start`, cut, go on behind it. The loop
carries the number of rounds it may still take; `split` grants one more than the text is long,
and the theorems below say what comes out: the text is cut at the first separator and so on
behind it, and for the one-character separators the communication paths use that is exactly
`List.splitOn`.
-/

set_option autoImplicit false

namespace DevScan

/-- `std::string`. -/
abbrev StdString := List Char

namespace Text

/-- `text.find(separator, pos)`; `none` is `std::string::npos`. -/
def find (text separator : StdString) (pos : Nat) : Option Nat :=
  (List.range' pos (text.length + 1 - pos)).find? fun i => separator.isPrefixOf (text.drop i)

/-- `text.substr(pos, count)`; `none` for `count` is `npos`, i.e. up to the end. -/
def substr (text : StdString) (pos : Nat) : Option Nat → StdString
  | some count => (text.drop pos).take count
  | none => text.drop pos

/-- The `while(1)` of `split`, from `pos_start` on. -/
def splitLoop (text separator : StdString) : Nat → Nat → List StdString
  | 0, _ => []
  | rounds + 1, pos_start =>
    match find text separator pos_start with
    | none => [substr text pos_start none]
    | some pos_end =>
      substr text pos_start (some (pos_end - pos_start)) ::
        splitLoop text separator rounds (pos_end + separator.length)

def split (text separator : StdString) : List StdString :=
  if separator.length = 0 then [text] else splitLoop text separator (text.length + 1) 0

/-! ## What `find` finds -/

variable {text separator before behind : StdString}

theorem find_absent {pos : Nat} (h : ¬separator <:+: text.drop pos) :
    find text separator pos = none := by
  refine List.find?_range'_eq_none.mpr fun i hi _ => ?_
  rw [Bool.not_eq_true', ← Bool.not_eq_true, List.isPrefixOf_iff_prefix]
  intro hoccurs
  refine h (hoccurs.isInfix.trans ?_)
  rw [← Nat.add_sub_cancel' hi, ← List.drop_drop]
  exact (List.drop_suffix _ _).isInfix

theorem find_firstAt {pos : Nat} (hsep : separator ≠ [])
    (h : Lib.FirstAt separator (text.drop pos) before behind) :
    find text separator pos = some (pos + before.length) := by
  have hlen : text.length - pos = before.length + (separator.length + behind.length) :=
    h.length_sub_eq
  have hpositive : 0 < separator.length := List.length_pos_iff.mpr hsep
  refine List.find?_range'_eq_some.mpr ⟨?_, ?_, fun j hj hlt => ?_⟩
  · rw [List.isPrefixOf_iff_prefix, ← List.drop_drop, h.cut, List.drop_left]
    exact List.prefix_append separator behind
  · rw [List.mem_range'_1]; omega
  · obtain ⟨i, rfl⟩ := Nat.exists_eq_add_of_le hj
    rw [Bool.not_eq_true', ← Bool.not_eq_true, List.isPrefixOf_iff_prefix, ← List.drop_drop]
    intro hoccurs
    obtain ⟨rest, hrest⟩ := hoccurs
    have hle := h.first ((text.drop pos).take i) rest (by rw [hrest, List.take_append_drop])
    rw [List.length_take] at hle
    omega

theorem find_eq_none_iff {pos : Nat} (hsep : separator ≠ []) :
    find text separator pos = none ↔ ¬separator <:+: text.drop pos := by
  refine ⟨fun h => ?_, find_absent⟩
  rcases Lib.absent_or_firstAt separator (text.drop pos) with habsent | ⟨before, behind, hfirst⟩
  · exact habsent
  · exact absurd (find_firstAt hsep hfirst) (by simp [h])

theorem find_eq_some_iff {pos i : Nat} (hsep : separator ≠ []) :
    find text separator pos = some i ↔
      ∃ before behind, Lib.FirstAt separator (text.drop pos) before behind ∧
        i = pos + before.length := by
  constructor
  · intro h
    rcases Lib.absent_or_firstAt separator (text.drop pos) with habsent | ⟨before, behind, hfirst⟩
    · exact absurd (find_absent habsent) (by simp [h])
    · refine ⟨before, behind, hfirst, ?_⟩
      exact Option.some.inj (h.symm.trans (find_firstAt hsep hfirst))
  · rintro ⟨before, behind, hfirst, rfl⟩
    exact find_firstAt hsep hfirst

/-- Looking from a position on is looking in the text from there. -/
theorem find_drop (hsep : separator ≠ []) (text : StdString) (pos : Nat) :
    find text separator pos = (find (text.drop pos) separator 0).map (pos + ·) := by
  rcases Lib.absent_or_firstAt separator (text.drop pos) with habsent | ⟨before, behind, hfirst⟩
  · rw [find_absent habsent, find_absent (show ¬separator <:+: (text.drop pos).drop 0 from habsent)]
    rfl
  · have hzero : Lib.FirstAt separator ((text.drop pos).drop 0) before behind := hfirst
    rw [find_firstAt hsep hfirst, find_firstAt hsep hzero, Nat.zero_add]
    rfl

/-! ## What `split` cuts -/

/-- The rest of the text alone decides what the loop still cuts. The rounds never run out: each
one moves `pos_start` behind a separator, and no round starts behind the end of the text. -/
theorem splitLoop_eq (hsep : separator ≠ []) {text' : StdString} :
    ∀ (rounds rounds' pos pos' : Nat), text.length < rounds + pos → pos ≤ text.length →
      text'.length < rounds' + pos' → pos' ≤ text'.length → text.drop pos = text'.drop pos' →
      splitLoop text separator rounds pos = splitLoop text' separator rounds' pos' := by
  have hpositive : 0 < separator.length := List.length_pos_iff.mpr hsep
  intro rounds
  induction rounds with
  | zero => intro rounds' pos pos' h hpos; omega
  | succ rounds ih =>
    intro rounds' pos pos' h hpos h' hpos' hrest
    obtain ⟨rounds', rfl⟩ : ∃ r, rounds' = r + 1 := ⟨rounds' - 1, by omega⟩
    rw [splitLoop, splitLoop]
    rcases Lib.absent_or_firstAt separator (text.drop pos) with habsent | ⟨before, behind, hfirst⟩
    · rw [find_absent habsent, find_absent (hrest ▸ habsent)]
      exact congrArg (fun token => [token]) hrest
    · have hlen : text.length - pos = before.length + (separator.length + behind.length) :=
        hfirst.length_sub_eq
      have hfirst' : Lib.FirstAt separator (text'.drop pos') before behind := hrest ▸ hfirst
      have hlen' : text'.length - pos' = before.length + (separator.length + behind.length) :=
        hfirst'.length_sub_eq
      rw [find_firstAt hsep hfirst, find_firstAt hsep hfirst']
      simp only [substr, Nat.add_sub_cancel_left, ← hrest]
      congr 1
      refine ih _ _ _ (by omega) (by omega) (by omega) (by omega) ?_
      rw [Nat.add_assoc pos, Nat.add_assoc pos', ← List.drop_drop, hrest, List.drop_drop]

theorem split_absent (h : ¬separator <:+: text) : split text separator = [text] := by
  have hsep : separator ≠ [] := fun hnil => h (hnil ▸ List.nil_infix)
  rw [split, if_neg (by simpa using hsep), splitLoop, find_absent h]
  rfl

/-- **`split` cuts at the first separator and goes on behind it.** -/
theorem split_firstAt (hsep : separator ≠ []) (h : Lib.FirstAt separator text before behind) :
    split text separator = before :: split behind separator := by
  have hnonempty : ¬separator.length = 0 := by simpa using hsep
  have hlen := h.length_eq
  rw [split, split, if_neg hnonempty, if_neg hnonempty, splitLoop,
    find_firstAt hsep (show Lib.FirstAt separator (text.drop 0) before behind from h)]
  simp only [substr, Nat.zero_add, Nat.sub_zero, List.drop_zero]
  congr 1
  · exact h.take_length
  · refine splitLoop_eq hsep _ _ _ _ (by omega) (by omega) (by omega) (Nat.zero_le _) ?_
    rw [h.drop_length, List.drop_zero]

theorem split_ne_nil (hsep : separator ≠ []) : split text separator ≠ [] := by
  rcases Lib.absent_or_firstAt separator text with habsent | ⟨before, behind, hfirst⟩
  · rw [split_absent habsent]; exact List.cons_ne_nil _ _
  · rw [split_firstAt hsep hfirst]; exact List.cons_ne_nil _ _

/-- What holds of a text without separator and its one token, and of a text with one if it does of
what is behind the first, holds of every text and its tokens. -/
theorem split_induction (hsep : separator ≠ []) {P : StdString → List StdString → Prop}
    (absent : ∀ text, ¬separator <:+: text → P text [text])
    (firstAt : ∀ text before behind, Lib.FirstAt separator text before behind →
      P behind (split behind separator) → P text (before :: split behind separator))
    (text : StdString) : P text (split text separator) := by
  induction h : text.length using Nat.strongRecOn generalizing text with
  | ind n ih =>
    rcases Lib.absent_or_firstAt separator text with habsent | ⟨before, behind, hfirst⟩
    · rw [split_absent habsent]
      exact absent text habsent
    · have hlt : behind.length < n := by
        have hpositive : 0 < separator.length := List.length_pos_iff.mpr hsep
        rw [← h, hfirst.length_eq]; omega
      rw [split_firstAt hsep hfirst]
      exact firstAt text before behind hfirst (ih _ hlt behind rfl)

/-- The tokens joined by the separator are the text again. -/
theorem intercalate_split (hsep : separator ≠ []) (text : StdString) :
    separator.intercalate (split text separator) = text := by
  refine split_induction (P := fun text tokens => separator.intercalate tokens = text) hsep
    (fun text _ => ?_) (fun text before behind hfirst ih => ?_) text
  · rw [List.intercalate_singleton]
  · rw [List.intercalate_cons_of_ne_nil (split_ne_nil hsep), ih, hfirst.cut, List.append_assoc]

/-- No token contains the separator. -/
theorem not_infix_of_mem_split (hsep : separator ≠ []) (text : StdString) :
    ∀ token ∈ split text separator, ¬separator <:+: token := by
  refine split_induction (P := fun _ tokens => ∀ token ∈ tokens, ¬separator <:+: token) hsep
    (fun text habsent => ?_) (fun text before behind hfirst ih => ?_) text
  · exact List.forall_mem_singleton.mpr habsent
  · exact List.forall_mem_cons.mpr ⟨hfirst.absent_before hsep, ih⟩

/-- A token with others behind it ends at the first separator of what the tokens in front of it have
left of the text. -/
theorem firstAt_of_split (hsep : separator ≠ []) (text : StdString) :
    ∀ front token rest, split text separator = front ++ token :: rest → rest ≠ [] →
      Lib.FirstAt separator (text.drop (front.flatMap (· ++ separator)).length) token
        (separator.intercalate rest) := by
  refine split_induction (P := fun text tokens => ∀ front token rest,
    tokens = front ++ token :: rest → rest ≠ [] →
      Lib.FirstAt separator (text.drop (front.flatMap (· ++ separator)).length) token
        (separator.intercalate rest)) hsep
    (fun text _ front token rest heq hrest => ?_)
    (fun text before behind hfirst ih front token rest heq hrest => ?_) text
  · have hlen := congrArg List.length heq
    rw [List.length_append, List.length_cons, List.length_cons, List.length_nil] at hlen
    have hpositive : 0 < rest.length := List.length_pos_iff.mpr hrest
    omega
  · cases front with
    | nil =>
      obtain ⟨rfl, rfl⟩ := List.cons.inj heq
      rw [intercalate_split hsep]
      exact hfirst
    | cons first front =>
      obtain ⟨rfl, htokens⟩ := List.cons.inj heq
      rw [List.flatMap_cons, List.length_append, List.length_append, ← List.drop_drop,
        hfirst.drop_length]
      exact ih front token rest htokens hrest

/-- **`split` at one character is `List.splitOn`.** -/
theorem split_singleton (c : Char) (text : StdString) : split text [c] = text.splitOn c := by
  refine split_induction (P := fun text tokens => tokens = text.splitOn c) (List.cons_ne_nil c [])
    (fun text habsent => ?_) (fun text before behind hfirst ih => ?_) text
  · have hmem : c ∉ text := fun hmem => habsent ((List.singleton_infix_iff c text).mpr hmem)
    rw [Lib.splitOn_of_not_mem hmem]
  · have hbefore : c ∉ before := fun hmem =>
      hfirst.absent_before (List.cons_ne_nil c []) ((List.singleton_infix_iff c before).mpr hmem)
    rw [ih, hfirst.cut, List.singleton_append, Lib.splitOn_append_cons hbefore]

example : split "abc:defgh:ijkl".toList ":".toList =
    ["abc".toList, "defgh".toList, "ijkl".toList] := by decide

end Text
end DevScan
