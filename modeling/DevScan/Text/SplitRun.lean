import DevScan.Lib.SizeT
import DevScan.Text.Split

/-!
# `Text/SplitRun.lean` — a run of `hbm::string::split`

`Text/Split.lean` says which tokens the loop cuts. Here is the loop as the machine takes it:
positions and lengths are `size_t`, `std::string::npos` is a number like the others — behind the
last separator the length asked for is `npos` less the position — `substr` throws for a position
behind the end of the text, and nothing bounds the rounds. A `std::string` is shorter than `npos`;
for such texts every run ends, throws nothing, and returns those tokens.
-/

set_option autoImplicit false

namespace DevScan.Text

/-- `std::string::npos` -/
def npos : Nat := 0xFFFFFFFFFFFFFFFF

/-- What a function of `std::string` throws for a position behind the end. -/
inductive OutOfRange where
  | outOfRange
  deriving DecidableEq, Repr

/-- `text.find(separator, pos)` as a `size_t`. -/
def findPosition (text separator : StdString) (pos : Nat) : Nat :=
  (find text separator pos).getD npos

/-- `text.substr(pos, count)`, with the check of the position. -/
def checkedSubstr (text : StdString) (pos count : Nat) : Except OutOfRange StdString :=
  if text.length < pos then .error .outOfRange else .ok ((text.drop pos).take count)

/-- The `while(1)` of `split`, for at most so many rounds; `none` when they are over. -/
def splitWhile (text separator : StdString) :
    Nat → Nat → List StdString → Option (Except OutOfRange (List StdString))
  | 0, _, _ => none
  | rounds + 1, pos_start, tokens =>
    let pos_end := findPosition text separator pos_start
    match checkedSubstr text pos_start (Lib.SizeT.sub pos_end pos_start) with
    | .error thrown => some (.error thrown)
    | .ok token =>
      if pos_end = npos then some (.ok (tokens ++ [token]))
      else
        splitWhile text separator rounds (Lib.SizeT.add pos_end separator.length)
          (tokens ++ [token])

def splitRun (rounds : Nat) (text separator : StdString) :
    Option (Except OutOfRange (List StdString)) :=
  if separator.length = 0 then some (.ok [text]) else splitWhile text separator rounds 0 []

/-! ## No position is behind the end -/

variable {text separator : StdString}

/-- One round: the last token, or one more and the position behind a separator, which is not
behind the end. -/
theorem splitWhile_succ (htext : text.length < npos) (hsep : separator ≠ []) {pos : Nat}
    (hpos : pos ≤ text.length) (rounds : Nat) (tokens : List StdString) :
    splitWhile text separator (rounds + 1) pos tokens =
      match find text separator pos with
      | none => some (.ok (tokens ++ [substr text pos none]))
      | some pos_end =>
        splitWhile text separator rounds (pos_end + separator.length)
          (tokens ++ [substr text pos (some (pos_end - pos))]) := by
  have hnpos : npos < Lib.SizeT.modulus := by decide
  rw [splitWhile, findPosition]
  simp only [checkedSubstr, if_neg (Nat.not_lt.mpr hpos)]
  rcases Lib.absent_or_firstAt separator (text.drop pos) with habsent | ⟨before, behind, hfirst⟩
  · simp only [find_absent habsent, Option.getD_none, if_true, substr]
    rw [Lib.SizeT.sub_of_le (by omega) hnpos, List.take_of_length_le]
    rw [List.length_drop]
    omega
  · have hlen : text.length - pos = before.length + (separator.length + behind.length) :=
      hfirst.length_sub_eq
    have hpositive : 0 < separator.length := List.length_pos_iff.mpr hsep
    simp only [find_firstAt hsep hfirst, Option.getD_some, substr]
    rw [if_neg (by omega), Lib.SizeT.sub_of_le (by omega) (by omega),
      Lib.SizeT.add_of_lt (by omega)]

theorem splitWhile_eq (htext : text.length < npos) (hsep : separator ≠ []) :
    ∀ (rounds pos : Nat) (tokens : List StdString), text.length < rounds + pos →
      pos ≤ text.length → splitWhile text separator rounds pos tokens =
        some (.ok (tokens ++ splitLoop text separator rounds pos)) := by
  intro rounds
  induction rounds with
  | zero => intro pos tokens h hpos; omega
  | succ rounds ih =>
    intro pos tokens h hpos
    rw [splitWhile_succ htext hsep hpos, splitLoop]
    rcases Lib.absent_or_firstAt separator (text.drop pos) with habsent | ⟨before, behind, hfirst⟩
    · rw [find_absent habsent]
    · have hlen : text.length - pos = before.length + (separator.length + behind.length) :=
        hfirst.length_sub_eq
      have hpositive : 0 < separator.length := List.length_pos_iff.mpr hsep
      simp only [find_firstAt hsep hfirst]
      rw [ih _ _ (by omega) (by omega), List.append_assoc, List.singleton_append]

/-- **Every run ends in the tokens**, with one round more than the text is long. -/
theorem splitRun_eq (htext : text.length < npos) (hsep : separator ≠ []) {rounds : Nat}
    (hrounds : text.length < rounds) :
    splitRun rounds text separator = some (.ok (split text separator)) := by
  have hnonempty : ¬separator.length = 0 := by simpa using hsep
  rw [splitRun, split, if_neg hnonempty, if_neg hnonempty,
    splitWhile_eq htext hsep _ _ _ hrounds (Nat.zero_le _), List.nil_append]
  refine congrArg (fun tokens => some (Except.ok tokens)) ?_
  exact splitLoop_eq hsep _ _ _ _ hrounds (Nat.zero_le _) (by omega) (Nat.zero_le _) rfl

/-! ## Cut and joined -/

/-- **`split` cuts at the leftmost occurrences and can be undone.** -/
theorem split_cuts_leftmost :
    (∀ text separator : StdString, text.length < npos → separator ≠ [] →
      ∃ tokens, (∀ rounds, text.length < rounds →
          splitRun rounds text separator = some (.ok tokens)) ∧
        separator.intercalate tokens = text ∧
        (∀ token ∈ tokens, ¬separator <:+: token) ∧
        ∀ front token rest, tokens = front ++ token :: rest → rest ≠ [] →
          Lib.FirstAt separator (text.drop (front.flatMap (· ++ separator)).length) token
            (separator.intercalate rest)) ∧
    ∀ (c : Char) (tokens : List StdString), tokens ≠ [] → (∀ token ∈ tokens, c ∉ token) →
      ([c].intercalate tokens).length < npos →
      ∀ rounds, ([c].intercalate tokens).length < rounds →
        splitRun rounds ([c].intercalate tokens) [c] = some (.ok tokens) := by
  refine ⟨fun text separator htext hsep => ?_, fun c tokens htokens hnot htext rounds hrounds => ?_⟩
  · refine ⟨split text separator, fun rounds hrounds => splitRun_eq htext hsep hrounds, ?_, ?_, ?_⟩
    · exact intercalate_split hsep text
    · exact not_infix_of_mem_split hsep text
    · exact firstAt_of_split hsep text
  · rw [splitRun_eq htext (List.cons_ne_nil c []) hrounds, split_singleton,
      List.splitOn_intercalate c hnot htokens]

/-- Of three separators in a row the first ends a token, and so does the one behind it. -/
theorem split_cuts_leftmost_run :
    (∃ tokens, (∀ rounds, 3 < rounds →
        splitRun rounds "aaa".toList "aa".toList = some (.ok tokens)) ∧
      "aa".toList.intercalate tokens = "aaa".toList) ∧
    splitRun 6 "a::bc".toList ":".toList = some (.ok ["a".toList, [], "bc".toList]) := by
  refine ⟨?_, ?_⟩
  · obtain ⟨tokens, hrun, hjoin, -, -⟩ :=
      split_cuts_leftmost.1 "aaa".toList "aa".toList (by decide) (by decide)
    exact ⟨tokens, hrun, hjoin⟩
  · exact split_cuts_leftmost.2 ':' ["a".toList, [], "bc".toList] (by decide) (by decide)
      (by decide) 6 (by decide)

end DevScan.Text
