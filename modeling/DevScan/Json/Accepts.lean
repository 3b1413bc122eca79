import DevScan.Json.Errors
import DevScan.Json.Grammar

/-!
# `Json/Accepts.lean` — every text that spells a value is read as it

The first half of what the reader and the grammar have to do with each other: whatever a text spells
in the sense of `Json/Grammar.lean`, `parse` answers `true` for it and the value is the one that is
spelled (`parse_of_spells`), with any white space and comments in front and anything at all behind,
except that a number must not go on there.

Each `Item` has its own way of being accepted (`Accepts`); the induction is on the spelling.
-/

set_option autoImplicit false

namespace DevScan.Json.Reader

variable {behind c : Char} {current gap : Location} {comments : Bool}

/-! ## White space and comments -/

theorem readToken_space (h : isSpace c = true) (current : Location) :
    readToken behind (c :: current) = readToken behind current := by
  have hskip : skipSpaces (c :: current) = skipSpaces current := by
    rw [skipSpaces, List.dropWhile_cons_of_pos h]
    rfl
  rw [readToken, readToken, hskip]

theorem readToken_cons (h : isSpace c = false) (current : Location) :
    readToken behind (c :: current) =
      ⟨(scan behind c current).1, c :: current, (scan behind c current).2⟩ := by
  have hskip : skipSpaces (c :: current) = c :: current := by
    rw [skipSpaces, List.dropWhile_cons_of_neg (by rw [h]; exact Bool.false_ne_true)]
  rw [readToken, hskip]
  rfl

theorem findCommentEnd_append {body : Location} (h : ¬['*', '/'] <:+: body ++ ['*'])
    (current : Location) :
    findCommentEnd behind (body ++ '*' :: '/' :: current) = '/' :: current := by
  induction body with
  | nil => rfl
  | cons c body ih =>
    have hrest : ¬['*', '/'] <:+: body ++ ['*'] := fun hfound =>
      h (hfound.trans (List.infix_cons List.infix_rfl))
    have hstop : ¬(c = '*' ∧ peek behind (body ++ '*' :: '/' :: current) = '/') := by
      rintro ⟨rfl, hpeek⟩
      cases body with
      | nil =>
        have hpeek : '*' = '/' := hpeek
        exact absurd hpeek (by decide)
      | cons c' body =>
        obtain rfl : c' = '/' := hpeek
        exact h ⟨[], body ++ ['*'], rfl⟩
    rw [List.cons_append, findCommentEnd, if_neg hstop, ih hrest]

theorem readCppStyleComment_append {body : Location} {stop : Char}
    (hbody : ∀ c ∈ body, c ≠ '\r' ∧ c ≠ '\n') (hstop : stop = '\r' ∨ stop = '\n')
    (current : Location) : readCppStyleComment (body ++ stop :: current) = current := by
  induction body with
  | nil => exact if_pos hstop
  | cons c body ih =>
    obtain ⟨hr, hn⟩ := hbody c List.mem_cons_self
    rw [List.cons_append, readCppStyleComment, if_neg (by simp [hr, hn]),
      ih fun d hd => hbody d (List.mem_cons_of_mem c hd)]

theorem readToken_block {body : Location} (h : ¬['*', '/'] <:+: body ++ ['*'])
    (current : Location) :
    readToken behind ('/' :: '*' :: (body ++ '*' :: '/' :: current)) =
      ⟨.comment, '/' :: '*' :: (body ++ '*' :: '/' :: current), current⟩ := by
  have hread : readComment behind ('*' :: (body ++ '*' :: '/' :: current)) = (true, current) := by
    rw [readComment, getNextChar, if_pos rfl, readCStyleComment, findCommentEnd_append h]
    rfl
  rw [readToken_cons rfl, scan]
  simp only [hread]
  rfl

theorem readToken_line {body : Location} {stop : Char}
    (hbody : ∀ c ∈ body, c ≠ '\r' ∧ c ≠ '\n') (hstop : stop = '\r' ∨ stop = '\n')
    (current : Location) :
    readToken behind ('/' :: '/' :: (body ++ stop :: current)) =
      ⟨.comment, '/' :: '/' :: (body ++ stop :: current), current⟩ := by
  have hslash : ¬ '/' = '*' := by decide
  have hread : readComment behind ('/' :: (body ++ stop :: current)) = (true, current) := by
    rw [readComment, getNextChar, if_neg hslash, if_pos rfl, readCppStyleComment_append hbody hstop]
  rw [readToken_cons rfl, scan]
  simp only [hread]
  rfl

/-- Behind a gap stands the next token, unless the gap begins with a comment. -/
theorem readToken_gap (h : Gap comments gap) (current : Location) :
    readToken behind (gap ++ current) = readToken behind current ∨
      comments = true ∧ (readToken behind (gap ++ current)).type = .comment := by
  induction h with
  | nil => exact Or.inl rfl
  | space hspace _ ih =>
    rw [List.cons_append, readToken_space hspace]
    exact ih
  | block hallowed hbody _ _ =>
    simp only [List.cons_append, List.append_assoc, readToken_block hbody]
    exact Or.inr ⟨hallowed, trivial⟩
  | line hallowed hbody hstop _ _ =>
    simp only [List.cons_append, List.append_assoc, readToken_line hbody hstop]
    exact Or.inr ⟨hallowed, trivial⟩

theorem readToken_blank (h : Gap false gap) (current : Location) :
    readToken behind (gap ++ current) = readToken behind current :=
  (readToken_gap h current).resolve_right fun h => Bool.false_ne_true h.1

theorem skipComments_congr {current' : Location}
    (h : readToken behind current = readToken behind current') :
    skipComments behind current = skipComments behind current' := by
  by_cases hcomment : (readToken behind current').type = .comment
  · rw [skipComments_of_comment hcomment, skipComments_of_comment (h ▸ hcomment), h]
  · rw [skipComments_of_ne hcomment, skipComments_of_ne (h ▸ hcomment), h]

theorem skipComments_gap (h : Gap comments gap) (current : Location) :
    skipComments behind (gap ++ current) = skipComments behind current := by
  induction h with
  | nil => rfl
  | space hspace _ ih =>
    rw [List.cons_append, skipComments_congr (readToken_space hspace _), ih]
  | block _ hbody _ ih =>
    simp only [List.cons_append, List.append_assoc]
    rw [skipComments_of_comment (by rw [readToken_block hbody]), readToken_block hbody]
    exact ih
  | line _ hbody hstop _ ih =>
    simp only [List.cons_append, List.append_assoc]
    rw [skipComments_of_comment (by rw [readToken_line hbody hstop]), readToken_line hbody hstop]
    exact ih

theorem skipCommentTokens_gap {features : Features} (h : Gap features.allowComments gap)
    (current : Location) :
    skipCommentTokens features behind (gap ++ current) =
      skipCommentTokens features behind current := by
  rw [skipCommentTokens, skipCommentTokens]
  cases hallowed : features.allowComments with
  | true => exact skipComments_gap h current
  | false =>
    rw [hallowed] at h
    exact readToken_blank h current

/-! ## The tokens values begin with -/

/-- The text does not go on with a number. -/
def Follows (rest : Location) : Prop := ∀ c ∈ rest.head?, isNumberChar c = false

/-- Where the text ends is plain, given what comes behind it: a number does not go on. -/
def Ends (text rest : Location) : Prop := NumberText text → Follows rest

theorem follows_cons (h : isNumberChar c = false) (rest : Location) : Follows (c :: rest) := by
  intro d hd
  obtain rfl := Option.some.inj hd
  exact h

theorem readNumber_append {text rest : Location} (htext : ∀ d ∈ text, isNumberChar d = true)
    (hrest : Follows rest) : readNumber (text ++ rest) = rest := by
  rw [readNumber, List.dropWhile_append_of_pos htext]
  cases rest with
  | nil => rfl
  | cons c rest => exact List.dropWhile_cons_of_neg (by rw [hrest c rfl]; exact Bool.false_ne_true)

theorem scan_number (h : c.isDigit ∨ c = '-') (current : Location) :
    scan behind c current = (.number, readNumber current) := by
  rcases h with hc | rfl
  · rw [scan, if_neg (ne_of_isDigit hc rfl), if_neg (ne_of_isDigit hc rfl),
      if_neg (ne_of_isDigit hc rfl), if_neg (ne_of_isDigit hc rfl), if_neg (ne_of_isDigit hc rfl),
      if_neg (ne_of_isDigit hc rfl), if_pos (Or.inl hc)]
  · rfl

theorem not_isSpace_of_number (h : c.isDigit ∨ c = '-') : isSpace c = false := by
  rcases h with hc | rfl
  · have hne := fun d hd => decide_eq_false (ne_of_isDigit (d := d) hc hd)
    rw [isSpace, hne ' ' rfl, hne '\t' rfl, hne '\r' rfl, hne '\n' rfl]
    rfl
  · rfl

theorem readToken_number {text rest : Location} (htext : NumberText text) (hrest : Follows rest) :
    readToken behind (text ++ rest) = ⟨.number, text ++ rest, rest⟩ := by
  obtain ⟨c, digits, rfl, hc, hdigits⟩ := htext
  rw [List.cons_append, readToken_cons (not_isSpace_of_number hc), scan_number hc,
    readNumber_append hdigits hrest]

theorem readToken_quoted {content : Location} (h : Quotable content) (rest : Location) :
    readToken behind ('"' :: (content ++ '"' :: rest)) =
      ⟨.string, '"' :: (content ++ '"' :: rest), rest⟩ := by
  have hread : readString (content ++ '"' :: rest) = (true, rest) :=
    readString_iff.mpr ⟨content, h, rfl⟩
  rw [readToken_cons rfl, scan]
  simp only [hread]
  rfl

theorem stringOf_quoted {content decoded : Location} (rest : Location)
    (hdecode : decodeString content = .ok decoded) :
    stringOf ⟨.string, '"' :: (content ++ '"' :: rest), rest⟩ = .ok decoded := by
  have htext : Token.text ⟨.string, '"' :: (content ++ '"' :: rest), rest⟩ =
      '"' :: (content ++ ['"']) := text_eq (by simp)
  rw [stringOf, htext, List.tail_cons, List.dropLast_concat, hdecode]

theorem numberOf_text {setup : Setup} {text rest : Location} {value : Value}
    (hdecode : decodeNumber setup.sscanf text = .ok value) :
    numberOf setup ⟨.number, text ++ rest, rest⟩ = .ok value := by
  rw [numberOf, text_eq rfl, hdecode]

/-! ## What it is for an item to be accepted -/

/-- Whatever fuel there is above some amount. -/
def Eventually (P : Nat → Prop) : Prop := ∃ least, ∀ fuel, least ≤ fuel → P fuel

/-- How a text that spells the item is read. -/
def Accepts (setup : Setup) : Item → StdString → Prop
  | .value v, text => ∀ gap rest, Gap setup.features.allowComments gap → Ends text rest →
      Eventually fun fuel => ∀ old errors, readValue setup fuel old ⟨gap ++ text ++ rest, errors⟩ =
        some ⟨true, v, ⟨rest, errors⟩⟩
  | .element v, text => ∀ rest, Follows rest → ∃ gap, Gap setup.features.allowComments gap ∧
      Eventually fun fuel => ∀ old errors, readValue setup fuel old ⟨text ++ rest, errors⟩ =
        some ⟨true, v, ⟨gap ++ rest, errors⟩⟩
  | .elements vs, text => ∀ rest, Eventually fun fuel => ∀ elems errors,
      readElements setup fuel elems ⟨text ++ ']' :: rest, errors⟩ =
        some ⟨true, .arrayValue (elems ++ vs), ⟨rest, errors⟩⟩
  | .member name v, text => ∀ c rest, (c = ',' ∨ c = '}') → Eventually fun fuel =>
      ∀ last members errors,
        readObject setup (fuel + 1) last members ⟨text ++ c :: rest, errors⟩ =
          if c = '}' then some ⟨true, .objectValue (putMember members (name, v)), ⟨rest, errors⟩⟩
          else readObject setup fuel name (putMember members (name, v)) ⟨rest, errors⟩
  | .members ms, text => ∀ rest, Eventually fun fuel => ∀ last members errors,
      readObject setup fuel last members ⟨text ++ '}' :: rest, errors⟩ =
        some ⟨true, .objectValue (ms.foldl putMember members), ⟨rest, errors⟩⟩

/-! ## Values -/

theorem skipCommentTokens_eq {features : Features} {token : Token}
    (hgap : Gap features.allowComments gap) (htoken : readToken behind current = token)
    (hne : token.type ≠ .comment) : skipCommentTokens features behind (gap ++ current) = token := by
  rw [skipCommentTokens_gap hgap, skipCommentTokens]
  split
  · rw [skipComments_of_ne (by rw [htoken]; exact hne), htoken]
  · exact htoken

theorem skipComments_eq {token : Token} (hgap : Gap comments gap)
    (htoken : readToken behind current = token) (hne : token.type ≠ .comment) :
    skipComments behind (gap ++ current) = token := by
  rw [skipComments_gap hgap, skipComments_of_ne (by rw [htoken]; exact hne), htoken]

variable {setup : Setup} {text content : StdString} {v : Value}

theorem accepts_null : Accepts setup (.value .nullValue) "null".toList := by
  intro gap rest hgap _
  refine ⟨1, fun fuel hfuel old errors => ?_⟩
  obtain ⟨fuel, rfl⟩ := Nat.exists_eq_add_of_le' hfuel
  have htoken : readToken setup.behind ("null".toList ++ rest) =
      ⟨.null, "null".toList ++ rest, rest⟩ := rfl
  rw [readValue, List.append_assoc, skipCommentTokens_eq hgap htoken (by simp)]
  rfl

theorem accepts_true : Accepts setup (.value (.booleanValue true)) "true".toList := by
  intro gap rest hgap _
  refine ⟨1, fun fuel hfuel old errors => ?_⟩
  obtain ⟨fuel, rfl⟩ := Nat.exists_eq_add_of_le' hfuel
  have htoken : readToken setup.behind ("true".toList ++ rest) =
      ⟨.true, "true".toList ++ rest, rest⟩ := rfl
  rw [readValue, List.append_assoc, skipCommentTokens_eq hgap htoken (by simp)]
  rfl

theorem accepts_false : Accepts setup (.value (.booleanValue false)) "false".toList := by
  intro gap rest hgap _
  refine ⟨1, fun fuel hfuel old errors => ?_⟩
  obtain ⟨fuel, rfl⟩ := Nat.exists_eq_add_of_le' hfuel
  have htoken : readToken setup.behind ("false".toList ++ rest) =
      ⟨.false, "false".toList ++ rest, rest⟩ := rfl
  rw [readValue, List.append_assoc, skipCommentTokens_eq hgap htoken (by simp)]
  rfl

theorem accepts_number (htext : NumberText text) (hvalue : decodeNumber setup.sscanf text = .ok v) :
    Accepts setup (.value v) text := by
  intro gap rest hgap hrest
  refine ⟨1, fun fuel hfuel old errors => ?_⟩
  obtain ⟨fuel, rfl⟩ := Nat.exists_eq_add_of_le' hfuel
  rw [readValue, List.append_assoc,
    skipCommentTokens_eq hgap (readToken_number htext (hrest htext)) (by simp)]
  simp only [numberOf_text hvalue]
  rfl

theorem accepts_string {decoded : StdString} (hquotable : Quotable content)
    (hdecode : decodeString content = .ok decoded) :
    Accepts setup (.value (.stringValue decoded)) ('"' :: content ++ ['"']) := by
  intro gap rest hgap _
  refine ⟨1, fun fuel hfuel old errors => ?_⟩
  obtain ⟨fuel, rfl⟩ := Nat.exists_eq_add_of_le' hfuel
  have htoken : readToken setup.behind ('"' :: (content ++ '"' :: rest)) =
      ⟨.string, '"' :: (content ++ '"' :: rest), rest⟩ := readToken_quoted hquotable rest
  rw [readValue, show gap ++ ('"' :: content ++ ['"']) ++ rest =
      gap ++ '"' :: (content ++ '"' :: rest) by simp,
    skipCommentTokens_eq hgap htoken (by simp)]
  simp only [stringOf_quoted rest hdecode]
  rfl

theorem skipSpaces_blank {blank : StdString} (hblank : Gap false blank) (h : isSpace c = false)
    (rest : Location) : skipSpaces (blank ++ c :: rest) = c :: rest := by
  have hstart : (readToken nul (blank ++ c :: rest)).start = (readToken nul (c :: rest)).start :=
    congrArg Token.start (readToken_blank hblank (c :: rest))
  rw [readToken_cons h] at hstart
  exact hstart

theorem accepts_emptyArray {blank : StdString} (hblank : Gap false blank) :
    Accepts setup (.value (.arrayValue [])) ('[' :: blank ++ [']']) := by
  intro gap rest hgap _
  refine ⟨2, fun fuel hfuel old errors => ?_⟩
  obtain ⟨fuel, rfl⟩ := Nat.exists_eq_add_of_le' hfuel
  have htext : gap ++ ('[' :: blank ++ [']']) ++ rest = gap ++ '[' :: (blank ++ ']' :: rest) := by
    simp
  have htoken : readToken setup.behind ('[' :: (blank ++ ']' :: rest)) =
      ⟨.arrayBegin, '[' :: (blank ++ ']' :: rest), blank ++ ']' :: rest⟩ := rfl
  rw [readValue, htext, skipCommentTokens_eq hgap htoken (by simp)]
  dsimp only [Reading.moveTo]
  rw [readArray, skipSpaces_blank hblank rfl]
  rfl

theorem readToken_skipSpaces (current : Location) :
    readToken behind (skipSpaces current) = readToken behind current := by
  induction current with
  | nil => rfl
  | cons c rest ih =>
    cases hspace : isSpace c with
    | true =>
      have hskip : skipSpaces (c :: rest) = skipSpaces rest := List.dropWhile_cons_of_pos hspace
      rw [hskip, ih, readToken_space hspace]
    | false =>
      have hskip : skipSpaces (c :: rest) = c :: rest :=
        List.dropWhile_cons_of_neg (by rw [hspace]; exact Bool.false_ne_true)
      rw [hskip]

theorem readElements_skipSpaces (fuel : Nat) (elems : List Value) (current : Location)
    (errors : List ErrorInfo) :
    readElements setup fuel elems ⟨skipSpaces current, errors⟩ =
      readElements setup fuel elems ⟨current, errors⟩ := by
  have hread : readToken setup.behind (skipSpaces current) = readToken setup.behind current :=
    readToken_skipSpaces current
  have hskip : skipCommentTokens setup.features setup.behind (skipSpaces current) =
      skipCommentTokens setup.features setup.behind current := by
    rw [skipCommentTokens, skipCommentTokens, skipComments_congr hread, hread]
  cases fuel with
  | zero => rfl
  | succ fuel =>
    have hvalue : readValue setup fuel .nullValue ⟨skipSpaces current, errors⟩ =
        readValue setup fuel .nullValue ⟨current, errors⟩ := by
      cases fuel with
      | zero => rfl
      | succ fuel =>
        rw [readValue, readValue, hskip]
        rfl
    rw [readElements, readElements, hvalue]

/-- No text that begins like this is taken for the end of an array. -/
def Opens (text : StdString) : Prop :=
  ∀ behind rest, peek behind (skipSpaces (text ++ rest)) ≠ ']'

theorem accepts_array {vs : List Value} (hfirst : Opens text)
    (h : Accepts setup (.elements vs) text) :
    Accepts setup (.value (.arrayValue vs)) ('[' :: text ++ [']']) := by
  intro gap rest hgap _
  obtain ⟨least, hread⟩ := h rest
  refine ⟨least + 2, fun fuel hfuel old errors => ?_⟩
  obtain ⟨fuel, rfl⟩ := Nat.exists_eq_add_of_le' hfuel
  have htext : gap ++ ('[' :: text ++ [']']) ++ rest = gap ++ '[' :: (text ++ ']' :: rest) := by
    simp
  have htoken : readToken setup.behind ('[' :: (text ++ ']' :: rest)) =
      ⟨.arrayBegin, '[' :: (text ++ ']' :: rest), text ++ ']' :: rest⟩ := rfl
  rw [← Nat.add_assoc, readValue, htext, skipCommentTokens_eq hgap htoken (by simp)]
  dsimp only [Reading.moveTo]
  rw [readArray, if_neg (hfirst _ _)]
  exact (readElements_skipSpaces _ _ _ _).trans (hread _ (by omega) [] errors)

theorem accepts_emptyObject {inner : StdString} (hinner : Gap setup.features.allowComments inner) :
    Accepts setup (.value (.objectValue [])) ('{' :: inner ++ ['}']) := by
  intro gap rest hgap _
  refine ⟨2, fun fuel hfuel old errors => ?_⟩
  obtain ⟨fuel, rfl⟩ := Nat.exists_eq_add_of_le' hfuel
  have htext : gap ++ ('{' :: inner ++ ['}']) ++ rest = gap ++ '{' :: (inner ++ '}' :: rest) := by
    simp
  have htoken : readToken setup.behind ('{' :: (inner ++ '}' :: rest)) =
      ⟨.objectBegin, '{' :: (inner ++ '}' :: rest), inner ++ '}' :: rest⟩ := rfl
  have hend : skipComments setup.behind (inner ++ '}' :: rest) = ⟨.objectEnd, '}' :: rest, rest⟩ := by
    exact skipComments_eq hinner rfl (by simp)
  rw [readValue, htext, skipCommentTokens_eq hgap htoken (by simp)]
  dsimp only [Reading.moveTo]
  rw [readObject, hend]
  rfl

theorem accepts_object {ms : List (StdString × Value)} (h : Accepts setup (.members ms) text) :
    Accepts setup (.value (.objectValue (ms.foldl putMember []))) ('{' :: text ++ ['}']) := by
  intro gap rest hgap _
  obtain ⟨least, hread⟩ := h rest
  refine ⟨least + 1, fun fuel hfuel old errors => ?_⟩
  obtain ⟨fuel, rfl⟩ := Nat.exists_eq_add_of_le' hfuel
  have htext : gap ++ ('{' :: text ++ ['}']) ++ rest = gap ++ '{' :: (text ++ '}' :: rest) := by
    simp
  have htoken : readToken setup.behind ('{' :: (text ++ '}' :: rest)) =
      ⟨.objectBegin, '{' :: (text ++ '}' :: rest), text ++ '}' :: rest⟩ := rfl
  rw [← Nat.add_assoc, readValue, htext, skipCommentTokens_eq hgap htoken (by simp)]
  exact hread _ (by omega) [] [] errors

/-! ## Elements -/

/-- A gap and then a comma or a closing bracket do not go on with a number. -/
theorem follows_gap (hgap : Gap comments gap) {rest : Location} (hrest : Follows rest) :
    Follows (gap ++ rest) := by
  cases hgap with
  | nil => exact hrest
  | space hspace _ =>
    refine follows_cons ?_ _
    simp only [isSpace, Bool.or_eq_true, decide_eq_true_eq] at hspace
    rcases hspace with ((rfl | rfl) | rfl) | rfl
    all_goals rfl
  | block _ _ _ => exact follows_cons rfl _
  | line _ _ _ _ => exact follows_cons rfl _

theorem accepts_element {before after : StdString} (hbefore : Gap setup.features.allowComments before)
    (hafter : Gap setup.features.allowComments after) (h : Accepts setup (.value v) text) :
    Accepts setup (.element v) (before ++ text ++ after) := by
  intro rest hrest
  obtain ⟨least, hread⟩ := h before (after ++ rest) hbefore fun _ => follows_gap hafter hrest
  refine ⟨after, hafter, least, fun fuel hfuel old errors => ?_⟩
  rw [List.append_assoc, hread fuel hfuel]

/-- What comes behind an element is its end, or the rest of the array. -/
theorem readElements_element (h : Accepts setup (.element v) text) (hc : c = ',' ∨ c = ']')
    (rest : Location) : Eventually fun fuel => ∀ elems errors,
      readElements setup (fuel + 1) elems ⟨text ++ c :: rest, errors⟩ =
        if c = ']' then some ⟨true, .arrayValue (elems ++ [v]), ⟨rest, errors⟩⟩
        else readElements setup fuel (elems ++ [v]) ⟨rest, errors⟩ := by
  have hfollows : Follows (c :: rest) := by
    rcases hc with rfl | rfl
    · exact follows_cons rfl rest
    · exact follows_cons rfl rest
  obtain ⟨gap, hgap, least, hread⟩ := h (c :: rest) hfollows
  refine ⟨least, fun fuel hfuel elems errors => ?_⟩
  rw [readElements, hread fuel hfuel]
  dsimp only
  rcases hc with rfl | rfl
  · have htoken : skipComments setup.behind (gap ++ ',' :: rest) =
        ⟨.arraySeparator, ',' :: rest, rest⟩ := skipComments_eq hgap rfl (by simp)
    rw [afterElement, if_neg (by simp)]
    dsimp only
    rw [htoken]
    rfl
  · have htoken : skipComments setup.behind (gap ++ ']' :: rest) =
        ⟨.arrayEnd, ']' :: rest, rest⟩ := skipComments_eq hgap rfl (by simp)
    rw [afterElement, if_neg (by simp)]
    dsimp only
    rw [htoken]
    rfl

theorem accepts_lastElement (h : Accepts setup (.element v) text) :
    Accepts setup (.elements [v]) text := by
  intro rest
  obtain ⟨least, hread⟩ := readElements_element h (Or.inr rfl) rest
  refine ⟨least + 1, fun fuel hfuel elems errors => ?_⟩
  obtain ⟨fuel, rfl⟩ := Nat.exists_eq_add_of_le' hfuel
  rw [← Nat.add_assoc, hread _ (by omega), if_pos rfl]

theorem accepts_moreElements {rest : StdString} {vs : List Value}
    (h : Accepts setup (.element v) text) (hmore : Accepts setup (.elements vs) rest) :
    Accepts setup (.elements (v :: vs)) (text ++ ',' :: rest) := by
  intro behind
  obtain ⟨least, hread⟩ := readElements_element h (Or.inl rfl) (rest ++ ']' :: behind)
  obtain ⟨least', hrest⟩ := hmore behind
  refine ⟨least + least' + 1, fun fuel hfuel elems errors => ?_⟩
  obtain ⟨fuel, rfl⟩ := Nat.exists_eq_add_of_le' hfuel
  have hcomma : ¬ ',' = ']' := by decide
  rw [← Nat.add_assoc, List.append_assoc, List.cons_append, hread _ (by omega), if_neg hcomma,
    hrest _ (by omega), List.append_assoc, List.singleton_append]

/-! ## Members -/

/-- What comes behind the value of a member is its end, or the rest of the object. -/
theorem afterMember_gap (hgap : Gap comments gap) (hc : c = ',' ∨ c = '}') (rest : Location)
    (members : List (StdString × Value)) (errors : List ErrorInfo)
    (again : Reading → Option Outcome) :
    afterMember setup members ⟨true, v, ⟨gap ++ c :: rest, errors⟩⟩ again =
      if c = '}' then some ⟨true, .objectValue members, ⟨rest, errors⟩⟩ else again ⟨rest, errors⟩ := by
  have hfirst := @readToken_gap setup.behind gap comments hgap (c :: rest)
  rcases hc with rfl | rfl
  · have htoken : skipComments setup.behind (gap ++ ',' :: rest) =
        ⟨.arraySeparator, ',' :: rest, rest⟩ := skipComments_eq hgap rfl (by simp)
    have hcomma : ¬((readToken setup.behind (gap ++ ',' :: rest)).type ≠ .objectEnd ∧
        (readToken setup.behind (gap ++ ',' :: rest)).type ≠ .arraySeparator ∧
        (readToken setup.behind (gap ++ ',' :: rest)).type ≠ .comment) := by
      rintro ⟨-, hseparator, hcomment⟩
      rcases hfirst with hfirst | hfirst
      · exact hseparator (by rw [hfirst]; rfl)
      · exact hcomment hfirst.2
    rw [afterMember, if_neg (by simp)]
    dsimp only
    rw [if_neg hcomma, htoken]
    rfl
  · have htoken : skipComments setup.behind (gap ++ '}' :: rest) =
        ⟨.objectEnd, '}' :: rest, rest⟩ := skipComments_eq hgap rfl (by simp)
    have hcomma : ¬((readToken setup.behind (gap ++ '}' :: rest)).type ≠ .objectEnd ∧
        (readToken setup.behind (gap ++ '}' :: rest)).type ≠ .arraySeparator ∧
        (readToken setup.behind (gap ++ '}' :: rest)).type ≠ .comment) := by
      rintro ⟨hend, -, hcomment⟩
      rcases hfirst with hfirst | hfirst
      · exact hend (by rw [hfirst]; rfl)
      · exact hcomment hfirst.2
    rw [afterMember, if_neg (by simp)]
    dsimp only
    rw [if_neg hcomma, htoken]
    rfl

theorem accepts_member {name blank : StdString} {inner : StdString}
    (hinner : Gap setup.features.allowComments inner) (hquotable : Quotable content)
    (hdecode : decodeString content = .ok name) (hblank : Gap false blank)
    (h : Accepts setup (.element v) text) :
    Accepts setup (.member name v) (inner ++ '"' :: content ++ '"' :: blank ++ ':' :: text) := by
  intro c rest hc
  have hfollows : Follows (c :: rest) := by
    rcases hc with rfl | rfl
    · exact follows_cons rfl rest
    · exact follows_cons rfl rest
  obtain ⟨gap, hgap, least, hread⟩ := h (c :: rest) hfollows
  refine ⟨least, fun fuel hfuel last members errors => ?_⟩
  have htext : inner ++ '"' :: content ++ '"' :: blank ++ ':' :: text ++ c :: rest =
      inner ++ '"' :: (content ++ '"' :: (blank ++ ':' :: (text ++ c :: rest))) := by simp
  have hquoted := @readToken_quoted setup.behind content hquotable
    (blank ++ ':' :: (text ++ c :: rest))
  have hname := skipComments_eq hinner hquoted (by simp)
  have hcolon : readToken setup.behind (blank ++ ':' :: (text ++ c :: rest)) =
      ⟨.memberSeparator, ':' :: (text ++ c :: rest), text ++ c :: rest⟩ := by
    rw [readToken_blank hblank]
    rfl
  rw [readObject, htext, hname]
  dsimp only [Reading.moveTo]
  rw [if_neg (by simp), nameOf, if_pos rfl, stringOf_quoted _ hdecode, hcolon]
  dsimp only
  rw [if_neg (by simp), hread fuel hfuel]
  exact afterMember_gap hgap hc rest _ errors _

theorem accepts_lastMember {name : StdString} (h : Accepts setup (.member name v) text) :
    Accepts setup (.members [(name, v)]) text := by
  intro rest
  obtain ⟨least, hread⟩ := h '}' rest (Or.inr rfl)
  refine ⟨least + 1, fun fuel hfuel last members errors => ?_⟩
  obtain ⟨fuel, rfl⟩ := Nat.exists_eq_add_of_le' hfuel
  rw [← Nat.add_assoc, hread _ (by omega), if_pos rfl]
  rfl

theorem accepts_moreMembers {rest name : StdString} {ms : List (StdString × Value)}
    (h : Accepts setup (.member name v) text) (hmore : Accepts setup (.members ms) rest) :
    Accepts setup (.members ((name, v) :: ms)) (text ++ ',' :: rest) := by
  intro behind
  obtain ⟨least, hread⟩ := h ',' (rest ++ '}' :: behind) (Or.inl rfl)
  obtain ⟨least', hrest⟩ := hmore behind
  refine ⟨least + least' + 1, fun fuel hfuel last members errors => ?_⟩
  obtain ⟨fuel, rfl⟩ := Nat.exists_eq_add_of_le' hfuel
  have hcomma : ¬ ',' = '}' := by decide
  rw [← Nat.add_assoc, List.append_assoc, List.cons_append, hread _ (by omega), if_neg hcomma,
    hrest _ (by omega)]
  rfl

/-! ## Everything that is spelled -/

theorem opens_cons (hspace : isSpace c = false) (hc : c ≠ ']') (text : StdString) :
    Opens (c :: text) := by
  intro behind rest
  rw [List.cons_append, skipSpaces,
    List.dropWhile_cons_of_neg (by rw [hspace]; exact Bool.false_ne_true)]
  exact hc

theorem Opens.append (h : Opens text) (more : StdString) : Opens (text ++ more) := by
  intro behind rest
  rw [List.append_assoc]
  exact h behind (more ++ rest)

theorem opens_gap (hgap : Gap comments gap) (h : Opens text) : Opens (gap ++ text) := by
  induction hgap with
  | nil => exact h
  | space hspace _ ih =>
    intro behind rest
    rw [List.cons_append, List.cons_append, skipSpaces, List.dropWhile_cons_of_pos hspace]
    exact ih behind rest
  | block => exact opens_cons rfl (by decide) _
  | line => exact opens_cons rfl (by decide) _

theorem opens_value {sscanf : StdString → Option Real}
    (h : Spells sscanf comments (.value v) text) : Opens text := by
  cases h with
  | number htext _ =>
    obtain ⟨c, digits, rfl, hc, -⟩ := htext
    refine opens_cons (not_isSpace_of_number hc) ?_ digits
    rintro rfl
    exact absurd hc (by decide)
  | _ => exact opens_cons rfl (by decide) _

theorem opens_element {sscanf : StdString → Option Real}
    (h : Spells sscanf comments (.element v) text) : Opens text := by
  cases h with
  | element hbefore _ hvalue => exact (opens_gap hbefore (opens_value hvalue)).append _

theorem opens_elements {sscanf : StdString → Option Real} {vs : List Value}
    (h : Spells sscanf comments (.elements vs) text) : Opens text := by
  cases h with
  | lastElement h => exact opens_element h
  | moreElements h _ => exact (opens_element h).append _

theorem accepts {item : Item}
    (h : Spells setup.sscanf setup.features.allowComments item text) : Accepts setup item text := by
  induction h with
  | null => exact accepts_null
  | true => exact accepts_true
  | false => exact accepts_false
  | number htext hvalue => exact accepts_number htext hvalue
  | string hquotable hdecode => exact accepts_string hquotable hdecode
  | emptyArray hblank => exact accepts_emptyArray hblank
  | array helements ih => exact accepts_array (opens_elements helements) ih
  | emptyObject hgap => exact accepts_emptyObject hgap
  | object _ ih => exact accepts_object ih
  | element hbefore hafter _ ih => exact accepts_element hbefore hafter ih
  | lastElement _ ih => exact accepts_lastElement ih
  | moreElements _ _ ih ihmore => exact accepts_moreElements ih ihmore
  | member hgap hquotable hdecode hblank _ ih => exact accepts_member hgap hquotable hdecode hblank ih
  | lastMember _ ih => exact accepts_lastMember ih
  | moreMembers _ _ ih ihmore => exact accepts_moreMembers ih ihmore

/-! ## Documents -/

/-- A text that spells a value is accepted, and the value is read. White space and comments may stand
in front of it, and anything behind it, except that a number must not go on. -/
theorem parse_of_spells
    (h : Spells setup.sscanf setup.features.allowComments (.value v) text)
    (hgap : Gap setup.features.allowComments gap) {rest : StdString} (hrest : Ends text rest)
    (hroot : setup.features.strictRoot = true → isContainer v = true) :
    ∃ s, parse setup (gap ++ text ++ rest) = some ⟨true, v, s⟩ ∧ s.errors = [] := by
  obtain ⟨outcome, -, hvalue, hparse⟩ := parse_eq setup (gap ++ text ++ rest)
  obtain ⟨least, hread⟩ := accepts h gap rest hgap hrest
  have hmore := readValue_more hvalue least
  rw [hread _ (Nat.le_add_left _ _)] at hmore
  obtain rfl := Option.some.inj hmore
  have hstrict : (setup.features.strictRoot && !isContainer v) = false := by
    cases hs : setup.features.strictRoot with
    | false => rfl
    | true => rw [hroot hs]; rfl
  rw [hparse]
  dsimp only
  rw [hstrict]
  exact ⟨_, rfl, rfl⟩

/-- Behind white space and comments the document goes on with a text that spells the value. -/
def Starts (setup : Setup) (document : StdString) (v : Value) : Prop :=
  ∃ gap text rest, document = gap ++ text ++ rest ∧ Gap setup.features.allowComments gap ∧
    Spells setup.sscanf setup.features.allowComments (.value v) text ∧ Ends text rest

/-- **A document that starts with a text that spells a value is accepted, the value is read**, in
strict mode if it is an array or an object, **and it spells no other**. -/
theorem parse_spelled {document : StdString} (h : Starts setup document v)
    (hroot : setup.features.strictRoot = true → isContainer v = true) :
    (∃ s, parse setup document = some ⟨true, v, s⟩ ∧ s.errors = []) ∧
      ∀ v', Starts setup document v' → v' = v := by
  -- a reader that accepts any root reads all that the document spells
  let lax : Setup := { setup with features := { setup.features with strictRoot := false } }
  have hlax : ∀ v, Starts setup document v → ∃ s, parse lax document = some ⟨true, v, s⟩ := by
    rintro v ⟨gap, text, rest, rfl, hgap, hspells, hends⟩
    obtain ⟨s, hparse, -⟩ :=
      @parse_of_spells gap lax text v hspells hgap rest hends (absurd · Bool.false_ne_true)
    exact ⟨s, hparse⟩
  refine ⟨?_, fun v' h' => ?_⟩
  · obtain ⟨gap, text, rest, rfl, hgap, hspells, hends⟩ := h
    exact parse_of_spells hspells hgap hends hroot
  · obtain ⟨s, hparse⟩ := hlax v h
    obtain ⟨s', hparse'⟩ := hlax v' h'
    rw [hparse] at hparse'
    exact congrArg Outcome.value (Option.some.inj hparse').symm

theorem parse_spelled_array :
    (∃ s, parse { sscanf := fun _ => none } "/**/ [7] x".toList =
        some ⟨true, .arrayValue [.intValue 7], s⟩ ∧ s.errors = []) ∧
      ∀ v', Starts { sscanf := fun _ => none } "/**/ [7] x".toList v' →
        v' = .arrayValue [.intValue 7] := by
  have hseven : Spells (fun _ => none) true (.value (.intValue 7)) ['7'] :=
    .number ⟨'7', [], rfl, by decide, List.forall_mem_nil _⟩ rfl
  have harray : Spells (fun _ => none) true (.value (.arrayValue [.intValue 7])) "[7]".toList :=
    .array (.lastElement (.element .nil .nil hseven))
  have hgap : Gap true "/**/ ".toList := @Gap.block true [] [' '] rfl (by decide) (.space rfl .nil)
  exact parse_spelled
    ⟨"/**/ ".toList, "[7]".toList, " x".toList, rfl, hgap, harray, fun _ => follows_cons rfl _⟩
    (fun _ => rfl)

end DevScan.Json.Reader
