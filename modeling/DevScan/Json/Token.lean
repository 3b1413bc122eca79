import DevScan.Json.Value
import Mathlib.Data.List.Infix

/-!
# `Json/Token.lean` — cutting a document into tokens

The lower half of `jsoncpp/src/lib_json/json_reader.cpp`: `readToken` and what it calls. A `Location`
of the reader, a pointer into the document, is what there is from it up to `end_`; so moving a
location forward is dropping characters, and every function here leaves a suffix of what it was
given (`readToken_suffix`, `stop_suffix`). A token takes at least one character, unless there is
none (`stop_length_lt`). That is all the termination of the reader rests on.

Two of the loops look at `*current_` without asking whether `current_` is `end_`. What they see then
is the character *behind* the document: the NUL of a `std::string`, but anything at all where the
document is part of a buffer. It is the argument `behind`.

Not modelled: that comments are kept for the writers.
-/

set_option autoImplicit false

namespace DevScan.Json

/-- `Json::Features`, with what `Features::all` allows. -/
structure Features where
  allowComments : Bool := true
  strictRoot : Bool := false
  allowDroppedNullPlaceholders : Bool := false
  allowNumericKeys : Bool := false
deriving DecidableEq, Repr

def Features.all : Features := {}

def Features.strictMode : Features := { allowComments := false, strictRoot := true }

namespace Reader

abbrev Location := StdString

inductive TokenType where
  | endOfStream
  | objectBegin
  | objectEnd
  | arrayBegin
  | arrayEnd
  | string
  | number
  | true
  | false
  | null
  | arraySeparator
  | memberSeparator
  | comment
  | error
deriving DecidableEq, Repr

/-- `stop` is `end_`. -/
structure Token where
  type : TokenType
  start : Location
  stop : Location
deriving DecidableEq, Repr

/-- What stands between the two locations. -/
def Token.text (token : Token) : StdString :=
  token.start.take (token.start.length - token.stop.length)

def nul : Char := Char.ofNat 0

/-- NUL at the end. -/
def getNextChar : Location → Char × Location
  | [] => (nul, [])
  | c :: rest => (c, rest)

/-- `*current_`. -/
def peek (behind : Char) : Location → Char
  | [] => behind
  | c :: _ => c

def isSpace (c : Char) : Bool := c = ' ' || c = '\t' || c = '\r' || c = '\n'

def skipSpaces (current : Location) : Location := current.dropWhile isSpace

/-- `match`. -/
def matchPattern (pattern : StdString) (current : Location) : Bool × Location :=
  if pattern.isPrefixOf current then (true, current.drop pattern.length) else (false, current)

/-- The loop of `readCStyleComment`: up to the slash, or to the end. -/
def findCommentEnd (behind : Char) : Location → Location
  | [] => []
  | c :: rest => if c = '*' ∧ peek behind rest = '/' then rest else findCommentEnd behind rest

def readCStyleComment (behind : Char) (current : Location) : Bool × Location :=
  let next := getNextChar (findCommentEnd behind current)
  (next.1 = '/', next.2)

def readCppStyleComment : Location → Location
  | [] => []
  | c :: rest => if c = '\r' ∨ c = '\n' then rest else readCppStyleComment rest

/-- From behind the first slash on. -/
def readComment (behind : Char) (current : Location) : Bool × Location :=
  let next := getNextChar current
  if next.1 = '*' then readCStyleComment behind next.2
  else if next.1 = '/' then (true, readCppStyleComment next.2)
  else (false, next.2)

def isNumberChar (c : Char) : Bool :=
  c.isDigit || c = '.' || c = 'e' || c = 'E' || c = '+' || c = '-'

def readNumber (current : Location) : Location := current.dropWhile isNumberChar

/-- From behind the opening quote on; a backslash takes the character behind it along. -/
def readString : Location → Bool × Location
  | [] => (false, [])
  | [c] => (c = '"', [])
  | c :: c' :: rest =>
    if c = '\\' then readString rest
    else if c = '"' then (true, c' :: rest)
    else readString (c' :: rest)

/-- A token of this type, if what belongs to it was found. -/
def checked (type : TokenType) (found : Bool × Location) : TokenType × Location :=
  (if found.1 then type else .error, found.2)

/-- The `switch` of `readToken` on the character it has taken. -/
def scan (behind : Char) (c : Char) (current : Location) : TokenType × Location :=
  if c = '{' then (.objectBegin, current)
  else if c = '}' then (.objectEnd, current)
  else if c = '[' then (.arrayBegin, current)
  else if c = ']' then (.arrayEnd, current)
  else if c = '"' then checked .string (readString current)
  else if c = '/' then checked .comment (readComment behind current)
  else if c.isDigit ∨ c = '-' then (.number, readNumber current)
  else if c = 't' then checked .true (matchPattern "rue".toList current)
  else if c = 'f' then checked .false (matchPattern "alse".toList current)
  else if c = 'n' then checked .null (matchPattern "ull".toList current)
  else if c = ',' then (.arraySeparator, current)
  else if c = ':' then (.memberSeparator, current)
  else if c = nul then (.endOfStream, current)
  else (.error, current)

def readToken (behind : Char) (current : Location) : Token :=
  let start := skipSpaces current
  let next := getNextChar start
  let scanned := scan behind next.1 next.2
  ⟨scanned.1, start, scanned.2⟩

/-- `do { readToken(token); } while (token.type_ == tokenComment)`, with the rounds it may still
take. -/
def skipCommentsLoop (behind : Char) : Nat → Location → Token
  | 0, current => readToken behind current
  | rounds + 1, current =>
    let token := readToken behind current
    if token.type = .comment then skipCommentsLoop behind rounds token.stop else token

/-- The first token that is not a comment. -/
def skipComments (behind : Char) (current : Location) : Token :=
  skipCommentsLoop behind current.length current

def skipCommentTokens (features : Features) (behind : Char) (current : Location) : Token :=
  if features.allowComments then skipComments behind current else readToken behind current

/-! ## What is left is a suffix -/

variable {behind c : Char} {current : Location}

theorem getNextChar_suffix (current : Location) : (getNextChar current).2 <:+ current := by
  cases current with
  | nil => exact List.suffix_refl []
  | cons c rest => exact List.suffix_cons c rest

theorem skipSpaces_suffix (current : Location) : skipSpaces current <:+ current :=
  List.dropWhile_suffix _

theorem readNumber_suffix (current : Location) : readNumber current <:+ current :=
  List.dropWhile_suffix _

theorem matchPattern_suffix (pattern : StdString) (current : Location) :
    (matchPattern pattern current).2 <:+ current := by
  rw [matchPattern]
  split
  · exact List.drop_suffix _ _
  · exact List.suffix_refl current

theorem findCommentEnd_suffix (behind : Char) (current : Location) :
    findCommentEnd behind current <:+ current := by
  induction current with
  | nil => exact List.suffix_refl []
  | cons c rest ih =>
    rw [findCommentEnd]
    split
    · exact List.suffix_cons c rest
    · exact ih.trans (List.suffix_cons c rest)

theorem readCppStyleComment_suffix (current : Location) :
    readCppStyleComment current <:+ current := by
  induction current with
  | nil => exact List.suffix_refl []
  | cons c rest ih =>
    rw [readCppStyleComment]
    split
    · exact List.suffix_cons c rest
    · exact ih.trans (List.suffix_cons c rest)

theorem readComment_suffix (behind : Char) (current : Location) :
    (readComment behind current).2 <:+ current := by
  have hnext := getNextChar_suffix current
  rw [readComment]
  split
  · exact ((getNextChar_suffix _).trans (findCommentEnd_suffix behind _)).trans hnext
  · split
    · exact (readCppStyleComment_suffix _).trans hnext
    · exact hnext

theorem readString_suffix (current : Location) : (readString current).2 <:+ current := by
  fun_induction readString current with
  | case1 => exact List.suffix_refl []
  | case2 c => exact List.suffix_cons c []
  | case3 c' rest ih => exact (ih.trans (List.suffix_cons c' rest)).trans (List.suffix_cons _ _)
  | case4 c' rest => exact List.suffix_cons _ _
  | case5 c c' rest _ _ ih => exact ih.trans (List.suffix_cons c _)

/-- What the `switch` makes of a character: each type of token has its own. -/
inductive Scanned (behind : Char) (current : Location) : Char → TokenType → Location → Prop where
  | objectBegin : Scanned behind current '{' .objectBegin current
  | objectEnd : Scanned behind current '}' .objectEnd current
  | arrayBegin : Scanned behind current '[' .arrayBegin current
  | arrayEnd : Scanned behind current ']' .arrayEnd current
  | string (h : (readString current).1 = true) :
      Scanned behind current '"' .string (readString current).2
  | comment (h : (readComment behind current).1 = true) :
      Scanned behind current '/' .comment (readComment behind current).2
  | number {c : Char} (h : c.isDigit ∨ c = '-') : Scanned behind current c .number (readNumber current)
  | true (h : (matchPattern "rue".toList current).1 = true) :
      Scanned behind current 't' .true (matchPattern "rue".toList current).2
  | false (h : (matchPattern "alse".toList current).1 = true) :
      Scanned behind current 'f' .false (matchPattern "alse".toList current).2
  | null (h : (matchPattern "ull".toList current).1 = true) :
      Scanned behind current 'n' .null (matchPattern "ull".toList current).2
  | arraySeparator : Scanned behind current ',' .arraySeparator current
  | memberSeparator : Scanned behind current ':' .memberSeparator current
  | endOfStream : Scanned behind current nul .endOfStream current
  | error {c : Char} {stop : Location} (h : stop <:+ current) : Scanned behind current c .error stop

theorem scanned_checked {type : TokenType} {found : Bool × Location}
    (h : found.1 = true → Scanned behind current c type found.2) (hsuffix : found.2 <:+ current) :
    Scanned behind current c (checked type found).1 (checked type found).2 := by
  rw [Reader.checked]
  split
  · rename_i hfound
    exact h hfound
  · exact .error hsuffix

theorem scan_scanned (behind c : Char) (current : Location) :
    Scanned behind current c (scan behind c current).1 (scan behind c current).2 := by
  let P : TokenType × Location → Prop := fun p => Scanned behind current c p.1 p.2
  change P _
  rw [scan]
  refine iteInduction (by rintro rfl; exact .objectBegin) fun _ => ?_
  refine iteInduction (by rintro rfl; exact .objectEnd) fun _ => ?_
  refine iteInduction (by rintro rfl; exact .arrayBegin) fun _ => ?_
  refine iteInduction (by rintro rfl; exact .arrayEnd) fun _ => ?_
  refine iteInduction (by rintro rfl; exact scanned_checked .string (readString_suffix _)) fun _ => ?_
  refine iteInduction (by rintro rfl; exact scanned_checked .comment (readComment_suffix _ _)) fun _ => ?_
  refine iteInduction (fun h => .number h) fun _ => ?_
  refine iteInduction (by rintro rfl; exact scanned_checked .true (matchPattern_suffix _ _)) fun _ => ?_
  refine iteInduction (by rintro rfl; exact scanned_checked .false (matchPattern_suffix _ _)) fun _ => ?_
  refine iteInduction (by rintro rfl; exact scanned_checked .null (matchPattern_suffix _ _)) fun _ => ?_
  refine iteInduction (by rintro rfl; exact .arraySeparator) fun _ => ?_
  refine iteInduction (by rintro rfl; exact .memberSeparator) fun _ => ?_
  exact iteInduction (by rintro rfl; exact .endOfStream) fun _ => .error (List.suffix_refl _)

theorem scan_suffix (behind c : Char) (current : Location) :
    (scan behind c current).2 <:+ current := by
  have h := scan_scanned behind c current
  generalize (scan behind c current).1 = type at h
  generalize (scan behind c current).2 = stop at h ⊢
  cases h with
  | string => exact readString_suffix current
  | comment => exact readComment_suffix behind current
  | number => exact readNumber_suffix current
  | error h => exact h
  | _ => first | exact List.suffix_refl current | exact matchPattern_suffix _ current

theorem start_suffix (behind : Char) (current : Location) :
    (readToken behind current).start <:+ current := skipSpaces_suffix current

theorem stop_suffix_start (behind : Char) (current : Location) :
    (readToken behind current).stop <:+ (readToken behind current).start :=
  (scan_suffix behind _ _).trans (getNextChar_suffix _)

theorem stop_suffix (behind : Char) (current : Location) :
    (readToken behind current).stop <:+ current :=
  (stop_suffix_start behind current).trans (start_suffix behind current)

theorem readToken_of_end (h : skipSpaces current = []) :
    readToken behind current = ⟨.endOfStream, [], []⟩ := by
  rw [readToken, h]
  rfl

/-- A token takes at least one character, unless there is none. -/
theorem stop_length_lt (h : (readToken behind current).type ≠ .endOfStream) :
    (readToken behind current).stop.length < current.length := by
  cases hstart : skipSpaces current with
  | nil => exact absurd (by rw [readToken_of_end hstart]) h
  | cons c rest =>
    have hstop : (readToken behind current).stop <:+ rest := by
      have hscan := scan_suffix behind c rest
      rw [readToken, hstart]
      exact hscan
    have hstart_le := (skipSpaces_suffix current).length_le
    rw [hstart, List.length_cons] at hstart_le
    exact Nat.lt_of_le_of_lt hstop.length_le hstart_le

/-! ## The first token that is not a comment -/

theorem skipCommentsLoop_of_comment {rounds : Nat}
    (h : (readToken behind current).type = .comment) :
    skipCommentsLoop behind (rounds + 1) current =
      skipCommentsLoop behind rounds (readToken behind current).stop := if_pos h

theorem skipCommentsLoop_of_ne {rounds : Nat} (h : (readToken behind current).type ≠ .comment) :
    skipCommentsLoop behind rounds current = readToken behind current := by
  cases rounds with
  | zero => rfl
  | succ rounds => exact if_neg h

/-- So many rounds are enough for any text. -/
theorem skipCommentsLoop_eq {rounds : Nat} (h : current.length ≤ rounds) :
    skipCommentsLoop behind rounds current = skipComments behind current := by
  rw [skipComments]
  have hloop : ∀ n current, current.length ≤ n → ∀ rounds, n ≤ rounds →
      skipCommentsLoop behind rounds current = skipCommentsLoop behind n current := by
    intro n
    induction n with
    | zero =>
      intro current hlen rounds _
      have hend : current = [] := List.length_eq_zero_iff.mp (Nat.le_zero.mp hlen)
      have hne : (readToken behind current).type ≠ .comment := by
        rw [hend, readToken_of_end rfl]
        decide
      rw [skipCommentsLoop_of_ne hne, skipCommentsLoop_of_ne hne]
    | succ n ih =>
      intro current hlen rounds hrounds
      obtain ⟨rounds, rfl⟩ : ∃ r, rounds = r + 1 := ⟨rounds - 1, by omega⟩
      by_cases hcomment : (readToken behind current).type = .comment
      · have hlt : (readToken behind current).stop.length < current.length :=
          stop_length_lt (by rw [hcomment]; decide)
        rw [skipCommentsLoop_of_comment hcomment, skipCommentsLoop_of_comment hcomment]
        exact ih _ (by omega) rounds (by omega)
      · rw [skipCommentsLoop_of_ne hcomment, skipCommentsLoop_of_ne hcomment]
  exact hloop current.length current (Nat.le_refl _) rounds h

theorem skipComments_of_comment (h : (readToken behind current).type = .comment) :
    skipComments behind current = skipComments behind (readToken behind current).stop := by
  have hlt : (readToken behind current).stop.length < current.length :=
    stop_length_lt (by rw [h]; decide)
  rw [← skipCommentsLoop_eq (Nat.le_succ current.length), skipCommentsLoop_of_comment h,
    skipCommentsLoop_eq (Nat.le_of_lt hlt)]

theorem skipComments_of_ne (h : (readToken behind current).type ≠ .comment) :
    skipComments behind current = readToken behind current := skipCommentsLoop_of_ne h

theorem skipComments_of_end (h : skipSpaces current = []) :
    skipComments behind current = ⟨.endOfStream, [], []⟩ := by
  have htoken : readToken behind current = ⟨.endOfStream, [], []⟩ := readToken_of_end h
  rw [skipComments_of_ne (by rw [htoken]; decide), htoken]

theorem skipCommentTokens_of_end {features : Features} (h : skipSpaces current = []) :
    skipCommentTokens features behind current = ⟨.endOfStream, [], []⟩ := by
  rw [skipCommentTokens]
  split
  · exact skipComments_of_end h
  · exact readToken_of_end h

/-- The comments are skipped one after the other, and what comes then is not one. -/
theorem skipComments_induction {P : Location → Token → Prop} (behind : Char)
    (hlast : ∀ current, (readToken behind current).type ≠ .comment →
      P current (readToken behind current))
    (hcomment : ∀ current token, (readToken behind current).type = .comment →
      P (readToken behind current).stop token → P current token)
    (current : Location) : P current (skipComments behind current) := by
  induction hlen : current.length using Nat.strong_induction_on generalizing current with
  | _ n ih =>
    by_cases h : (readToken behind current).type = .comment
    · have hlt : (readToken behind current).stop.length < current.length :=
        stop_length_lt (by rw [h]; decide)
      rw [skipComments_of_comment h]
      exact hcomment current _ h (ih _ (hlen ▸ hlt) _ rfl)
    · rw [skipComments_of_ne h]
      exact hlast current h

/-! ## What stands between quotes -/

/-- No quote stands here without a backslash in front, and the last backslash has its character. -/
inductive Quotable : StdString → Prop where
  | nil : Quotable []
  | plain {c : Char} {content : StdString} (hbackslash : c ≠ '\\') (hquote : c ≠ '"') :
      Quotable content → Quotable (c :: content)
  | escape {c : Char} {content : StdString} : Quotable content → Quotable ('\\' :: c :: content)

theorem readString_quote (current : Location) : readString ('"' :: current) = (true, current) := by
  cases current with
  | nil => rfl
  | cons c rest =>
    rw [readString, if_neg (by decide), if_pos rfl]

theorem readString_plain {c : Char} (hbackslash : c ≠ '\\') (hquote : c ≠ '"') (current : Location) :
    readString (c :: current) = readString current := by
  cases current with
  | nil => rw [readString, readString, decide_eq_false hquote]
  | cons c' rest => rw [readString, if_neg hbackslash, if_neg hquote]

theorem readString_escape (c : Char) (current : Location) :
    readString ('\\' :: c :: current) = readString current := by
  rw [readString, if_pos rfl]

theorem readString_iff {rest : Location} :
    readString current = (true, rest) ↔
      ∃ content, Quotable content ∧ current = content ++ '"' :: rest := by
  constructor
  · intro h
    fun_induction readString current with
    | case1 => exact absurd h (by simp)
    | case2 c =>
      obtain ⟨hc, rfl⟩ := Prod.mk.inj h
      exact ⟨[], .nil, by rw [of_decide_eq_true hc]; rfl⟩
    | case3 c' rest' ih =>
      obtain ⟨content, hquotable, rfl⟩ := ih h
      exact ⟨'\\' :: c' :: content, .escape hquotable, rfl⟩
    | case4 c' rest' =>
      obtain ⟨-, rfl⟩ := Prod.mk.inj h
      exact ⟨[], .nil, rfl⟩
    | case5 c c' rest' hbackslash hquote ih =>
      obtain ⟨content, hquotable, hrest⟩ := ih h
      exact ⟨c :: content, .plain hbackslash hquote hquotable, by rw [hrest]; rfl⟩
  · rintro ⟨content, hquotable, rfl⟩
    induction hquotable with
    | nil => exact readString_quote rest
    | plain hbackslash hquote _ ih =>
      rw [List.cons_append, readString_plain hbackslash hquote, ih]
    | escape _ ih => rw [List.cons_append, List.cons_append, readString_escape, ih]

/-! ## What a token is -/

theorem readToken_scanned (h : (readToken behind current).type ≠ .endOfStream) :
    ∃ c rest, skipSpaces current = c :: rest ∧ (readToken behind current).start = c :: rest ∧
      Scanned behind rest c (readToken behind current).type (readToken behind current).stop := by
  cases hstart : skipSpaces current with
  | nil => exact absurd (by rw [readToken_of_end hstart]) h
  | cons c rest =>
    have hscan := scan_scanned behind c rest
    refine ⟨c, rest, rfl, ?_⟩
    rw [readToken, hstart]
    exact ⟨rfl, hscan⟩

theorem text_eq {token : Token} {text : StdString} (h : token.start = text ++ token.stop) :
    token.text = text := by
  rw [Token.text, h, List.length_append, Nat.add_sub_cancel, List.take_left]

theorem readToken_string (h : (readToken behind current).type = .string) :
    ∃ content, Quotable content ∧
      (readToken behind current).start = '"' :: content ++ '"' :: (readToken behind current).stop := by
  obtain ⟨c, rest, -, hstart, hscanned⟩ := readToken_scanned (by rw [h]; decide)
  rw [h] at hscanned
  generalize (readToken behind current).stop = stop at hscanned
  rw [hstart]
  cases hscanned with
  | string hfound =>
    obtain ⟨content, hquotable, hcontent⟩ := readString_iff.mp (Prod.ext hfound rfl)
    exact ⟨content, hquotable, congrArg (List.cons '"') hcontent⟩

/-! ## Tokens of a text -/

/-- A token that is read somewhere in the text. -/
def TokenOf (behind : Char) (current : Location) (token : Token) : Prop :=
  ∃ here, here <:+ current ∧ readToken behind here = token

namespace TokenOf

variable {token : Token}

theorem mono {current' : Location} (h : TokenOf behind current' token)
    (hsuffix : current' <:+ current) : TokenOf behind current token := by
  obtain ⟨here, hfrom, htoken⟩ := h
  exact ⟨here, hfrom.trans hsuffix, htoken⟩

theorem readToken (behind : Char) (current : Location) :
    TokenOf behind current (readToken behind current) := ⟨current, List.suffix_refl current, rfl⟩

theorem skipComments (behind : Char) (current : Location) :
    TokenOf behind current (skipComments behind current) := by
  refine skipComments_induction (P := TokenOf behind) behind (fun current _ => readToken behind current)
    (fun current token _ h => ?_) current
  exact h.mono (stop_suffix behind current)

theorem skipCommentTokens (features : Features) (behind : Char) (current : Location) :
    TokenOf behind current (skipCommentTokens features behind current) := by
  rw [Reader.skipCommentTokens]
  split
  · exact skipComments behind current
  · exact readToken behind current

theorem start_suffix (h : TokenOf behind current token) : token.start <:+ current := by
  obtain ⟨here, hfrom, rfl⟩ := h
  exact (Reader.start_suffix behind here).trans hfrom

theorem stop_suffix_start (h : TokenOf behind current token) : token.stop <:+ token.start := by
  obtain ⟨here, -, rfl⟩ := h
  exact Reader.stop_suffix_start behind here

theorem stop_suffix (h : TokenOf behind current token) : token.stop <:+ current :=
  h.stop_suffix_start.trans h.start_suffix

theorem stop_length_lt (h : TokenOf behind current token) (htype : token.type ≠ .endOfStream) :
    token.stop.length < current.length := by
  obtain ⟨here, hfrom, rfl⟩ := h
  exact Nat.lt_of_lt_of_le (Reader.stop_length_lt htype) hfrom.length_le

theorem scanned (h : TokenOf behind current token) (htype : token.type ≠ .endOfStream) :
    ∃ c rest, token.start = c :: rest ∧ Scanned behind rest c token.type token.stop := by
  obtain ⟨here, -, rfl⟩ := h
  obtain ⟨c, rest, -, hscanned⟩ := readToken_scanned htype
  exact ⟨c, rest, hscanned⟩

theorem arrayBegin (h : TokenOf behind current token) (htype : token.type = .arrayBegin) :
    token.start = '[' :: token.stop := by
  obtain ⟨c, rest, hstart, hscanned⟩ := h.scanned (by rw [htype]; decide)
  rw [htype] at hscanned
  rw [hstart]
  generalize token.stop = stop at hscanned
  cases hscanned
  rfl

/-- A string token has its quotes, and what stands between them is `text` without them. -/
theorem string (h : TokenOf behind current token) (htype : token.type = .string) :
    ∃ content, Quotable content ∧ token.start = '"' :: content ++ '"' :: token.stop ∧
      token.text.tail.dropLast = content := by
  obtain ⟨here, -, rfl⟩ := h
  obtain ⟨content, hquotable, hstart⟩ := readToken_string htype
  refine ⟨content, hquotable, hstart, ?_⟩
  have htext : (Reader.readToken behind here).text = '"' :: content ++ ['"'] :=
    text_eq (by simp [hstart])
  rw [htext]
  simp

end TokenOf

end Reader
end DevScan.Json
