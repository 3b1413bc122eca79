import DevScan.Json.Accepts
import Mathlib.Data.List.TakeWhile

/-!
# `Json/Spelled.lean` — what is accepted spells the value that is read

The other half of what the reader and the grammar have to do with each other. The reader takes
documents that spell nothing: after a comment any token goes for a comma between two members, and an
object may end behind a comma if the name before it was empty. A document in which neither can happen
(`Unambiguous`) is accepted exactly if it starts with a text that spells a value, and that value is
read (`parse_iff_spells`).

A token is a text of its kind with white space in front (`readToken_spelled`); each of the functions
that read reads a text that spells its part, by induction on the fuel (`AllSpelled`).
-/

set_option autoImplicit false

namespace DevScan.Json.Reader

variable {behind c : Char} {current : Location}

/-! ## The text of a token -/

/-- The texts of the tokens, of those at least that are found where nothing is wrong. -/
inductive TokenText : TokenType → StdString → Prop where
  | objectBegin : TokenText .objectBegin ['{']
  | objectEnd : TokenText .objectEnd ['}']
  | arrayBegin : TokenText .arrayBegin ['[']
  | arrayEnd : TokenText .arrayEnd [']']
  | arraySeparator : TokenText .arraySeparator [',']
  | memberSeparator : TokenText .memberSeparator [':']
  | string {content : StdString} (hquotable : Quotable content) :
      TokenText .string ('"' :: content ++ ['"'])
  | number {text : StdString} (htext : NumberText text) : TokenText .number text
  | true : TokenText .true "true".toList
  | false : TokenText .false "false".toList
  | null : TokenText .null "null".toList
  | comment (text : StdString) : TokenText .comment text
  | endOfStream (text : StdString) : TokenText .endOfStream text
  | error (text : StdString) : TokenText .error text

theorem matchPattern_eq {pattern : StdString} (h : (matchPattern pattern current).1 = true) :
    current = pattern ++ (matchPattern pattern current).2 := by
  rw [matchPattern] at h ⊢
  split
  · rename_i hprefix
    exact (List.prefix_iff_eq_append.mp (List.isPrefixOf_iff_prefix.mp hprefix)).symm
  · rename_i hprefix
    rw [if_neg hprefix] at h
    exact absurd h (by simp)

theorem scanned_text {type : TokenType} {stop : Location}
    (h : Scanned behind current c type stop) :
    ∃ text, TokenText type text ∧ c :: current = text ++ stop := by
  cases h with
  | objectBegin => exact ⟨_, .objectBegin, rfl⟩
  | objectEnd => exact ⟨_, .objectEnd, rfl⟩
  | arrayBegin => exact ⟨_, .arrayBegin, rfl⟩
  | arrayEnd => exact ⟨_, .arrayEnd, rfl⟩
  | arraySeparator => exact ⟨_, .arraySeparator, rfl⟩
  | memberSeparator => exact ⟨_, .memberSeparator, rfl⟩
  | string h =>
    obtain ⟨content, hquotable, hcontent⟩ := readString_iff.mp (Prod.ext h rfl)
    refine ⟨_, .string hquotable, ?_⟩
    rw [List.cons_append, List.cons_append, List.append_assoc, List.singleton_append, ← hcontent]
  | comment =>
    obtain ⟨before, hbefore⟩ := readComment_suffix behind current
    exact ⟨'/' :: before, .comment _, by rw [List.cons_append, hbefore]⟩
  | number h =>
    refine ⟨c :: current.takeWhile isNumberChar, .number ⟨c, _, rfl, h, fun d hd => ?_⟩, ?_⟩
    · exact List.mem_takeWhile_imp hd
    · rw [List.cons_append, readNumber, List.takeWhile_append_dropWhile]
  | true h => exact ⟨_, .true, congrArg (List.cons 't') (matchPattern_eq h)⟩
  | false h => exact ⟨_, .false, congrArg (List.cons 'f') (matchPattern_eq h)⟩
  | null h => exact ⟨_, .null, congrArg (List.cons 'n') (matchPattern_eq h)⟩
  | endOfStream => exact ⟨[nul], .endOfStream _, rfl⟩
  | error h =>
    obtain ⟨before, hbefore⟩ := h
    exact ⟨c :: before, .error _, by rw [List.cons_append, hbefore]⟩

/-- A token has its text, and white space may stand in front of it. -/
theorem readToken_spelled (behind : Char) (current : Location) :
    ∃ blank text, Gap false blank ∧ TokenText (readToken behind current).type text ∧
      (readToken behind current).start = text ++ (readToken behind current).stop ∧
      current = blank ++ (readToken behind current).start := by
  have hblank : Gap false (current.takeWhile isSpace) :=
    Blank.gap fun _ => List.mem_takeWhile_imp
  have hcurrent : current.takeWhile isSpace ++ skipSpaces current = current :=
    List.takeWhile_append_dropWhile
  cases hstart : skipSpaces current with
  | nil =>
    rw [hstart] at hcurrent
    rw [readToken_of_end hstart]
    exact ⟨_, [], hblank, .endOfStream [], rfl, hcurrent.symm⟩
  | cons c rest =>
    obtain ⟨text, htext, heq⟩ := scanned_text (scan_scanned behind c rest)
    rw [hstart] at hcurrent
    rw [readToken, hstart]
    exact ⟨_, text, hblank, htext, heq, hcurrent.symm⟩

/-! ## Documents that can be read in one way only -/

/-- An empty name, from behind its opening quote on. -/
def isEmptyName (current : Location) : Bool :=
  current.head? = some '"' && (skipSpaces current.tail).head? = some ':'

/-- From a place outside of the strings on, or from one in a string: outside there is no slash, with
which a comment begins, and there is no empty name. -/
def unambiguousFrom : Bool → StdString → Bool
  | _, [] => true
  | false, c :: rest =>
    if c = '"' then !isEmptyName rest && unambiguousFrom true rest
    else c ≠ '/' && unambiguousFrom false rest
  | true, [_] => true
  | true, c :: c' :: rest =>
    if c = '\\' then unambiguousFrom true rest
    else if c = '"' then unambiguousFrom false (c' :: rest)
    else unambiguousFrom true (c' :: rest)

/-- There are no comments, and no empty names. -/
def Unambiguous (document : StdString) : Prop := unambiguousFrom false document = true

instance (document : StdString) : Decidable (Unambiguous document) :=
  inferInstanceAs (Decidable (_ = true))

theorem Unambiguous.tail {rest : StdString} (h : Unambiguous (c :: rest)) (hquote : c ≠ '"') :
    Unambiguous rest := by
  rw [Unambiguous, unambiguousFrom, if_neg hquote, Bool.and_eq_true] at h
  exact h.2

theorem Unambiguous.drop {text rest : StdString} (h : Unambiguous (text ++ rest))
    (hquotes : ∀ c ∈ text, c ≠ '"') : Unambiguous rest := by
  induction text with
  | nil => exact h
  | cons c text ih =>
    obtain ⟨hquote, hquotes⟩ := List.forall_mem_cons.mp hquotes
    exact ih (h.tail hquote) hquotes

theorem Unambiguous.drop_word {text rest : StdString} (h : Unambiguous (text ++ rest))
    (hquotes : text.all (· ≠ '"') = true) : Unambiguous rest :=
  h.drop fun c hc => of_decide_eq_true (List.all_eq_true.mp hquotes c hc)

/-- In a string, up to its end. -/
theorem Unambiguous.of_content {content rest : StdString} (hquotable : Quotable content)
    (h : unambiguousFrom true (content ++ '"' :: rest) = true) : Unambiguous rest := by
  induction hquotable with
  | nil =>
    cases rest with
    | nil => rfl
    | cons c rest =>
      rw [List.nil_append, unambiguousFrom, if_neg (by decide), if_pos rfl] at h
      exact h
  | @plain c content hbackslash hquote _ ih =>
    refine ih ?_
    obtain ⟨d, more, hmore⟩ := List.exists_cons_of_ne_nil
      (show content ++ '"' :: rest ≠ [] by simp)
    rw [List.cons_append, hmore, unambiguousFrom, if_neg hbackslash, if_neg hquote] at h
    rwa [hmore]
  | escape _ ih =>
    rw [List.cons_append, List.cons_append, unambiguousFrom, if_pos rfl] at h
    exact ih h

theorem Unambiguous.of_string {content rest : StdString} (hquotable : Quotable content)
    (h : Unambiguous ('"' :: content ++ ['"'] ++ rest)) : Unambiguous rest := by
  rw [List.append_assoc, List.singleton_append, List.cons_append, Unambiguous, unambiguousFrom,
    if_pos rfl, Bool.and_eq_true] at h
  exact .of_content hquotable h.2

theorem not_unambiguous_emptyName {blank rest : StdString} (hblank : Gap false blank) :
    ¬Unambiguous ('"' :: '"' :: (blank ++ ':' :: rest)) := by
  intro h
  rw [Unambiguous, unambiguousFrom, if_pos rfl, Bool.and_eq_true, Bool.not_eq_true'] at h
  have hempty : isEmptyName ('"' :: (blank ++ ':' :: rest)) = true := by
    rw [isEmptyName, List.tail_cons, skipSpaces_blank hblank (by decide)]
    rfl
  exact Bool.false_ne_true (h.1.symm.trans hempty)

theorem ne_quote_of_gap {blank : StdString} (h : Gap false blank) : ∀ c ∈ blank, c ≠ '"' := by
  induction h with
  | nil => exact List.forall_mem_nil _
  | space hspace _ ih =>
    refine List.forall_mem_cons.mpr ⟨?_, ih⟩
    rintro rfl
    exact absurd hspace (by decide)
  | block hallowed => exact absurd hallowed Bool.false_ne_true
  | line hallowed => exact absurd hallowed Bool.false_ne_true

theorem ne_quote_of_numberText {text : StdString} (h : NumberText text) : ∀ c ∈ text, c ≠ '"' := by
  obtain ⟨c, rest, rfl, hc, hrest⟩ := h
  refine List.forall_mem_cons.mpr ⟨?_, fun d hd => ?_⟩
  · rintro rfl
    exact absurd hc (by decide)
  · rintro rfl
    exact absurd (hrest _ hd) (by decide)

/-- No token of it is a comment. -/
theorem Unambiguous.ne_comment (h : Unambiguous current) :
    (readToken behind current).type ≠ .comment := by
  intro htype
  obtain ⟨blank, text, hblank, -, -, hcurrent⟩ := readToken_spelled behind current
  obtain ⟨c, rest, -, hstart, hscanned⟩ := readToken_scanned (by rw [htype]; decide)
  rw [htype] at hscanned
  generalize (readToken behind current).stop = stop at hscanned
  rw [hcurrent, hstart] at h
  have hrest := h.drop (ne_quote_of_gap hblank)
  cases hscanned with
  | comment hfound =>
    rw [Unambiguous, unambiguousFrom, if_neg (by decide), Bool.and_eq_true, decide_eq_true_eq] at hrest
    exact hrest.1 rfl

/-- Behind a token it goes on like that. -/
theorem Unambiguous.stop (h : Unambiguous current) (herror : (readToken behind current).type ≠ .error)
    (hend : (readToken behind current).type ≠ .endOfStream) :
    Unambiguous (readToken behind current).stop := by
  obtain ⟨blank, text, hblank, htext, hstart, hcurrent⟩ := readToken_spelled behind current
  have hcomment := @Unambiguous.ne_comment behind _ h
  rw [hcurrent, hstart] at h
  have hrest := h.drop (ne_quote_of_gap hblank)
  generalize (readToken behind current).type = type at htext herror hend hcomment
  cases htext with
  | string hquotable => exact .of_string hquotable hrest
  | number htext => exact hrest.drop (ne_quote_of_numberText htext)
  | true => exact hrest.drop_word (by decide)
  | false => exact hrest.drop_word (by decide)
  | null => exact hrest.drop_word (by decide)
  | comment => exact absurd rfl hcomment
  | endOfStream => exact absurd rfl hend
  | error => exact absurd rfl herror
  | _ => exact hrest.tail (by decide)

/-- Behind what is spelled it goes on like that. -/
theorem Unambiguous.spelled {sscanf : StdString → Option Real} {item : Item} {text : StdString}
    (hspells : Spells sscanf Bool.false item text) :
    ∀ {rest}, Unambiguous (text ++ rest) → Unambiguous rest := by
  induction hspells with
  | null => exact fun h => h.drop_word (by decide)
  | true => exact fun h => h.drop_word (by decide)
  | false => exact fun h => h.drop_word (by decide)
  | number htext => exact fun h => h.drop (ne_quote_of_numberText htext)
  | string hquotable => exact fun h => .of_string hquotable h
  | emptyArray hblank =>
    intro rest h
    rw [List.append_assoc, List.cons_append] at h
    exact ((h.tail (by decide)).drop (ne_quote_of_gap hblank)).tail (by decide)
  | array _ ih =>
    intro rest h
    rw [List.append_assoc, List.cons_append] at h
    exact (ih (h.tail (by decide))).tail (by decide)
  | emptyObject hgap =>
    intro rest h
    rw [List.append_assoc, List.cons_append] at h
    exact ((h.tail (by decide)).drop (ne_quote_of_gap hgap)).tail (by decide)
  | object _ ih =>
    intro rest h
    rw [List.append_assoc, List.cons_append] at h
    exact (ih (h.tail (by decide))).tail (by decide)
  | element hbefore hafter _ ih =>
    intro rest h
    rw [List.append_assoc, List.append_assoc] at h
    exact (ih (h.drop (ne_quote_of_gap hbefore))).drop (ne_quote_of_gap hafter)
  | lastElement _ ih => exact ih
  | moreElements _ _ ih ihrest =>
    intro rest h
    rw [List.append_assoc, List.cons_append] at h
    exact ihrest ((ih h).tail (by decide))
  | @member gap content name blank text v hgap hquotable _ hblank _ ih =>
    intro rest h
    have hname : Unambiguous (gap ++ ('"' :: content ++ ['"'] ++ (blank ++ ':' :: (text ++ rest)))) := by
      simpa using h
    exact ih (((Unambiguous.of_string hquotable (hname.drop (ne_quote_of_gap hgap))).drop
      (ne_quote_of_gap hblank)).tail (by decide))
  | lastMember _ ih => exact ih
  | moreMembers _ _ ih ihrest =>
    intro rest h
    rw [List.append_assoc, List.cons_append] at h
    exact ihrest ((ih h).tail (by decide))

/-! ## Only an empty text is read as one -/

theorem hexDigit?_lt {d : Nat} (h : hexDigit? c = some d) : d < 16 := by
  have h0 : '0'.toNat = 48 := rfl
  have ha : 'a'.toNat = 97 := rfl
  have hA : 'A'.toNat = 65 := rfl
  rw [hexDigit?] at h
  split at h
  · rename_i hrange
    have hmax : c.toNat ≤ 57 := hrange.2
    obtain rfl := Option.some.inj h
    omega
  · split at h
    · rename_i hrange
      have hmax : c.toNat ≤ 102 := hrange.2
      obtain rfl := Option.some.inj h
      omega
    · split at h
      · rename_i hrange
        have hmax : c.toNat ≤ 70 := hrange.2
        obtain rfl := Option.some.inj h
        omega
      · exact absurd h (by simp)

theorem hexLoop_lt {digits unicode n : Nat} {current rest : StdString}
    (h : hexLoop digits unicode current = .ok (n, rest)) : n < (unicode + 1) * 16 ^ digits := by
  induction digits generalizing unicode current with
  | zero =>
    obtain ⟨rfl, -⟩ := Prod.mk.inj (Except.ok.inj h)
    omega
  | succ digits ih =>
    rw [hexLoop] at h
    split at h
    · rename_i digit hdigit
      have hlt := ih h
      have hle : (unicode * 16 + digit + 1) * 16 ^ digits ≤ (unicode + 1) * 16 * 16 ^ digits :=
        Nat.mul_le_mul_right _ (by have := hexDigit?_lt hdigit; omega)
      rw [Nat.pow_succ', ← Nat.mul_assoc]
      exact Nat.lt_of_lt_of_le hlt hle
    · exact absurd h (by simp)

theorem decodeUnicodeEscapeSequence_lt {n : Nat} {current rest : StdString}
    (h : decodeUnicodeEscapeSequence current = .ok (n, rest)) : n < 0x10000 := by
  rw [decodeUnicodeEscapeSequence] at h
  split at h
  · exact absurd h (by simp)
  · exact hexLoop_lt h

/-- Two halves of ten bits. -/
theorem decodeSurrogatePair_lt {unicode n : Nat} {current rest : StdString}
    (h : decodeSurrogatePair unicode current = .ok (n, rest)) : n < 0x110000 := by
  have hmask : ∀ k, k &&& 0x3FF < 0x400 := fun k => @Nat.and_lt_two_pow k 0x3FF 10 (by decide)
  rw [decodeSurrogatePair] at h
  split at h
  · exact absurd h (by simp)
  · dsimp only at h
    split at h
    · split at h
      · obtain ⟨pair, -, hpair⟩ := Lib.bind_eq_ok.mp h
        obtain ⟨rfl, -⟩ := Prod.mk.inj (Except.ok.inj hpair)
        have hhigh := hmask unicode
        have hlow := hmask pair.1
        rw [Nat.shiftLeft_eq]
        omega
      · exact absurd h (by simp)
    · exact absurd h (by simp)

theorem decodeUnicodeCodePoint_lt {n : Nat} {current rest : StdString}
    (h : decodeUnicodeCodePoint current = .ok (n, rest)) : n < 0x110000 := by
  rw [decodeUnicodeCodePoint] at h
  obtain ⟨first, hfirst, hrest⟩ := Lib.bind_eq_ok.mp h
  dsimp only at hrest
  split at hrest
  · exact decodeSurrogatePair_lt hrest
  · obtain ⟨rfl, -⟩ := Prod.mk.inj (Except.ok.inj hrest)
    exact Nat.lt_trans (decodeUnicodeEscapeSequence_lt hfirst) (by decide)

theorem codePointToUTF8_ne_nil {n : Nat} (h : n < 0x110000) : codePointToUTF8 n ≠ [] := by
  rw [codePointToUTF8]
  split
  · simp
  · split
    · simp
    · split
      · simp
      · rw [if_pos (by omega)]
        simp

/-- Something of every character is kept. -/
theorem append_of_decodeStringLoop {rounds : Nat} {current before decoded : StdString}
    (h : decodeStringLoop rounds current before = .ok decoded) : before <+: decoded := by
  induction rounds generalizing current before with
  | zero =>
    obtain rfl := Except.ok.inj h
    exact List.prefix_refl _
  | succ rounds ih =>
    cases current with
    | nil =>
      obtain rfl := Except.ok.inj h
      exact List.prefix_refl _
    | cons c current =>
      have hmore : ∀ {current added}, decodeStringLoop rounds current (before ++ added) = .ok decoded →
          before <+: decoded := fun h => (List.prefix_append _ _).trans (ih h)
      unfold decodeStringLoop at h
      split at h
      · obtain rfl := Except.ok.inj h
        exact List.prefix_refl _
      · split at h
        · cases current with
          | nil => exact absurd h (by simp)
          | cons escape current =>
            simp only at h
            split at h
            · split at h
              · exact hmore h
              · exact absurd h (by simp)
            · split at h
              · exact hmore h
              · exact absurd h (by simp)
        · exact hmore h

theorem content_nil_of_decodeString {content : StdString} (hquotable : Quotable content)
    (h : decodeString content = .ok []) : content = [] := by
  have hnil : ∀ {rounds current added}, added ≠ [] →
      decodeStringLoop rounds current ([] ++ added) ≠ .ok [] := fun hne hdecoded =>
    hne (List.prefix_nil.mp (append_of_decodeStringLoop hdecoded))
  cases hquotable with
  | nil => rfl
  | plain hbackslash hquote _ =>
    rw [decodeString, List.length_cons] at h
    unfold decodeStringLoop at h
    rw [if_neg hquote, if_neg hbackslash] at h
    exact absurd h (hnil (by simp))
  | @escape escape content _ =>
    have hquote : ¬ '\\' = '"' := by decide
    rw [decodeString, List.length_cons] at h
    unfold decodeStringLoop at h
    rw [if_neg hquote, if_pos rfl] at h
    simp only at h
    split at h
    · split at h
      · rename_i hpoint
        exact absurd h (hnil (codePointToUTF8_ne_nil (decodeUnicodeCodePoint_lt hpoint)))
      · exact absurd h (by simp)
    · split at h
      · exact absurd h (hnil (by simp))
      · exact absurd h (by simp)

/-! ## What is read is spelled -/

/-- The reader takes nothing but names for names and nothing but values for values, and does not take
what stands behind the document for the end of an array. -/
structure Plain (setup : Setup) : Prop where
  keys : setup.features.allowNumericKeys = false
  nulls : setup.features.allowDroppedNullPlaceholders = false
  behind : setup.behind ≠ ']'

variable {setup : Setup} {s : Reading} {o : Outcome}

theorem Unambiguous.skipComments (h : Unambiguous current) :
    skipComments behind current = readToken behind current :=
  skipComments_of_ne h.ne_comment

theorem Unambiguous.skipCommentTokens {features : Features} (h : Unambiguous current) :
    skipCommentTokens features behind current = readToken behind current := by
  rw [Reader.skipCommentTokens]
  split
  · exact h.skipComments
  · rfl

/-- A value that was read, up to `rest`. -/
def SpelledValue (setup : Setup) (v : Value) (current rest : Location) : Prop :=
  ∃ gap text, Gap false gap ∧ Spells setup.sscanf false (.value v) text ∧
    current = gap ++ text ++ rest ∧ Ends text rest

theorem SpelledValue.unambiguous {setup : Setup} {v : Value} {rest : Location}
    (h : SpelledValue setup v current rest) (hcurrent : Unambiguous current) : Unambiguous rest := by
  obtain ⟨gap, text, hgap, hspells, rfl, -⟩ := h
  rw [List.append_assoc] at hcurrent
  exact .spelled hspells (hcurrent.drop (ne_quote_of_gap hgap))

/-- The members that were read, up to the end of the object; there may be none if there is no name
yet. -/
def SpelledMembers (setup : Setup) (name : StdString) (ms : List (StdString × Value))
    (text : StdString) : Prop :=
  ms = [] ∧ name = [] ∧ Gap false text ∨ Spells setup.sscanf false (.members ms) text

/-- The four functions read what is spelled, on this fuel. -/
structure AllSpelled (setup : Setup) (fuel : Nat) : Prop where
  readValue : ∀ {value s o}, Unambiguous s.current → readValue setup fuel value s = some o →
    o.successful = true → SpelledValue setup o.value s.current o.reading.current
  readObject : ∀ {name members s o}, Unambiguous s.current →
    readObject setup fuel name members s = some o → o.successful = true →
    ∃ ms text, o.value = .objectValue (ms.foldl putMember members) ∧
      s.current = text ++ '}' :: o.reading.current ∧ SpelledMembers setup name ms text
  readArray : ∀ {s o}, Unambiguous s.current → readArray setup fuel s = some o →
    o.successful = true →
    ∃ text, s.current = text ++ ']' :: o.reading.current ∧
      Spells setup.sscanf false (.value o.value) ('[' :: text ++ [']'])
  readElements : ∀ {elems s o}, Unambiguous s.current → readElements setup fuel elems s = some o →
    o.successful = true →
    ∃ vs text, o.value = .arrayValue (elems ++ vs) ∧ s.current = text ++ ']' :: o.reading.current ∧
      Spells setup.sscanf false (.elements vs) text

theorem not_numberText {c : Char} {rest : StdString} (h : ¬(c.isDigit ∨ c = '-')) :
    ¬NumberText (c :: rest) := by
  rintro ⟨first, digits, htext, hfirst, -⟩
  rw [(List.cons.inj htext).1] at h
  exact h hfirst

theorem ends_of_head {c : Char} {text : StdString} (h : ¬(c.isDigit ∨ c = '-'))
    (rest : Location) : Ends (c :: text) rest := fun htext => absurd htext (not_numberText h)

theorem decodeNumber_not_object {sscanf : StdString → Option Real} {text : StdString}
    {members : List (StdString × Value)} : decodeNumber sscanf text ≠ .ok (.objectValue members) := by
  have hdouble : decodeDouble sscanf text ≠ .ok (.objectValue members) := by
    rw [decodeDouble]
    split
    · exact nofun
    · exact nofun
  intro h
  rw [decodeNumber] at h
  split at h
  · exact hdouble h
  · dsimp only at h
    split at h
    · cases h
    · exact hdouble h
    · split at h
      · cases h
      · rw [Value.ofUnsigned] at h
        split at h
        · cases h
        · cases h

/-- The text of an object begins with a brace. -/
theorem spells_object_head {sscanf : StdString → Option Real} {comments : Bool} {text : StdString}
    {members : List (StdString × Value)}
    (h : Spells sscanf comments (.value (.objectValue members)) text) :
    ∃ inner, text = '{' :: inner := by
  cases h with
  | number _ hvalue => exact absurd hvalue decodeNumber_not_object
  | emptyObject _ => exact ⟨_, rfl⟩
  | object _ => exact ⟨_, rfl⟩

theorem follows_readNumber (current : Location) : Follows (readNumber current) := by
  intro c hc
  have hhead := List.head?_dropWhile_not isNumberChar current
  rw [← readNumber, hc] at hhead
  exact hhead

theorem follows_number (h : (readToken behind current).type = .number) :
    Follows (readToken behind current).stop := by
  obtain ⟨c, rest, -, -, hscanned⟩ := readToken_scanned (by rw [h]; decide)
  rw [h] at hscanned
  generalize (readToken behind current).stop = stop at hscanned
  cases hscanned
  exact follows_readNumber rest

/-- The name or the string between the quotes. -/
theorem stringOf_ok {token : Token} {content decoded : StdString}
    (hstart : token.start = '"' :: content ++ ['"'] ++ token.stop) (h : stringOf token = .ok decoded) :
    decodeString content = .ok decoded := by
  rw [stringOf, text_eq hstart] at h
  have hcontent : ('"' :: content ++ ['"']).tail.dropLast = content := by simp
  rw [hcontent] at h
  split at h
  · rename_i hdecoded
    rw [hdecoded, Except.ok.inj h]
  · exact absurd h (by simp)

theorem numberOf_ok {token : Token} {text : StdString} {v : Value}
    (hstart : token.start = text ++ token.stop) (h : numberOf setup token = .ok v) :
    decodeNumber setup.sscanf text = .ok v := by
  rw [numberOf, text_eq hstart] at h
  split at h
  · rename_i hdecoded
    rw [hdecoded, Except.ok.inj h]
  · exact absurd h (by simp)

theorem decoded_ok {value : Value} {r : Except ErrorInfo Value}
    (h : (s.decoded value r).successful = true) :
    r = .ok (s.decoded value r).value ∧ (s.decoded value r).reading = s := by
  cases r with
  | ok value => exact ⟨rfl, rfl⟩
  | error info => exact absurd h Bool.false_ne_true

theorem spelled_readValue {fuel : Nat} (hplain : Plain setup)
    (ih : AllSpelled setup fuel) {value : Value} (hclear : Unambiguous s.current)
    (h : readValue setup (fuel + 1) value s = some o) (hok : o.successful = true) :
    SpelledValue setup o.value s.current o.reading.current := by
  obtain ⟨blank, text, hblank, htext, hstart, hcurrent⟩ := readToken_spelled setup.behind s.current
  have hstop := @Unambiguous.stop setup.behind _ hclear
  have hfollows := @follows_number setup.behind s.current
  rw [readValue, hclear.skipCommentTokens] at h
  generalize readToken setup.behind s.current = token at h htext hstart hcurrent hstop hfollows
  rw [hstart, ← List.append_assoc] at hcurrent
  obtain ⟨type, start, stop⟩ := token
  dsimp only at *
  cases htext with
  | objectBegin =>
    obtain ⟨ms, text, hvalue, hstop, hmembers⟩ := ih.readObject (hstop (by decide) (by decide)) h hok
    refine ⟨blank, '{' :: text ++ ['}'], hblank, ?_, ?_, ends_of_head (by decide) _⟩
    · rw [hvalue]
      rcases hmembers with ⟨rfl, -, hgap⟩ | hmembers
      · exact .emptyObject hgap
      · exact .object hmembers
    · rw [hcurrent, show stop = _ from hstop]
      simp
  | arrayBegin =>
    obtain ⟨text, hstop, hspells⟩ := ih.readArray (hstop (by decide) (by decide)) h hok
    refine ⟨blank, '[' :: text ++ [']'], hblank, hspells, ?_, ends_of_head (by decide) _⟩
    rw [hcurrent, show stop = _ from hstop]
    simp
  | number htext =>
    obtain rfl := Option.some.inj h
    obtain ⟨hvalue, hreading⟩ := decoded_ok hok
    rw [hreading]
    exact ⟨blank, text, hblank, .number htext (numberOf_ok hstart hvalue), hcurrent,
      fun _ => hfollows rfl⟩
  | @string content hquotable =>
    obtain rfl := Option.some.inj h
    obtain ⟨hvalue, hreading⟩ := decoded_ok hok
    rw [hreading]
    refine ⟨blank, _, hblank, ?_, hcurrent, ends_of_head (by decide) _⟩
    cases hstring : stringOf ⟨.string, start, stop⟩ with
    | error info => 
      rw [hstring] at hvalue
      exact absurd hvalue (by simp [Except.map])
    | ok decoded =>
      exact .string hquotable (stringOf_ok hstart hstring)
  | true =>
    obtain rfl := Option.some.inj h
    exact ⟨blank, _, hblank, .true, hcurrent, ends_of_head (by decide) _⟩
  | false =>
    obtain rfl := Option.some.inj h
    exact ⟨blank, _, hblank, .false, hcurrent, ends_of_head (by decide) _⟩
  | null =>
    obtain rfl := Option.some.inj h
    exact ⟨blank, _, hblank, .null, hcurrent, ends_of_head (by decide) _⟩
  | arraySeparator =>
    rw [if_neg (by rw [hplain.nulls]; exact Bool.false_ne_true)] at h
    obtain rfl := Option.some.inj h
    exact absurd hok Bool.false_ne_true
  | _ =>
    obtain rfl := Option.some.inj h
    exact absurd hok Bool.false_ne_true

theorem spells_element_gap {sscanf : StdString → Option Real} {comments : Bool} {gap text : StdString}
    {v : Value} (hgap : Gap comments gap) (h : Spells sscanf comments (.element v) text) :
    Spells sscanf comments (.element v) (gap ++ text) := by
  cases h with
  | element hbefore hafter h =>
    have helement := Spells.element (Gap.append hgap hbefore) hafter h
    simpa using helement

theorem spells_elements_gap {sscanf : StdString → Option Real} {comments : Bool}
    {gap text : StdString} {vs : List Value} (hgap : Gap comments gap)
    (h : Spells sscanf comments (.elements vs) text) :
    Spells sscanf comments (.elements vs) (gap ++ text) := by
  cases h with
  | lastElement h => exact .lastElement (spells_element_gap hgap h)
  | moreElements h hrest =>
    have hmore := Spells.moreElements (spells_element_gap hgap h) hrest
    simpa using hmore

theorem spelled_readArray {fuel : Nat} (hplain : Plain setup)
    (ih : AllSpelled setup fuel) (hclear : Unambiguous s.current)
    (h : readArray setup (fuel + 1) s = some o) (hok : o.successful = true) :
    ∃ text, s.current = text ++ ']' :: o.reading.current ∧
      Spells setup.sscanf false (.value o.value) ('[' :: text ++ [']']) := by
  have hblank : Gap false (s.current.takeWhile isSpace) :=
    Blank.gap fun _ => List.mem_takeWhile_imp
  have hcurrent : s.current.takeWhile isSpace ++ skipSpaces s.current = s.current :=
    List.takeWhile_append_dropWhile
  have hskip : Unambiguous (skipSpaces s.current) := by
    rw [← hcurrent] at hclear
    exact hclear.drop (ne_quote_of_gap hblank)
  rw [readArray] at h
  split at h
  · rename_i hpeek
    obtain rfl := Option.some.inj h
    cases hstart : skipSpaces s.current with
    | nil =>
      rw [hstart] at hpeek
      exact absurd hpeek hplain.behind
    | cons c rest =>
      rw [hstart] at hpeek hcurrent
      obtain rfl : c = ']' := hpeek
      exact ⟨_, hcurrent.symm, .emptyArray hblank⟩
  · obtain ⟨vs, text, hvalue, htext, hspells⟩ := ih.readElements hskip h hok
    refine ⟨s.current.takeWhile isSpace ++ text, ?_, ?_⟩
    · rw [List.append_assoc, ← show skipSpaces s.current = _ from htext, hcurrent]
    · rw [hvalue]
      exact .array (spells_elements_gap hblank hspells)

theorem spelled_readElements {fuel : Nat} (ih : AllSpelled setup fuel) {elems : List Value}
    (hclear : Unambiguous s.current)
    (h : readElements setup (fuel + 1) elems s = some o) (hok : o.successful = true) :
    ∃ vs text, o.value = .arrayValue (elems ++ vs) ∧ s.current = text ++ ']' :: o.reading.current ∧
      Spells setup.sscanf false (.elements vs) text := by
  rw [readElements] at h
  split at h
  · exact absurd h (by simp)
  · rename_i outcome hvalue
    unfold afterElement at h
    dsimp only [Reading.moveTo] at h
    split at h
    · obtain rfl := Option.some.inj h
      exact absurd hok Bool.false_ne_true
    · rename_i hread
      have hspelled := ih.readValue hclear hvalue (by simpa using hread)
      have hstill := hspelled.unambiguous hclear
      rw [hstill.skipComments] at h
      obtain ⟨gap, text, hgap, hspells, hcurrent, -⟩ := hspelled
      obtain ⟨blank, more, hblank, hmore, hstart, hafter⟩ :=
        readToken_spelled setup.behind outcome.reading.current
      have hstop := @Unambiguous.stop setup.behind _ hstill
      generalize readToken setup.behind outcome.reading.current = token at h hmore hstart hafter hstop
      obtain ⟨type, start, stop⟩ := token
      dsimp only at *
      have helement := Spells.element hgap hblank hspells
      cases hmore with
      | arrayEnd =>
        obtain rfl := Option.some.inj h
        refine ⟨[outcome.value], gap ++ text ++ blank, rfl, ?_, .lastElement helement⟩
        rw [hcurrent, hafter, hstart]
        simp
      | arraySeparator =>
        obtain ⟨vs, rest, hvalue, hrest, hspellsrest⟩ := ih.readElements (hstop (by decide) (by decide)) h hok
        refine ⟨outcome.value :: vs, gap ++ text ++ blank ++ ',' :: rest, ?_, ?_,
          .moreElements helement hspellsrest⟩
        · rw [hvalue, List.append_assoc, List.singleton_append]
        · rw [hcurrent, hafter, hstart, show stop = _ from hrest]
          simp
      | _ =>
        obtain rfl := Option.some.inj h
        exact absurd hok Bool.false_ne_true

theorem nameOf_ok (hplain : Plain setup) {token : Token} {name : StdString}
    (h : nameOf setup token = some (.ok name)) :
    token.type = .string ∧ stringOf token = .ok name := by
  rw [nameOf] at h
  split at h
  · rename_i hstring
    exact ⟨hstring, Option.some.inj h⟩
  · rw [if_neg fun hkeys => absurd hkeys.2 (by rw [hplain.keys]; exact Bool.false_ne_true)] at h
    exact absurd h (by simp)

theorem spelled_afterMember {fuel : Nat} (ih : AllSpelled setup fuel) {name : StdString}
    {members : List (StdString × Value)}
    {outcome : Outcome}
    (hvalue : outcome.successful = true → Unambiguous outcome.reading.current)
    (h : afterMember setup members outcome (readObject setup fuel name members) = some o)
    (hok : o.successful = true) (hname : name ≠ []) :
    outcome.successful = true ∧ ∃ blank ms, Gap false blank ∧
      o.value = .objectValue (ms.foldl putMember members) ∧
      (ms = [] ∧ outcome.reading.current = blank ++ '}' :: o.reading.current ∨
        ∃ rest, Spells setup.sscanf false (.members ms) rest ∧
          outcome.reading.current = blank ++ ',' :: rest ++ '}' :: o.reading.current) := by
  unfold afterMember at h
  dsimp only [Reading.moveTo] at h
  split at h
  · obtain rfl := Option.some.inj h
    exact absurd hok Bool.false_ne_true
  · rename_i hread
    have hstill := hvalue (by simpa using hread)
    refine ⟨by simpa using hread, ?_⟩
    rw [hstill.skipComments] at h
    obtain ⟨blank, more, hblank, hmore, hstart, hafter⟩ :=
      readToken_spelled setup.behind outcome.reading.current
    have hstop := @Unambiguous.stop setup.behind _ hstill
    have hcomment := @Unambiguous.ne_comment setup.behind _ hstill
    generalize readToken setup.behind outcome.reading.current = token
      at h hmore hstart hafter hstop hcomment
    obtain ⟨type, start, stop⟩ := token
    dsimp only at *
    rw [hafter, hstart]
    cases hmore with
    | objectEnd =>
      obtain rfl := Option.some.inj h
      exact ⟨blank, [], hblank, rfl, Or.inl ⟨rfl, rfl⟩⟩
    | arraySeparator =>
      obtain ⟨ms, rest, hvalue, hrest, hmembers⟩ := ih.readObject (hstop (by decide) (by decide)) h hok
      rcases hmembers with ⟨-, hempty, -⟩ | hmembers
      · exact absurd hempty hname
      · refine ⟨blank, ms, hblank, hvalue, Or.inr ⟨rest, hmembers, ?_⟩⟩
        rw [show stop = _ from hrest]
        simp
    | comment => exact absurd rfl hcomment
    | _ =>
      obtain rfl := Option.some.inj h
      exact absurd hok Bool.false_ne_true

theorem spelled_readObject {fuel : Nat} (hplain : Plain setup)
    (ih : AllSpelled setup fuel) {name : StdString}
    {members : List (StdString × Value)} (hclear : Unambiguous s.current)
    (h : readObject setup (fuel + 1) name members s = some o) (hok : o.successful = true) :
    ∃ ms text, o.value = .objectValue (ms.foldl putMember members) ∧
      s.current = text ++ '}' :: o.reading.current ∧ SpelledMembers setup name ms text := by
  obtain ⟨blank, text, hblank, htext, hstart, hcurrent⟩ := readToken_spelled setup.behind s.current
  have hstop := @Unambiguous.stop setup.behind _ hclear
  have hnameclear : Unambiguous (readToken setup.behind s.current).start := by
    rw [hcurrent] at hclear
    exact hclear.drop (ne_quote_of_gap hblank)
  rw [readObject, hclear.skipComments] at h
  generalize readToken setup.behind s.current = tokenName at h htext hstart hcurrent hstop hnameclear
  dsimp only [Reading.moveTo] at h
  split at h
  · rename_i hend
    obtain rfl := Option.some.inj h
    rw [hend.1] at htext
    cases htext
    refine ⟨[], blank, rfl, ?_, Or.inl ⟨rfl, hend.2, hblank⟩⟩
    rw [hcurrent, hstart]
    rfl
  · split at h
    · obtain rfl := Option.some.inj h
      exact absurd hok Bool.false_ne_true
    · obtain rfl := Option.some.inj h
      exact absurd hok Bool.false_ne_true
    · rename_i name' hname
      obtain ⟨hstring, hdecoded⟩ := nameOf_ok hplain hname
      rw [hstring] at htext
      cases htext with
      | @string content hquotable =>
        have hdecode := stringOf_ok hstart hdecoded
        have hbehind := hstop (by rw [hstring]; decide) (by rw [hstring]; decide)
        obtain ⟨blank', text', hblank', htext', hstart', hcurrent'⟩ :=
          readToken_spelled setup.behind tokenName.stop
        have hstop' := @Unambiguous.stop setup.behind _ hbehind
        generalize readToken setup.behind tokenName.stop = colon at h htext' hstart' hcurrent' hstop'
        split at h
        · obtain rfl := Option.some.inj h
          exact absurd hok Bool.false_ne_true
        · rename_i hcolon
          rw [not_not] at hcolon
          have hvalueclear := hstop' (by rw [hcolon]; decide) (by rw [hcolon]; decide)
          rw [hcolon] at htext'
          cases htext'
          have hne : name' ≠ [] := by
            rintro rfl
            obtain rfl := content_nil_of_decodeString hquotable hdecode
            rw [hstart, hcurrent', hstart'] at hnameclear
            exact not_unambiguous_emptyName hblank' hnameclear
          split at h
          · exact absurd h (by simp)
          · rename_i outcome hvalue
            have hspelled := ih.readValue hvalueclear hvalue
            obtain ⟨hread, after, ms, hafter, hms, hrest⟩ := spelled_afterMember ih
              (fun hread => (hspelled hread).unambiguous hvalueclear) h hok hne
            obtain ⟨gap, text, hgap, hspells, hcurrentvalue, -⟩ := hspelled hread
            have helement := Spells.element hgap hafter hspells
            have hmember := Spells.member hblank hquotable hdecode hblank' helement
            change colon.stop = _ at hcurrentvalue
            rcases hrest with ⟨rfl, hend⟩ | ⟨rest, hspellsrest, hcomma⟩
            · refine ⟨[(name', outcome.value)], _, hms, ?_, Or.inr (.lastMember hmember)⟩
              rw [hcurrent, hstart, hcurrent', hstart', hcurrentvalue, hend]
              simp
            · refine ⟨(name', outcome.value) :: ms, _, hms, ?_,
                Or.inr (.moreMembers hmember hspellsrest)⟩
              rw [hcurrent, hstart, hcurrent', hstart', hcurrentvalue, hcomma]
              simp

theorem allSpelled (hplain : Plain setup) (fuel : Nat) : AllSpelled setup fuel := by
  induction fuel with
  | zero =>
    constructor
    · exact fun _ h => absurd h (by simp [readValue])
    · exact fun _ h => absurd h (by simp [readObject])
    · exact fun _ h => absurd h (by simp [readArray])
    · exact fun _ h => absurd h (by simp [readElements])
  | succ fuel ih =>
    constructor
    · exact spelled_readValue hplain ih
    · exact spelled_readObject hplain ih
    · exact spelled_readArray hplain ih
    · exact spelled_readElements ih

variable {document : StdString}

/-- What is read from an unambiguous document is spelled there, without comments. -/
theorem starts_of_parse (hplain : Plain setup) (hdocument : Unambiguous document) {v : Value}
    (h : parse setup document = some ⟨true, v, s⟩) :
    Starts setup document v ∧ (setup.features.strictRoot = true → isContainer v = true) := by
  obtain ⟨outcome, -, hvalue, houtcome⟩ := parse_eq setup document
  rw [houtcome] at h
  dsimp only at h
  split at h
  · exact absurd (congrArg Outcome.successful (Option.some.inj h)) Bool.false_ne_true
  · rename_i hroot
    obtain ⟨successful, value, reading⟩ := outcome
    obtain ⟨rfl, rfl, -⟩ := Outcome.mk.inj (Option.some.inj h)
    obtain ⟨gap, text, hgap, hspells, hcurrent, hends⟩ :=
      (allSpelled hplain _).readValue hdocument hvalue rfl
    refine ⟨⟨gap, text, _, hcurrent, hgap.mono, hspells.mono, hends⟩, fun hs => ?_⟩
    simpa [hs] using hroot

/-- **An unambiguous document is accepted exactly if it starts with a text that spells a value**, and
that is the value which is read. In strict mode it has to be an array or an object. -/
theorem parse_iff_spells (hplain : Plain setup) (hdocument : Unambiguous document) (v : Value) :
    (∃ s, parse setup document = some ⟨true, v, s⟩) ↔
      (setup.features.strictRoot = true → isContainer v = true) ∧ Starts setup document v := by
  constructor
  · rintro ⟨s, hparse⟩
    exact (starts_of_parse hplain hdocument hparse).symm
  · rintro ⟨hroot, gap, text, rest, rfl, hgap, hspells, hends⟩
    obtain ⟨s, hparse, -⟩ := parse_of_spells hspells hgap hends hroot
    exact ⟨s, hparse⟩

/-- In strict mode. -/
theorem parse_iff_spells_array :
    ∃ s, parse { sscanf := fun _ => none, features := Features.strictMode } "[7]8".toList =
      some ⟨true, .arrayValue [.intValue 7], s⟩ := by
  have hseven : Spells (fun _ => none) false (.value (.intValue 7)) ['7'] :=
    .number ⟨'7', [], rfl, by decide, List.forall_mem_nil _⟩ rfl
  exact (parse_iff_spells ⟨rfl, rfl, by decide⟩ (by decide) _).mpr
    ⟨fun _ => rfl, [], "[7]".toList, ['8'], rfl, .nil,
      .array (.lastElement (.element .nil .nil hseven)), ends_of_head (by decide) _⟩

/-- A reader that takes any root reads from an unambiguous document what is spelled there. -/
theorem reader_eq_some_iff (hplain : Plain setup) (hstrict : setup.features.strictRoot = false)
    (hdocument : Unambiguous document) {v : Value} :
    setup.reader document = some v ↔ Starts setup document v := by
  constructor
  · intro h
    rw [Setup.reader] at h
    split at h
    · rename_i value s hparse
      obtain rfl := Option.some.inj h
      exact (starts_of_parse hplain hdocument hparse).1
    · cases h
  · rintro ⟨gap, text, rest, rfl, hgap, hspells, hends⟩
    obtain ⟨s, hparse, -⟩ := parse_of_spells hspells hgap hends fun hs =>
      absurd (hstrict.symm.trans hs) Bool.false_ne_true
    exact Setup.reader_eq hparse

/-- A number in place of a comma, and a comma without a member behind it. -/
example :
    (parse { sscanf := fun _ => none } "\x7b\"a\":1/**/2\"b\":3\x7d".toList).map Outcome.successful =
        some true ∧
      (parse { sscanf := fun _ => none } "\x7b\"\":1,\x7d".toList).map Outcome.successful =
        some true := by
  decide +kernel

end DevScan.Json.Reader
