import DevScan.Json.Grammar

/-!
# `Json/Literals.lean` — the numbers and strings that can be written

A string literal spells Unicode characters; the reader makes bytes of it. However each of the
characters is written, as itself, behind a backslash, or as one or two `\u` escapes, it becomes its
UTF-8 encoding (`decodeString_literal`).

A number token is an integer or has something of a `double`; integers that are too large are read as
a `double` too (`decodeNumber_numberText`). An integer is written with its digits, and these are worth
it (`worth_toDigits`).
-/

set_option autoImplicit false

namespace DevScan.Json.Reader

open Lib

/-! ## What is decoded as what -/

/-- What stands between the quotes is read as these bytes. -/
structure Decodes (content decoded : StdString) : Prop where
  quotable : Quotable content
  loop : ∀ rounds before, content.length ≤ rounds →
    decodeStringLoop rounds content before = .ok (before ++ decoded)

variable {content decoded : StdString} {c : Char}

theorem Decodes.decodeString (h : Decodes content decoded) : decodeString content = .ok decoded :=
  h.loop content.length [] (Nat.le_refl _)

theorem decodes_nil : Decodes [] [] := by
  refine ⟨.nil, fun rounds before _ => ?_⟩
  rw [List.append_nil]
  cases rounds with
  | zero => rfl
  | succ rounds => rfl

theorem decodes_plain (hbackslash : c ≠ '\\') (hquote : c ≠ '"') (h : Decodes content decoded) :
    Decodes (c :: content) (c :: decoded) := by
  refine ⟨.plain hbackslash hquote h.quotable, fun rounds before hrounds => ?_⟩
  obtain ⟨rounds, rfl⟩ : ∃ r, rounds = r + 1 := ⟨rounds - 1, by simp at hrounds; omega⟩
  unfold decodeStringLoop
  rw [if_neg hquote, if_neg hbackslash, h.loop rounds _ (by simpa using hrounds),
    List.append_assoc, List.singleton_append]

theorem decodes_append {bytes : StdString} (hbytes : ∀ b ∈ bytes, b ≠ '\\' ∧ b ≠ '"')
    (h : Decodes content decoded) : Decodes (bytes ++ content) (bytes ++ decoded) := by
  induction bytes with
  | nil => exact h
  | cons b bytes ih =>
    obtain ⟨hbackslash, hquote⟩ := hbytes b List.mem_cons_self
    exact decodes_plain hbackslash hquote (ih fun d hd => hbytes d (List.mem_cons_of_mem b hd))

theorem decodes_escape {escape : Char} (hescape : simpleEscape? escape = some c)
    (h : Decodes content decoded) : Decodes ('\\' :: escape :: content) (c :: decoded) := by
  refine ⟨.escape h.quotable, fun rounds before hrounds => ?_⟩
  obtain ⟨rounds, rfl⟩ : ∃ r, rounds = r + 1 := ⟨rounds - 1, by simp at hrounds; omega⟩
  have hnone : simpleEscape? 'u' = none := rfl
  have hu : escape ≠ 'u' := by
    rintro rfl
    rw [hnone] at hescape
    exact absurd hescape (by simp)
  have hquote : ¬ '\\' = '"' := by decide
  unfold decodeStringLoop
  rw [if_neg hquote, if_pos rfl]
  simp only [if_neg hu, hescape]
  rw [h.loop rounds _ (by simp at hrounds; omega), List.append_assoc, List.singleton_append]

/-! ## Escaped code units -/

/-- Four digits, in either case, that write the number. -/
def HexText (n : Nat) (digits : StdString) : Prop :=
  n < 0x10000 ∧ digits.map hexDigit? = (Numeral.write 16 4 n).map some

theorem hexLoop_append {ds : List Nat} {digits : StdString} (h : digits.map hexDigit? = ds.map some)
    (unicode : Nat) (rest : StdString) :
    hexLoop ds.length unicode (digits ++ rest) =
      .ok (unicode * 16 ^ ds.length + Numeral.value 16 ds, rest) := by
  induction ds generalizing digits unicode with
  | nil =>
    rw [List.map_nil, List.map_eq_nil_iff] at h
    rw [h, List.length_nil, Nat.pow_zero, Nat.mul_one, Numeral.value_nil]
    rfl
  | cons d ds ih =>
    cases digits with
    | nil => exact absurd h (by simp)
    | cons c digits =>
      rw [List.map_cons, List.map_cons, List.cons.injEq] at h
      have hvalue : Numeral.value 16 (d :: ds) = d * 16 ^ ds.length + Numeral.value 16 ds := by
        have hd : Numeral.value 16 [d] = d := Nat.ofDigits_singleton
        have happend := Numeral.value_append 16 [d] ds
        rwa [hd] at happend
      rw [List.length_cons, List.cons_append, hexLoop]
      simp only [getNextChar, h.1]
      rw [ih h.2, hvalue, Nat.pow_succ', Nat.add_mul, Nat.mul_assoc, Nat.add_assoc]

theorem HexText.length {n : Nat} {digits : StdString} (h : HexText n digits) : digits.length = 4 := by
  have hlength := congrArg List.length h.2
  rwa [List.length_map, List.length_map, Numeral.length_write] at hlength

theorem decodeUnicodeEscapeSequence_hexText {n : Nat} {digits : StdString} (h : HexText n digits)
    (rest : StdString) :
    decodeUnicodeEscapeSequence (digits ++ rest) = .ok (n, rest) := by
  have hloop := hexLoop_append h.2 0 rest
  rw [Numeral.length_write, Numeral.value_write h.1, Nat.zero_mul, Nat.zero_add] at hloop
  rw [decodeUnicodeEscapeSequence, if_neg (by rw [List.length_append, h.length]; omega), hloop]

/-! ## Escaped code points -/

theorem HexText.plain {n : Nat} {digits : StdString} (h : HexText n digits) :
    ∀ c ∈ digits, c ≠ '\\' ∧ c ≠ '"' := by
  intro c hc
  have hmem : hexDigit? c ∈ (Numeral.write 16 4 n).map some := h.2 ▸ List.mem_map_of_mem hc
  obtain ⟨d, -, hd⟩ := List.mem_map.mp hmem
  have hbackslash : hexDigit? '\\' = none := rfl
  have hquote : hexDigit? '"' = none := rfl
  constructor
  · rintro rfl
    rw [hbackslash] at hd
    exact absurd hd (by simp)
  · rintro rfl
    rw [hquote] at hd
    exact absurd hd (by simp)

theorem Quotable.append {bytes : StdString} (hbytes : ∀ b ∈ bytes, b ≠ '\\' ∧ b ≠ '"')
    (h : Quotable content) : Quotable (bytes ++ content) := by
  induction bytes with
  | nil => exact h
  | cons b bytes ih =>
    obtain ⟨hbackslash, hquote⟩ := hbytes b List.mem_cons_self
    exact .plain hbackslash hquote (ih fun d hd => hbytes d (List.mem_cons_of_mem b hd))

/-- An escape sequence that comes to a code point. -/
theorem decodes_codePoint {escaped : StdString} {unicode : Nat} (hquotable : Quotable (escaped ++ content))
    (hpoint : decodeUnicodeCodePoint (escaped ++ content) = .ok (unicode, content))
    (h : Decodes content decoded) :
    Decodes ('\\' :: 'u' :: (escaped ++ content)) (codePointToUTF8 unicode ++ decoded) := by
  refine ⟨.escape hquotable, fun rounds before hrounds => ?_⟩
  obtain ⟨rounds, rfl⟩ : ∃ r, rounds = r + 1 := ⟨rounds - 1, by simp at hrounds; omega⟩
  have hquote : ¬ '\\' = '"' := by decide
  unfold decodeStringLoop
  rw [if_neg hquote, if_pos rfl]
  simp only [if_true, hpoint]
  rw [h.loop rounds _ (by simp at hrounds; omega), List.append_assoc]

theorem decodeUnicodeCodePoint_hexText {n : Nat} {digits : StdString} (h : HexText n digits)
    (hlone : ¬(0xD800 ≤ n ∧ n ≤ 0xDBFF)) (rest : StdString) :
    decodeUnicodeCodePoint (digits ++ rest) = .ok (n, rest) := by
  rw [decodeUnicodeCodePoint, decodeUnicodeEscapeSequence_hexText h]
  simp only [bind, Except.bind]
  rw [if_neg hlone]
  rfl

/-- The mark of a surrogate is left out. -/
theorem and_mask {mark k : Nat} (hmark : mark % 0x400 = 0) (hk : k < 0x400) :
    (mark + k) &&& 0x3FF = k := by
  have hmask : (mark + k) &&& 0x3FF = (mark + k) % 0x400 := Nat.and_two_pow_sub_one_eq_mod _ 10
  omega

theorem decodeUnicodeCodePoint_surrogates {h l : Nat} {high low : StdString} (hh : h < 0x400)
    (hl : l < 0x400) (hhigh : HexText (0xD800 + h) high) (hlow : HexText (0xDC00 + l) low)
    (rest : StdString) :
    decodeUnicodeCodePoint (high ++ '\\' :: 'u' :: low ++ rest) =
      .ok (0x10000 + h * 0x400 + l, rest) := by
  have hlength : ¬('\\' :: 'u' :: low ++ rest).length < 6 := by
    simp only [List.length_append, List.length_cons, hlow.length]
    omega
  have hpair : decodeSurrogatePair (0xD800 + h) ('\\' :: 'u' :: low ++ rest) =
      .ok (0x10000 + h * 0x400 + l, rest) := by
    rw [decodeSurrogatePair, if_neg hlength]
    simp only [getNextChar, List.cons_append, if_true, decodeUnicodeEscapeSequence_hexText hlow,
      bind, Except.bind, pure, Except.pure]
    rw [and_mask rfl hh, and_mask rfl hl, Nat.shiftLeft_eq]
  rw [List.append_assoc, decodeUnicodeCodePoint, decodeUnicodeEscapeSequence_hexText hhigh]
  simp only [bind, Except.bind]
  rw [if_pos ⟨by omega, by omega⟩, hpair]

/-! ## How characters are written -/

/-- The bytes of a text. -/
def utf8 (cs : List Char) : StdString :=
  cs.flatMap fun c => (String.utf8EncodeChar c).map fun b => Char.ofNat b.toNat

theorem utf8_cons (c : Char) (cs : List Char) : utf8 (c :: cs) = codePointToUTF8 c.toNat ++ utf8 cs := by
  rw [codePointToUTF8_toNat]
  rfl

theorem utf8_ascii (h : c.toNat ≤ 0x7f) : codePointToUTF8 c.toNat = [c] := by
  rw [codePointToUTF8, if_pos h, byte, Char.ofNat_toNat]

theorem ne_byte {b : Char} {n : Nat} (hb : b.toNat < 0x80) (hmin : 0x80 ≤ n) (hmax : n < 0x100) :
    byte n ≠ b := by
  rintro rfl
  have hvalid : n.isValidChar := Or.inl (by omega)
  have hn : (byte n).toNat = n := by
    rw [byte, Char.ofNat, dif_pos hvalid]
    rfl
  omega

/-- The bytes of a character that is not ASCII are not ASCII. -/
theorem utf8_ne {b : Char} (h : 0x7f < c.toNat) (hb : b.toNat < 0x80) :
    ∀ d ∈ codePointToUTF8 c.toNat, d ≠ b := by
  have hne : ∀ {n : Nat}, 0x80 ≤ n → n < 0x100 → byte n ≠ b := ne_byte hb
  rw [codePointToUTF8_eq, if_neg (by omega)]
  intro d hd
  split at hd
  · simp only [List.mem_cons, List.not_mem_nil, or_false] at hd
    rcases hd with rfl | rfl <;> exact hne (by omega) (by omega)
  · split at hd
    · simp only [List.mem_cons, List.not_mem_nil, or_false] at hd
      rcases hd with rfl | rfl | rfl <;> exact hne (by omega) (by omega)
    · split at hd
      · simp only [List.mem_cons, List.not_mem_nil, or_false] at hd
        rcases hd with rfl | rfl | rfl | rfl <;> exact hne (by omega) (by omega)
      · exact absurd hd List.not_mem_nil

/-- A text between quotes, each of its characters written in one of the ways there are. -/
inductive Literal : List Char → StdString → Prop where
  | nil : Literal [] []
  | plain {c : Char} {cs : List Char} {content : StdString} (hbackslash : c ≠ '\\') (hquote : c ≠ '"') :
      Literal cs content → Literal (c :: cs) (utf8 [c] ++ content)
  | escape {c escape : Char} {cs : List Char} {content : StdString}
      (hescape : simpleEscape? escape = some c) :
      Literal cs content → Literal (c :: cs) ('\\' :: escape :: content)
  | unicode {c : Char} {cs : List Char} {digits content : StdString}
      (hdigits : HexText c.toNat digits) :
      Literal cs content → Literal (c :: cs) ('\\' :: 'u' :: (digits ++ content))
  | surrogates {c : Char} {cs : List Char} {h l : Nat} {high low content : StdString} (hh : h < 0x400)
      (hl : l < 0x400) (hc : c.toNat = 0x10000 + h * 0x400 + l) (hhigh : HexText (0xD800 + h) high)
      (hlow : HexText (0xDC00 + l) low) :
      Literal cs content →
      Literal (c :: cs) ('\\' :: 'u' :: (high ++ '\\' :: 'u' :: low ++ content))

theorem simpleEscape?_ascii {escape : Char} (h : simpleEscape? escape = some c) :
    c.toNat ≤ 0x7f := by
  simp only [simpleEscape?] at h
  split_ifs at h <;> obtain rfl := Option.some.inj h <;> decide

theorem toNat_not_surrogate (c : Char) : ¬(0xD800 ≤ c.toNat ∧ c.toNat ≤ 0xDBFF) := by
  rintro ⟨hmin, hmax⟩
  have hvalid : c.toNat < 0xD800 ∨ 0xDFFF < c.toNat ∧ c.toNat < 0x110000 := c.valid
  omega

theorem decodes_literal {cs : List Char} (h : Literal cs content) : Decodes content (utf8 cs) := by
  induction h with
  | nil => exact decodes_nil
  | @plain c cs content hbackslash hquote _ ih =>
    rw [utf8_cons c cs, utf8_cons c []]
    have hnil : utf8 [] = [] := rfl
    rw [hnil, List.append_nil]
    by_cases hascii : c.toNat ≤ 0x7f
    · rw [utf8_ascii hascii]
      exact decodes_plain hbackslash hquote ih
    · have hne := @utf8_ne c
      refine decodes_append (fun b hb => ⟨?_, ?_⟩) ih
      · exact hne (by omega) (by decide) b hb
      · exact hne (by omega) (by decide) b hb
  | escape hescape _ ih =>
    rw [utf8_cons, utf8_ascii (simpleEscape?_ascii hescape)]
    exact decodes_escape hescape ih
  | @unicode c cs digits content hdigits _ ih =>
    rw [utf8_cons]
    exact decodes_codePoint (ih.quotable.append hdigits.plain)
      (decodeUnicodeCodePoint_hexText hdigits (toNat_not_surrogate c) content) ih
  | @surrogates c cs _ _ high low content hh hl hc hhigh hlow _ ih =>
    have hquotable : Quotable (high ++ '\\' :: 'u' :: low ++ content) := by
      rw [List.append_assoc]
      exact Quotable.append hhigh.plain (.escape (ih.quotable.append hlow.plain))
    rw [utf8_cons, hc]
    exact decodes_codePoint hquotable
      (decodeUnicodeCodePoint_surrogates hh hl hhigh hlow content) ih

/-- **However its characters are written, a string is read as their UTF-8 encoding.** -/
theorem decodeString_literal {cs : List Char} (h : Literal cs content) :
    decodeString content = .ok (utf8 cs) := (decodes_literal h).decodeString

theorem decodeString_literal_escapes :
    decodeString "a\\n\\u00e9\\uD83D\\uDE00".toList = .ok (utf8 ['a', '\n', 'é', '😀']) := by
  have hface : Literal ['😀'] "\\uD83D\\uDE00".toList :=
    @Literal.surrogates '😀' [] 0x3D 0x200 "D83D".toList "DE00".toList [] (by decide) (by decide)
      (by decide) ⟨by decide, by decide⟩ ⟨by decide, by decide⟩ .nil
  have heacute : Literal ['é', '😀'] "\\u00e9\\uD83D\\uDE00".toList :=
    @Literal.unicode 'é' ['😀'] "00e9".toList _ ⟨by decide, by decide⟩ hface
  exact decodeString_literal
    (.plain (by decide) (by decide) (.escape (by decide) heacute))

/-! ## Integers -/

theorem worth_toDigits (n : Nat) : worth (Nat.toDigits 10 n) = n := by
  have hworth : ∀ digits, worth digits = Nat.ofDigitChars 10 digits 0 := by
    intro digits
    induction digits with
    | nil => rfl
    | cons c digits ih =>
      rw [worth_cons, ih, Nat.ofDigitChars_cons, Nat.mul_zero, Nat.zero_add, Nat.mul_comm]
      exact Nat.ofDigitChars_eq_ofDigitChars_zero.symm
  rw [hworth, Nat.ofDigitChars_ten_toDigits]

theorem isDigit_toDigits (n : Nat) : ∀ c ∈ Nat.toDigits 10 n, c.isDigit :=
  fun _ => Nat.isDigit_of_mem_toDigits (by decide) (by decide)

/-- A number without a dot, an exponent or an inner sign has digits only. -/
theorem isDigit_of_not_isDouble {first : Char} {rest : StdString}
    (hrest : ∀ d ∈ rest, isNumberChar d = true) (hdouble : isDouble (first :: rest) = false) :
    ∀ d ∈ rest, d.isDigit := by
  intro d hd
  rw [isDouble, List.any_cons, List.tail_cons, Bool.or_eq_false_iff, Bool.or_eq_false_iff,
    List.any_eq_false, List.any_eq_false] at hdouble
  have hpoint := hdouble.1.2 d hd
  have hminus := hdouble.2 d hd
  have hnumber := hrest d hd
  simp only [isNumberChar, Bool.or_eq_true, decide_eq_true_eq, not_or] at hpoint hminus hnumber
  tauto

/-- **A number token is read exactly, or as a `double`**, whatever stands in it; nothing wraps. A
minus may stand alone, for zero. -/
theorem decodeNumber_numberText (sscanf : StdString → Option Real) {text : StdString}
    (htext : NumberText text) :
    ((∀ c ∈ text, c.isDigit) ∧
      decodeNumber sscanf text =
        if worth text ≤ maxLargestUInt then .ok (.ofUnsigned (worth text))
        else decodeDouble sscanf text) ∨
    (∃ digits, text = '-' :: digits ∧ (∀ c ∈ digits, c.isDigit) ∧
      decodeNumber sscanf text =
        if worth digits ≤ minLargestIntAbs then .ok (.intValue (-(worth digits)))
        else decodeDouble sscanf text) ∨
    isDouble text = true ∧ decodeNumber sscanf text = decodeDouble sscanf text := by
  obtain ⟨first, rest, rfl, hfirst, hrest⟩ := htext
  cases hdouble : isDouble (first :: rest) with
  | true =>
    refine Or.inr (Or.inr ⟨rfl, ?_⟩)
    rw [decodeNumber, if_pos hdouble]
  | false =>
    have hdigits := isDigit_of_not_isDouble hrest hdouble
    rcases hfirst with hfirst | rfl
    · have hall : ∀ d ∈ first :: rest, d.isDigit := by
        intro d hd
        rcases List.mem_cons.mp hd with rfl | hd
        · exact hfirst
        · exact hdigits d hd
      exact Or.inl ⟨hall, decodeNumber_digits sscanf hall⟩
    · exact Or.inr (Or.inl ⟨rest, rfl, hdigits, decodeNumber_minus sscanf hdigits⟩)

theorem decodeNumber_numberText_large :
    decodeNumber (fun _ => none) "18446744073709551616".toList =
      .error (notANumber "18446744073709551616".toList) := by
  have htext : NumberText "18446744073709551616".toList :=
    ⟨'1', "8446744073709551616".toList, rfl, by decide, List.all_eq_true.mp (by decide)⟩
  rcases decodeNumber_numberText (fun _ => none) htext with ⟨-, h⟩ | ⟨digits, hsign, -⟩ | ⟨hdouble, -⟩
  · rw [h, if_neg (by decide)]
    rfl
  · exact absurd (List.cons.inj hsign).1 (by decide)
  · exact absurd hdouble (by decide)

end DevScan.Json.Reader
