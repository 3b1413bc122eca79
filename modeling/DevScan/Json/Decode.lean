import DevScan.Json.Token
import DevScan.Lib.Numeral

/-!
# `Json/Decode.lean` — what numbers and strings stand for

`decodeNumber` and `decodeString` of `jsoncpp/src/lib_json/json_reader.cpp`, and `codePointToUTF8` of
`json_tool.h`. Numbers are 64 bits wide, and the digits are multiplied up in such a number: whether
the next one still fits is asked before it is taken, so that nothing ever wraps
(`digitLoop_eq`); what does not fit is read as a `double`. `sscanf` is a parameter, the `double` a
text stands for if it does.

Strings are bytes. An escaped code point becomes its UTF-8 encoding (`codePointToUTF8_toNat`).
-/

set_option autoImplicit false

namespace DevScan.Json

def maxInt : Nat := 0x7FFFFFFF

def maxLargestUInt : Nat := 0xFFFFFFFFFFFFFFFF

/-- `Value::LargestUInt(-Value::minLargestInt)`. -/
def minLargestIntAbs : Nat := 0x8000000000000000

def toLargestUInt (n : Nat) : Nat := n % 0x10000000000000000

/-- An integer that is read becomes an `Int` if it is one, and unsigned if it is larger. -/
def Value.ofUnsigned (n : Nat) : Value := if n ≤ maxInt then .intValue n else .uintValue n

namespace Reader

/-! ## Numbers -/

/-- What the loop over the digits comes to. -/
inductive Digits where
  | notANumber
  | tooLarge
  | done (value : Nat)
deriving DecidableEq, Repr

def digitValue (c : Char) : Nat := c.toNat - '0'.toNat

/-- The loop of `decodeNumber`. -/
def digitLoop (maxIntegerValue : Nat) : Nat → StdString → Digits
  | value, [] => .done value
  | value, c :: current =>
    if c < '0' ∨ '9' < c then .notANumber
    else
      let digit := digitValue c
      let threshold := maxIntegerValue / 10
      if threshold ≤ value ∧
          (threshold < value ∨ current ≠ [] ∨ maxIntegerValue % 10 < digit) then .tooLarge
      else digitLoop maxIntegerValue (toLargestUInt (value * 10 + digit)) current

def notANumber (text : StdString) : StdString := "'".toList ++ text ++ "' is not a number.".toList

/-- Of a token whose length fits into an `int`: that it does is not checked here. -/
def decodeDouble (sscanf : StdString → Option Real) (text : StdString) : Except StdString Value :=
  match sscanf text with
  | some value => .ok (.realValue value)
  | none => .error (notANumber text)

def isDouble (text : StdString) : Bool :=
  text.any (fun c => c = '.' || c = 'e' || c = 'E' || c = '+') || text.tail.any fun c => c = '-'

/-- The value a number token stands for, or the message of the error. -/
def decodeNumber (sscanf : StdString → Option Real) (text : StdString) : Except StdString Value :=
  if isDouble text then decodeDouble sscanf text
  else
    let isNegative := text.head? = some '-'
    let maxIntegerValue := if isNegative then minLargestIntAbs else maxLargestUInt
    match digitLoop maxIntegerValue 0 (if isNegative then text.tail else text) with
    | .notANumber => .error (notANumber text)
    | .tooLarge => decodeDouble sscanf text
    | .done value => .ok (if isNegative then .intValue (-value) else .ofUnsigned value)

/-! ## Strings -/

/-- Why a string is refused, and what of it `extra` points to. -/
structure BadString where
  message : StdString
  extra : StdString
deriving DecidableEq, Repr

def hexDigit? (c : Char) : Option Nat :=
  if '0' ≤ c ∧ c ≤ '9' then some (c.toNat - '0'.toNat)
  else if 'a' ≤ c ∧ c ≤ 'f' then some (c.toNat - 'a'.toNat + 10)
  else if 'A' ≤ c ∧ c ≤ 'F' then some (c.toNat - 'A'.toNat + 10)
  else none

/-- The loop of `decodeUnicodeEscapeSequence`, so many digits. -/
def hexLoop : Nat → Nat → StdString → Except BadString (Nat × StdString)
  | 0, unicode, current => .ok (unicode, current)
  | digits + 1, unicode, current =>
    let next := getNextChar current
    match hexDigit? next.1 with
    | some digit => hexLoop digits (unicode * 16 + digit) next.2
    | none => .error ⟨
      "Bad unicode escape sequence in string: hexadecimal digit expected.".toList, next.2⟩

def decodeUnicodeEscapeSequence (current : StdString) : Except BadString (Nat × StdString) :=
  if current.length < 4 then
    .error ⟨"Bad unicode escape sequence in string: four digits expected.".toList, current⟩
  else hexLoop 4 0 current

def surrogatePairMissing : StdString :=
  "expecting another \\u token to begin the second half of a unicode surrogate pair".toList

/-- The second half of a surrogate pair. Any escape sequence is taken for one. -/
def decodeSurrogatePair (unicode : Nat) (current : StdString) :
    Except BadString (Nat × StdString) :=
  if current.length < 6 then
    .error ⟨"additional six characters expected to parse unicode surrogate pair.".toList, current⟩
  else
    let backslash := getNextChar current
    if backslash.1 = '\\' then
      let u := getNextChar backslash.2
      if u.1 = 'u' then do
        let (surrogatePair, current) ← decodeUnicodeEscapeSequence u.2
        return (0x10000 + ((unicode &&& 0x3FF) <<< 10) + (surrogatePair &&& 0x3FF), current)
      else .error ⟨surrogatePairMissing, u.2⟩
    else .error ⟨surrogatePairMissing, backslash.2⟩

def decodeUnicodeCodePoint (current : StdString) : Except BadString (Nat × StdString) := do
  let (unicode, current) ← decodeUnicodeEscapeSequence current
  if 0xD800 ≤ unicode ∧ unicode ≤ 0xDBFF then decodeSurrogatePair unicode current
  else return (unicode, current)

/-- A byte, as a `char`. -/
def byte (n : Nat) : Char := Char.ofNat n

def codePointToUTF8 (cp : Nat) : StdString :=
  if cp ≤ 0x7f then [byte cp]
  else if cp ≤ 0x7FF then
    [byte (0xC0 ||| (0x1f &&& (cp >>> 6))), byte (0x80 ||| (0x3f &&& cp))]
  else if cp ≤ 0xFFFF then
    [byte (0xE0 ||| (0xf &&& (cp >>> 12))), byte (0x80 ||| (0x3f &&& (cp >>> 6))),
     byte (0x80 ||| (0x3f &&& cp))]
  else if cp ≤ 0x10FFFF then
    [byte (0xF0 ||| (0x7 &&& (cp >>> 18))), byte (0x80 ||| (0x3f &&& (cp >>> 12))),
     byte (0x80 ||| (0x3f &&& (cp >>> 6))), byte (0x80 ||| (0x3f &&& cp))]
  else []

/-- What a backslash and this character stand for. -/
def simpleEscape? (escape : Char) : Option Char :=
  if escape = '"' then some '"'
  else if escape = '/' then some '/'
  else if escape = '\\' then some '\\'
  else if escape = 'b' then some (Char.ofNat 8)
  else if escape = 'f' then some (Char.ofNat 12)
  else if escape = 'n' then some '\n'
  else if escape = 'r' then some '\r'
  else if escape = 't' then some '\t'
  else none

/-- The loop of `decodeString` over what stands between the quotes, with the rounds it may still
take. -/
def decodeStringLoop : Nat → StdString → StdString → Except BadString StdString
  | 0, _, decoded => .ok decoded
  | _ + 1, [], decoded => .ok decoded
  | rounds + 1, c :: current, decoded =>
    if c = '"' then .ok decoded
    else if c = '\\' then
      match current with
      | [] => .error ⟨"Empty escape sequence in string".toList, []⟩
      | escape :: current =>
        if escape = 'u' then
          match decodeUnicodeCodePoint current with
          | .ok (unicode, current) =>
            decodeStringLoop rounds current (decoded ++ codePointToUTF8 unicode)
          | .error e => .error e
        else
          match simpleEscape? escape with
          | some c => decodeStringLoop rounds current (decoded ++ [c])
          | none => .error ⟨"Bad escape sequence in string".toList, current⟩
    else decodeStringLoop rounds current (decoded ++ [c])

/-- What the text between the quotes stands for. -/
def decodeString (content : StdString) : Except BadString StdString :=
  decodeStringLoop content.length content []

/-! ## What numbers stand for -/

open Lib

/-- What a row of digits is worth. -/
def worth (digits : StdString) : Nat := Numeral.value 10 (digits.map digitValue)

theorem worth_cons (c : Char) (digits : StdString) :
    worth (c :: digits) = digitValue c * 10 ^ digits.length + worth digits := by
  have hdigit : Numeral.value 10 [digitValue c] = digitValue c := Nat.ofDigits_singleton
  have h := Numeral.value_append 10 [digitValue c] (digits.map digitValue)
  rw [hdigit, List.length_map] at h
  exact h

theorem isDigit_iff {c : Char} : c.isDigit ↔ ¬(c < '0' ∨ '9' < c) := by
  rw [not_or, Char.not_lt, Char.not_lt, Char.isDigit, Bool.and_eq_true, decide_eq_true_eq,
    decide_eq_true_eq]
  exact Iff.rfl

theorem digitValue_lt {c : Char} (h : c.isDigit) : digitValue c < 10 := by
  rw [Char.isDigit, Bool.and_eq_true, decide_eq_true_eq, decide_eq_true_eq] at h
  have h9 : c.toNat ≤ 57 := h.2
  have h0 : '0'.toNat = 48 := rfl
  rw [digitValue]
  omega

/-- Of a number that is too large already, some digits are still to come. -/
theorem lt_of_digits_left {limit value rest : Nat} (digit : Nat) (hlimit : 10 ≤ limit)
    (hvalue : limit / 10 ≤ value) (hrest : 0 < rest) :
    limit < (value * 10 + digit) * 10 ^ rest := by
  have hpow : 10 ^ 1 ≤ 10 ^ rest := Nat.pow_le_pow_right (by decide) hrest
  have hmul : (value * 10 + digit) * 10 ^ 1 ≤ (value * 10 + digit) * 10 ^ rest :=
    Nat.mul_le_mul_left _ hpow
  omega

/-- **No digit is lost and nothing wraps**: digits are read as what they are worth, unless that is
more than the limit. -/
theorem digitLoop_eq {limit value : Nat} {digits : StdString} (hlimit : 10 ≤ limit)
    (hwidth : limit ≤ maxLargestUInt) (hdigits : ∀ c ∈ digits, c.isDigit) (hvalue : value ≤ limit) :
    digitLoop limit value digits =
      if value * 10 ^ digits.length + worth digits ≤ limit then
        .done (value * 10 ^ digits.length + worth digits)
      else .tooLarge := by
  induction digits generalizing value with
  | nil =>
    have hworth : value * 10 ^ ([] : StdString).length + worth [] = value := by
      rw [List.length_nil, Nat.pow_zero, Nat.mul_one]
      rfl
    rw [hworth, if_pos hvalue]
    rfl
  | cons c rest ih =>
    have hc : c.isDigit := hdigits c List.mem_cons_self
    have hdigit := digitValue_lt hc
    have hworth : value * 10 ^ (c :: rest).length + worth (c :: rest) =
        (value * 10 + digitValue c) * 10 ^ rest.length + worth rest := by
      rw [worth_cons, List.length_cons, Nat.pow_succ', Nat.add_mul, Nat.mul_assoc]
      omega
    rw [digitLoop, if_neg (isDigit_iff.mp hc), hworth]
    by_cases hfits : value * 10 + digitValue c ≤ limit
    · by_cases hstop : limit / 10 ≤ value ∧
          (limit / 10 < value ∨ rest ≠ [] ∨ limit % 10 < digitValue c)
      · -- nothing but a digit that is left makes it too large
        have hrest : rest ≠ [] := by
          obtain ⟨hge, hstop⟩ := hstop
          rcases hstop with hlt | hrest | hlast
          · omega
          · exact hrest
          · omega
        have hbig := lt_of_digits_left (digitValue c) hlimit hstop.1
          (List.length_pos_of_ne_nil hrest)
        rw [if_pos hstop, if_neg (by omega)]
      · have hsame : toLargestUInt (value * 10 + digitValue c) = value * 10 + digitValue c := by
          refine Nat.mod_eq_of_lt ?_
          have hmax : limit < 0x10000000000000000 := Nat.lt_succ_of_le hwidth
          omega
        rw [if_neg hstop, hsame, ih (fun d hd => hdigits d (List.mem_cons_of_mem c hd)) hfits]
    · have hstop : limit / 10 ≤ value ∧
          (limit / 10 < value ∨ rest ≠ [] ∨ limit % 10 < digitValue c) := by omega
      have hpow : 1 ≤ 10 ^ rest.length := Nat.one_le_pow _ _ (by decide)
      have hmul : (value * 10 + digitValue c) * 1 ≤ (value * 10 + digitValue c) * 10 ^ rest.length :=
        Nat.mul_le_mul_left _ hpow
      rw [if_pos hstop, if_neg (by omega)]

theorem ne_of_isDigit {c d : Char} (hc : c.isDigit) (hd : d.isDigit = false) : c ≠ d := by
  rintro rfl
  rw [hd] at hc
  exact Bool.noConfusion hc

theorem any_eq_false {digits : StdString} (hdigits : ∀ c ∈ digits, c.isDigit) {p : Char → Bool}
    (hp : ∀ c, c.isDigit → p c = false) : digits.any p = false := by
  rw [List.any_eq_false]
  intro c hc
  rw [hp c (hdigits c hc)]
  exact Bool.false_ne_true

theorem isDouble_digits {digits : StdString} (hdigits : ∀ c ∈ digits, c.isDigit) :
    isDouble digits = false := by
  have htail : ∀ c ∈ digits.tail, c.isDigit := fun c hc => hdigits c (List.mem_of_mem_tail hc)
  rw [isDouble, any_eq_false hdigits, any_eq_false htail, Bool.or_false]
  · intro c hc
    exact decide_eq_false (ne_of_isDigit hc rfl)
  · intro c hc
    have hne := fun d hd => decide_eq_false (ne_of_isDigit (d := d) hc hd)
    rw [hne '.' rfl, hne 'e' rfl, hne 'E' rfl, hne '+' rfl]
    rfl

theorem isDouble_minus {digits : StdString} (hdigits : ∀ c ∈ digits, c.isDigit) :
    isDouble ('-' :: digits) = false := by
  have h := isDouble_digits hdigits
  rw [isDouble, Bool.or_eq_false_iff] at h ⊢
  refine ⟨?_, any_eq_false hdigits fun c hc => decide_eq_false (ne_of_isDigit hc rfl)⟩
  rw [List.any_cons, h.1]
  rfl

/-- A number without a sign. -/
theorem decodeNumber_digits (sscanf : StdString → Option Real) {digits : StdString}
    (hdigits : ∀ c ∈ digits, c.isDigit) :
    decodeNumber sscanf digits =
      if worth digits ≤ maxLargestUInt then .ok (.ofUnsigned (worth digits))
      else decodeDouble sscanf digits := by
  have hsign : digits.head? ≠ some '-' := by
    intro h
    exact ne_of_isDigit (hdigits '-' (List.mem_of_head? h)) rfl rfl
  have hloop := @digitLoop_eq maxLargestUInt 0 digits (by decide) (Nat.le_refl _) hdigits
    (Nat.zero_le _)
  rw [Nat.zero_mul, Nat.zero_add] at hloop
  rw [decodeNumber, isDouble_digits hdigits]
  simp only [Bool.false_eq_true, if_false, hsign]
  rw [hloop]
  by_cases hfits : worth digits ≤ maxLargestUInt
  · simp only [if_pos hfits]
  · simp only [if_neg hfits]

theorem decodeNumber_minus (sscanf : StdString → Option Real) {digits : StdString}
    (hdigits : ∀ c ∈ digits, c.isDigit) :
    decodeNumber sscanf ('-' :: digits) =
      if worth digits ≤ minLargestIntAbs then .ok (.intValue (-(worth digits)))
      else decodeDouble sscanf ('-' :: digits) := by
  have hloop := @digitLoop_eq minLargestIntAbs 0 digits (by decide) (by decide) hdigits
    (Nat.zero_le _)
  rw [Nat.zero_mul, Nat.zero_add] at hloop
  rw [decodeNumber, isDouble_minus hdigits]
  simp only [Bool.false_eq_true, if_false, List.head?_cons, if_true, List.tail_cons]
  rw [hloop]
  by_cases hfits : worth digits ≤ minLargestIntAbs
  · simp only [if_pos hfits]
  · simp only [if_neg hfits]

/-! ## What escaped code points stand for -/

/-- A lead or continuation byte: its upper bits mark it, the lower ones come from the code point. -/
theorem or_and_eq (width mark n : Nat) :
    2 ^ width * mark ||| ((2 ^ width - 1) &&& n) = n % 2 ^ width + 2 ^ width * mark := by
  rw [Nat.and_comm, Nat.and_two_pow_sub_one_eq_mod, Nat.add_comm]
  exact (Nat.two_pow_add_eq_or_of_lt (Nat.mod_lt _ (Nat.two_pow_pos width)) mark).symm

theorem byte_eq {n : Nat} (h : n < 256) : byte n = Char.ofNat (UInt8.ofNat n).toNat := by
  rw [UInt8.toNat_ofNat', Nat.mod_eq_of_lt h]
  rfl

/-- The bytes of a code point, with the bit operations carried out. -/
theorem codePointToUTF8_eq (cp : Nat) :
    codePointToUTF8 cp =
      if cp ≤ 0x7f then [byte cp]
      else if cp ≤ 0x7FF then [byte (cp / 64 % 0x20 + 0xc0), byte (cp % 0x40 + 0x80)]
      else if cp ≤ 0xFFFF then
        [byte (cp / 4096 % 0x10 + 0xe0), byte (cp / 64 % 0x40 + 0x80), byte (cp % 0x40 + 0x80)]
      else if cp ≤ 0x10FFFF then
        [byte (cp / 262144 % 0x08 + 0xf0), byte (cp / 4096 % 0x40 + 0x80),
         byte (cp / 64 % 0x40 + 0x80), byte (cp % 0x40 + 0x80)]
      else [] := by
  have h6 : ∀ n, 0x80 ||| (0x3f &&& n) = n % 0x40 + 0x80 := fun n => or_and_eq 6 2 n
  have h5 : ∀ n, 0xC0 ||| (0x1f &&& n) = n % 0x20 + 0xc0 := fun n => or_and_eq 5 6 n
  have h4 : ∀ n, 0xE0 ||| (0xf &&& n) = n % 0x10 + 0xe0 := fun n => or_and_eq 4 14 n
  have h3 : ∀ n, 0xF0 ||| (0x7 &&& n) = n % 0x08 + 0xf0 := fun n => or_and_eq 3 30 n
  simp only [codePointToUTF8, h6, h5, h4, h3, Nat.shiftRight_eq_div_pow]

/-- **An escaped code point becomes its UTF-8 encoding.** -/
theorem codePointToUTF8_toNat (c : Char) :
    codePointToUTF8 c.toNat =
      (String.utf8EncodeChar c).map fun b => Char.ofNat b.toNat := by
  have hmax : c.toNat ≤ 0x10FFFF := by
    rcases c.valid with h | h
    · exact Nat.le_of_lt (Nat.lt_trans h (by decide))
    · exact Nat.le_of_lt_succ h.2
  have hbyte : ∀ {n : Nat}, n < 256 → Char.ofNat (UInt8.ofNat n).toNat = byte n :=
    fun h => (byte_eq h).symm
  have h6 : ∀ n, n % 0x40 + 0x80 < 256 := by omega
  have h5 : ∀ n, n % 0x20 + 0xc0 < 256 := by omega
  have h4 : ∀ n, n % 0x10 + 0xe0 < 256 := by omega
  have h3 : ∀ n, n % 0x08 + 0xf0 < 256 := by omega
  have hval : c.val.toNat = c.toNat := rfl
  rw [codePointToUTF8_eq]
  simp only [String.utf8EncodeChar, hval, apply_ite (List.map _), List.map_cons, List.map_nil,
    hbyte (h6 _), hbyte (h5 _), hbyte (h4 _), hbyte (h3 _), if_pos hmax]
  refine ite_congr rfl (fun h => ?_) fun h => rfl
  rw [hbyte (Nat.lt_of_le_of_lt h (by decide))]

end Reader
end DevScan.Json
