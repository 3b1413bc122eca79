import DevScan.Json.Value
import DevScan.Lib.Numeral
import DevScan.Net.Telegram

/-!
# `Net/InetAton.lean` — the texts of an IPv4 address

`inet_aton` of the C library, for every text it takes: one to four parts with dots between them,
each a number as C writes it (decimal, octal behind `0`, hexadecimal behind `0x`), the last one
filling all the bytes that are left. White space may follow, and anything at all behind that.

The address is stored in network byte order, so what is read from `s_addr` depends on the host;
`htonl` makes the number of it again, whichever that is (`htonl_htonl`).
-/

set_option autoImplicit false

namespace DevScan.Net

/-- `htonl`, which is also `ntohl`. -/
def htonl : ByteOrder → Nat → Nat
  | .bigEndian, n => n
  | .littleEndian, n =>
    n % 256 * 256 ^ 3 + n / 256 % 256 * 256 ^ 2 + n / 256 ^ 2 % 256 * 256 + n / 256 ^ 3

/-- The bytes are turned around. -/
theorem htonl_littleEndian {a b c d : Nat} (hb : b < 256) (hc : c < 256) (hd : d < 256) :
    htonl .littleEndian (((a * 256 + b) * 256 + c) * 256 + d) =
      ((d * 256 + c) * 256 + b) * 256 + a := by
  have hmod : ∀ {m e : Nat}, e < 256 → (m * 256 + e) % 256 = e := by omega
  have hdiv : ∀ {m e : Nat}, e < 256 → (m * 256 + e) / 256 = m := by omega
  simp only [htonl, show 256 ^ 3 = 256 * (256 * 256) from rfl, Nat.pow_two, ← Nat.div_div_eq_div_mul,
    hdiv hd, hdiv hc, hdiv hb, hmod hd, hmod hc, hmod hb]
  omega

theorem htonl_htonl (host : ByteOrder) {n : Nat} (h : n < 256 ^ 4) :
    htonl host (htonl host n) = n := by
  cases host with
  | bigEndian => rfl
  | littleEndian =>
    have hcut : n = ((n / 256 / 256 / 256 * 256 + n / 256 / 256 % 256) * 256 + n / 256 % 256) * 256 +
        n % 256 := by omega
    have hlt : ∀ m, m % 256 < 256 := fun m => Nat.mod_lt m (by decide)
    have htop : n / 256 / 256 / 256 < 256 := by omega
    rw [hcut, htonl_littleEndian (hlt _) (hlt _) (hlt _),
      htonl_littleEndian (hlt _) (hlt _) htop]

namespace InetAton

def digit? (c : Char) : Option Nat :=
  if '0' ≤ c ∧ c ≤ '9' then some (c.toNat - '0'.toNat)
  else if 'a' ≤ c ∧ c ≤ 'f' then some (c.toNat - 'a'.toNat + 10)
  else if 'A' ≤ c ∧ c ≤ 'F' then some (c.toNat - 'A'.toNat + 10)
  else none

def isDigit (base : Nat) (c : Char) : Bool := (digit? c).any (· < base)

/-- The base a number is written in, and its digits with what follows. -/
def baseOf (cp : StdString) : Nat × StdString :=
  match cp with
  | '0' :: x :: c :: rest =>
    if (x = 'x' ∨ x = 'X') ∧ isDigit 16 c then (16, c :: rest) else (8, cp)
  | '0' :: _ => (8, cp)
  | _ => (10, cp)

/-- The number some digits are. -/
def value (base : Nat) (digits : StdString) : Nat :=
  Lib.Numeral.value base (digits.filterMap digit?)

/-- `strtoul(cp, &endp, 0)` where `cp` starts with a digit. -/
def strtoul (cp : StdString) : Nat × StdString :=
  let number := baseOf cp
  (value number.1 (number.2.takeWhile (isDigit number.1)),
    number.2.dropWhile (isDigit number.1))

def isspace (c : Char) : Bool :=
  c = ' ' || c = '\t' || c = '\n' || c = Char.ofNat 11 || c = Char.ofNat 12 || c = '\r'

/-- A number of 32 bits and what is behind it. -/
def part (cp : StdString) : Option (Nat × StdString) :=
  if cp.head?.any (isDigit 10) then
    if (strtoul cp).1 ≤ 0xFFFFFFFF then some (strtoul cp) else none
  else none

/-- `res.word | htonl (val)`, as a number: `val` fills what the bytes leave. -/
def word (bytes : List Nat) (val : Nat) : Nat :=
  Lib.Numeral.value 256 bytes * 256 ^ (4 - bytes.length) + val

/-- The limit of the last part. -/
def maxVal (bytes : List Nat) : Nat := 256 ^ (4 - bytes.length) - 1

/-- The loop, with the parts before this one in `bytes` and so many dots still to come at most. -/
def parse (dots : Nat) (bytes : List Nat) (cp : StdString) : Option Nat :=
  match part cp with
  | none => none
  | some (val, '.' :: rest) =>
    match dots with
    | 0 => none
    | dots + 1 => if 0xFF < val then none else parse dots (bytes ++ [val]) rest
  | some (val, endp) =>
    if endp.head?.all isspace ∧ val ≤ maxVal bytes then some (word bytes val) else none

/-! ## One part -/

/-- A decimal number is all the digits in front. -/
theorem part_decimal {c : Char} {cp : StdString} (hzero : c ≠ '0') {p : Nat × StdString}
    (h : part (c :: cp) = some p) :
    p = (value 10 ((c :: cp).takeWhile (isDigit 10)), (c :: cp).dropWhile (isDigit 10)) := by
  have hbase : baseOf (c :: cp) = (10, c :: cp) := by
    rw [baseOf.eq_def]
    split
    · rename_i heq
      exact absurd (List.cons.inj heq).1 hzero
    · rename_i heq
      exact absurd (List.cons.inj heq).1 hzero
    · rfl
  rw [part] at h
  split at h
  · split at h
    · rw [← Option.some.inj h, strtoul, hbase]
    · cases h
  · cases h

/-- **One round**: a byte with a dot behind it, or the last part. -/
theorem parse_cases {dots : Nat} {bytes : List Nat} {cp : StdString} {n : Nat}
    (h : parse dots bytes cp = some n) :
    ∃ val endp, part cp = some (val, endp) ∧
      ((∃ rest more, endp = '.' :: rest ∧ dots = more + 1 ∧ val ≤ 0xFF ∧
          parse more (bytes ++ [val]) rest = some n) ∨
        (endp.head? ≠ some '.' ∧ val ≤ maxVal bytes ∧ n = word bytes val)) := by
  rw [parse.eq_def] at h
  split at h
  · cases h
  · rename_i val rest hpart
    refine ⟨val, _, hpart, Or.inl ?_⟩
    cases dots with
    | zero => cases h
    | succ dots =>
      simp only at h
      split at h
      · cases h
      · rename_i hle
        exact ⟨rest, dots, rfl, rfl, Nat.le_of_not_lt hle, h⟩
  · rename_i val endp hdot hpart
    refine ⟨val, endp, hpart, Or.inr ?_⟩
    split at h
    · rename_i hlast
      refine ⟨fun hhead => ?_, hlast.2, (Option.some.inj h).symm⟩
      obtain ⟨rest, rfl⟩ := List.head?_eq_some_iff.mp hhead
      exact hdot rest rfl
    · cases h

/-- **The bytes in front stay**: the parts that follow fill what is left of the word. -/
theorem parse_front {dots : Nat} {bytes : List Nat} {cp : StdString} {n : Nat}
    (hlength : bytes.length + dots = 3) (h : parse dots bytes cp = some n) :
    ∃ low < 256 ^ (4 - bytes.length),
      n = Lib.Numeral.value 256 bytes * 256 ^ (4 - bytes.length) + low := by
  have hpos : 0 < 256 ^ (4 - bytes.length) := Nat.pow_pos (by decide)
  induction dots generalizing bytes cp with
  | zero =>
    obtain ⟨val, endp, -, ⟨rest, more, -, hzero, -⟩ | ⟨-, hval, hn⟩⟩ := parse_cases h
    · cases hzero
    · exact ⟨val, Nat.lt_of_le_pred hpos hval, hn⟩
  | succ dots ih =>
    obtain ⟨val, endp, -, ⟨rest, more, -, hmore, hval, hrest⟩ | ⟨-, hval, hn⟩⟩ := parse_cases h
    · obtain rfl := Nat.succ.inj hmore
      have hshort : 4 - bytes.length = 4 - (bytes ++ [val]).length + 1 := by
        rw [List.length_append, List.length_singleton]
        omega
      rw [hshort, Nat.pow_succ]
      obtain ⟨low, hlow, hn⟩ := ih (by rw [List.length_append, List.length_singleton]; omega) hrest
        (Nat.pow_pos (by decide))
      generalize 256 ^ (4 - (bytes ++ [val]).length) = unit at hlow hn ⊢
      refine ⟨val * unit + low, ?_, ?_⟩
      · have hle := Nat.mul_le_mul_right unit hval
        omega
      · rw [hn, Lib.Numeral.value_concat, Nat.add_mul, Nat.mul_assoc, Nat.mul_comm 256 unit,
          Nat.add_assoc]
    · exact ⟨val, Nat.lt_of_le_pred hpos hval, hn⟩

/-- Digits in front of others are moved up by them. -/
theorem value_append {base : Nat} (hbase : 1 < base) (front : StdString) {rest : StdString}
    (hrest : ∀ c ∈ rest, isDigit base c = true) :
    ∃ low < base ^ rest.length,
      value base (front ++ rest) = value base front * base ^ rest.length + low := by
  have hlength : (rest.filterMap digit?).length = rest.length := by
    rw [List.length_filterMap_eq_countP, List.countP_eq_length]
    intro c hc
    have hdigit := hrest c hc
    cases hd : digit? c with
    | none => simp [isDigit, hd] at hdigit
    | some d => rfl
  have hlt : ∀ d ∈ rest.filterMap digit?, d < base := by
    intro d hd
    obtain ⟨c, hc, hdigit⟩ := List.mem_filterMap.mp hd
    simpa [isDigit, hdigit] using hrest c hc
  have hlow := Lib.Numeral.value_lt hbase hlt
  rw [hlength] at hlow
  refine ⟨value base rest, hlow, ?_⟩
  rw [value, List.filterMap_append, Lib.Numeral.value_append, hlength]
  rfl

end InetAton

/-- `inet_aton`; `s_addr` as the host reads it. -/
def inetAton (host : ByteOrder) (cp : StdString) : Option Nat :=
  (InetAton.parse 3 [] (Json.cString cp)).map (htonl host)

/-- The number of an address is the same on every host. -/
theorem inetAton_eq_some {host : ByteOrder} {cp : StdString} {s_addr : Nat}
    (h : inetAton host cp = some s_addr) :
    InetAton.parse 3 [] (Json.cString cp) = some (htonl host s_addr) ∧
      htonl host s_addr < 256 ^ 4 := by
  obtain ⟨n, hparse, rfl⟩ := Option.map_eq_some_iff.mp h
  obtain ⟨low, hlow, hn⟩ := InetAton.parse_front rfl hparse
  have hlt : n < 256 ^ 4 := by
    rw [hn, Lib.Numeral.value_nil, Nat.zero_mul, Nat.zero_add]
    exact hlow
  rw [htonl_htonl host hlt]
  exact ⟨hparse, hlt⟩

example : inetAton .bigEndian "172.19.2.4".toList = some 0xAC130204 := by decide
example : inetAton .littleEndian "0xa9.0376.1 (any)".toList = some 0x0100FEA9 := by decide

end DevScan.Net
