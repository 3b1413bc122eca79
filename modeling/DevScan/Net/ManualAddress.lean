import DevScan.Net.InetAton
import Mathlib.Data.List.TakeWhile

/-!
# `Net/ManualAddress.lean` — the addresses a device may be given

`Netadapter::isValidManualIpV4Address` on every text `inet_aton` takes. The reserved ranges are
looked up in the number of the address, all but one: for the link-local range it is the **text**
that has to begin with `169.254`. So what is answered depends on how the address is spelled, for
two kinds of texts (`PlainlySpelled`): a link-local address may be written in another way, and what
begins with `169.254` may be an address in two parts, as `169.254` itself is 169.0.0.254.
-/

set_option autoImplicit false

namespace DevScan.Net

/-- `apipaNet` -/
def apipaNet : StdString := ['1', '6', '9', '.', '2', '5', '4']

def isApipaAddress (address : StdString) : Bool := Text.find address apipaNet 0 = some 0

def isValidManualIpV4Address (host : ByteOrder) (ip : StdString) : Bool :=
  match inetAton host ip with
  | none => false
  | some s_addr =>
    let bigAddress := htonl host s_addr
    let upperMost := bigAddress / 256 ^ 3 % 256
    if upperMost = 0 then false
    else if upperMost = 24 ∨ upperMost = 25 ∨ upperMost = 26 then false
    else if upperMost = 127 then false
    else if 224 ≤ upperMost then false
    else if isApipaAddress ip then false
    else true

/-- 169.254/16 -/
def LinkLocal (address : Nat) : Prop := address / 256 ^ 2 = 0xA9FE

/-- What a device may not be given. -/
def Reserved (address : Nat) : Prop :=
  address / 256 ^ 3 ∈ [0, 24, 25, 26, 127] ∨ LinkLocal address ∨ 224 ≤ address / 256 ^ 3

instance (address : Nat) : Decidable (LinkLocal address) := inferInstanceAs (Decidable (_ = _))

instance (address : Nat) : Decidable (Reserved address) := inferInstanceAs (Decidable (_ ∨ _))

/-- The text of an address can be told from its first characters: a link-local address begins with
`169.254.`, and nothing else begins with `169.254`. -/
structure PlainlySpelled (ip : StdString) (address : Nat) : Prop where
  linkLocal : LinkLocal address → apipaNet ++ ['.'] <+: ip
  apipa : apipaNet <+: ip → apipaNet ++ ['.'] <+: ip

theorem isApipaAddress_iff (address : StdString) :
    isApipaAddress address = true ↔ apipaNet <+: address := by
  have hne : apipaNet ≠ [] := List.cons_ne_nil _ _
  rw [isApipaAddress, decide_eq_true_iff, Text.find_eq_some_iff hne]
  constructor
  · rintro ⟨before, behind, hfirst, hzero⟩
    have hnil : before = [] := List.eq_nil_of_length_eq_zero (by omega)
    have hcut := hfirst.cut
    rw [hnil] at hcut
    exact ⟨behind, hcut.symm⟩
  · rintro ⟨behind, rfl⟩
    exact ⟨[], behind, Lib.FirstAt.nil apipaNet behind, rfl⟩

/-! ## What begins with `169.254` -/

section Apipa

open InetAton (parse part parse_cases parse_front part_decimal isDigit)

variable {host : ByteOrder} {rest : StdString} {n : Nat}

theorem cString_apipaNet (rest : StdString) :
    Json.cString (apipaNet ++ rest) = apipaNet ++ Json.cString rest := rfl

/-- The first part is 169. -/
theorem parse_apipaNet (h : parse 3 [] (apipaNet ++ rest) = some n) :
    parse 2 [169] ('2' :: '5' :: '4' :: rest) = some n := by
  obtain ⟨val, endp, hpart, hcase⟩ := parse_cases h
  obtain ⟨rfl, rfl⟩ := Prod.mk.inj (part_decimal (by decide) hpart)
  rcases hcase with ⟨more, dots, hendp, hdots, -, hmore⟩ | ⟨hdot, -⟩
  · obtain rfl := Nat.succ.inj hdots
    obtain ⟨-, rfl⟩ := List.cons.inj hendp
    exact hmore
  · exact absurd rfl hdot

/-- With a dot behind it, the second part is 254. -/
theorem linkLocal_of_dot (h : parse 3 [] (apipaNet ++ '.' :: rest) = some n) : LinkLocal n := by
  obtain ⟨val, endp, hpart, hcase⟩ := parse_cases (parse_apipaNet h)
  obtain ⟨hval, rfl⟩ := Prod.mk.inj (part_decimal (by decide) hpart)
  obtain rfl : val = 254 := hval
  rcases hcase with ⟨more, dots, hendp, hdots, -, hmore⟩ | ⟨hdot, -⟩
  · obtain rfl := Nat.succ.inj hdots
    obtain ⟨low, hlow, hn⟩ := parse_front rfl hmore
    have hfront : Lib.Numeral.value 256 ([169] ++ [254]) = 0xA9FE := by decide
    have hleft : 4 - ([169] ++ [254]).length = 2 := by decide
    rw [hleft] at hlow hn
    rw [LinkLocal, hn, hfront]
    omega
  · exact absurd rfl hdot

/-- A number that begins with the digits 254 and is less than 2²⁴ is not 254 times 2¹⁶ or more. -/
theorem value_254 {digits : StdString} (hdigits : ∀ c ∈ digits, isDigit 10 c = true)
    (hlt : InetAton.value 10 ('2' :: '5' :: '4' :: digits) < 256 ^ 3) :
    InetAton.value 10 ('2' :: '5' :: '4' :: digits) < 254 * 256 ^ 2 := by
  obtain ⟨low, hlow, hvalue⟩ := InetAton.value_append (by decide) ['2', '5', '4'] hdigits
  have hfront : InetAton.value 10 ['2', '5', '4'] = 254 := by decide
  rw [hfront] at hvalue
  have hcons : ['2', '5', '4'] ++ digits = '2' :: '5' :: '4' :: digits := rfl
  rw [hcons] at hvalue
  by_cases hfew : digits.length ≤ 4
  · have hpow : 10 ^ digits.length ≤ 10 ^ 4 := Nat.pow_le_pow_right (by decide) hfew
    omega
  · have hpow : 10 ^ 5 ≤ 10 ^ digits.length := Nat.pow_le_pow_right (by decide) (by omega)
    omega

/-- Without a dot behind it, it is the second of two parts, and the address is not link-local. -/
theorem not_linkLocal_of_not_dot (h : parse 3 [] (apipaNet ++ rest) = some n)
    (hdot : rest.head? ≠ some '.') : n / 256 ^ 3 = 169 ∧ ¬LinkLocal n := by
  obtain ⟨val, endp, hpart, hcase⟩ := parse_cases (parse_apipaNet h)
  obtain ⟨hval, hendp⟩ := Prod.mk.inj (part_decimal (by decide) hpart)
  have hdigits : ∀ c ∈ rest.takeWhile (isDigit 10), isDigit 10 c = true := fun c hc =>
    List.mem_takeWhile_imp hc
  have hval' : val = InetAton.value 10 ('2' :: '5' :: '4' :: rest.takeWhile (isDigit 10)) := hval
  have hendp' : endp = rest.dropWhile (isDigit 10) := hendp
  rcases hcase with ⟨more, dots, hmore, -, hle, -⟩ | ⟨-, hle, hn⟩
  · -- a dot may follow only behind another digit, and the part is not a byte then
    obtain ⟨low, hlow, hvalue⟩ := InetAton.value_append (by decide) ['2', '5', '4'] hdigits
    have hfront : InetAton.value 10 ['2', '5', '4'] = 254 := by decide
    have hsome : rest.takeWhile (isDigit 10) ≠ [] := by
      intro hnil
      have hsplit := @List.takeWhile_append_dropWhile _ (isDigit 10) rest
      rw [hnil, List.nil_append, ← hendp', hmore] at hsplit
      exact hdot (congrArg List.head? hsplit.symm)
    have hpos : 0 < (rest.takeWhile (isDigit 10)).length := List.length_pos_iff.mpr hsome
    have hpow : 10 ^ 1 ≤ 10 ^ (rest.takeWhile (isDigit 10)).length :=
      Nat.pow_le_pow_right (by decide) hpos
    have hcons : ['2', '5', '4'] ++ rest.takeWhile (isDigit 10) =
      '2' :: '5' :: '4' :: rest.takeWhile (isDigit 10) := rfl
    rw [hfront, hcons, ← hval'] at hvalue
    omega
  · have hlt : val < 256 ^ 3 := by
      have hmax : InetAton.maxVal [169] = 256 ^ 3 - 1 := rfl
      omega
    have hword : n = 169 * 256 ^ 3 + val := hn
    have hsmall := value_254 hdigits (hval' ▸ hlt)
    rw [← hval'] at hsmall
    rw [LinkLocal]
    omega

/-- An address that begins with `169.254` is plainly spelled exactly if it is link-local. -/
theorem plainlySpelled_iff_of_apipa {ip : StdString} {s_addr : Nat}
    (h : inetAton host ip = some s_addr) (hapipa : apipaNet <+: ip) :
    htonl host s_addr / 256 ^ 3 = 169 ∧
      (LinkLocal (htonl host s_addr) ↔ PlainlySpelled ip (htonl host s_addr)) := by
  obtain ⟨hparse, -⟩ := inetAton_eq_some h
  obtain ⟨rest, rfl⟩ := hapipa
  rw [cString_apipaNet] at hparse
  by_cases hdot : rest.head? = some '.'
  · obtain ⟨more, rfl⟩ := List.head?_eq_some_iff.mp hdot
    have hlinkLocal : LinkLocal (htonl host s_addr) := linkLocal_of_dot hparse
    have hdotted : apipaNet ++ ['.'] <+: apipaNet ++ '.' :: more := ⟨more, by simp⟩
    refine ⟨?_, fun _ => ⟨fun _ => hdotted, fun _ => hdotted⟩, fun _ => hlinkLocal⟩
    rw [LinkLocal] at hlinkLocal
    omega
  · have hcut : (Json.cString rest).head? ≠ some '.' := by
      cases rest with
      | nil => exact hdot
      | cons c rest =>
        rw [Json.cString, List.takeWhile_cons]
        split
        · exact hdot
        · simp
    obtain ⟨htop, hnot⟩ := not_linkLocal_of_not_dot hparse hcut
    refine ⟨htop, fun hlinkLocal => absurd hlinkLocal hnot, fun hplain => ?_⟩
    obtain ⟨more, hmore⟩ := hplain.apipa (List.prefix_append _ _)
    rw [List.append_assoc] at hmore
    exact absurd (by rw [← List.append_cancel_left hmore]; rfl) hdot

end Apipa

/-! ## What is answered -/

theorem isValidManualIpV4Address_iff {host : ByteOrder} {ip : StdString} {s_addr : Nat}
    (h : inetAton host ip = some s_addr) :
    isValidManualIpV4Address host ip = true ↔
      ¬(htonl host s_addr / 256 ^ 3 ∈ [0, 24, 25, 26, 127] ∨ 224 ≤ htonl host s_addr / 256 ^ 3) ∧
        ¬apipaNet <+: ip := by
  obtain ⟨-, hlt⟩ := inetAton_eq_some h
  have htop : htonl host s_addr / 256 ^ 3 < 256 := by omega
  rw [← isApipaAddress_iff, isValidManualIpV4Address, h]
  simp only [Nat.mod_eq_of_lt htop, List.mem_cons, List.not_mem_nil, or_false]
  generalize htonl host s_addr / 256 ^ 3 = upperMost
  split
  · rename_i hzero
    exact iff_of_false (by simp) fun hright => hright.1 (Or.inl (Or.inl hzero))
  · rename_i hzero
    split
    · rename_i hfirewire
      refine iff_of_false (by simp) fun hright => hright.1 (Or.inl ?_)
      omega
    · rename_i hfirewire
      split
      · rename_i hloopback
        refine iff_of_false (by simp) fun hright => hright.1 (Or.inl ?_)
        omega
      · rename_i hloopback
        split
        · rename_i hmulticast
          exact iff_of_false (by simp) fun hright => hright.1 (Or.inr hmulticast)
        · rename_i hmulticast
          have hfree : ¬((upperMost = 0 ∨ upperMost = 24 ∨ upperMost = 25 ∨ upperMost = 26 ∨
              upperMost = 127) ∨ 224 ≤ upperMost) := by omega
          rw [iff_true_intro hfree, true_and]
          cases isApipaAddress ip with
          | true => exact iff_of_false (by simp) fun hnot => hnot rfl
          | false => exact iff_of_true rfl (by simp)

/-- The answer for one text. -/
theorem valid_iff_of_spelled {host : ByteOrder} {ip : StdString} {s_addr : Nat}
    (h : inetAton host ip = some s_addr) :
    (isValidManualIpV4Address host ip = true ↔ ¬Reserved (htonl host s_addr)) ↔
      PlainlySpelled ip (htonl host s_addr) := by
  rw [isValidManualIpV4Address_iff h]
  by_cases hapipa : apipaNet <+: ip
  · obtain ⟨htop, hspelled⟩ := plainlySpelled_iff_of_apipa h hapipa
    rw [← hspelled]
    have hnotOther : ¬(htonl host s_addr / 256 ^ 3 ∈ [0, 24, 25, 26, 127] ∨
        224 ≤ htonl host s_addr / 256 ^ 3) := by
      rw [htop]
      decide
    unfold Reserved
    tauto
  · have hdotted : ¬apipaNet ++ ['.'] <+: ip := fun hdot =>
      hapipa ((List.prefix_append _ _).trans hdot)
    have hplain : PlainlySpelled ip (htonl host s_addr) ↔ ¬LinkLocal (htonl host s_addr) :=
      ⟨fun hspelled hlinkLocal => hdotted (hspelled.linkLocal hlinkLocal),
        fun hnot => ⟨fun hlinkLocal => absurd hlinkLocal hnot, fun h => absurd h hapipa⟩⟩
    have hnotOther : LinkLocal (htonl host s_addr) →
        ¬(htonl host s_addr / 256 ^ 3 ∈ [0, 24, 25, 26, 127] ∨
          224 ≤ htonl host s_addr / 256 ^ 3) := by
      intro hlinkLocal
      have htop : htonl host s_addr / 256 ^ 3 = 169 := by
        rw [LinkLocal] at hlinkLocal
        omega
      rw [htop]
      decide
    rw [hplain]
    unfold Reserved
    tauto

/-- **Validity depends on the address alone where its text is plain**, and only there: the answer
is right for the address, and two texts of one address are answered alike unless one is plainly
spelled and the other is not. -/
theorem valid_iff_plainlySpelled {host : ByteOrder} {ip : StdString} {s_addr : Nat}
    (h : inetAton host ip = some s_addr) :
    ((isValidManualIpV4Address host ip = true ↔ ¬Reserved (htonl host s_addr)) ↔
        PlainlySpelled ip (htonl host s_addr)) ∧
      ∀ ip', inetAton host ip' = some s_addr →
        (isValidManualIpV4Address host ip = isValidManualIpV4Address host ip' ↔
          (PlainlySpelled ip (htonl host s_addr) ↔ PlainlySpelled ip' (htonl host s_addr))) := by
  refine ⟨valid_iff_of_spelled h, fun ip' h' => ?_⟩
  rw [← valid_iff_of_spelled h, ← valid_iff_of_spelled h', Bool.eq_iff_iff]
  tauto

/-- 169.254.0.1 is link-local however it is written. -/
theorem valid_iff_plainlySpelled_apipa :
    (isValidManualIpV4Address .littleEndian "169.254.0.1".toList = true ↔
      ¬Reserved (htonl .littleEndian 0x0100FEA9)) := by
  have hparse : inetAton .littleEndian "169.254.0.1".toList = some 0x0100FEA9 := by decide
  refine (valid_iff_plainlySpelled hparse).1.mpr ?_
  have hdotted : apipaNet ++ ['.'] <+: "169.254.0.1".toList := ⟨"0.1".toList, by decide⟩
  exact ⟨fun _ => hdotted, fun _ => hdotted⟩

/-- Written in hexadecimal it is let through, and 169.0.0.254, written in two parts, is refused. -/
theorem not_valid_by_address :
    (inetAton .littleEndian "0xa9.254.0.1".toList = some 0x0100FEA9 ∧
        Reserved (htonl .littleEndian 0x0100FEA9) ∧
        isValidManualIpV4Address .littleEndian "0xa9.254.0.1".toList = true ∧
        inetAton .littleEndian "169.254.0.1".toList = some 0x0100FEA9 ∧
        isValidManualIpV4Address .littleEndian "169.254.0.1".toList = false) ∧
      inetAton .littleEndian "169.254".toList = some 0xFE0000A9 ∧
        ¬Reserved (htonl .littleEndian 0xFE0000A9) ∧
        isValidManualIpV4Address .littleEndian "169.254".toList = false := by
  decide

end DevScan.Net
