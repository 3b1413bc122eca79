import DevScan.Lib.Numeral
import DevScan.Text.Split

/-!
# `Net/HardwareAddress.lean` — the hardware address of an interface

`getHardwareAddress` of `netadapterlist.cpp` on what `SIOCGIFHWADDR` answers. An address comes in
`ifr_hwaddr.sa_data`, an array of fourteen `char`, which are signed. The text is made of each byte
as an `unsigned char`; the GUID of a FireWire interface is put together from the `char` themselves,
and each one that is negative fills everything above it with ones.

What is read of `sa_data` is kept, to be compared with its size.
-/

set_option autoImplicit false

namespace DevScan.Net

def arphrdEther : Nat := 1
def arphrdIeee1394 : Nat := 24

/-- The array in `struct sockaddr`. -/
def sizeofSaData : Nat := 14
def sizeofFwGuid : Nat := 8

/-- `ifr.ifr_hwaddr` -/
structure Hwaddr where
  saFamily : Nat
  /-- The memory from the start of `sa_data` on. -/
  saData : Nat → UInt8

/-- How the system calls go. -/
structure HwaddrAnswer where
  socket : Bool
  ioctl : Int
  /-- What is in `ifr` then. -/
  hwaddr : Hwaddr

structure HardwareAddress where
  hwAddrString : StdString := []
  fwGuid : UInt64 := 0
  /-- The places of `sa_data` that are read. Not in the source. -/
  reads : List Nat := []
deriving DecidableEq, Repr

def hexDigit (digit : Nat) : Char :=
  if digit < 10 then Char.ofNat ('0'.toNat + digit) else Char.ofNat ('A'.toNat + (digit - 10))

/-- A byte after `std::uppercase`, `std::setfill('0')`, `std::setw(2)` and `std::hex`. -/
def hexByte (byte : UInt8) : StdString := [hexDigit (byte.toNat / 16), hexDigit (byte.toNat % 16)]

/-- One round of the loop for the GUID; the `char` is converted to the type of the GUID. -/
def shiftIn (fwGuid : UInt64) (byte : UInt8) : UInt64 :=
  (fwGuid <<< 8) ||| byte.toInt8.toInt64.toUInt64

/-- The loop that writes the address. -/
def hwAddressStream (saData : Nat → UInt8) (macLen : Nat) : StdString :=
  (List.range macLen).flatMap fun i => (if 0 < i then [':'] else []) ++ hexByte (saData i)

def getHardwareAddress (answer : HwaddrAnswer) : HardwareAddress :=
  if ¬answer.socket then {}
  else if answer.ioctl = 1 then {}
  else
    let saData := answer.hwaddr.saData
    if answer.hwaddr.saFamily = arphrdEther then
      { hwAddrString := hwAddressStream saData 6, reads := List.range 6 }
    else if answer.hwaddr.saFamily = arphrdIeee1394 then
      { hwAddrString := hwAddressStream saData 16
        fwGuid := ((List.range sizeofFwGuid).map saData).foldl shiftIn 0
        reads := List.range sizeofFwGuid ++ List.range 16 }
    else {}

/-! ## The GUID -/

theorem toNat_char (byte : UInt8) :
    byte.toInt8.toInt64.toUInt64.toNat =
      if byte.toNat < 128 then byte.toNat else 256 * (2 ^ 56 - 1) + byte.toNat := by
  have hsign : byte.toInt8.toInt64.toUInt64.toNat = (byte.toBitVec.signExtend 64).toNat := rfl
  have hlt : byte.toNat < 256 := byte.toNat_lt
  rw [hsign, BitVec.toNat_signExtend, BitVec.msb_eq_decide]
  simp only [BitVec.toNat_setWidth, UInt8.toNat_toBitVec, decide_eq_true_eq]
  split
  · rw [if_neg (by omega)]
    omega
  · rw [if_pos (by omega)]
    omega

/-- **One round**: a `char` that is negative puts ones in front of it, and nothing else does. -/
theorem toNat_shiftIn (fwGuid : UInt64) (byte : UInt8) :
    (shiftIn fwGuid byte).toNat =
      256 * (if byte.toNat < 128 then fwGuid.toNat % 2 ^ 56 else 2 ^ 56 - 1) + byte.toNat := by
  have hlow : byte.toNat < 2 ^ 8 := byte.toNat_lt
  have hcut : (fwGuid <<< 8).toNat = (fwGuid.toNat % 2 ^ 56) <<< 8 := by
    rw [UInt64.toNat_shiftLeft, Nat.shiftLeft_eq, Nat.shiftLeft_eq]
    show fwGuid.toNat * 2 ^ 8 % 2 ^ 64 = _
    omega
  have hmul : ∀ z, 256 * z + byte.toNat = z <<< 8 ||| byte.toNat := fun z => by
    rw [← Nat.shiftLeft_add_eq_or_of_lt hlow, Nat.shiftLeft_eq, Nat.mul_comm]
  rw [shiftIn, UInt64.toNat_or, toNat_char, hcut]
  split
  · rw [hmul]
  · have hfull : fwGuid.toNat % 2 ^ 56 ||| (2 ^ 56 - 1) = 2 ^ 56 - 1 := by
      apply Nat.eq_of_testBit_eq
      intro i
      rw [Nat.testBit_or, Nat.testBit_mod_two_pow, Nat.testBit_two_pow_sub_one]
      by_cases hi : i < 56
      · simp [hi]
      · simp [hi]
    rw [hmul, ← Nat.or_assoc, ← Nat.shiftLeft_or_distrib, hfull]

/-- The first bytes of an address. -/
def front (saData : Nat → UInt8) (n : Nat) : List Nat := (List.range n).map fun i => (saData i).toNat

theorem front_succ (saData : Nat → UInt8) (n : Nat) :
    front saData (n + 1) = front saData n ++ [(saData n).toNat] := by
  rw [front, List.range_succ, List.map_append]
  rfl

@[simp] theorem length_front (saData : Nat → UInt8) (n : Nat) : (front saData n).length = n := by
  rw [front, List.length_map, List.length_range]

theorem front_lt (saData : Nat → UInt8) (n : Nat) : ∀ byte ∈ front saData n, byte < 256 := by
  intro byte hbyte
  obtain ⟨i, -, rfl⟩ := List.mem_map.mp hbyte
  exact (saData i).toNat_lt

/-- **No `char` does harm**: in front of one that is negative everything is ones already. -/
def Unharmed (saData : Nat → UInt8) (n : Nat) : Prop :=
  ∀ j < n, 0x80 ≤ (saData j).toNat → ∀ i < j, (saData i).toNat = 0xFF

theorem unharmed_succ (saData : Nat → UInt8) (n : Nat) :
    Unharmed saData (n + 1) ↔
      Unharmed saData n ∧ (0x80 ≤ (saData n).toNat → ∀ i < n, (saData i).toNat = 0xFF) := by
  constructor
  · intro h
    exact ⟨fun j hj => h j (Nat.lt_succ_of_lt hj), h n (Nat.lt_succ_self n)⟩
  · rintro ⟨h, hlast⟩ j hj
    rcases Nat.lt_succ_iff_lt_or_eq.mp hj with hj | rfl
    · exact h j hj
    · exact hlast

/-- Everything is ones exactly if it is worth the most. -/
theorem value_front_eq_iff (saData : Nat → UInt8) (n : Nat) :
    Lib.Numeral.value 256 (front saData n) = 256 ^ n - 1 ↔ ∀ i < n, (saData i).toNat = 0xFF := by
  have hmost := Lib.Numeral.value_eq_pred_iff (by decide) (front_lt saData n)
  rw [length_front] at hmost
  rw [hmost]
  simp [front]

/-- The last bytes of the GUID are those shifted in, as long as no harm is done. -/
theorem foldl_shiftIn_iff (saData : Nat → UInt8) {n : Nat} (hn : n ≤ 8) :
    (((List.range n).map saData).foldl shiftIn 0).toNat % 256 ^ n =
        Lib.Numeral.value 256 (front saData n) ↔ Unharmed saData n := by
  induction n with
  | zero => simp [Unharmed, front]
  | succ n ih =>
    have hbyte : (saData n).toNat < 256 := (saData n).toNat_lt
    have hcut : ∀ z, (256 * z + (saData n).toNat) % 256 ^ (n + 1) =
        256 * (z % 256 ^ n) + (saData n).toNat := fun z => by
      rw [Nat.pow_succ', Nat.mod_mul, Nat.mul_add_mod, Nat.mod_eq_of_lt hbyte,
        Nat.mul_add_div (by decide), Nat.div_eq_of_lt hbyte, Nat.add_zero, Nat.add_comm]
    have hpow : 2 ^ 56 = 256 ^ n * 256 ^ (7 - n) := by
      rw [← Nat.pow_add, Nat.add_sub_cancel' (by omega)]
      rfl
    rw [List.range_succ, List.map_append, List.foldl_append, front_succ, Lib.Numeral.value_concat,
      unharmed_succ, ← ih (by omega), Nat.mul_comm _ 256]
    show (shiftIn _ _).toNat % _ = _ ↔ _
    rw [toNat_shiftIn, hcut, Nat.add_right_cancel_iff, Nat.mul_right_inj (by decide)]
    split
    · rename_i hpos
      have hnot : ¬0x80 ≤ (saData n).toNat := Nat.not_le.mpr hpos
      rw [hpow, Nat.mod_mul_right_mod]
      exact ⟨fun h => ⟨h, fun hneg => absurd hneg hnot⟩, And.left⟩
    · rename_i hneg
      have hones : (2 ^ 56 - 1) % 256 ^ n = 256 ^ n - 1 := by
        have hpos : 0 < 256 ^ n * 256 ^ (7 - n) := hpow ▸ Nat.two_pow_pos 56
        rw [hpow]
        exact (Nat.mul_sub_mod hpos).trans (by rw [Nat.zero_mod])
      rw [hones, eq_comm, value_front_eq_iff]
      constructor
      · intro hall
        exact ⟨(ih (by omega)).mpr fun j hj _ i hi => hall i (Nat.lt_trans hi hj), fun _ => hall⟩
      · exact fun h => h.2 (Nat.not_lt.mp hneg)

/-! ## The texts -/

/-- The sixteen digits of a GUID. -/
def hexGuid (fwGuid : UInt64) : StdString := (Lib.Numeral.write 16 16 fwGuid.toNat).map hexDigit

theorem hexDigit_injective {a b : Nat} (ha : a < 16) (hb : b < 16) (h : hexDigit a = hexDigit b) :
    a = b := by
  have hall : ∀ a b : Fin 16, hexDigit a = hexDigit b → a = b := by decide
  exact congrArg Fin.val (hall ⟨a, ha⟩ ⟨b, hb⟩ h)

theorem map_hexDigit_injective {as bs : List Nat} (ha : ∀ a ∈ as, a < 16) (hb : ∀ b ∈ bs, b < 16)
    (h : as.map hexDigit = bs.map hexDigit) : as = bs := by
  induction as generalizing bs with
  | nil => exact (List.map_eq_nil_iff.mp h.symm).symm
  | cons a as ih =>
    cases bs with
    | nil => cases h
    | cons b bs =>
      obtain ⟨hhead, htail⟩ := List.cons.inj h
      rw [hexDigit_injective (ha a List.mem_cons_self) (hb b List.mem_cons_self) hhead,
        ih (fun a' ha' => ha a' (List.mem_cons_of_mem _ ha'))
          (fun b' hb' => hb b' (List.mem_cons_of_mem _ hb')) htail]

theorem colon_not_mem_hexByte (byte : UInt8) : ':' ∉ hexByte byte := by
  have hall : ∀ a < 16, hexDigit a ≠ ':' := by decide
  have hlt : byte.toNat < 256 := byte.toNat_lt
  intro hmem
  rcases List.mem_cons.mp hmem with h | h
  · exact hall _ (by omega) h.symm
  · exact hall _ (by omega) (List.mem_singleton.mp h).symm

theorem intercalate_cons_eq (separator group : StdString) (groups : List StdString) :
    separator.intercalate (group :: groups) = group ++ groups.flatMap (separator ++ ·) := by
  induction groups generalizing group with
  | nil => simp
  | cons next groups ih =>
    rw [List.intercalate_cons_cons, ih, List.flatMap_cons, List.append_assoc, List.append_assoc]

/-- The bytes with colons between them. -/
theorem hwAddressStream_eq (saData : Nat → UInt8) (macLen : Nat) :
    hwAddressStream saData macLen =
      [':'].intercalate ((List.range macLen).map fun i => hexByte (saData i)) := by
  cases macLen with
  | zero => rfl
  | succ macLen =>
    rw [hwAddressStream, List.range_succ_eq_map, List.flatMap_cons, List.map_cons,
      intercalate_cons_eq, List.map_map, List.flatMap_map, List.flatMap_map]
    rfl

/-- **Split at the colons, the address is its bytes again.** -/
theorem split_hwAddressStream (saData : Nat → UInt8) {macLen : Nat} (hpos : macLen ≠ 0) :
    Text.split (hwAddressStream saData macLen) [':'] =
      (List.range macLen).map fun i => hexByte (saData i) := by
  rw [hwAddressStream_eq, Text.split_singleton]
  refine List.splitOn_intercalate ':' ?_ ?_
  · intro group hgroup
    obtain ⟨i, -, rfl⟩ := List.mem_map.mp hgroup
    exact colon_not_mem_hexByte (saData i)
  · simpa using hpos

/-- The digits of some bytes are the digits of the number they are. -/
theorem flatten_hexByte (saData : Nat → UInt8) (n : Nat) :
    ((List.range n).map fun i => hexByte (saData i)).flatten =
      (Lib.Numeral.write 16 (2 * n) (Lib.Numeral.value 256 (front saData n))).map hexDigit := by
  have hlt : ∀ byte ∈ front saData n, byte < 16 ^ 2 := front_lt saData n
  have hdigits : ∀ digit ∈ (front saData n).flatMap (Lib.Numeral.write 16 2), digit < 16 := by
    intro digit hdigit
    obtain ⟨byte, -, hmem⟩ := List.mem_flatMap.mp hdigit
    exact Lib.Numeral.write_lt (by decide) 2 byte digit hmem
  have hlength : ((front saData n).flatMap (Lib.Numeral.write 16 2)).length = 2 * n := by
    simp [List.length_flatMap, Nat.mul_comm]
  have hwrite := Lib.Numeral.write_value (by decide) hdigits
  rw [hlength, Lib.Numeral.value_flatMap_write hlt] at hwrite
  have hpow : 16 ^ 2 = 256 := rfl
  rw [hpow] at hwrite
  rw [hwrite, List.map_flatMap, front, List.flatMap_map, ← List.flatMap_def]
  refine List.flatMap_congr fun i _ => ?_
  have hbyte : (saData i).toNat / 16 < 16 := by
    have hlt : (saData i).toNat < 256 := (saData i).toNat_lt
    omega
  simp [hexByte, Lib.Numeral.write, Nat.mod_eq_of_lt hbyte]

/-! ## A FireWire interface -/

/-- `SIOCGIFHWADDR` of an IEEE 1394 interface. -/
def firewire (saData : Nat → UInt8) : HwaddrAnswer := ⟨true, 0, ⟨arphrdIeee1394, saData⟩⟩

/-- The GUID is the first eight bytes, as the text shows them, and nothing is read behind the
array. -/
structure GuidAgrees (saData : Nat → UInt8) (address : HardwareAddress) : Prop where
  guid : address.fwGuid.toNat = Lib.Numeral.value 256 (front saData 8)
  text : hexGuid address.fwGuid = ((Text.split address.hwAddrString [':']).take 8).flatten
  inside : ∀ i ∈ address.reads, i < sizeofSaData

variable (saData : Nat → UInt8)

theorem fwGuid_eq_iff :
    (getHardwareAddress (firewire saData)).fwGuid.toNat = Lib.Numeral.value 256 (front saData 8) ↔
      Unharmed saData 8 := by
  have hlt : (((List.range 8).map saData).foldl shiftIn 0).toNat < 256 ^ 8 := UInt64.toNat_lt _
  rw [← foldl_shiftIn_iff saData (Nat.le_refl 8), Nat.mod_eq_of_lt hlt]
  rfl

theorem hexGuid_eq_iff :
    hexGuid (getHardwareAddress (firewire saData)).fwGuid =
        ((Text.split (getHardwareAddress (firewire saData)).hwAddrString [':']).take 8).flatten ↔
      Unharmed saData 8 := by
  have hsplit : Text.split (getHardwareAddress (firewire saData)).hwAddrString [':'] =
      (List.range 16).map fun i => hexByte (saData i) := split_hwAddressStream saData (by decide)
  have htake : (List.range 16).take 8 = List.range 8 := by decide
  have hvalue : Lib.Numeral.value 256 (front saData 8) < 16 ^ 16 := by
    have hlt := Lib.Numeral.value_lt (by decide) (front_lt saData 8)
    rwa [length_front] at hlt
  have hguid : (getHardwareAddress (firewire saData)).fwGuid.toNat < 16 ^ 16 := UInt64.toNat_lt _
  rw [← fwGuid_eq_iff, hsplit, ← List.map_take, htake, flatten_hexByte, hexGuid]
  constructor
  · intro htexts
    have hdigits := map_hexDigit_injective (Lib.Numeral.write_lt (by decide) _ _)
      (Lib.Numeral.write_lt (by decide) _ _) htexts
    have hvalues := congrArg (Lib.Numeral.value 16) hdigits
    rwa [Lib.Numeral.value_write hguid, Lib.Numeral.value_write hvalue] at hvalues
  · intro hnumber
    rw [hnumber]

/-- **The GUID of a FireWire interface never comes about as it should**: two bytes behind the array
are read for the text. As numbers and as texts the two agree exactly if no `char` does harm. -/
theorem not_guidAgrees :
    ¬GuidAgrees saData (getHardwareAddress (firewire saData)) ∧
      ((getHardwareAddress (firewire saData)).fwGuid.toNat =
          Lib.Numeral.value 256 (front saData 8) ↔ Unharmed saData 8) ∧
      (hexGuid (getHardwareAddress (firewire saData)).fwGuid =
          ((Text.split (getHardwareAddress (firewire saData)).hwAddrString [':']).take 8).flatten ↔
        Unharmed saData 8) := by
  refine ⟨fun h => ?_, fwGuid_eq_iff saData, hexGuid_eq_iff saData⟩
  have hbehind : 14 ∈ (getHardwareAddress (firewire saData)).reads := by
    show 14 ∈ List.range sizeofFwGuid ++ List.range 16
    decide
  exact absurd (h.inside 14 hbehind) (by decide)

/-- The second byte of the address is 0x80, and the first digit of the GUID is not zero. -/
theorem harmed_by_second_byte :
    getHardwareAddress (firewire fun i => if i = 1 then 0x80 else 0) =
        { hwAddrString := "00:80:00:00:00:00:00:00:00:00:00:00:00:00:00:00".toList
          fwGuid := 0xFF80000000000000
          reads := List.range 8 ++ List.range 16 } ∧
      Lib.Numeral.value 256 (front (fun i => if i = 1 then 0x80 else 0) 8) = 0x80000000000000 ∧
      ¬GuidAgrees (fun i => if i = 1 then 0x80 else 0)
        (getHardwareAddress (firewire fun i => if i = 1 then 0x80 else 0)) := by
  have hread : getHardwareAddress (firewire fun i => if i = 1 then 0x80 else 0) =
      { hwAddrString := "00:80:00:00:00:00:00:00:00:00:00:00:00:00:00:00".toList
        fwGuid := 0xFF80000000000000
        reads := List.range 8 ++ List.range 16 } := by decide
  refine ⟨hread, by decide, fun hagrees => ?_⟩
  exact absurd (hagrees.inside 14 (by rw [hread]; decide)) (by decide)

end DevScan.Net
