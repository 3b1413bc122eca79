import DevScan.Lib.Int32
import DevScan.Lib.Loop
import DevScan.Lib.SizeT
import DevScan.Net.Netlink

/-!
# `Net/Telegram.lean` — the bytes of a netlink telegram

`Netlink::processNetlinkTelegram` on the buffer as it is: messages behind a `nlmsghdr`, attributes
behind a `rtattr`, each as long as it says and followed by the next one at a multiple of four.
What is read of the buffer is kept (`Read`), so that it can be compared with the number of bytes
received. `Net/Netlink.lean` has what a message with its attribute means; here it decides which
attribute's payload is looked at.

The macros are those of `linux/netlink.h` and `linux/rtnetlink.h`. They are not typed: what
`NLMSG_NEXT` does to the length depends on the variable it is given, and here that is the
`size_t` the number of bytes came in, while the attributes are counted down in an `int`.
-/

set_option autoImplicit false

namespace DevScan.Net

open Lib.Int32 (toInt)

/-- `MAX_DATAGRAM_SIZE` -/
def maxDatagramSize : Nat := 65536

inductive ByteOrder where
  | littleEndian
  | bigEndian
deriving DecidableEq, Repr

/-- Some bytes of the buffer, by their offset. -/
structure Read where
  offset : Nat
  size : Nat
deriving DecidableEq, Repr

def Read.Within (r : Read) (nBytes : Nat) : Prop := r.offset + r.size ≤ nBytes

instance (r : Read) (nBytes : Nat) : Decidable (r.Within nBytes) :=
  inferInstanceAs (Decidable (_ ≤ _))

/-- What `processNetlinkTelegram` is called with, and what it asks for on the way. -/
structure Telegram where
  byteOrder : ByteOrder
  /-- The memory from the start of the buffer on, received or not. -/
  byte : Nat → UInt8
  /-- How much of it `recvmsg` has written. -/
  nBytes : Nat
  nBytes_le : nBytes ≤ maxDatagramSize
  /-- What the list is updated to, message by message. -/
  updates : Nat → NetadapterList
  /-- `m_eventHandler` is set. -/
  hasHandler : Bool

/-! ## `nlmsghdr`, `ifaddrmsg` and `rtattr` -/

def sizeofNlmsghdr : Nat := 16
def sizeofIfaddrmsg : Nat := 8
def sizeofRtattr : Nat := 4
def sizeofInAddr : Nat := 4

def nlmsgError : Nat := 2
def nlmsgDone : Nat := 3
def rtmNewAddr : Nat := 20
def rtmDelAddr : Nat := 21
def afInet : Nat := 2
def ifaLocal : Nat := 2

/-- `NLMSG_ALIGN` and `RTA_ALIGN`, computed as `unsigned int`. -/
def align (len : Nat) : Nat := ((len + 4 - 1) % Lib.Int32.modulus) &&& 0xFFFFFFFC

theorem align_eq {len : Nat} (h : len + 3 < Lib.Int32.modulus) :
    align len = (len + 3) / 4 * 4 := by
  rw [align, Nat.add_sub_assoc (by decide), Nat.mod_eq_of_lt h, Lib.Int32.and_mask h]

theorem le_align {len : Nat} (h : len + 3 < Lib.Int32.modulus) : len ≤ align len := by
  rw [align_eq h]
  omega

namespace Telegram

/-- A number in the byte order of the host. -/
def number (t : Telegram) (offset : Nat) : Nat → Nat
  | 0 => 0
  | size + 1 =>
    match t.byteOrder with
    | .littleEndian => (t.byte offset).toNat + 256 * t.number (offset + 1) size
    | .bigEndian => (t.byte offset).toNat * 256 ^ size + t.number (offset + 1) size

def nlmsgLen (t : Telegram) (nh : Nat) : Nat := t.number nh 4
def nlmsgType (t : Telegram) (nh : Nat) : Nat := t.number (nh + 4) 2

/-- `NLMSG_DATA` -/
def nlmsgData (nh : Nat) : Nat := nh + sizeofNlmsghdr

def ifaFamily (t : Telegram) (ifaddrmsg : Nat) : Nat := t.number ifaddrmsg 1
def ifaIndex (t : Telegram) (ifaddrmsg : Nat) : Nat := t.number (ifaddrmsg + 4) 4

/-- `IFA_RTA` -/
def ifaRta (ifaddrmsg : Nat) : Nat := ifaddrmsg + sizeofIfaddrmsg

/-- `IFA_PAYLOAD`, as the `int` it is assigned to. -/
def ifaPayload (t : Telegram) (nh : Nat) : Int :=
  toInt (Lib.SizeT.sub (t.nlmsgLen nh) (sizeofNlmsghdr + sizeofIfaddrmsg))

def rtaLen (t : Telegram) (rth : Nat) : Nat := t.number rth 2
def rtaType (t : Telegram) (rth : Nat) : Nat := t.number (rth + 2) 2

/-- `RTA_DATA` -/
def rtaData (rth : Nat) : Nat := rth + sizeofRtattr

/-! ## The attributes of a message -/

/-- `nlmsg_type`, as far as it is about an address. -/
def messageType? (t : Telegram) (nh : Nat) : Option MessageType :=
  if t.nlmsgType nh = rtmNewAddr then some .newAddr
  else if t.nlmsgType nh = rtmDelAddr then some .delAddr
  else none

/-- What the event handler is called with for an `IFA_LOCAL`, if it is called. -/
def event? (t : Telegram) (round nh : Nat) (type : MessageType) (rth : Nat) :
    Option NetlinkEvent :=
  if t.hasHandler then
    processNetlinkTelegram (t.updates round)
      ⟨type, t.ifaIndex (nlmsgData nh), UInt32.ofNat (t.number (rtaData rth) sizeofInAddr)⟩
  else none

/-- The payload is read where it is handed to the event handler. -/
def ReadsPayload (t : Telegram) (round nh : Nat) (type : MessageType) (rth : Nat) : Prop :=
  t.rtaType rth = ifaLocal ∧ (t.event? round nh type rth).isSome

instance (t : Telegram) (round nh : Nat) (type : MessageType) (rth : Nat) :
    Decidable (t.ReadsPayload round nh type rth) :=
  inferInstanceAs (Decidable (_ ∧ _))

/-- `RTA_OK`, after the length has been compared with that of a `rtattr`. -/
def RtaFits (t : Telegram) (rth : Nat) (rtl : Int) : Prop :=
  sizeofRtattr ≤ t.rtaLen rth ∧ (t.rtaLen rth : Int) ≤ rtl

instance (t : Telegram) (rth : Nat) (rtl : Int) : Decidable (t.RtaFits rth rtl) :=
  inferInstanceAs (Decidable (_ ∧ _))

/-! ## The loops -/

theorem number_lt (t : Telegram) (offset size : Nat) : t.number offset size < 256 ^ size := by
  induction size generalizing offset with
  | zero => exact Nat.one_pos
  | succ size ih =>
    have hbyte := (t.byte offset).toNat_lt
    have hrest := ih (offset + 1)
    rw [number, Nat.pow_succ]
    cases t.byteOrder with
    | littleEndian =>
      show (t.byte offset).toNat + 256 * t.number (offset + 1) size < _
      omega
    | bigEndian =>
      show (t.byte offset).toNat * 256 ^ size + t.number (offset + 1) size < _
      calc (t.byte offset).toNat * 256 ^ size + t.number (offset + 1) size
          < (t.byte offset).toNat * 256 ^ size + 256 ^ size := Nat.add_lt_add_left hrest _
        _ = ((t.byte offset).toNat + 1) * 256 ^ size := (Nat.succ_mul _ _).symm
        _ ≤ 256 * 256 ^ size := Nat.mul_le_mul_right _ hbyte
        _ = 256 ^ size * 256 := Nat.mul_comm _ _

theorem rtaLen_le_align (t : Telegram) (rth : Nat) : t.rtaLen rth ≤ align (t.rtaLen rth) := by
  have hlt : t.rtaLen rth < 256 ^ 2 := t.number_lt rth 2
  have hmodulus : 256 ^ 2 + 3 < Lib.Int32.modulus := by decide
  exact le_align (by omega)

/-- The `while` over the attributes: at which of them its body is entered. -/
def attributes (t : Telegram) (rth : Nat) (rtl : Int) : List Nat :=
  if sizeofRtattr ≤ rtl ∧ t.RtaFits rth rtl then
    rth :: t.attributes (rth + align (t.rtaLen rth)) (rtl - align (t.rtaLen rth))
  else []
termination_by rtl.toNat
decreasing_by
  rename_i hok
  have hle := t.rtaLen_le_align rth
  have hfits := hok.2.1
  have hfour : sizeofRtattr = 4 := rfl
  omega

/-- What it reads. The length stays an `int`: it is at least -3 afterwards. -/
def attributeReads (t : Telegram) (round nh : Nat) (type : MessageType) (rth : Nat) (rtl : Int) :
    List Read :=
  if rtl ≠ 0 ∧ sizeofRtattr ≤ rtl then
    ⟨rth, sizeofRtattr⟩ ::
      if t.RtaFits rth rtl then
        (if t.ReadsPayload round nh type rth then [⟨rtaData rth, sizeofInAddr⟩] else []) ++
          t.attributeReads round nh type (rth + align (t.rtaLen rth))
            (rtl - align (t.rtaLen rth))
      else []
  else []
termination_by rtl.toNat
decreasing_by
  rename_i hok hfits
  have hle := t.rtaLen_le_align rth
  have hfits := hfits.1
  have hfour : sizeofRtattr = 4 := rfl
  omega

/-- What the `switch` reads. -/
def messageReads (t : Telegram) (round nh : Nat) : List Read :=
  match t.messageType? nh with
  | none => []
  | some type =>
    ⟨nlmsgData nh, sizeofIfaddrmsg⟩ ::
      if t.ifaFamily (nlmsgData nh) = afInet then
        t.attributeReads round nh type (ifaRta (nlmsgData nh)) (t.ifaPayload nh)
      else []

end Telegram

/-- The `for` over the messages, before its condition is looked at. -/
structure Walk where
  /-- How many messages have been processed. -/
  round : Nat
  nh : Nat
  bufferSize : Nat
deriving DecidableEq, Repr

structure Round where
  reads : List Read
  next : Option Walk
deriving DecidableEq, Repr

namespace Telegram

/-- `NLMSG_NEXT` -/
def nlmsgNext (t : Telegram) (w : Walk) : Walk :=
  ⟨w.round + 1, w.nh + align (t.nlmsgLen w.nh),
    Lib.SizeT.sub w.bufferSize (align (t.nlmsgLen w.nh))⟩

/-- `NLMSG_OK`, after the length has been compared with that of a `nlmsghdr`. -/
def NlmsgFits (t : Telegram) (w : Walk) : Prop :=
  sizeofNlmsghdr ≤ t.nlmsgLen w.nh ∧ t.nlmsgLen w.nh ≤ w.bufferSize

instance (t : Telegram) (w : Walk) : Decidable (t.NlmsgFits w) :=
  inferInstanceAs (Decidable (_ ∧ _))

/-- A message that ends the loop. -/
def Last (t : Telegram) (nh : Nat) : Prop :=
  t.nlmsgType nh = nlmsgDone ∨ t.nlmsgType nh = nlmsgError

instance (t : Telegram) (nh : Nat) : Decidable (t.Last nh) :=
  inferInstanceAs (Decidable (_ ∨ _))

/-- One round of `processNetlinkTelegram`. -/
def process (t : Telegram) (w : Walk) : Round :=
  if sizeofNlmsghdr ≤ w.bufferSize then
    if t.NlmsgFits w then
      if t.Last w.nh then ⟨[⟨w.nh, sizeofNlmsghdr⟩], none⟩
      else ⟨⟨w.nh, sizeofNlmsghdr⟩ :: t.messageReads w.round w.nh, some (t.nlmsgNext w)⟩
    else ⟨[⟨w.nh, sizeofNlmsghdr⟩], none⟩
  else ⟨[], none⟩

/-- At the call. -/
def start (t : Telegram) : Walk := ⟨0, 0, t.nBytes⟩

end Telegram
end DevScan.Net
