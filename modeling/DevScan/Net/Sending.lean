import DevScan.Lib.Int32
import DevScan.Net.EnumAdapters
import DevScan.Net.InetAton

/-!
# `Net/Sending.lean` — the send functions of a multicast server

`multicastserver.cpp` has each way of sending twice, for a `std::string` and for a pointer with a
length: over all adapters, over an adapter, over an interface index and over the address of an
interface. Each of the eight looks itself for what it cannot send, and passes the rest on, most of
them to one of the others.

What the kernel answers to a call may depend on all calls before it. A datagram is sent with the
options the socket has then. Whatever it answers, the datagrams that go out are some of those that
are to go out, each once at most, in their order and under the right options (`Sends`).
-/

set_option autoImplicit false

namespace DevScan.Net.Sending

/-! `enResult` -/

def errSuccess : Int := 0
def errNoSuccess : Int := -1
def errInvalidAdapter : Int := -2
def errInvalidIpAddress : Int := -3
def errAdapterIsDown : Int := -5

/-- A call with the send socket. -/
inductive SocketCall where
  | setMulticastIf (ifAddr : Nat)
  | setMulticastTtl (ttl : Nat)
  | sendto (data : StdString) (sinAddr sinPort : Nat)
deriving DecidableEq, Repr

structure Datagram where
  data : StdString
  sinAddr : Nat
  sinPort : Nat
  multicastIf : Nat
  multicastTtl : Nat
deriving DecidableEq, Repr

/-- `m_SendSocket` and what has become of it. -/
structure SendSocket where
  calls : List SocketCall := []
  multicastIf : Nat := 0
  multicastTtl : Nat := 1
  sent : List Datagram := []
deriving DecidableEq, Repr

structure Server where
  host : ByteOrder
  /-- What the last of these calls returns; `none` is -1. -/
  kernel : List SocketCall → Option Nat
  address : StdString
  port : Nat
  netadapterList : Enumeration.Adapters

/-- `pData` and `length`. -/
inductive Buffer where
  | null (length : Nat)
  | bytes (data : StdString)
deriving DecidableEq, Repr

def Buffer.length : Buffer → Nat
  | .null length => length
  | .bytes data => data.length

namespace Server

variable (server : Server)

/-- A call and its effect, if the kernel lets it have one. -/
def call (socketCall : SocketCall) (s : SendSocket) : Option Nat × SendSocket :=
  let calls := s.calls ++ [socketCall]
  let answer := server.kernel calls
  let s := { s with calls := calls }
  (answer,
    match socketCall with
    | .setMulticastIf ifAddr => if answer = some 0 then { s with multicastIf := ifAddr } else s
    | .setMulticastTtl ttl => if answer = some 0 then { s with multicastTtl := ttl } else s
    | .sendto data sinAddr sinPort =>
      if answer = none then s
      else
        { s with sent := s.sent ++ [⟨data, sinAddr, sinPort, s.multicastIf, s.multicastTtl⟩] })

/-- The `ssize_t` a call returns. -/
def ssize : Option Nat → Int
  | none => -1
  | some nbytes => nbytes

/-- `sendOverInterfaceByAddress(const std::string&, const void*, size_t, unsigned int)` -/
def sendOverInterfaceByAddress (interfaceIp : StdString) (buffer : Buffer) (ttl : Nat)
    (s : SendSocket) : Int × SendSocket :=
  match buffer with
  | .null length => if 0 < length then (errNoSuccess, s) else (errSuccess, s)
  | .bytes data =>
    match inetAton server.host interfaceIp with
    | none => (errInvalidIpAddress, s)
    | some ifAddr =>
      let multicastIf := server.call (.setMulticastIf ifAddr) s
      if multicastIf.1 ≠ some 0 then (errInvalidAdapter, multicastIf.2)
      else
        let multicastTtl := server.call (.setMulticastTtl ttl) multicastIf.2
        if multicastTtl.1 ≠ some 0 then (errNoSuccess, multicastTtl.2)
        else
          match inetAton server.host server.address with
          | none => (errNoSuccess, multicastTtl.2)
          | some sinAddr =>
            let nbytes :=
              server.call (.sendto data sinAddr (server.port % 0x10000)) multicastTtl.2
            if Lib.SizeT.ofSigned (ssize nbytes.1) ≠ data.length then (errNoSuccess, nbytes.2)
            else (errSuccess, nbytes.2)

/-- `sendOverInterfaceByAddress(const std::string&, const std::string&, unsigned int)` -/
def sendStringOverInterfaceByAddress (interfaceIp data : StdString) (ttl : Nat) (s : SendSocket) :
    Int × SendSocket :=
  if data = [] then (errSuccess, s)
  else server.sendOverInterfaceByAddress interfaceIp (.bytes data) ttl s

/-- `sendOverInterface(const Netadapter&, const void*, size_t, unsigned int)` -/
def sendOverInterface (adapter : Enumeration.Netadapter) (buffer : Buffer) (ttl : Nat)
    (s : SendSocket) : Int × SendSocket :=
  if 0 < buffer.length then
    match buffer with
    | .null _ => (errNoSuccess, s)
    | .bytes data =>
      match adapter.ipv4Addresses with
      | front :: _ => server.sendOverInterfaceByAddress front.address (.bytes data) ttl s
      | [] => (errInvalidAdapter, s)
  else (errSuccess, s)

/-- `sendOverInterface(const Netadapter&, const std::string&, unsigned int)` -/
def sendStringOverInterface (adapter : Enumeration.Netadapter) (data : StdString) (ttl : Nat)
    (s : SendSocket) : Int × SendSocket :=
  if data = [] then (0, s)
  else
    match adapter.ipv4Addresses with
    | [] => (errAdapterIsDown, s)
    | front :: _ => server.sendStringOverInterfaceByAddress front.address data ttl s

/-- The adapter of an `int` that is taken for an `unsigned int`. -/
def adapterAt (interfaceIndex : Int) : Option Enumeration.Netadapter :=
  Enumeration.getAdapterByInterfaceIndex server.netadapterList (Lib.Int32.toDword interfaceIndex)

/-- `sendOverInterface(int, const void*, size_t, unsigned int)` -/
def sendOverInterfaceIndex (interfaceIndex : Int) (buffer : Buffer) (ttl : Nat)
    (s : SendSocket) : Int × SendSocket :=
  match buffer with
  | .null _ => (0, s)
  | .bytes _ =>
    match server.adapterAt interfaceIndex with
    | some adapter => server.sendOverInterface adapter buffer ttl s
    | none => (errInvalidAdapter, s)

/-- `sendOverInterface(int, const std::string&, unsigned int)` -/
def sendStringOverInterfaceIndex (interfaceIndex : Int) (data : StdString) (ttl : Nat)
    (s : SendSocket) : Int × SendSocket :=
  if data = [] then (0, s)
  else
    match server.adapterAt interfaceIndex with
    | some adapter => server.sendStringOverInterface adapter data ttl s
    | none => (errInvalidAdapter, s)

/-- The `for` of `send`. -/
def sendOverAll (buffer : Buffer) (ttl : Nat) :
    List Enumeration.Netadapter → Int → SendSocket → Int × SendSocket
  | [], retVal, s => (retVal, s)
  | adapter :: adapters, retVal, s =>
    let retValIntern := server.sendOverInterface adapter buffer ttl s
    sendOverAll buffer ttl adapters
      (if retValIntern.1 ≠ 0 then retValIntern.1 else retVal) retValIntern.2

/-- `send(const void*, size_t, unsigned int)` -/
def send (buffer : Buffer) (ttl : Nat) (s : SendSocket) : Int × SendSocket :=
  server.sendOverAll buffer ttl (server.netadapterList.entries.map Prod.snd) 0 s

/-- `send(const std::string&, unsigned int)` -/
def sendString (data : StdString) (ttl : Nat) (s : SendSocket) : Int × SendSocket :=
  server.send (.bytes data) ttl s

end Server

/-! ## What goes out -/

namespace Server

variable (server : Server)

/-- The kernel does what it is asked for. -/
structure Obliges : Prop where
  setMulticastIf : ∀ calls ifAddr, server.kernel (calls ++ [.setMulticastIf ifAddr]) = some 0
  setMulticastTtl : ∀ calls ttl, server.kernel (calls ++ [.setMulticastTtl ttl]) = some 0
  sendto : ∀ calls data sinAddr sinPort,
    server.kernel (calls ++ [.sendto data sinAddr sinPort]) = some data.length

/-- The datagram that is to go out over the address of an interface, if that and the one of the
group can be read. -/
def datagramOver (interfaceIp data : StdString) (ttl : Nat) : Option Datagram :=
  match inetAton server.host interfaceIp, inetAton server.host server.address with
  | some ifAddr, some sinAddr => some ⟨data, sinAddr, server.port % 0x10000, ifAddr, ttl⟩
  | _, _ => none

/-- **Of the datagrams that are to go out each goes out at most once and in their order**, and all
of them do if the kernel obliges. -/
def Sends (s s' : SendSocket) (datagrams : List Datagram) : Prop :=
  ∃ out, s'.sent = s.sent ++ out ∧ out.Sublist datagrams ∧ (server.Obliges → out = datagrams)

namespace Sends

variable {server} {s s' s'' : SendSocket} {a b : List Datagram}

theorem nothing (hsent : s'.sent = s.sent) (h : server.Obliges → a = []) : server.Sends s s' a :=
  ⟨[], by rw [hsent, List.append_nil], List.nil_sublist a, fun hobliges => (h hobliges).symm⟩

theorem append (h : server.Sends s s' a) (h' : server.Sends s' s'' b) :
    server.Sends s s'' (a ++ b) := by
  obtain ⟨out, hsent, hsub, hall⟩ := h
  obtain ⟨out', hsent', hsub', hall'⟩ := h'
  refine ⟨out ++ out', by rw [hsent', hsent, List.append_assoc], hsub.append hsub', fun hobliges => ?_⟩
  rw [hall hobliges, hall' hobliges]

end Sends

variable (data : StdString) (ttl : Nat) (s : SendSocket)

theorem sends_byAddress (interfaceIp : StdString) :
    server.Sends s (server.sendOverInterfaceByAddress interfaceIp (.bytes data) ttl s).2
      (server.datagramOver interfaceIp data ttl).toList := by
  simp only [sendOverInterfaceByAddress, datagramOver]
  cases inetAton server.host interfaceIp with
  | none => exact .nothing rfl fun _ => rfl
  | some ifAddr =>
    dsimp only
    by_cases hif : server.kernel (s.calls ++ [.setMulticastIf ifAddr]) = some 0
    · by_cases httl :
        server.kernel (s.calls ++ [.setMulticastIf ifAddr] ++ [.setMulticastTtl ttl]) = some 0
      · cases inetAton server.host server.address with
        | none =>
          simp only [call, hif, httl, ne_eq, not_true_eq_false, if_true, if_false]
          exact .nothing rfl fun _ => rfl
        | some sinAddr =>
          simp only [call, hif, httl, ne_eq, not_true_eq_false, if_true, if_false, apply_ite Prod.snd,
            ite_self]
          split
          · rename_i hfailed
            refine .nothing rfl fun hobliges => ?_
            cases hfailed.symm.trans (hobliges.sendto _ _ _ _)
          · exact ⟨_, rfl, List.Sublist.refl _, fun _ => rfl⟩
      · simp only [call, hif, httl, ne_eq, not_true_eq_false, not_false_eq_true, if_true, if_false]
        exact .nothing rfl fun hobliges => absurd (hobliges.setMulticastTtl _ _) httl
    · simp only [call, hif, ne_eq, not_false_eq_true, if_true, if_false]
      exact .nothing rfl fun hobliges => absurd (hobliges.setMulticastIf _ _) hif

/-- The datagram that is to go out over an adapter: over the first of its addresses. -/
def datagramOverAdapter (adapter : Enumeration.Netadapter) (data : StdString) (ttl : Nat) :
    Option Datagram :=
  adapter.ipv4Addresses.head?.bind fun front => server.datagramOver front.address data ttl

variable {data}

theorem sends_byAdapter (hdata : data ≠ []) (adapter : Enumeration.Netadapter) :
    server.Sends s (server.sendOverInterface adapter (.bytes data) ttl s).2
      (server.datagramOverAdapter adapter data ttl).toList := by
  have hlength : 0 < (Buffer.bytes data).length := List.length_pos_iff.mpr hdata
  rw [sendOverInterface, if_pos hlength, datagramOverAdapter]
  cases adapter.ipv4Addresses with
  | nil => exact .nothing rfl fun _ => rfl
  | cons front rest => exact server.sends_byAddress data ttl s front.address

theorem sends_overAll (hdata : data ≠ []) (adapters : List Enumeration.Netadapter) (retVal : Int) :
    server.Sends s (server.sendOverAll (.bytes data) ttl adapters retVal s).2
      (adapters.filterMap fun adapter => server.datagramOverAdapter adapter data ttl) := by
  induction adapters generalizing retVal s with
  | nil => exact .nothing rfl fun _ => rfl
  | cons adapter adapters ih =>
    have hfirst := server.sends_byAdapter ttl s hdata adapter
    rw [sendOverAll, ← List.singleton_append, List.filterMap_append]
    refine .append ?_ (ih _ _)
    cases hover : server.datagramOverAdapter adapter data ttl with
    | none => simpa [hover] using hfirst
    | some datagram => simpa [hover] using hfirst

end Server

/-! ## Which overloads agree -/

/-- The same code, and the same datagrams. -/
def Agree (string buffer : Int × SendSocket) : Prop :=
  string.1 = buffer.1 ∧ string.2.sent = buffer.2.sent

instance (string buffer : Int × SendSocket) : Decidable (Agree string buffer) :=
  inferInstanceAs (Decidable (_ ∧ _))

namespace Server

variable (server : Server) (data : StdString) (ttl : Nat) (s : SendSocket)

theorem sent_setMulticastIf (ifAddr : Nat) :
    (server.call (.setMulticastIf ifAddr) s).2.sent = s.sent := by
  simp only [call]
  split <;> rfl

theorem sent_setMulticastTtl : (server.call (.setMulticastTtl ttl) s).2.sent = s.sent := by
  simp only [call]
  split <;> rfl

theorem sent_sendto {sinAddr sinPort : Nat}
    (h : (server.call (.sendto data sinAddr sinPort) s).1 ≠ none) :
    ∃ datagram, datagram.data = data ∧
      (server.call (.sendto data sinAddr sinPort) s).2.sent = s.sent ++ [datagram] := by
  have hanswer : server.kernel (s.calls ++ [.sendto data sinAddr sinPort]) ≠ none := h
  simp only [call, if_neg hanswer]
  exact ⟨_, rfl, rfl⟩

/-- **Success is a datagram**, for an empty buffer too. -/
theorem sent_of_success {interfaceIp : StdString} (hlen : data.length + 1 < Lib.SizeT.modulus)
    (h : (server.sendOverInterfaceByAddress interfaceIp (.bytes data) ttl s).1 = errSuccess) :
    ∃ datagram, datagram.data = data ∧
      (server.sendOverInterfaceByAddress interfaceIp (.bytes data) ttl s).2.sent =
        s.sent ++ [datagram] := by
  have hne : errInvalidIpAddress ≠ errSuccess ∧ errInvalidAdapter ≠ errSuccess ∧
      errNoSuccess ≠ errSuccess := by decide
  revert h
  simp only [sendOverInterfaceByAddress]
  cases inetAton server.host interfaceIp with
  | none => exact fun h => absurd h hne.1
  | some ifAddr =>
    dsimp only
    split
    · exact fun h => absurd h hne.2.1
    · split
      · exact fun h => absurd h hne.2.2
      · cases inetAton server.host server.address with
        | none => exact fun h => absurd h hne.2.2
        | some sinAddr =>
          dsimp only
          split
          · exact fun h => absurd h hne.2.2
          · rename_i hnbytes
            -- -1 as a `size_t` is no length
            obtain ⟨datagram, hdata, hsent⟩ := sent_sendto server data _ fun hfailed => hnbytes (by
              rw [hfailed, ssize, Lib.SizeT.ofSigned_neg_one]
              omega)
            refine fun _ => ⟨datagram, hdata, hsent.trans ?_⟩
            rw [sent_setMulticastTtl, sent_setMulticastIf]

/-- The string is not sent when it is empty, and the buffer is. -/
theorem agree_byAddress_iff (interfaceIp : StdString) :
    Agree (server.sendStringOverInterfaceByAddress interfaceIp data ttl s)
        (server.sendOverInterfaceByAddress interfaceIp (.bytes data) ttl s) ↔ data ≠ [] := by
  by_cases hdata : data = []
  · subst hdata
    rw [sendStringOverInterfaceByAddress, if_pos rfl]
    refine ⟨fun hagree => ?_, fun hne => absurd rfl hne⟩
    obtain ⟨datagram, -, hsent⟩ := sent_of_success server [] ttl s (by decide) hagree.1.symm
    have heq : s.sent = s.sent ++ [datagram] := hagree.2.trans hsent
    exact absurd (List.self_eq_append_right.mp heq) (List.cons_ne_nil _ _)
  · rw [sendStringOverInterfaceByAddress, if_neg hdata]
    exact ⟨fun _ => hdata, fun _ => ⟨rfl, rfl⟩⟩

/-- An adapter without an IPv4 address is told with two different codes. -/
theorem agree_byAdapter_iff (adapter : Enumeration.Netadapter) :
    Agree (server.sendStringOverInterface adapter data ttl s)
        (server.sendOverInterface adapter (.bytes data) ttl s) ↔
      data = [] ∨ adapter.ipv4Addresses ≠ [] := by
  by_cases hdata : data = []
  · subst hdata
    exact ⟨fun _ => Or.inl rfl, fun _ => ⟨rfl, rfl⟩⟩
  · have hlen : 0 < (Buffer.bytes data).length := List.length_pos_iff.mpr hdata
    rw [sendStringOverInterface, sendOverInterface, if_neg hdata, if_pos hlen]
    cases adapter.ipv4Addresses with
    | nil =>
      refine ⟨fun hagree => ?_, fun hor => (hor.resolve_left hdata rfl).elim⟩
      exact absurd hagree.1 (show ¬errAdapterIsDown = errInvalidAdapter by decide)
    | cons front rest =>
      dsimp only
      rw [agree_byAddress_iff]
      exact ⟨fun _ => Or.inr (List.cons_ne_nil _ _), fun _ => hdata⟩

/-- An index without adapter is looked up for a buffer that is empty, not for an empty string. -/
theorem agree_byIndex_iff (interfaceIndex : Int) :
    Agree (server.sendStringOverInterfaceIndex interfaceIndex data ttl s)
        (server.sendOverInterfaceIndex interfaceIndex (.bytes data) ttl s) ↔
      (data = [] ∧ ∃ adapter, server.adapterAt interfaceIndex = some adapter) ∨
        (data ≠ [] ∧ ∀ adapter, server.adapterAt interfaceIndex = some adapter →
          adapter.ipv4Addresses ≠ []) := by
  rw [sendStringOverInterfaceIndex, sendOverInterfaceIndex]
  cases server.adapterAt interfaceIndex with
  | none =>
    dsimp only
    by_cases hdata : data = []
    · rw [if_pos hdata]
      have hcodes : ¬(0 : Int) = errInvalidAdapter := by decide
      simp [Agree, hdata, hcodes]
    · rw [if_neg hdata]
      simp [Agree, hdata]
  | some adapter =>
    dsimp only
    by_cases hdata : data = []
    · subst hdata
      exact ⟨fun _ => Or.inl ⟨rfl, adapter, rfl⟩, fun _ => ⟨rfl, rfl⟩⟩
    · rw [if_neg hdata, agree_byAdapter_iff]
      simp [hdata]

/-- **When the overloads agree**, whatever the kernel answers: over all adapters always; over an
adapter if there is nothing to send or an address to send from; over an index if it has an adapter,
for nothing, or no adapter or one with an address, for something; and over an address if there is
something to send. -/
theorem overloads_agree_iff :
    Agree (server.sendString data ttl s) (server.send (.bytes data) ttl s) ∧
    (∀ adapter, Agree (server.sendStringOverInterface adapter data ttl s)
        (server.sendOverInterface adapter (.bytes data) ttl s) ↔
      data = [] ∨ adapter.ipv4Addresses ≠ []) ∧
    (∀ interfaceIndex, Agree (server.sendStringOverInterfaceIndex interfaceIndex data ttl s)
        (server.sendOverInterfaceIndex interfaceIndex (.bytes data) ttl s) ↔
      (data = [] ∧ ∃ adapter, server.adapterAt interfaceIndex = some adapter) ∨
        (data ≠ [] ∧ ∀ adapter, server.adapterAt interfaceIndex = some adapter →
          adapter.ipv4Addresses ≠ [])) ∧
    (∀ interfaceIp, Agree (server.sendStringOverInterfaceByAddress interfaceIp data ttl s)
        (server.sendOverInterfaceByAddress interfaceIp (.bytes data) ttl s) ↔ data ≠ []) :=
  ⟨⟨rfl, rfl⟩, agree_byAdapter_iff server data ttl s, agree_byIndex_iff server data ttl s,
    agree_byAddress_iff server data ttl s⟩

/-- A server without adapters that everything is sent for. -/
def obliging : Server where
  host := .littleEndian
  kernel := fun calls =>
    match calls.getLast? with
    | some (.sendto data _ _) => some data.length
    | _ => some 0
  address := "239.255.77.76".toList
  port := 31416
  netadapterList := .empty

/-- An adapter without addresses, an index without adapter, and an address with nothing to send. -/
theorem overloads_disagree :
    ¬Agree (obliging.sendStringOverInterface {} "x".toList 1 {})
        (obliging.sendOverInterface {} (.bytes "x".toList) 1 {}) ∧
    (obliging.sendStringOverInterface {} "x".toList 1 {}).1 = errAdapterIsDown ∧
    (obliging.sendOverInterface {} (.bytes "x".toList) 1 {}).1 = errInvalidAdapter ∧
    ¬Agree (obliging.sendStringOverInterfaceIndex 1 [] 1 {})
        (obliging.sendOverInterfaceIndex 1 (.bytes []) 1 {}) ∧
    ¬Agree (obliging.sendStringOverInterfaceByAddress "10.0.0.1".toList [] 1 {})
        (obliging.sendOverInterfaceByAddress "10.0.0.1".toList (.bytes []) 1 {}) ∧
    (obliging.sendOverInterfaceByAddress "10.0.0.1".toList (.bytes []) 1 {}).2.sent =
      [⟨[], 0x4C4DFFEF, 31416, 0x0100000A, 1⟩] := by
  decide

end Server
end DevScan.Net.Sending
