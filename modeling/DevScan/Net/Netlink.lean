import DevScan.Net.NetadapterList
import Mathlib.Logic.Function.Basic

/-!
# `Net/Netlink.lean` — address changes and the interfaces the scanner listens on

`hbm/communication/linux/netlink.cpp`, `Receiver::netLinkEventHandler` and the memberships of
`multicastserver.cpp`, together with the kernel they talk to: its addresses change at any time,
each change queues one message, and the messages are processed one by one whenever the event
loop gets to it. What `m_netadapterlist.update()` reads is the kernel as it is **then**.

A membership belongs to an interface and remembers the address it was joined with: joining an
address joins every interface it is assigned to, unless it is joined already (`EADDRINUSE`), and
dropping an address drops the memberships that were joined with it. An address that is assigned
to no interface can not be joined.

Not modelled: messages that are no address changes (they only update the list), and the layout
of the messages; the kernel sends one message a change, with one `IFA_LOCAL`.
-/

set_option autoImplicit false

namespace DevScan.Net

/-- `nlmsg_type` -/
inductive MessageType where
  | newAddr
  | delAddr
deriving DecidableEq, Repr

/-- `ifaddrmsg` with its `IFA_LOCAL` attribute. -/
structure Ifaddrmsg where
  type : MessageType
  ifaIndex : AdapterIndex
  ifaLocal : InAddr
deriving DecidableEq, Repr

/-- `Netlink::event_t` -/
inductive EventType where
  | new
  | del
  | complete
deriving DecidableEq, Repr

/-- The arguments of `m_eventHandler`. -/
structure NetlinkEvent where
  event : EventType
  adapterIndex : AdapterIndex
  ipv4Address : InAddr
deriving DecidableEq, Repr

/-- What `processNetlinkTelegram` makes of a message, after it has updated the list. -/
def processNetlinkTelegram (netadapterlist : NetadapterList) (message : Ifaddrmsg) :
    Option NetlinkEvent :=
  match message.type with
  | .newAddr =>
    -- to be ignored if there are more than one addresses assigned to the interface
    match netadapterlist.getAdapterByInterfaceIndex message.ifaIndex with
    | .ok adapter =>
      if adapter.ipv4Addresses.length = 1 then
        some ⟨.new, message.ifaIndex, message.ifaLocal⟩
      else none
    | .error _ => none
  | .delAddr =>
    -- to be ignored if there is another address left for the interface
    match netadapterlist.getAdapterByInterfaceIndex message.ifaIndex with
    | .ok adapter =>
      if adapter.ipv4Addresses.isEmpty then
        some ⟨.new, message.ifaIndex, message.ifaLocal⟩
      else none
    | .error _ => none

/-- The receiver with its surroundings. -/
structure Scanner where
  kernel : Kernel
  /-- The queue of the netlink socket. -/
  messages : List Ifaddrmsg := []
  /-- `m_netadapterList` -/
  netadapterList : NetadapterList
  /-- The memberships of `m_ReceiveSocket`, with the address each was joined with. -/
  joined : AdapterIndex → Option InAddr := fun _ => none

namespace Scanner

/-- `IP_ADD_MEMBERSHIP` -/
def addInterface (s : Scanner) (interfaceAddress : InAddr) : Scanner :=
  { s with joined := fun index =>
      match s.joined index with
      | some address => some address
      | none => if s.kernel.Assigned index interfaceAddress then some interfaceAddress else none }

/-- `IP_DROP_MEMBERSHIP` -/
def dropInterface (s : Scanner) (interfaceAddress : InAddr) : Scanner :=
  { s with joined := fun index =>
      if s.joined index = some interfaceAddress then none else s.joined index }

/-- One round of the loop in `addAllInterfaces`. -/
def addAdapter (s : Scanner) (adapter : Netadapter) : Scanner :=
  match adapter.ipv4Addresses with
  | [] => s
  | front :: _ => s.addInterface front.address

/-- One round of the loop in `dropAllInterfaces`. -/
def dropAdapter (s : Scanner) (adapter : Netadapter) : Scanner :=
  match adapter.ipv4Addresses with
  | [] => s
  | front :: _ => s.dropInterface front.address

def addAllInterfaces (s : Scanner) : Scanner := s.netadapterList.foldl addAdapter s

def dropAllInterfaces (s : Scanner) : Scanner := s.netadapterList.foldl dropAdapter s

/-- `Receiver::netLinkEventHandler`; the `DEL` branch has no `break`. -/
def netLinkEventHandler (s : Scanner) (e : NetlinkEvent) : Scanner :=
  match e.event with
  | .new =>
    match s.netadapterList.getAdapterByInterfaceIndex e.adapterIndex with
    | .ok _ => s.addInterface e.ipv4Address
    | .error _ => s
  | .del => (s.dropInterface e.ipv4Address).dropAllInterfaces.addAllInterfaces
  | .complete => s.dropAllInterfaces.addAllInterfaces

/-- `m_netadapterlist.update()` -/
def update (s : Scanner) : Scanner := { s with netadapterList := s.kernel.enumAdapters }

/-- `Netlink::process`: `recvmsg` hands out the first message, if there is one. -/
def process (s : Scanner) : Scanner :=
  match s.messages with
  | [] => s
  | message :: messages =>
    let s := { s with messages := messages }.update
    (processNetlinkTelegram s.netadapterList message).elim s s.netLinkEventHandler

/-- The constructors: the list is read, nothing is joined. -/
def create (kernel : Kernel) : Scanner := { kernel, netadapterList := kernel.enumAdapters }

/-- `Netlink::start` hands out `COMPLETE`. -/
def start (s : Scanner) : Scanner := s.netLinkEventHandler ⟨.complete, 0, 0⟩

end Scanner

/-- What the kernel does to an address. -/
inductive AddressChange where
  /-- Assign it, at the given place among those the interface has. -/
  | assign (index : AdapterIndex) (address : Ipv4Address) (place : Nat)
  | remove (index : AdapterIndex) (address : Ipv4Address)
deriving DecidableEq, Repr

/-- What happens next. -/
inductive NetAction where
  | change (change : AddressChange)
  | process
deriving DecidableEq, Repr

namespace Kernel

/-- Give the interface other addresses. -/
def setAddresses (kernel : Kernel) (index : AdapterIndex) (addresses : List Ipv4Address) : Kernel :=
  { kernel with addresses := Function.update kernel.addresses index addresses }

end Kernel

namespace Scanner

/-- A change queues a message. Assigning an address the interface has, or removing one it does
not have, is refused. -/
def change (s : Scanner) : AddressChange → Scanner
  | .assign index address place =>
    let addresses := s.kernel.addresses index
    if address ∈ addresses then s
    else { s with
      kernel := s.kernel.setAddresses index
        (addresses.take place ++ address :: addresses.drop place)
      messages := s.messages ++ [⟨.newAddr, index, address.address⟩] }
  | .remove index address =>
    let addresses := s.kernel.addresses index
    if address ∈ addresses then
      { s with
        kernel := s.kernel.setAddresses index (addresses.filter (· ≠ address))
        messages := s.messages ++ [⟨.delAddr, index, address.address⟩] }
    else s

def step (s : Scanner) : NetAction → Scanner
  | .change change => s.change change
  | .process => s.process

end Scanner
end DevScan.Net
