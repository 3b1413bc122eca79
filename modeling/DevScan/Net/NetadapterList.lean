import DevScan.Json.Value

/-!
# `Net/NetadapterList.lean` — the adapters and their addresses

`hbm/communication/netadapter.h` and `netadapterlist.cpp` over what the kernel knows. The list is
a **copy**: `update` takes it, and nothing in it changes until the next one. What its readers do
with it is right about the kernel only as far as the copy is.

An address is its number; the texts `inet_ntop` makes of it and `inet_aton` reads again are left
out, and so are IPv6 addresses and hardware addresses. The kernel counts the interfaces
`enumAdapters` takes: those that are up, do broadcast and are no loopback.
-/

set_option autoImplicit false

namespace DevScan.Net

/-- `struct in_addr`. -/
abbrev InAddr := UInt32

abbrev AdapterIndex := Nat

/-- `ipv4Address_t`. -/
structure Ipv4Address where
  address : InAddr
  netmask : InAddr
deriving DecidableEq, Repr

structure Netadapter where
  index : AdapterIndex
  name : StdString
  ipv4Addresses : List Ipv4Address
deriving DecidableEq, Repr

/-- `m_adapters`, in the order of the keys. -/
abbrev NetadapterList := List Netadapter

/-- The interfaces as the kernel has them. -/
structure Kernel where
  /-- Index and name of the interfaces that `enumAdapters` takes. -/
  interfaces : List (AdapterIndex × StdString)
  /-- The IPv4 addresses of every interface. -/
  addresses : AdapterIndex → List Ipv4Address

namespace Kernel

/-- `enumAdapters` -/
def enumAdapters (kernel : Kernel) : NetadapterList :=
  kernel.interfaces.map fun interface => ⟨interface.1, interface.2, kernel.addresses interface.1⟩

/-- The index belongs to an adapter of the list. -/
def Lists (kernel : Kernel) (index : AdapterIndex) : Prop :=
  index ∈ kernel.interfaces.map Prod.fst

instance (kernel : Kernel) (index : AdapterIndex) : Decidable (kernel.Lists index) :=
  inferInstanceAs (Decidable (_ ∈ _))

def Assigned (kernel : Kernel) (index : AdapterIndex) (address : InAddr) : Prop :=
  address ∈ (kernel.addresses index).map Ipv4Address.address

instance (kernel : Kernel) (index : AdapterIndex) (address : InAddr) :
    Decidable (kernel.Assigned index address) :=
  inferInstanceAs (Decidable (_ ∈ _))

end Kernel

namespace NetadapterList

/-- It throws `hbm::exception` if there is no such adapter. -/
def getAdapterByInterfaceIndex (list : NetadapterList) (interfaceIndex : AdapterIndex) :
    Except Exn Netadapter :=
  match list.find? fun adapter => adapter.index = interfaceIndex with
  | some adapter => .ok adapter
  | none => .error .stdException

/-- **A list that is up to date** has the kernel's addresses for every adapter it has. -/
theorem getAdapterByInterfaceIndex_enumAdapters (kernel : Kernel) (index : AdapterIndex) :
    (kernel.Lists index ∧ ∃ name, kernel.enumAdapters.getAdapterByInterfaceIndex index =
        .ok ⟨index, name, kernel.addresses index⟩) ∨
      (¬ kernel.Lists index ∧
        kernel.enumAdapters.getAdapterByInterfaceIndex index = .error .stdException) := by
  unfold getAdapterByInterfaceIndex
  cases hfind : kernel.enumAdapters.find? fun adapter => decide (adapter.index = index) with
  | none =>
    refine Or.inr ⟨?_, rfl⟩
    intro hlists
    obtain ⟨interface, hmem, rfl⟩ := List.mem_map.mp hlists
    have habsent := List.find?_eq_none.mp hfind _ (List.mem_map_of_mem hmem)
    exact habsent (decide_eq_true rfl)
  | some adapter =>
    have hindex : adapter.index = index := by simpa using List.find?_some hfind
    obtain ⟨interface, hmem, rfl⟩ := List.mem_map.mp (List.mem_of_find?_eq_some hfind)
    cases hindex
    exact Or.inl ⟨List.mem_map_of_mem hmem, interface.2, rfl⟩

end NetadapterList
end DevScan.Net
