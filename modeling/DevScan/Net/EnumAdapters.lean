import DevScan.Lib.OrderedMap
import DevScan.Net.HardwareAddress
import Mathlib.Data.List.Find

/-!
# `Net/EnumAdapters.lean` — `NetadapterList::enumAdapters`

The walk of `netadapterlist.cpp` over the list of `getifaddrs`. The entries of an interface need not
stand together: the walk finds the adapter by the index of the interface, makes it when it sees the
index for the first time, and puts the address of the entry behind the others. The identity of an
adapter is filled in as long as its hardware address is empty, which it stays for an interface that
has none.

`if_nametoindex` and `inet_ntop` are parameters. What `SIOCGIFHWADDR` answers may be another thing
at each entry.
-/

set_option autoImplicit false

namespace DevScan.Net.Enumeration

def iffUp : UInt32 := 0x1
def iffBroadcast : UInt32 := 0x2
def iffLoopback : UInt32 := 0x8

/-- `struct in6_addr` -/
abbrev In6Addr := Vector UInt8 16

/-- What `ifa_addr` and `ifa_netmask` point to, by the family of the address. -/
inductive Sockaddr where
  | inet (sinAddr netmask : UInt32)
  | inet6 (sin6Addr netmask : In6Addr)
  | other
deriving DecidableEq

/-- `struct ifaddrs` -/
structure Ifaddrs where
  ifaName : StdString
  ifaFlags : UInt32
  ifaAddr : Option Sockaddr
  /-- What the calls of `getHardwareAddress` return while the walk is at this entry. Not in the
  source. -/
  hwaddr : HwaddrAnswer

structure Os where
  ifNametoindex : StdString → Nat
  inetNtop : UInt32 → StdString
  inetNtop6 : In6Addr → StdString

/-- `ipv4Address_t` -/
structure Ipv4Address where
  address : StdString
  netmask : StdString
deriving DecidableEq, Repr

/-- `ipv6Address_t` -/
structure Ipv6Address where
  address : StdString
  prefixLength : Nat := 0
deriving DecidableEq, Repr

structure Netadapter where
  name : StdString := []
  ipv4Addresses : List Ipv4Address := []
  ipv6Addresses : List Ipv6Address := []
  macAddress : StdString := []
  fwGuid : UInt64 := 0
  index : Nat := 0
deriving DecidableEq, Repr

/-- `tAdapters` -/
abbrev Adapters := Lib.OrderedMap Nat Netadapter

/-- The loop over the bits of a byte, from the lowest up. -/
def countByte (byte : UInt8) : Nat → UInt8 → Nat → Nat
  | 0, _, bitCount => bitCount
  | rounds + 1, mask, bitCount =>
    countByte byte rounds (mask <<< 1) (if byte &&& mask ≠ 0 then bitCount + 1 else bitCount)

/-- The loop over the bytes of a netmask; the first that is zero ends it. -/
def countBytes : List UInt8 → Nat → Nat
  | [], bitCount => bitCount
  | byte :: bytes, bitCount =>
    if byte = 0 then bitCount else countBytes bytes (countByte byte 8 1 bitCount)

/-- The conditions under which an entry is looked at. -/
def Taken (interface : Ifaddrs) : Prop :=
  interface.ifaAddr ≠ none ∧ interface.ifaFlags &&& iffUp ≠ 0 ∧
    interface.ifaFlags &&& iffBroadcast ≠ 0 ∧ ¬interface.ifaFlags &&& iffLoopback ≠ 0

instance (interface : Ifaddrs) : Decidable (Taken interface) :=
  inferInstanceAs (Decidable (_ ∧ _))

variable (os : Os)

/-- An interface may have several ip addresses. Do this only once per interface. -/
def identify (interface : Ifaddrs) (adapt : Netadapter) : Netadapter :=
  if adapt.macAddress = [] then
    { adapt with
      index := os.ifNametoindex interface.ifaName
      name := interface.ifaName
      macAddress := (getHardwareAddress interface.hwaddr).hwAddrString
      fwGuid := (getHardwareAddress interface.hwaddr).fwGuid }
  else adapt

def addAddress (interface : Ifaddrs) (adapt : Netadapter) : Netadapter :=
  match interface.ifaAddr with
  | some (.inet sinAddr netmask) =>
    { adapt with
      ipv4Addresses := adapt.ipv4Addresses ++ [⟨os.inetNtop sinAddr, os.inetNtop netmask⟩] }
  | some (.inet6 sin6Addr netmask) =>
    { adapt with
      ipv6Addresses := adapt.ipv6Addresses ++
        [⟨os.inetNtop6 sin6Addr, countBytes netmask.toList 0⟩] }
  | _ => adapt

/-- One round of the `while`. -/
def enumEntry (adapterMap : Adapters) (interface : Ifaddrs) : Adapters :=
  if Taken interface then
    adapterMap.update {} (os.ifNametoindex interface.ifaName) fun adapt =>
      addAddress os interface (identify os interface adapt)
  else adapterMap

/-- `m_adapters` after the call; `none` is a `getifaddrs` that fails. -/
def enumAdapters (m_adapters : Adapters) : Option (List Ifaddrs) → Adapters
  | none => m_adapters
  | some interfaces => interfaces.foldl (enumEntry os) .empty

def getArray (m_adapters : Adapters) : List Netadapter :=
  m_adapters.entries.foldl (fun result entry => result ++ [entry.2]) []

/-- `none` is the `hbm::exception` it throws if there is no such adapter. -/
def getAdapterByInterfaceIndex (m_adapters : Adapters) (interfaceIndex : Nat) :
    Option Netadapter :=
  m_adapters.find? interfaceIndex

/-! ## Netmasks -/

/-- The bits of an address, the highest first. -/
def bits (bytes : List UInt8) : List Bool :=
  bytes.flatMap fun byte => (List.range 8).map fun i => byte.toNat.testBit (7 - i)

/-- No bit that is one behind one that is not. -/
def Contiguous (netmask : In6Addr) : Prop :=
  (bits netmask.toList).Pairwise (· ≥ ·)

instance (netmask : In6Addr) : Decidable (Contiguous netmask) :=
  inferInstanceAs (Decidable (List.Pairwise _ _))

def leadingOnes (netmask : In6Addr) : Nat := ((bits netmask.toList).takeWhile id).length

theorem countByte_add (byte : UInt8) (rounds : Nat) (mask : UInt8) (bitCount : Nat) :
    countByte byte rounds mask bitCount = bitCount + countByte byte rounds mask 0 := by
  induction rounds generalizing mask bitCount with
  | zero => rfl
  | succ rounds ih =>
    rw [countByte, countByte, ih]
    split
    · rw [ih _ (0 + 1)]
      omega
    · rfl

/-- The eight rounds count the ones. -/
theorem countByte_eq (byte : UInt8) (bitCount : Nat) :
    countByte byte 8 1 bitCount = bitCount + (bits [byte]).count true := by
  have hall : ∀ n < 256, countByte (UInt8.ofNat n) 8 1 0 = (bits [UInt8.ofNat n]).count true := by
    decide +kernel
  have hbyte := hall byte.toNat byte.toNat_lt
  rw [UInt8.ofNat_toNat] at hbyte
  rw [countByte_add, hbyte]

/-- Behind a zero byte there are no more ones, so the loop that ends there misses none. -/
theorem countBytes_eq {bytes : List UInt8} (h : (bits bytes).Pairwise (· ≥ ·)) (bitCount : Nat) :
    countBytes bytes bitCount = bitCount + (bits bytes).count true := by
  induction bytes generalizing bitCount with
  | nil => rfl
  | cons byte bytes ih =>
    have hbits : bits ([byte] ++ bytes) = bits [byte] ++ bits bytes := List.flatMap_append
    rw [List.singleton_append] at hbits
    rw [hbits] at h ⊢
    obtain ⟨-, hbytes, hle⟩ := List.pairwise_append.mp h
    rw [countBytes, List.count_append]
    split
    · rename_i hzero
      subst hzero
      have hnone : (bits bytes).count true = 0 := List.count_eq_zero.mpr fun hone =>
        absurd (hle false (by decide) true hone) (by decide)
      rw [hnone]
      rfl
    · rw [ih hbytes, countByte_eq, Nat.add_assoc]

theorem length_takeWhile_eq_count {l : List Bool} (h : l.Pairwise (· ≥ ·)) :
    (l.takeWhile id).length = l.count true := by
  induction l with
  | nil => rfl
  | cons b l ih =>
    obtain ⟨hle, hl⟩ := List.pairwise_cons.mp h
    cases b with
    | true => rw [List.takeWhile_cons_of_pos rfl, List.length_cons, ih hl, List.count_cons_self]
    | false =>
      have hnone : true ∉ false :: l := fun hone => by
        rcases List.mem_cons.mp hone with h | h
        · cases h
        · exact absurd (hle true h) (by decide)
      rw [List.count_eq_zero.mpr hnone]
      rfl

theorem countBytes_eq_leadingOnes {netmask : In6Addr} (h : Contiguous netmask) :
    countBytes netmask.toList 0 = leadingOnes netmask := by
  rw [countBytes_eq h, leadingOnes, length_takeWhile_eq_count h, Nat.zero_add]

/-! ## What an adapter is made of -/

/-- The address of an entry of the family `AF_INET`. -/
def ipv4Address (interface : Ifaddrs) : Option Ipv4Address :=
  match interface.ifaAddr with
  | some (.inet sinAddr netmask) => some ⟨os.inetNtop sinAddr, os.inetNtop netmask⟩
  | _ => none

/-- The address of an entry of the family `AF_INET6`; the length is what `length` says of the
netmask. -/
def ipv6Address (length : In6Addr → Nat) (interface : Ifaddrs) : Option Ipv6Address :=
  match interface.ifaAddr with
  | some (.inet6 sin6Addr netmask) => some ⟨os.inetNtop6 sin6Addr, length netmask⟩
  | _ => none

/-- The entries of an interface. -/
def entriesOf (i : Nat) (interfaces : List Ifaddrs) : List Ifaddrs :=
  interfaces.filter fun interface => os.ifNametoindex interface.ifaName = i

/-- What the walk makes of an adapter at an entry of its interface. -/
def visit (adapt : Netadapter) (interface : Ifaddrs) : Netadapter :=
  addAddress os interface (identify os interface adapt)

variable (interface : Ifaddrs) (adapt : Netadapter)

theorem index_addAddress : (addAddress os interface adapt).index = adapt.index := by
  rw [addAddress]
  split <;> rfl

theorem index_visit (h : adapt.macAddress = [] ∨ adapt.index = os.ifNametoindex interface.ifaName) :
    (visit os adapt interface).index = os.ifNametoindex interface.ifaName := by
  rw [visit, index_addAddress, identify]
  split
  · rfl
  · rename_i hmac
    exact h.resolve_left hmac

/-- Filling in the identity leaves the addresses. -/
theorem addresses_identify :
    (identify os interface adapt).ipv4Addresses = adapt.ipv4Addresses ∧
      (identify os interface adapt).ipv6Addresses = adapt.ipv6Addresses := by
  rw [identify]
  split
  · exact ⟨rfl, rfl⟩
  · exact ⟨rfl, rfl⟩

theorem ipv4Addresses_visit :
    (visit os adapt interface).ipv4Addresses =
      adapt.ipv4Addresses ++ (ipv4Address os interface).toList := by
  rw [visit, addAddress, ipv4Address, ← (addresses_identify os interface adapt).1]
  generalize interface.ifaAddr = ifaAddr
  rcases ifaAddr with _ | _ | _ | _ <;> simp

theorem ipv6Addresses_visit :
    (visit os adapt interface).ipv6Addresses = adapt.ipv6Addresses ++
      (ipv6Address os (fun netmask => countBytes netmask.toList 0) interface).toList := by
  rw [visit, addAddress, ipv6Address, ← (addresses_identify os interface adapt).2]
  generalize interface.ifaAddr = ifaAddr
  rcases ifaAddr with _ | _ | _ | _ <;> simp

/-- **The entries of an interface, one after the other.** -/
theorem foldl_visit (i : Nat) (interfaces : List Ifaddrs)
    (hkey : ∀ interface ∈ interfaces, os.ifNametoindex interface.ifaName = i) :
    (interfaces.foldl (visit os) adapt).ipv4Addresses =
        adapt.ipv4Addresses ++ interfaces.filterMap (ipv4Address os) ∧
      (interfaces.foldl (visit os) adapt).ipv6Addresses = adapt.ipv6Addresses ++
        interfaces.filterMap (ipv6Address os fun netmask => countBytes netmask.toList 0) ∧
      (adapt.index = i → (interfaces.foldl (visit os) adapt).index = i) := by
  induction interfaces generalizing adapt with
  | nil => simp
  | cons interface interfaces ih =>
    obtain ⟨hhead, htail⟩ := List.forall_mem_cons.mp hkey
    obtain ⟨hipv4, hipv6, hindex⟩ := ih (visit os adapt interface) htail
    rw [List.foldl_cons]
    refine ⟨?_, ?_, fun hadapt => hindex ?_⟩
    · rw [hipv4, ipv4Addresses_visit, List.append_assoc]
      cases hone : ipv4Address os interface <;> simp [hone]
    · rw [hipv6, ipv6Addresses_visit, List.append_assoc]
      cases hone : ipv6Address os (fun netmask => countBytes netmask.toList 0) interface <;>
        simp [hone]
    · rw [index_visit os interface adapt (Or.inr (hadapt.trans hhead.symm)), hhead]

/-! ## What the map is made of -/

variable (m_adapters : Adapters) (interfaces : List Ifaddrs)

/-- The entries that make an adapter. -/
def takenOf (i : Nat) : List Ifaddrs := entriesOf os i (interfaces.filter (Taken ·))

theorem mem_takenOf {i : Nat} :
    interface ∈ takenOf os interfaces i ↔
      interface ∈ interfaces ∧ Taken interface ∧ os.ifNametoindex interface.ifaName = i := by
  simp only [takenOf, entriesOf, List.mem_filter, decide_eq_true_eq, and_assoc]

/-- The walk groups the entries it takes by their index. -/
theorem find?_enumAdapters (i : Nat) :
    (enumAdapters os m_adapters (some interfaces)).find? i =
      if takenOf os interfaces i = [] then none
      else some ((takenOf os interfaces i).foldl (visit os) {}) := by
  have hstep : enumEntry os = fun adapterMap interface =>
      if decide (Taken interface) = true then
        adapterMap.update {} (os.ifNametoindex interface.ifaName) fun adapt =>
          visit os adapt interface
      else adapterMap := by
    funext adapterMap interface
    simp only [enumEntry, decide_eq_true_eq]
    rfl
  rw [enumAdapters, hstep, ← List.foldl_filter, Lib.OrderedMap.find?_foldl_empty]
  rfl

/-- The entries of an interface have the same flags, and the netmasks of IPv6 addresses have no
gaps: what `getifaddrs` returns. -/
structure Returned : Prop where
  flags : ∀ interface ∈ interfaces, ∀ interface' ∈ interfaces,
    os.ifNametoindex interface.ifaName = os.ifNametoindex interface'.ifaName →
      interface.ifaFlags = interface'.ifaFlags
  contiguous : ∀ interface ∈ interfaces, ∀ sin6Addr netmask,
    interface.ifaAddr = some (.inet6 sin6Addr netmask) → Contiguous netmask

theorem takenOf_eq (i : Nat) :
    takenOf os interfaces i = (entriesOf os i interfaces).filter (Taken ·) :=
  List.filter_comm _ _ interfaces

/-- If one entry of an interface is taken, then every one that has an address is. -/
theorem filterMap_takenOf {α : Type} (h : Returned os interfaces) {i : Nat}
    (hsome : takenOf os interfaces i ≠ []) (f : Ifaddrs → Option α)
    (hf : ∀ interface, interface.ifaAddr = none → f interface = none) :
    (takenOf os interfaces i).filterMap f = (entriesOf os i interfaces).filterMap f := by
  obtain ⟨first, hfirst⟩ := List.exists_mem_of_ne_nil _ hsome
  obtain ⟨hmem, ⟨-, htaken⟩, hindex⟩ := (mem_takenOf os first interfaces).mp hfirst
  rw [takenOf_eq, List.filterMap_filter]
  refine List.filterMap_congr fun interface hinterface => ?_
  obtain ⟨hmem', hindex'⟩ := List.mem_filter.mp hinterface
  split
  · rfl
  · rename_i hnot
    refine (hf interface ?_).symm
    by_contra haddr
    refine hnot (decide_eq_true ⟨haddr, ?_⟩)
    rw [h.flags interface hmem' first hmem ((of_decide_eq_true hindex').trans hindex.symm)]
    exact htaken

/-- What an adapter of the map is, by the entries of its interface. -/
structure Groups (i : Nat) (adapter : Netadapter) : Prop where
  index : adapter.index = i
  ipv4Addresses :
    adapter.ipv4Addresses = (entriesOf os i interfaces).filterMap (ipv4Address os)
  ipv6Addresses :
    adapter.ipv6Addresses = (entriesOf os i interfaces).filterMap (ipv6Address os leadingOnes)

theorem groups_of_find? (h : Returned os interfaces) {i : Nat} {adapter : Netadapter}
    (hfind : (enumAdapters os m_adapters (some interfaces)).find? i = some adapter) :
    Groups os interfaces i adapter := by
  rw [find?_enumAdapters] at hfind
  split at hfind
  · cases hfind
  · rename_i hsome
    have hadapter := Option.some.inj hfind
    have hkey : ∀ interface ∈ takenOf os interfaces i,
        os.ifNametoindex interface.ifaName = i := fun interface hmem =>
      ((mem_takenOf os interface interfaces).mp hmem).2.2
    have hipv6 : (entriesOf os i interfaces).filterMap
          (ipv6Address os fun netmask => countBytes netmask.toList 0) =
        (entriesOf os i interfaces).filterMap (ipv6Address os leadingOnes) := by
      refine List.filterMap_congr fun interface hinterface => ?_
      have hcontiguous := h.contiguous interface (List.mem_filter.mp hinterface).1
      simp only [ipv6Address]
      split
      · rename_i haddr
        rw [countBytes_eq_leadingOnes (hcontiguous _ _ haddr)]
      · rfl
    refine ⟨?_, ?_, ?_⟩
    · cases htaken : takenOf os interfaces i with
      | nil => exact absurd htaken hsome
      | cons first rest =>
        rw [htaken] at hadapter hkey
        obtain ⟨hhead, htail⟩ := List.forall_mem_cons.mp hkey
        obtain ⟨-, -, hindex⟩ := foldl_visit os (visit os {} first) i rest htail
        rw [← hadapter]
        exact hindex ((index_visit os first {} (Or.inl rfl)).trans hhead)
    · rw [← hadapter, (foldl_visit os {} i _ hkey).1, List.nil_append]
      refine filterMap_takenOf os interfaces h hsome _ fun interface haddr => ?_
      rw [ipv4Address, haddr]
    · rw [← hadapter, (foldl_visit os {} i _ hkey).2.1, List.nil_append, ← hipv6]
      refine filterMap_takenOf os interfaces h hsome _ fun interface haddr => ?_
      rw [ipv6Address, haddr]

/-- The entries of other interfaces do not matter. -/
theorem find?_enumAdapters_congr {interfaces interfaces' : List Ifaddrs} {i : Nat}
    (h : entriesOf os i interfaces' = entriesOf os i interfaces) :
    (enumAdapters os m_adapters (some interfaces')).find? i =
      (enumAdapters os m_adapters (some interfaces)).find? i := by
  rw [find?_enumAdapters, find?_enumAdapters, takenOf_eq, takenOf_eq, h]

theorem getArray_eq : getArray m_adapters = m_adapters.entries.map Prod.snd := by
  have hfold : ∀ (entries : List (Nat × Netadapter)) (result : List Netadapter),
      entries.foldl (fun result entry => result ++ [entry.2]) result =
        result ++ entries.map Prod.snd := by
    intro entries
    induction entries with
    | nil => simp
    | cons entry entries ih => simp [ih]
  exact hfold m_adapters.entries []

/-- Each adapter of the map stands with its own index. -/
theorem index_of_mem_entries (h : Returned os interfaces) :
    ∀ entry ∈ (enumAdapters os m_adapters (some interfaces)).entries, entry.2.index = entry.1 :=
  fun _ hmem =>
    have hfind := (Lib.OrderedMap.find?_eq_some_iff _ _ _).mpr hmem
    (groups_of_find? os m_adapters interfaces h hfind).index

/-- **The walk groups the entries of `getifaddrs` by their interface.** -/
theorem enumAdapters_groups (h : Returned os interfaces) :
    (∀ i, (∃ adapter, (enumAdapters os m_adapters (some interfaces)).find? i = some adapter) ↔
      ∃ interface ∈ interfaces, Taken interface ∧ os.ifNametoindex interface.ifaName = i) ∧
    (∀ i adapter, (enumAdapters os m_adapters (some interfaces)).find? i = some adapter →
      Groups os interfaces i adapter) ∧
    (∀ i interfaces', entriesOf os i interfaces' = entriesOf os i interfaces →
      (enumAdapters os m_adapters (some interfaces')).find? i =
        (enumAdapters os m_adapters (some interfaces)).find? i) ∧
    getArray (enumAdapters os m_adapters (some interfaces)) =
      (enumAdapters os m_adapters (some interfaces)).entries.map Prod.snd ∧
    (getArray (enumAdapters os m_adapters (some interfaces))).map Netadapter.index =
      (enumAdapters os m_adapters (some interfaces)).entries.map Prod.fst ∧
    enumAdapters os m_adapters none = m_adapters := by
  refine ⟨fun i => ?_, fun i adapter => groups_of_find? os m_adapters interfaces h,
    fun i interfaces' => find?_enumAdapters_congr os m_adapters, getArray_eq _, ?_, rfl⟩
  · rw [find?_enumAdapters]
    constructor
    · rintro ⟨adapter, hadapter⟩
      split at hadapter
      · cases hadapter
      · rename_i hsome
        obtain ⟨interface, hmem⟩ := List.exists_mem_of_ne_nil _ hsome
        exact ⟨interface, (mem_takenOf os interface interfaces).mp hmem⟩
    · rintro ⟨interface, hmem⟩
      rw [if_neg (List.ne_nil_of_mem ((mem_takenOf os interface interfaces).mpr hmem))]
      exact ⟨_, rfl⟩
  · rw [getArray_eq, List.map_map]
    exact List.map_congr_left (index_of_mem_entries os m_adapters interfaces h)

/-- Two interfaces, their entries one among the other, and the loopback. -/
def interleaved : List Ifaddrs :=
  let hwaddr : HwaddrAnswer := ⟨true, 0, ⟨arphrdEther, fun i => i.toUInt8⟩⟩
  let netmask : In6Addr := Vector.ofFn fun i => if i < 8 then 0xFF else 0
  [⟨"lo".toList, 0x49, some (.inet 0x0100007F 0x000000FF), hwaddr⟩,
    ⟨"eth1".toList, 0x1043, some .other, hwaddr⟩,
    ⟨"eth0".toList, 0x1043, some (.inet 0x0100000A 0x000000FF), hwaddr⟩,
    ⟨"eth1".toList, 0x1043, none, hwaddr⟩,
    ⟨"eth0".toList, 0x1043, some (.inet6 (Vector.replicate 16 0) netmask), hwaddr⟩,
    ⟨"eth1".toList, 0x1043, some (.inet 0x0100000B 0x000000FF), hwaddr⟩,
    ⟨"eth0".toList, 0x1043, some (.inet 0x0200000A 0x000000FF), hwaddr⟩]

/-- The system of these interfaces. -/
def interleavedOs : Os where
  ifNametoindex name :=
    if name = "lo".toList then 1 else if name = "eth0".toList then 2
    else if name = "eth1".toList then 3 else 0
  inetNtop address :=
    if address = 0x0100000A then "10.0.0.1".toList
    else if address = 0x0200000A then "10.0.0.2".toList
    else if address = 0x000000FF then "255.0.0.0".toList else "11.0.0.1".toList
  inetNtop6 _ := "::".toList

theorem enumAdapters_groups_interleaved :
    ∃ adapter, (enumAdapters interleavedOs .empty (some interleaved)).find? 2 = some adapter ∧
      adapter.index = 2 ∧
      adapter.ipv4Addresses = [⟨"10.0.0.1".toList, "255.0.0.0".toList⟩,
        ⟨"10.0.0.2".toList, "255.0.0.0".toList⟩] ∧
      adapter.ipv6Addresses = [⟨"::".toList, 64⟩] := by
  have hreturned : Returned interleavedOs interleaved := by
    refine ⟨by decide, fun interface hmem sin6Addr netmask haddr => ?_⟩
    simp only [interleaved, List.mem_cons, List.not_mem_nil, or_false] at hmem
    rcases hmem with rfl | rfl | rfl | rfl | rfl | rfl | rfl <;> cases haddr
    decide +kernel
  obtain ⟨hkeys, hgroups, -⟩ := enumAdapters_groups interleavedOs .empty interleaved hreturned
  obtain ⟨adapter, hfind⟩ := (hkeys 2).mpr (by
    refine ⟨_, List.mem_of_getElem? (i := 2) rfl, ?_, ?_⟩
    · decide
    · decide)
  obtain ⟨hindex, hipv4, hipv6⟩ := hgroups 2 adapter hfind
  refine ⟨adapter, hfind, hindex, hipv4.trans (by decide), hipv6.trans (by decide +kernel)⟩

end DevScan.Net.Enumeration
