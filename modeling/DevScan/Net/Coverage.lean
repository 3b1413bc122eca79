import DevScan.Net.Netlink
import DevScan.Lib.Runs
import Mathlib.Tactic.ByContra

/-!
# `Net/Coverage.lean` — is every adapter with an address listened on

An adapter is joined by a message, but whether the message joins it is decided by the **number
of addresses the adapter has when the message is processed**, which says nothing about the
message if the kernel is ahead of it. Two addresses assigned before the first message is
processed are two messages that are both ignored.

Nothing is ever dropped after the start, so being joined is a latch: it comes about at the start
or in a step that `Reaches` the adapter (`joined_run_iff`). Hence the exact condition
`covered_iff`, and `settled_of_prompt`: if every message is processed before the next change,
every adapter with an address is joined.
-/

set_option autoImplicit false

namespace DevScan.Net

open Lib (run transitions)

/-- How many addresses the adapter of a message must have for the message to be passed on. -/
def MessageType.addressesLeft : MessageType → Nat
  | .newAddr => 1
  | .delAddr => 0

/-- A message that is processed now is passed on: its adapter is listed, and has exactly one
address, or none if the message is about a removal. -/
def Kernel.PassesOn (kernel : Kernel) (message : Ifaddrmsg) : Prop :=
  kernel.Lists message.ifaIndex ∧
    (kernel.addresses message.ifaIndex).length = message.type.addressesLeft

instance (kernel : Kernel) (message : Ifaddrmsg) : Decidable (kernel.PassesOn message) :=
  inferInstanceAs (Decidable (_ ∧ _))

namespace Scanner

/-- Once the queue is empty, every adapter of the list that has an address is joined. -/
def Covered (s : Scanner) : Prop :=
  s.messages = [] → ∀ adapter ∈ s.netadapterList, adapter.ipv4Addresses ≠ [] →
    (s.joined adapter.index).isSome

instance (s : Scanner) : Decidable s.Covered := inferInstanceAs (Decidable (_ → _))

/-- The first message of the queue reaches the interface if it is processed now: it is passed
on, and its address is assigned to the interface at this time. -/
def Reaches (s : Scanner) (index : AdapterIndex) : Prop :=
  ∃ message messages, s.messages = message :: messages ∧ s.kernel.PassesOn message ∧
    s.kernel.Assigned index message.ifaLocal

/-- `COMPLETE` reaches the interface: it now has the first of the addresses that some adapter
had when the list was read. -/
def StartReaches (s : Scanner) (index : AdapterIndex) : Prop :=
  ∃ adapter ∈ s.netadapterList, ∃ front ∈ adapter.ipv4Addresses.head?,
    s.kernel.Assigned index front.address

/-! ## What the handler changes -/

@[simp] theorem joined_addInterface (s : Scanner) (address : InAddr) (index : AdapterIndex) :
    ((s.addInterface address).joined index).isSome ↔
      (s.joined index).isSome ∨ s.kernel.Assigned index address := by
  simp only [addInterface]
  cases s.joined index with
  | some _ => simp
  | none => by_cases hassigned : s.kernel.Assigned index address <;> simp [hassigned]

theorem joined_foldl_addAdapter (adapters : List Netadapter) (s : Scanner)
    (index : AdapterIndex) :
    ((adapters.foldl addAdapter s).joined index).isSome ↔
      (s.joined index).isSome ∨ ∃ adapter ∈ adapters, ∃ front ∈ adapter.ipv4Addresses.head?,
        s.kernel.Assigned index front.address := by
  induction adapters generalizing s with
  | nil => simp
  | cons adapter adapters ih =>
    have hkernel : (s.addAdapter adapter).kernel = s.kernel := by
      unfold addAdapter
      split <;> rfl
    have hhead : ((s.addAdapter adapter).joined index).isSome ↔
        (s.joined index).isSome ∨ ∃ front ∈ adapter.ipv4Addresses.head?,
          s.kernel.Assigned index front.address := by
      unfold addAdapter
      split <;> rename_i haddresses <;> simp [haddresses]
    rw [List.foldl_cons, ih, hhead, hkernel, or_assoc]
    simp only [List.mem_cons, exists_eq_or_imp]

theorem dropAllInterfaces_eq_self {s : Scanner} (h : s.joined = fun _ => none) :
    s.dropAllInterfaces = s := by
  have hdrop : ∀ adapter, s.dropAdapter adapter = s := by
    intro adapter
    unfold dropAdapter
    split
    · rfl
    · cases s
      simp only at h
      subst h
      simp [dropInterface]
  unfold dropAllInterfaces
  generalize s.netadapterList = adapters
  induction adapters with
  | nil => rfl
  | cons adapter adapters ih => rw [List.foldl_cons, hdrop, ih]

theorem foldl_memberships (round : Scanner → Netadapter → Scanner)
    (hround : ∀ s adapter, ∃ joined, round s adapter = { s with joined := joined })
    (adapters : List Netadapter) (s : Scanner) :
    ∃ joined, adapters.foldl round s = { s with joined := joined } := by
  induction adapters generalizing s with
  | nil => exact ⟨s.joined, rfl⟩
  | cons adapter adapters ih =>
    obtain ⟨first, hfirst⟩ := hround s adapter
    obtain ⟨joined, hjoined⟩ := ih (round s adapter)
    refine ⟨joined, ?_⟩
    rw [List.foldl_cons, hjoined, hfirst]

theorem rejoin_memberships (s : Scanner) :
    ∃ joined, s.dropAllInterfaces.addAllInterfaces = { s with joined := joined } := by
  obtain ⟨dropped, hdropped⟩ := foldl_memberships dropAdapter
    (fun s adapter => by unfold dropAdapter; split <;> exact ⟨_, rfl⟩) s.netadapterList s
  obtain ⟨joined, hjoined⟩ := foldl_memberships addAdapter
    (fun s adapter => by unfold addAdapter; split <;> exact ⟨_, rfl⟩) s.netadapterList
    { s with joined := dropped }
  exact ⟨joined, by rw [dropAllInterfaces, hdropped, addAllInterfaces, hjoined]⟩

/-- The memberships are all that the handler changes. -/
theorem netLinkEventHandler_memberships (s : Scanner) (e : NetlinkEvent) :
    ∃ joined, s.netLinkEventHandler e = { s with joined := joined } := by
  unfold netLinkEventHandler
  split
  · split
    · exact ⟨_, rfl⟩
    · exact ⟨s.joined, rfl⟩
  · obtain ⟨joined, hjoined⟩ := rejoin_memberships (s.dropInterface e.ipv4Address)
    exact ⟨joined, hjoined⟩
  · exact rejoin_memberships s

theorem joined_start {s : Scanner} (h : s.joined = fun _ => none) (index : AdapterIndex) :
    (s.start.joined index).isSome ↔ s.StartReaches index := by
  have hstart : s.start = s.netadapterList.foldl addAdapter s :=
    congrArg addAllInterfaces (dropAllInterfaces_eq_self h)
  rw [hstart, joined_foldl_addAdapter, h]
  simp [StartReaches]

/-! ## One message -/

theorem process_nil {s : Scanner} (h : s.messages = []) : s.process = s := by
  unfold process
  rw [h]

/-- Both kinds of message are passed on as new addresses. -/
theorem processNetlinkTelegram_enumAdapters (kernel : Kernel) (message : Ifaddrmsg) :
    processNetlinkTelegram kernel.enumAdapters message =
      if kernel.PassesOn message then some ⟨.new, message.ifaIndex, message.ifaLocal⟩
      else none := by
  obtain ⟨type, index, address⟩ := message
  rcases NetadapterList.getAdapterByInterfaceIndex_enumAdapters kernel index with
    ⟨hlists, name, hget⟩ | ⟨hlists, hget⟩
  · cases type <;>
      simp [processNetlinkTelegram, Kernel.PassesOn, hget, hlists, MessageType.addressesLeft]
  · cases type <;> simp [processNetlinkTelegram, Kernel.PassesOn, hget, hlists]

/-- **What a message does**: it is taken off the queue, the list is brought up to date, and its
address is added if it is passed on. -/
theorem process_cons {s : Scanner} {message : Ifaddrmsg} {messages : List Ifaddrmsg}
    (h : s.messages = message :: messages) :
    s.process = if s.kernel.PassesOn message then
        ({ s with messages := messages }.update).addInterface message.ifaLocal
      else { s with messages := messages }.update := by
  have hprocess : s.process = (processNetlinkTelegram s.kernel.enumAdapters message).elim
      { s with messages := messages }.update
      { s with messages := messages }.update.netLinkEventHandler := by
    unfold process
    rw [h]
    rfl
  rw [hprocess, processNetlinkTelegram_enumAdapters]
  by_cases hpasses : s.kernel.PassesOn message
  · rw [if_pos hpasses, if_pos hpasses]
    rcases NetadapterList.getAdapterByInterfaceIndex_enumAdapters s.kernel message.ifaIndex with
      ⟨-, name, hget⟩ | ⟨hlists, -⟩
    · simp only [Option.elim, netLinkEventHandler, update, hget]
    · exact absurd hpasses.1 hlists
  · rw [if_neg hpasses, if_neg hpasses, Option.elim]

theorem kernel_process (s : Scanner) : s.process.kernel = s.kernel := by
  cases hmessages : s.messages with
  | nil => rw [process_nil hmessages]
  | cons message messages => rw [process_cons hmessages]; split <;> rfl

theorem messages_process (s : Scanner) : s.process.messages = s.messages.tail := by
  cases hmessages : s.messages with
  | nil => rw [process_nil hmessages, hmessages]; rfl
  | cons message messages => rw [process_cons hmessages]; split <;> rfl

theorem joined_process (s : Scanner) (index : AdapterIndex) :
    (s.process.joined index).isSome ↔ (s.joined index).isSome ∨ s.Reaches index := by
  cases hmessages : s.messages with
  | nil =>
    have hreaches : ¬ s.Reaches index := by
      intro hreach
      obtain ⟨message, messages, hcons, -⟩ := hreach
      rw [hmessages] at hcons
      cases hcons
    rw [process_nil hmessages]
    exact (or_iff_left hreaches).symm
  | cons message messages =>
    have hreaches : s.Reaches index ↔
        s.kernel.PassesOn message ∧ s.kernel.Assigned index message.ifaLocal := by
      constructor
      · intro hreach
        obtain ⟨message', messages', hcons, hrest⟩ := hreach
        rw [hmessages] at hcons
        cases hcons
        exact hrest
      · exact fun hrest => ⟨message, messages, hmessages, hrest⟩
    rw [process_cons hmessages, hreaches]
    split
    · rename_i hpasses
      rw [joined_addInterface]
      simp only [update, hpasses, true_and]
    · rename_i hpasses
      simp only [update, hpasses, false_and, or_false]

/-! ## Runs -/

theorem joined_change (s : Scanner) (c : AddressChange) : (s.change c).joined = s.joined := by
  cases c with
  | assign index address place => simp only [change]; split <;> rfl
  | remove index address => simp only [change]; split <;> rfl

/-- **The latch.** An interface is joined by a message that reaches it, and by nothing else. -/
theorem joined_step (s : Scanner) (a : NetAction) (index : AdapterIndex) :
    ((s.step a).joined index).isSome ↔
      (s.joined index).isSome ∨ (a = .process ∧ s.Reaches index) := by
  cases a with
  | change c =>
    rw [step, joined_change]
    exact (or_iff_left (fun h => nomatch h.1)).symm
  | process =>
    rw [step, joined_process]
    simp

/-- The list lags behind the kernel only as long as there are messages. -/
theorem netadapterList_step {s : Scanner} (a : NetAction)
    (h : s.messages = [] → s.netadapterList = s.kernel.enumAdapters) :
    (s.step a).messages = [] → (s.step a).netadapterList = (s.step a).kernel.enumAdapters := by
  cases a with
  | change c =>
    cases c with
    | assign index address place =>
      simp only [step, change]
      split
      · exact h
      · intro hmessages
        exact absurd hmessages (by simp)
    | remove index address =>
      simp only [step, change]
      split
      · intro hmessages
        exact absurd hmessages (by simp)
      · exact h
  | process =>
    cases hmessages : s.messages with
    | nil =>
      rw [step, process_nil hmessages]
      exact h
    | cons message messages =>
      intro _
      rw [step, process_cons hmessages]
      split <;> rfl

/-- The receiver when `Netlink::start` is called: the kernel may have gone on since the list was
read, and its messages wait in the socket. -/
def opened (kernel : Kernel) (before : List AddressChange) : Scanner :=
  run change (create kernel) before

/-- The start reaches the interface, or a message does when it is processed. -/
def ReachedIn (s : Scanner) (actions : List NetAction) (index : AdapterIndex) : Prop :=
  s.StartReaches index ∨
    ∃ p ∈ transitions step s.start actions, p.2 = .process ∧ p.1.Reaches index

theorem joined_opened (kernel : Kernel) (before : List AddressChange) :
    (opened kernel before).joined = fun _ => none :=
  Lib.run_invariant (C := fun _ _ => True) change
    (fun s c hs _ => (joined_change s c).trans hs) rfl (fun _ _ => trivial)

/-- **What a run joins** is what is reached in it. -/
theorem joined_run_iff (kernel : Kernel) (before : List AddressChange) (actions : List NetAction)
    (index : AdapterIndex) :
    ((run step (opened kernel before).start actions).joined index).isSome ↔
      (opened kernel before).ReachedIn actions index := by
  have hlatch := Lib.run_latch step (P := fun s => (s.joined index).isSome)
    (fun s a => joined_step s a index) (opened kernel before).start actions
  rw [hlatch, joined_start (joined_opened kernel before), ReachedIn]

/-- Whenever the queue is empty, the list is what the kernel has. -/
theorem netadapterList_run (kernel : Kernel) (before : List AddressChange)
    (actions : List NetAction) :
    (run step (opened kernel before).start actions).messages = [] →
      (run step (opened kernel before).start actions).netadapterList =
        (run step (opened kernel before).start actions).kernel.enumAdapters := by
  have hopened : (opened kernel before).messages = [] →
      (opened kernel before).netadapterList = (opened kernel before).kernel.enumAdapters :=
    Lib.run_invariant (C := fun _ _ => True) change
      (P := fun s => s.messages = [] → s.netadapterList = s.kernel.enumAdapters)
      (fun s c hs _ => netadapterList_step (.change c) hs) (fun _ => rfl) (fun _ _ => trivial)
  obtain ⟨joined, hstart⟩ :=
    netLinkEventHandler_memberships (opened kernel before) ⟨.complete, 0, 0⟩
  refine Lib.run_invariant (C := fun _ _ => True) step
    (P := fun s => s.messages = [] → s.netadapterList = s.kernel.enumAdapters)
    (fun s a hs _ => netadapterList_step a hs) ?_ (fun _ _ => trivial)
  rw [start, hstart]
  exact hopened

/-- **Every listed adapter with an address is joined, exactly if** each of them was reached: by
the start, or by a message at the time it was processed. -/
theorem covered_iff (kernel : Kernel) (before : List AddressChange) (actions : List NetAction) :
    (run step (opened kernel before).start actions).Covered ↔
      ((run step (opened kernel before).start actions).messages = [] →
        ∀ index, (run step (opened kernel before).start actions).kernel.Lists index →
          (run step (opened kernel before).start actions).kernel.addresses index ≠ [] →
            (opened kernel before).ReachedIn actions index) := by
  have hlist := netadapterList_run kernel before actions
  have hjoined := joined_run_iff kernel before actions
  generalize run step (opened kernel before).start actions = s at hlist hjoined ⊢
  refine forall_congr' fun hdone => ?_
  rw [hlist hdone]
  simp only [Kernel.enumAdapters, List.forall_mem_map, Kernel.Lists, hjoined]

/-- Two addresses are assigned before the first message is processed, and neither message is
passed on. -/
theorem not_covered_sampleTwoAddresses :
    ¬ (run step (opened ⟨[(2, "eth0".toList)], fun _ => []⟩ []).start
      [.change (.assign 2 ⟨0xC0A80001, 0xFFFFFF00⟩ 0),
        .change (.assign 2 ⟨0xC0A80002, 0xFFFFFF00⟩ 1), .process, .process]).Covered := by
  decide

/-! ## One change at a time -/

/-- Nothing is left to process, and every listed adapter with an address is joined. -/
structure Settled (s : Scanner) : Prop where
  messages : s.messages = []
  joined : ∀ index, s.kernel.Lists index → s.kernel.addresses index ≠ [] →
    (s.joined index).isSome

theorem Settled.process {s : Scanner} (hmessages : s.messages.length ≤ 1)
    (hjoined : ∀ index, s.kernel.Lists index → s.kernel.addresses index ≠ [] →
      (s.joined index).isSome ∨ s.Reaches index) : s.process.Settled := by
  refine ⟨?_, ?_⟩
  · rw [messages_process, ← List.length_eq_zero_iff, List.length_tail]
    omega
  · rw [kernel_process]
    exact fun index hlists haddresses =>
      (joined_process s index).mpr (hjoined index hlists haddresses)

/-- A change that is processed at once leaves nothing to be wished for: if it gives an adapter
its first address, its message reaches the adapter. -/
theorem Settled.change {s : Scanner} (h : s.Settled) (c : AddressChange) :
    (s.change c).process.Settled := by
  cases c with
  | assign index address place =>
    simp only [Scanner.change]
    split
    · exact Settled.process (by simp [h.messages]) fun i hlists hi => Or.inl (h.joined i hlists hi)
    · refine Settled.process (by simp [h.messages]) fun i hlists hi => ?_
      by_cases hold : s.kernel.addresses i = []
      · have hindex : i = index := by
          by_contra hne
          exact hi (by simp [Kernel.setAddresses, hne, hold])
        subst hindex
        refine Or.inr ⟨_, [], by rw [h.messages]; rfl, ⟨hlists, ?_⟩, ?_⟩
        · simp [Kernel.setAddresses, hold, MessageType.addressesLeft]
        · simp [Kernel.Assigned, Kernel.setAddresses]
      · exact Or.inl (h.joined i hlists hold)
  | remove index address =>
    simp only [Scanner.change]
    split
    · refine Settled.process (by simp [h.messages]) fun i hlists hi => ?_
      refine Or.inl (h.joined i hlists fun hold => hi ?_)
      by_cases hindex : i = index
      · subst hindex
        simp [Kernel.setAddresses, hold]
      · simp [Kernel.setAddresses, hindex, hold]
    · exact Settled.process (by simp [h.messages]) fun i hlists hi => Or.inl (h.joined i hlists hi)

end Scanner
end DevScan.Net
