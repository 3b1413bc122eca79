import DevScan.Net.Coverage
import Mathlib.Logic.Function.Iterate

/-!
# `Net/Removal.lean` — is the removal of an address reported, and is it dropped

`Netlink::event_t` has a `DEL`, and `Receiver::netLinkEventHandler` drops the address it comes
with. But `processNetlinkTelegram` never hands one out: a removal that leaves the adapter without
addresses is passed on as `NEW`, and one that finds the adapter gone is not passed on at all. So
nothing that is joined is ever dropped, and an address that was joined is so for good, assigned
or not.

Here the interfaces come and go as well as their addresses, and the queue may hold any message
(`AdapterAction`). What is wanted of a run is `RemovalsReported`; `removalsReported_iff` says
which removals have to be kept out of it.
-/

set_option autoImplicit false

namespace DevScan.Net

open Lib (run transitions)

/-- What happens next: besides addresses that change, interfaces that come and go, and messages
that tell of no change. -/
inductive AdapterAction where
  | net (action : NetAction)
  | link (interfaces : List (AdapterIndex × StdString))
  | message (message : Ifaddrmsg)
deriving DecidableEq, Repr

namespace NetadapterList

/-- The message is a removal that **leaves no adapter holding the address**: its adapter is
without addresses or gone from the list, and no other adapter has the address. -/
def Vacates (list : NetadapterList) (message : Ifaddrmsg) : Prop :=
  message.type = .delAddr ∧
    (∀ adapter, list.getAdapterByInterfaceIndex message.ifaIndex = .ok adapter →
      adapter.ipv4Addresses = []) ∧
    ∀ adapter ∈ list, message.ifaLocal ∉ adapter.ipv4Addresses.map Ipv4Address.address

/-- A removal that **need not be reported**: its adapter is listed with an address left, or it is
gone and another adapter has the address. -/
def Harmless (list : NetadapterList) (message : Ifaddrmsg) : Prop :=
  message.type = .delAddr →
    match list.getAdapterByInterfaceIndex message.ifaIndex with
    | .ok adapter => adapter.ipv4Addresses ≠ []
    | .error _ => ∃ adapter ∈ list, message.ifaLocal ∈ adapter.ipv4Addresses.map Ipv4Address.address

end NetadapterList

/-- `NEW` is the only event that is made of a message. -/
theorem event_of_processNetlinkTelegram {list : NetadapterList} {message : Ifaddrmsg}
    {e : NetlinkEvent} (h : processNetlinkTelegram list message = some e) : e.event = .new := by
  have hevent : ∀ p : Prop, [Decidable p] →
      (if p then some ⟨.new, message.ifaIndex, message.ifaLocal⟩ else none) = some e →
        e.event = .new := by
    intro p _ hsome
    split at hsome
    · cases hsome
      rfl
    · cases hsome
  unfold processNetlinkTelegram at h
  split at h
  · split at h
    · exact hevent _ h
    · cases h
  · split at h
    · exact hevent _ h
    · cases h

/-- A removal that finds its adapter without addresses is passed on, as `NEW`. -/
theorem processNetlinkTelegram_empty {list : NetadapterList} {message : Ifaddrmsg}
    {adapter : Netadapter} (htype : message.type = .delAddr)
    (hget : list.getAdapterByInterfaceIndex message.ifaIndex = .ok adapter)
    (hempty : adapter.ipv4Addresses = []) :
    processNetlinkTelegram list message = some ⟨.new, message.ifaIndex, message.ifaLocal⟩ := by
  simp [processNetlinkTelegram, htype, hget, hempty]

theorem processNetlinkTelegram_harmless {list : NetadapterList} {message : Ifaddrmsg}
    (htype : message.type = .delAddr) (h : list.Harmless message) :
    processNetlinkTelegram list message = none := by
  have hleft := h htype
  simp only [processNetlinkTelegram, htype]
  cases hget : list.getAdapterByInterfaceIndex message.ifaIndex with
  | ok adapter =>
    rw [hget] at hleft
    simp [hleft]
  | error e => rfl

/-- What is not harmless has to be reported, or is passed on as `NEW`. -/
theorem vacates_or_new {list : NetadapterList} {message : Ifaddrmsg}
    (h : ¬list.Harmless message) :
    message.type = .delAddr ∧
      (list.Vacates message ∨ (processNetlinkTelegram list message).isSome) := by
  obtain ⟨htype, hleft⟩ := Classical.not_imp.mp h
  refine ⟨htype, ?_⟩
  cases hget : list.getAdapterByInterfaceIndex message.ifaIndex with
  | ok adapter =>
    rw [hget] at hleft
    exact Or.inr (by rw [processNetlinkTelegram_empty htype hget (not_not.mp hleft)]; rfl)
  | error e =>
    rw [hget] at hleft
    refine Or.inl ⟨htype, ?_, ?_⟩
    · intro adapter hok
      rw [hget] at hok
      cases hok
    · intro adapter hmem hassigned
      exact hleft ⟨adapter, hmem, hassigned⟩

theorem not_vacates_of_harmless {list : NetadapterList} {message : Ifaddrmsg}
    (h : list.Harmless message) : ¬list.Vacates message := by
  intro hvacates
  obtain ⟨htype, hempty, hnone⟩ := hvacates
  have hleft := h htype
  cases hget : list.getAdapterByInterfaceIndex message.ifaIndex with
  | ok adapter =>
    rw [hget] at hleft
    exact hleft (hempty adapter hget)
  | error e =>
    rw [hget] at hleft
    obtain ⟨adapter, hmem, hassigned⟩ := hleft
    exact hnone adapter hmem hassigned

namespace Kernel

/-- An address that is assigned in addition takes nothing away. -/
theorem assigned_insert {kernel : Kernel} {i : AdapterIndex} {assigned : InAddr}
    (h : kernel.Assigned i assigned) (index : AdapterIndex) (address : Ipv4Address) (place : Nat) :
    (kernel.setAddresses index ((kernel.addresses index).take place ++
      address :: (kernel.addresses index).drop place)).Assigned i assigned := by
  obtain ⟨other, hmem, rfl⟩ := List.mem_map.mp h
  refine List.mem_map.mpr ⟨other, ?_, rfl⟩
  simp only [setAddresses, Function.update_apply]
  split
  · rename_i heq
    rw [heq, ← List.take_append_drop place (kernel.addresses index)] at hmem
    rcases List.mem_append.mp hmem with hmem | hmem
    · exact List.mem_append_left _ hmem
    · exact List.mem_append_right _ (List.mem_cons_of_mem _ hmem)
  · exact hmem

/-- What is assigned after an address was removed from an interface. -/
theorem assigned_remove_iff {kernel : Kernel} {index : AdapterIndex} {address : Ipv4Address}
    {i : AdapterIndex} {assigned : InAddr} :
    (kernel.setAddresses index ((kernel.addresses index).filter (· ≠ address))).Assigned i assigned ↔
      ∃ other ∈ kernel.addresses i, other.address = assigned ∧ (i = index → other ≠ address) := by
  rw [Assigned, List.mem_map]
  refine exists_congr fun other => ?_
  simp only [setAddresses, Function.update_apply]
  split
  · rename_i heq
    subst heq
    simp only [List.mem_filter, decide_eq_true_eq, true_imp_iff]
    exact ⟨fun h => ⟨h.1.1, h.2, h.1.2⟩, fun h => ⟨⟨h.1, h.2.2⟩, h.2.1⟩⟩
  · rename_i hne
    exact ⟨fun h => ⟨h.1, h.2, fun heq => absurd heq hne⟩, fun h => ⟨h.1, h.2.1⟩⟩

end Kernel

namespace Scanner

def adapterStep (s : Scanner) : AdapterAction → Scanner
  | .net action => s.step action
  | .link interfaces => { s with kernel := { s.kernel with interfaces := interfaces } }
  | .message message => { s with messages := s.messages ++ [message] }

/-- The message a step processes, and the list it is processed with. -/
def processed (s : Scanner) : AdapterAction → Option (NetadapterList × Ifaddrmsg)
  | .net .process => s.messages.head?.map fun message => (s.kernel.enumAdapters, message)
  | _ => none

/-- What a step hands to `m_eventHandler`. -/
def reports (s : Scanner) (a : AdapterAction) : Option NetlinkEvent :=
  (s.processed a).bind fun p => processNetlinkTelegram p.1 p.2

/-- Every address that is joined is assigned to some interface. -/
def NoneStale (s : Scanner) : Prop :=
  ∀ index address, s.joined index = some address → ∃ i, s.kernel.Assigned i address

/-- All queued messages are processed. -/
def settle (s : Scanner) : Scanner := process^[s.messages.length] s

/-- A step that takes an address from an interface leaves it to another one, or the address is
not among those that are joined. -/
def SparesJoined (s : Scanner) : AdapterAction → Prop
  | .net (.change (.remove index address)) =>
    address ∈ s.kernel.addresses index → (∃ i, s.joined i = some address.address) →
      ∃ i, ∃ other ∈ s.kernel.addresses i, other.address = address.address ∧
        (i = index → other ≠ address)
  | _ => True

/-! ## What is joined is assigned -/

namespace NoneStale

variable {s : Scanner}

theorem addInterface (h : s.NoneStale) (interfaceAddress : InAddr) :
    (s.addInterface interfaceAddress).NoneStale := by
  intro index address hjoined
  simp only [Scanner.addInterface] at hjoined
  split at hjoined
  · rename_i hold
    cases hjoined
    exact h index address hold
  · split at hjoined
    · rename_i hassigned
      cases hjoined
      exact ⟨index, hassigned⟩
    · cases hjoined

theorem addAdapter (h : s.NoneStale) (adapter : Netadapter) : (s.addAdapter adapter).NoneStale := by
  unfold Scanner.addAdapter
  split
  · exact h
  · exact h.addInterface _

theorem start (h : s.joined = fun _ => none) : s.start.NoneStale := by
  have hstart : s.start = s.netadapterList.foldl Scanner.addAdapter s :=
    congrArg addAllInterfaces (dropAllInterfaces_eq_self h)
  have hnone : s.NoneStale := by
    intro index address hjoined
    rw [h] at hjoined
    cases hjoined
  rw [hstart]
  generalize s.netadapterList = adapters
  clear h hstart
  induction adapters generalizing s with
  | nil => exact hnone
  | cons adapter adapters ih => exact ih (hnone.addAdapter adapter)

/-- Processing a message drops nothing, and joins only what is assigned. -/
theorem process_iff : s.process.NoneStale ↔ s.NoneStale := by
  cases hmessages : s.messages with
  | nil => rw [process_nil hmessages]
  | cons message messages =>
    rw [process_cons hmessages]
    split
    · constructor
      · intro h index address hjoined
        refine h index address ?_
        simp only [Scanner.addInterface, update, hjoined]
      · intro h
        apply NoneStale.addInterface
        exact h
    · exact Iff.rfl

theorem settle_iff : s.settle.NoneStale ↔ s.NoneStale := by
  unfold settle
  generalize s.messages.length = n
  induction n generalizing s with
  | zero => exact Iff.rfl
  | succ n ih => rw [Function.iterate_succ_apply, ih, process_iff]

theorem step (h : s.NoneStale) {a : AdapterAction} (hspares : s.SparesJoined a) :
    (s.adapterStep a).NoneStale := by
  cases a with
  | link interfaces => exact h
  | message message => exact h
  | net action =>
    cases action with
    | process => exact process_iff.mpr h
    | change c =>
      cases c with
      | assign index address place =>
        simp only [adapterStep, Scanner.step, Scanner.change]
        split
        · exact h
        · intro i joined hjoined
          obtain ⟨j, hassigned⟩ := h i joined hjoined
          exact ⟨j, Kernel.assigned_insert hassigned index address place⟩
      | remove index address =>
        simp only [adapterStep, Scanner.step, Scanner.change]
        split
        · rename_i hmem
          intro i joined hjoined
          by_cases hsame : address.address = joined
          · subst hsame
            obtain ⟨j, hother⟩ := hspares hmem ⟨i, hjoined⟩
            exact ⟨j, Kernel.assigned_remove_iff.mpr hother⟩
          · -- any other address stays where it is
            obtain ⟨j, hassigned⟩ := h i joined hjoined
            obtain ⟨other, hother, rfl⟩ := List.mem_map.mp hassigned
            refine ⟨j, Kernel.assigned_remove_iff.mpr ⟨other, hother, rfl, fun _ heq => ?_⟩⟩
            exact hsame (by rw [heq])
        · exact h

/-- An address that is joined and taken from the last interface that has it is stale at once. -/
theorem lost {a : AdapterAction} (hspares : ¬s.SparesJoined a) : ¬(s.adapterStep a).NoneStale := by
  intro h
  apply hspares
  cases a with
  | link interfaces => trivial
  | message message => trivial
  | net action =>
    cases action with
    | process => trivial
    | change c =>
      cases c with
      | assign index address place => trivial
      | remove index address =>
        intro hmem hjoined
        obtain ⟨i, hi⟩ := hjoined
        simp only [adapterStep, Scanner.step, Scanner.change, if_pos hmem] at h
        obtain ⟨j, hassigned⟩ := h i address.address hi
        exact ⟨j, Kernel.assigned_remove_iff.mp hassigned⟩

end NoneStale

/-! ## Runs -/

/-- **Removals are reported as removals** in a run from `s`: no removal causes a `NEW`, each one
that leaves no adapter with its address is reported with `DEL`, and whenever all that is queued
has been processed, everything that is joined is assigned. -/
structure RemovalsReported (s : Scanner) (actions : List AdapterAction) : Prop where
  neverNew : ∀ p ∈ transitions adapterStep s actions, ∀ list message,
    p.1.processed p.2 = some (list, message) → message.type = .delAddr →
      ∀ e, p.1.reports p.2 = some e → e.event ≠ .new
  reported : ∀ p ∈ transitions adapterStep s actions, ∀ list message,
    p.1.processed p.2 = some (list, message) → list.Vacates message →
      ∃ q ∈ transitions adapterStep s actions, ∃ index,
        q.1.reports q.2 = some ⟨.del, index, message.ifaLocal⟩
  dropped : ∀ pre, pre <+: actions → (run adapterStep s pre).settle.NoneStale

theorem event_of_reports {s : Scanner} {a : AdapterAction} {e : NetlinkEvent}
    (h : s.reports a = some e) : e.event = .new := by
  obtain ⟨p, -, htelegram⟩ := Option.bind_eq_some_iff.mp h
  exact event_of_processNetlinkTelegram htelegram

/-- **Removals are reported as removals, exactly if** every removal that is processed is harmless
and no address that is joined is taken from the last interface that has it. -/
theorem removalsReported_iff (kernel : Kernel) (before : List AddressChange)
    (actions : List AdapterAction) :
    (opened kernel before).start.RemovalsReported actions ↔
      (∀ p ∈ transitions adapterStep (opened kernel before).start actions, ∀ list message,
          p.1.processed p.2 = some (list, message) → list.Harmless message) ∧
        ∀ p ∈ transitions adapterStep (opened kernel before).start actions,
          p.1.SparesJoined p.2 := by
  have hstart := NoneStale.start (joined_opened kernel before)
  have hdropped : (∀ pre, pre <+: actions →
      (run adapterStep (opened kernel before).start pre).settle.NoneStale) ↔
      ∀ p ∈ transitions adapterStep (opened kernel before).start actions, p.1.SparesJoined p.2 :=
    Lib.run_exact adapterStep (P := fun s => s.settle.NoneStale)
      (fun s hs => NoneStale.settle_iff.mpr hs) (fun s a hs hspares => hs.step hspares)
      (fun s a _ hspares hsettled => NoneStale.lost hspares (NoneStale.settle_iff.mp hsettled)) hstart
  constructor
  · intro h
    refine ⟨fun p hp list message hprocessed => ?_, hdropped.mp h.dropped⟩
    by_contra hharmful
    obtain ⟨htype, hvacates | hpassed⟩ := vacates_or_new hharmful
    · obtain ⟨q, hq, index, hdel⟩ := h.reported p hp list message hprocessed hvacates
      exact absurd (event_of_reports hdel) (by simp)
    · obtain ⟨e, he⟩ := Option.isSome_iff_exists.mp hpassed
      have hreports : p.1.reports p.2 = some e := by rw [reports, hprocessed]; exact he
      exact h.neverNew p hp list message hprocessed htype e hreports (event_of_reports hreports)
  · intro h
    obtain ⟨hharmless, hspares⟩ := h
    refine ⟨?_, ?_, hdropped.mpr hspares⟩
    · intro p hp list message hprocessed htype e hreports
      rw [reports, hprocessed] at hreports
      have hnone := processNetlinkTelegram_harmless htype (hharmless p hp list message hprocessed)
      exact absurd (hnone.symm.trans hreports) (by simp)
    · intro p hp list message hprocessed hvacates
      exact absurd hvacates (not_vacates_of_harmless (hharmless p hp list message hprocessed))

/-- An adapter with one address, which is joined. -/
def sampleKernel : Kernel where
  interfaces := [(2, "eth0".toList)]
  addresses index := if index = 2 then [⟨0xC0A80001, 0xFFFFFF00⟩] else []

/-- The address is removed, and that is passed on as a new one. -/
theorem not_removalsReported_sampleKernel :
    ¬(opened sampleKernel []).start.RemovalsReported
      [.net (.change (.remove 2 ⟨0xC0A80001, 0xFFFFFF00⟩)), .net .process] := by
  intro h
  refine h.neverNew (run adapterStep (opened sampleKernel []).start
    [.net (.change (.remove 2 ⟨0xC0A80001, 0xFFFFFF00⟩))], .net .process) ?_ _ _ rfl rfl _ rfl rfl
  exact (Lib.mem_transitions_iff adapterStep).mpr
    ⟨[.net (.change (.remove 2 ⟨0xC0A80001, 0xFFFFFF00⟩))], [], rfl, rfl⟩

end Scanner
end DevScan.Net
