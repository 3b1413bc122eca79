import DevScan.Net.Receiver
import DevScan.Lib.Runs

/-!
# `Net/Draining.lean` — is everything in the receive socket handed over

The loop is edge-triggered: if it ends before the socket is empty, what is left stays unread
until something else arrives. It ends at the first datagram that is empty or comes from an
adapter that is not in the list, because the number such a datagram leads to is also what an
empty socket leads to (`receiveEventHandler_dropped`). So the loop does what it is for exactly
if every datagram it gets to see before the socket runs dry can be announced (`drained_iff`).
-/

set_option autoImplicit false

namespace DevScan.Net
namespace Receiver

/-- The datagrams that are in the queue, or arrive before it first runs dry. -/
def reads : List Datagram → List Interval → List Datagram
  | queue, [] => queue
  | queue, interval :: upcoming =>
    match queue ++ interval.arrivals with
    | [] => []
    | datagram :: queue => datagram :: reads queue upcoming

/-- Non-empty, and from an adapter of the list. -/
def Usable (list : NetadapterList) (datagram : Datagram) : Prop :=
  datagram.payload ≠ [] ∧ ∃ adapter ∈ list, adapter.index = datagram.ifindex

/-- The socket is empty, `recvmsg` has reported so, and every datagram that arrived, if it is
non-empty and from an adapter of the list, was handed over once, in the order of arrival. -/
def Drained (r : Receiver) : Prop :=
  r.queue = [] ∧ r.wouldBlock = true ∧
    r.announcements.map (fun a => (a.receivingInterfaceName, a.message)) =
      r.arrived.filterMap (announcementOf r.netadapterList)

theorem usable_iff {list : NetadapterList} {datagram : Datagram} :
    Usable list datagram ↔ ∃ made, announcementOf list datagram = some made := by
  unfold Usable announcementOf NetadapterList.getAdapterByInterfaceIndex
  by_cases hempty : datagram.payload = []
  · simp [hempty]
  · rw [if_neg hempty]
    cases hfind : list.find? fun adapter => adapter.index = datagram.ifindex with
    | some adapter =>
      have hindex : adapter.index = datagram.ifindex := by simpa using List.find?_some hfind
      exact iff_of_true ⟨hempty, adapter, List.mem_of_find?_eq_some hfind, hindex⟩ ⟨_, rfl⟩
    | none =>
      refine iff_of_false (fun h => ?_) (by simp)
      obtain ⟨-, adapter, hmem, hindex⟩ := h
      have habsent := List.find?_eq_none.mp hfind adapter hmem
      exact habsent (decide_eq_true hindex)

theorem reads_arrive (r : Receiver) :
    reads r.queue r.upcoming =
      match r.arrive.queue with
      | [] => []
      | datagram :: queue => datagram :: reads queue r.arrive.upcoming := by
  unfold arrive
  cases hupcoming : r.upcoming with
  | nil => cases r.queue <;> simp [reads, hupcoming]
  | cons interval upcoming => simp [reads]

/-! ## The loop -/

/-- The receiver when the loop begins. -/
def create (queue : List Datagram) (upcoming : List Interval) (netadapterList : NetadapterList)
    (deviceMonitor : Monitor.DeviceMonitor) : Receiver :=
  { queue, upcoming, netadapterList, deviceMonitor }

/-- From `r` on, the given datagrams were read, and all of them were announced. -/
structure Announced (r t : Receiver) (taken : List Datagram) : Prop where
  netadapterList : t.netadapterList = r.netadapterList
  arrived : t.arrived = taken ++ t.queue
  reads : reads r.queue r.upcoming = taken ++ reads t.queue t.upcoming
  announcements : t.announcements.map (fun a => (a.receivingInterfaceName, a.message)) =
    taken.filterMap (announcementOf r.netadapterList)
  usable : ∀ datagram ∈ taken, Usable r.netadapterList datagram

theorem arrived_arrive {r : Receiver} {taken : List Datagram} (h : r.arrived = taken ++ r.queue) :
    r.arrive.arrived = taken ++ r.arrive.queue := by
  unfold arrive
  split
  · exact h
  · rw [h, List.append_assoc]

/-- The step of the loop: a call that returns something positive has announced a datagram. -/
theorem Announced.next {parse : Json.Reader} {r t : Receiver} {taken : List Datagram}
    (h : Announced r t taken) (hn : 0 < (t.receiveEventHandler parse).1) :
    ∃ taken', Announced r (t.receiveEventHandler parse).2 taken' := by
  cases hqueue : t.arrive.queue with
  | nil =>
    rw [receiveEventHandler_nil parse hqueue] at hn
    exact absurd hn (by simp)
  | cons datagram queue =>
    cases hmade : announcementOf t.netadapterList datagram with
    | none =>
      obtain ⟨n, hle, heq⟩ := receiveEventHandler_dropped parse hqueue hmade
      rw [heq] at hn
      exact absurd hn (Int.not_lt.mpr hle)
    | some made =>
      rw [(receiveEventHandler_announced parse hqueue hmade).2]
      rw [h.netadapterList] at hmade
      have hreads := reads_arrive t
      rw [hqueue] at hreads
      refine ⟨taken ++ [datagram], ?_, ?_, ?_, ?_, ?_⟩
      · exact (netadapterList_arrive t).trans h.netadapterList
      · show t.arrive.arrived = taken ++ [datagram] ++ queue
        rw [arrived_arrive h.arrived, hqueue, List.append_assoc, List.singleton_append]
      · show _ = taken ++ [datagram] ++ Receiver.reads queue t.arrive.upcoming
        rw [h.reads, hreads, List.append_assoc, List.singleton_append]
      · simp [processReceivedAnnouncement, h.announcements, hmade]
      · intro d hd
        rcases List.mem_append.mp hd with hd | hd
        · exact h.usable d hd
        · cases List.mem_singleton.mp hd
          exact usable_iff.mpr ⟨made, hmade⟩

/-- **The loop drains the socket exactly if** every datagram that is in the queue, or arrives
before it first runs dry, is non-empty and from an adapter of the list. -/
theorem drained_iff (parse : Json.Reader) (queue : List Datagram) (upcoming : List Interval)
    (list : NetadapterList) (monitor : Monitor.DeviceMonitor) :
    Drained ((create queue upcoming list monitor).handleAnnouncements parse).2 ↔
      ∀ datagram ∈ reads queue upcoming, Usable list datagram := by
  obtain ⟨t, ⟨taken, ht⟩, hdrain, hlast⟩ := (announcementHandler parse).drain_last
    (P := fun t => ∃ taken, Announced (create queue upcoming list monitor) t taken)
    (fun t n t' ht hcall hn => by
      obtain ⟨taken, ht⟩ := ht
      obtain ⟨hresult, rfl⟩ := Prod.mk.inj hcall
      exact ht.next (Except.ok.inj hresult ▸ hn))
    ⟨[], rfl, rfl, rfl, rfl, fun d hd => nomatch hd⟩
  rw [handleAnnouncements, hdrain, show reads queue upcoming = _ from ht.reads]
  show Drained (t.receiveEventHandler parse).2 ↔ _
  have hreads := reads_arrive t
  -- the last call found nothing to read, or a datagram that is not announced
  cases hqueue : t.arrive.queue with
  | nil =>
    rw [hqueue] at hreads
    rw [receiveEventHandler_nil parse hqueue, hreads, List.append_nil]
    refine iff_of_true ⟨hqueue, rfl, ?_⟩ ht.usable
    show t.arrive.announcements.map _ = t.arrive.arrived.filterMap _
    rw [announcements_arrive, arrived_arrive ht.arrived, hqueue, List.append_nil,
      ht.announcements]
    simp [ht.netadapterList]
  | cons datagram rest =>
    rw [hqueue] at hreads
    cases hmade : announcementOf t.netadapterList datagram with
    | none =>
      obtain ⟨n, -, heq⟩ := receiveEventHandler_dropped parse hqueue hmade
      rw [heq, hreads]
      refine iff_of_false (fun h => ?_) (fun h => ?_)
      · exact absurd h.2.1 (by simp)
      · have hlist : t.netadapterList = list := ht.netadapterList
        obtain ⟨made, hsome⟩ := usable_iff.mp (h datagram (by simp))
        rw [← hlist, hmade] at hsome
        cases hsome
    | some made =>
      obtain ⟨hlength, heq⟩ := receiveEventHandler_announced parse hqueue hmade
      have hle := hlast datagram.payload.length (congrArg Except.ok (congrArg Prod.fst heq))
      omega

/-- An empty datagram, and behind it an announcement from an adapter of the list. -/
def sampleEmptyFirst : Receiver :=
  create [⟨[], 2⟩, ⟨"announcement".toList, 2⟩] [] [⟨2, "eth0".toList, []⟩] {}

/-- The empty datagram ends the loop. -/
theorem not_drained_sampleEmptyFirst :
    ¬ Drained (sampleEmptyFirst.handleAnnouncements fun _ => none).2 := by
  have hlast : sampleEmptyFirst.handleAnnouncements (fun _ => none) =
      (announcementHandler fun _ => none).call sampleEmptyFirst :=
    (announcementHandler fun _ => none).drain_done fun n hn => by
      cases hn
      decide
  rw [hlast]
  exact fun h => nomatch h.1

end Receiver
end DevScan.Net
