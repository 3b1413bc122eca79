import DevScan.Monitor.Texts
import DevScan.Net.Draining

/-!
# `Net/DeviceStore.lean` — from the datagrams to the store

A receiver that runs: datagrams arrive in its socket, the event loop calls the handler of the socket
until it returns nothing positive, the timer lets the monitor look for what has expired, and the list of
adapters is taken anew. In between there may be as much time as there likes.

What comes of it is said a second time without sockets and loops: whatever arrives is heard, once, in
order, and under the name of its adapter (`received`). The receiver does the same as long as the loop
meets no datagram that is empty or from no adapter of the list (`deviceMonitor_run`). What it holds
then follows from the datagrams (`held_iff_received`).
-/

set_option autoImplicit false

namespace DevScan.Net

open Lib (run)
open Monitor (Op TimePoint HeldText)

namespace Receiver

/-- What a datagram that is read at some time lets the monitor do. -/
def heard (list : NetadapterList) (read : TimePoint × Datagram) : Option Op :=
  (announcementOf list read.2).map fun made => .processReceivedAnnouncement read.1 made.1 made.2

/-- The datagrams that are in the queue or arrive before it first runs dry, with the times they are
read at. -/
def readsAt : List Datagram → TimePoint → List Interval → List (TimePoint × Datagram)
  | queue, now, [] => queue.map fun datagram => (now, datagram)
  | queue, _, interval :: upcoming =>
    match queue ++ interval.arrivals with
    | [] => []
    | datagram :: queue => (interval.now, datagram) :: readsAt queue interval.now upcoming

theorem readsAt_arrive (r : Receiver) :
    readsAt r.queue r.now r.upcoming =
      match r.arrive.queue with
      | [] => []
      | datagram :: queue =>
        (r.arrive.now, datagram) :: readsAt queue r.arrive.now r.arrive.upcoming := by
  unfold arrive
  cases hupcoming : r.upcoming with
  | nil => cases r.queue <;> simp [readsAt, hupcoming]
  | cons interval upcoming => simp [readsAt]

/-- What is left to be done in a loop, and what it comes to. -/
structure Hears (parse : Json.Reader) (list : NetadapterList) (monitor : Monitor.DeviceMonitor)
    (r : Receiver) : Prop where
  netadapterList : r.netadapterList = list
  deviceMonitor : run (Monitor.step parse) r.deviceMonitor
    ((readsAt r.queue r.now r.upcoming).filterMap (heard list)) = monitor
  usable : ∀ read ∈ readsAt r.queue r.now r.upcoming, Usable list read.2

variable {parse : Json.Reader} {list : NetadapterList} {monitor : Monitor.DeviceMonitor} {r : Receiver}

/-- A call takes the first of what is left. -/
theorem Hears.next (h : Hears parse list monitor r) (hn : 0 < (r.receiveEventHandler parse).1) :
    Hears parse list monitor (r.receiveEventHandler parse).2 := by
  obtain ⟨hlist, hmonitor, husable⟩ := h
  rw [readsAt_arrive] at hmonitor husable
  cases hqueue : r.arrive.queue with
  | nil =>
    rw [receiveEventHandler_nil parse hqueue] at hn
    exact absurd hn (by simp)
  | cons datagram queue =>
    simp only [hqueue] at hmonitor husable
    obtain ⟨made, hmade⟩ := usable_iff.mp (husable _ List.mem_cons_self)
    have hheard : heard list (r.arrive.now, datagram) =
        some (.processReceivedAnnouncement r.arrive.now made.1 made.2) := by
      simp [heard, hmade]
    rw [List.filterMap_cons_some hheard, Lib.run_cons] at hmonitor
    obtain ⟨-, heq⟩ := receiveEventHandler_announced parse hqueue (hlist.symm ▸ hmade)
    rw [heq]
    refine ⟨?_, ?_, fun read hread => husable read (List.mem_cons_of_mem _ hread)⟩
    · simp [processReceivedAnnouncement, hlist]
    · simpa [processReceivedAnnouncement, Monitor.step] using hmonitor

/-- **The loop hears everything** that it reads, and leaves nothing in the socket. -/
theorem handleAnnouncements_hears (h : Hears parse list monitor r) :
    (r.handleAnnouncements parse).2.queue = [] ∧
      (r.handleAnnouncements parse).2.deviceMonitor = monitor := by
  obtain ⟨t, ht, hdrain, hlast⟩ := (announcementHandler parse).drain_last
    (P := Hears parse list monitor)
    (fun t n t' ht hcall hn => by
      obtain ⟨hresult, rfl⟩ := Prod.mk.inj hcall
      exact ht.next (Except.ok.inj hresult ▸ hn)) h
  rw [handleAnnouncements, hdrain]
  show (t.receiveEventHandler parse).2.queue = [] ∧ _
  obtain ⟨hlist, hmonitor, husable⟩ := ht
  rw [readsAt_arrive] at hmonitor husable
  cases hqueue : t.arrive.queue with
  | nil =>
    simp only [hqueue] at hmonitor
    refine ⟨?_, ?_⟩
    · simp [receiveEventHandler_nil parse hqueue, hqueue]
    · show (t.receiveEventHandler parse).2.deviceMonitor = monitor
      simpa [receiveEventHandler_nil parse hqueue] using hmonitor
  | cons datagram rest =>
    -- a datagram that can be announced would not have ended the loop
    simp only [hqueue] at husable
    obtain ⟨made, hmade⟩ := usable_iff.mp (husable _ List.mem_cons_self)
    obtain ⟨hlength, heq⟩ := receiveEventHandler_announced parse hqueue (hlist.symm ▸ hmade)
    have hle := hlast datagram.payload.length (congrArg Except.ok (congrArg Prod.fst heq))
    omega

end Receiver

/-! ## The receiver that runs -/

/-- What is left of a receiver between two events of its loop. -/
structure RunningReceiver where
  queue : List Datagram := []
  netadapterList : NetadapterList := []
  deviceMonitor : Monitor.DeviceMonitor := {}

inductive ReceiverEvent where
  | arrive (datagrams : List Datagram)
  /-- The socket is reported. -/
  | readable (now : TimePoint) (upcoming : List Interval)
  /-- The timer has fired. -/
  | timer (timeNow : TimePoint) (order : Monitor.IterationOrder)
  /-- The adapters are enumerated. -/
  | update (list : NetadapterList)
  | setAnnounceCb (cb : Option Monitor.Callback) (order : Monitor.IterationOrder)
  | setExpireCb (cb : Option Monitor.Callback)
  | setErrorCb (cb : Option Monitor.Callback)

namespace RunningReceiver

/-- The receiver with which the loop of a handler begins. -/
def entered (s : RunningReceiver) (now : TimePoint) (upcoming : List Interval) : Receiver :=
  { Receiver.create s.queue upcoming s.netadapterList s.deviceMonitor with now := now }

def step (parse : Json.Reader) (s : RunningReceiver) : ReceiverEvent → RunningReceiver
  | .arrive datagrams => { s with queue := s.queue ++ datagrams }
  | .readable now upcoming =>
    { s with
      queue := ((s.entered now upcoming).handleAnnouncements parse).2.queue
      deviceMonitor := ((s.entered now upcoming).handleAnnouncements parse).2.deviceMonitor }
  | .timer timeNow order =>
    { s with deviceMonitor := s.deviceMonitor.checkForExpiredAnnouncements timeNow order }
  | .update list => { s with netadapterList := list }
  | .setAnnounceCb cb order => { s with deviceMonitor := s.deviceMonitor.setAnnounceCb cb order }
  | .setExpireCb cb => { s with deviceMonitor := s.deviceMonitor.setExpireCb cb }
  | .setErrorCb cb => { s with deviceMonitor := s.deviceMonitor.setErrorCb cb }

end RunningReceiver

open Receiver (announcementOf heard readsAt Usable)

/-- What is heard in a run, said without loops: everything that has arrived, and the timer. -/
def received : NetadapterList → List Datagram → List ReceiverEvent → List Op
  | _, _, [] => []
  | list, queue, .arrive datagrams :: events => received list (queue ++ datagrams) events
  | list, queue, .readable now upcoming :: events =>
    (readsAt queue now upcoming).filterMap (heard list) ++ received list [] events
  | list, queue, .timer timeNow order :: events =>
    .checkForExpiredAnnouncements timeNow order :: received list queue events
  | _, queue, .update list :: events => received list queue events
  | list, queue, .setAnnounceCb cb order :: events =>
    .setAnnounceCb cb order :: received list queue events
  | list, queue, .setExpireCb cb :: events => .setExpireCb cb :: received list queue events
  | list, queue, .setErrorCb cb :: events => .setErrorCb cb :: received list queue events

/-- Whatever is read is non-empty, and from an adapter of the list there is by then. -/
def AllUsable : NetadapterList → List Datagram → List ReceiverEvent → Prop
  | _, _, [] => True
  | list, queue, .arrive datagrams :: events => AllUsable list (queue ++ datagrams) events
  | list, queue, .readable now upcoming :: events =>
    (∀ read ∈ readsAt queue now upcoming, Usable list read.2) ∧ AllUsable list [] events
  | _, queue, .update list :: events => AllUsable list queue events
  | list, queue, _ :: events => AllUsable list queue events

/-- **The receiver hears what arrives.** -/
theorem deviceMonitor_run (parse : Json.Reader) (events : List ReceiverEvent) (s : RunningReceiver)
    (husable : AllUsable s.netadapterList s.queue events) :
    (run (RunningReceiver.step parse) s events).deviceMonitor =
      run (Monitor.step parse) s.deviceMonitor (received s.netadapterList s.queue events) := by
  induction events generalizing s with
  | nil => rfl
  | cons event events ih =>
    rw [Lib.run_cons]
    cases event with
    | arrive datagrams => exact ih _ husable
    | readable now upcoming =>
      obtain ⟨hreads, hrest⟩ := husable
      obtain ⟨hqueue, hmonitor⟩ := @Receiver.handleAnnouncements_hears parse s.netadapterList _
        (s.entered now upcoming) ⟨rfl, rfl, hreads⟩
      have hstep : RunningReceiver.step parse s (.readable now upcoming) =
          ⟨[], s.netadapterList, run (Monitor.step parse) s.deviceMonitor
            ((readsAt s.queue now upcoming).filterMap (heard s.netadapterList))⟩ := by
        rw [RunningReceiver.step, hqueue, hmonitor]
        rfl
      rw [hstep, ih _ hrest, received, Lib.run_append]
    | _ => exact ih _ husable

/-! ## What it holds -/

/-- The datagrams that arrive in a run. -/
def arrivals : List ReceiverEvent → List Datagram
  | [] => []
  | .arrive datagrams :: events => datagrams ++ arrivals events
  | .readable _ upcoming :: events => upcoming.flatMap Interval.arrivals ++ arrivals events
  | _ :: events => arrivals events

theorem mem_of_mem_readsAt {queue : List Datagram} {now : TimePoint} {upcoming : List Interval}
    {read : TimePoint × Datagram} (h : read ∈ readsAt queue now upcoming) :
    read.2 ∈ queue ++ upcoming.flatMap Interval.arrivals := by
  induction upcoming generalizing queue now with
  | nil =>
    obtain ⟨datagram, hdatagram, rfl⟩ := List.mem_map.mp h
    exact List.mem_append_left _ hdatagram
  | cons interval upcoming ih =>
    rw [List.flatMap_cons, ← List.append_assoc]
    rw [readsAt] at h
    split at h
    · exact absurd h List.not_mem_nil
    · rename_i datagram queue hqueue
      rw [hqueue]
      rcases List.mem_cons.mp h with rfl | hread
      · exact List.mem_cons_self
      · exact List.mem_cons_of_mem _ (ih hread)

theorem payload_of_announcementOf {list : NetadapterList} {datagram : Datagram}
    {made : StdString × StdString} (h : announcementOf list datagram = some made) :
    datagram.payload = made.2 := by
  unfold announcementOf at h
  split at h
  · cases h
  · split at h
    · cases h
      rfl
    · cases h

/-- Every text that is heard is that of a datagram. -/
theorem text_of_mem_received {list : NetadapterList} {queue : List Datagram}
    {events : List ReceiverEvent} {now : TimePoint} {name text : StdString}
    (h : Op.processReceivedAnnouncement now name text ∈ received list queue events) :
    ∃ datagram ∈ queue ++ arrivals events, datagram.payload = text := by
  induction events generalizing list queue with
  | nil => exact absurd h List.not_mem_nil
  | cons event events ih =>
    cases event with
    | arrive datagrams =>
      obtain ⟨datagram, hmem, hpayload⟩ := ih h
      exact ⟨datagram, by simpa [arrivals] using hmem, hpayload⟩
    | readable now' upcoming =>
      rw [received, List.mem_append] at h
      rcases h with h | h
      · obtain ⟨read, hread, hheard⟩ := List.mem_filterMap.mp h
        obtain ⟨made, hmade, hop⟩ := Option.map_eq_some_iff.mp hheard
        refine ⟨read.2, ?_, ?_⟩
        · rw [arrivals, ← List.append_assoc]
          exact List.mem_append_left _ (mem_of_mem_readsAt hread)
        · rw [← (Op.processReceivedAnnouncement.inj hop).2.2]
          exact payload_of_announcementOf hmade
      · obtain ⟨datagram, hmem, hpayload⟩ := ih h
        refine ⟨datagram, ?_, hpayload⟩
        rw [arrivals]
        exact List.mem_append_right _ (List.mem_append_right _ hmem)
    | update list => exact ih h
    | _ =>
      rcases List.mem_cons.mp h with h | h
      · cases h
      · exact ih h

open Json.Reader (Setup Plain Unambiguous)

/-- **The store is said by the datagrams.** A receiver that was just made holds an entry exactly if
some datagram spells an announcement under its key, no later one does, and no sweep came too late. -/
theorem held_iff_received {setup : Setup} (hplain : Plain setup)
    (hstrict : setup.features.strictRoot = false) {events : List ReceiverEvent}
    (husable : AllUsable [] [] events) (htexts : ∀ d ∈ arrivals events, Unambiguous d.payload)
    (key : StdString) (entry : Monitor.ExpiringEntry) :
    (run (RunningReceiver.step setup.reader) {} events).deviceMonitor.announcements.lookup key =
        some entry ↔
      HeldText setup (received [] [] events) key entry := by
  rw [deviceMonitor_run setup.reader events {} husable]
  refine Monitor.stored_iff_text hplain hstrict ?_ key entry
  intro now name text hmem
  obtain ⟨datagram, hdatagram, rfl⟩ := text_of_mem_received hmem
  exact htexts datagram hdatagram

/-- The announcement arrives while the socket is read, and the timer fires when it has just not
expired. -/
def routedEvents : List ReceiverEvent :=
  [.update [⟨2, "eth0".toList, []⟩], .readable 0 [⟨[⟨Monitor.routedDevice.text, 2⟩], 0⟩],
    .timer (Monitor.seconds 15) .stored]

theorem held_iff_received_routedDevice :
    (run (RunningReceiver.step (Setup.reader { sscanf := fun _ => none })) {}
        routedEvents).deviceMonitor.announcements.lookup Monitor.routedPath.key =
      some ⟨Monitor.routedDevice.text, 0 + Monitor.seconds 15⟩ := by
  refine (held_iff_received ⟨rfl, rfl, by decide⟩ rfl ?_ ?_ _ _).mpr Monitor.heldText_routedOps
  · refine ⟨fun read hread => ?_, trivial⟩
    obtain rfl := List.mem_singleton.mp hread
    exact ⟨by decide +kernel, ⟨2, "eth0".toList, []⟩, List.mem_singleton.mpr rfl, rfl⟩
  · intro d hd
    obtain rfl := List.mem_singleton.mp hd
    exact Monitor.unambiguous_routedDevice

end DevScan.Net
