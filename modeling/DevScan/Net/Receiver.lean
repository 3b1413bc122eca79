import DevScan.Net.NetadapterList
import DevScan.Monitor.DeviceMonitor
import DevScan.Lib.Drain

/-!
# `Net/Receiver.lean` — from the receive socket to the device monitor

The layers a datagram goes through: `recvmsg`, the three `MulticastServer::receiveTelegram`,
`Receiver::receiveEventHandler`, and the loop of `EventLoop::execute` that calls the handler as
long as it returns something positive. All of them return **one number**, which is the length of
what was received, the verdict on the adapter, and whether to go on reading.

What happens while the loop runs is an argument: before each `recvmsg` some datagrams may arrive
(`Interval`). A loop that ends has made finitely many calls, so a list of them is enough; when it
is used up, nothing arrives any more. Datagrams are shorter than `MAX_DATAGRAM_SIZE`, and
`recvmsg` fails for no other reason than that the socket is empty.
-/

set_option autoImplicit false

namespace DevScan.Net

/-- A datagram in the socket, with the interface index of its `IP_PKTINFO`. -/
structure Datagram where
  payload : StdString
  ifindex : AdapterIndex
deriving DecidableEq, Repr

/-- The time between two reads: what arrives in it, and the clock at its end. -/
structure Interval where
  arrivals : List Datagram
  now : Monitor.TimePoint
deriving DecidableEq, Repr

/-- A call of `processReceivedAnnouncement`. -/
structure Announcement where
  now : Monitor.TimePoint
  receivingInterfaceName : StdString
  message : StdString
deriving DecidableEq, Repr

structure Receiver where
  /-- The receive queue of the socket. -/
  queue : List Datagram
  /-- What is going to happen, one for each `recvmsg`. -/
  upcoming : List Interval
  now : Monitor.TimePoint := 0
  netadapterList : NetadapterList
  deviceMonitor : Monitor.DeviceMonitor := {}
  /-- Everything that has arrived; not a member of the class. -/
  arrived : List Datagram := queue
  /-- What was handed to the monitor; not a member of the class. -/
  announcements : List Announcement := []
  /-- The last `recvmsg` reported `EWOULDBLOCK`; not a member of the class. -/
  wouldBlock : Bool := false

/-- What `receiveTelegram` hands back, with what it says about the adapter. -/
structure Received (α : Type) where
  nbytes : Int
  msgbuf : StdString
  adapter : α
deriving DecidableEq, Repr

namespace Receiver

/-- The time up to the next read. -/
def arrive (r : Receiver) : Receiver :=
  match r.upcoming with
  | [] => r
  | interval :: upcoming =>
    { r with
      upcoming := upcoming
      now := interval.now
      queue := r.queue ++ interval.arrivals
      arrived := r.arrived ++ interval.arrivals }

/-- `::recvmsg`, on a socket that does not block. -/
def recvmsg (r : Receiver) : Option Datagram × Receiver :=
  match r.arrive.queue with
  | [] => (none, { r.arrive with wouldBlock := true })
  | datagram :: queue => (some datagram, { r.arrive with queue := queue, wouldBlock := false })

/-- `receiveTelegram` with an adapter index. -/
def receiveTelegram (r : Receiver) : Received AdapterIndex × Receiver :=
  match r.recvmsg with
  | (none, r) => (⟨-1, [], 0⟩, r)
  | (some datagram, r) =>
    let nbytes : Int := datagram.payload.length
    (⟨nbytes, datagram.payload, if 0 < nbytes then datagram.ifindex else 0⟩, r)

/-- `receiveTelegram` with the name of the adapter. -/
def receiveTelegramByName (r : Receiver) : Received StdString × Receiver :=
  let (received, r) := r.receiveTelegram
  if 0 < received.nbytes then
    match r.netadapterList.getAdapterByInterfaceIndex received.adapter with
    | .ok adapter => (⟨received.nbytes, received.msgbuf, adapter.name⟩, r)
    | .error _ => (⟨-1, received.msgbuf, []⟩, r)
  else (⟨received.nbytes, received.msgbuf, []⟩, r)

/-- `m_deviceMonitor.processReceivedAnnouncement` -/
def processReceivedAnnouncement (parse : Json.Reader) (adapterName message : StdString)
    (r : Receiver) : Receiver :=
  { r with
    deviceMonitor :=
      r.deviceMonitor.processReceivedAnnouncement parse r.now adapterName message
    announcements := r.announcements ++ [⟨r.now, adapterName, message⟩] }

/-- `Receiver::receiveEventHandler`; `MulticastServer::process` returns what it returns. -/
def receiveEventHandler (parse : Json.Reader) (r : Receiver) : Int × Receiver :=
  let (received, r) := r.receiveTelegramByName
  if 0 < received.nbytes then
    (received.nbytes, r.processReceivedAnnouncement parse received.adapter
      (received.msgbuf.take received.nbytes.toNat))
  else (received.nbytes, r)

/-! ## What a call does -/

/-- What is made of a datagram: nothing if it is empty or from no adapter of the list. -/
def announcementOf (list : NetadapterList) (datagram : Datagram) : Option (StdString × StdString) :=
  if datagram.payload = [] then none
  else match list.getAdapterByInterfaceIndex datagram.ifindex with
    | .ok adapter => some (adapter.name, datagram.payload)
    | .error _ => none

@[simp] theorem netadapterList_arrive (r : Receiver) :
    r.arrive.netadapterList = r.netadapterList := by
  unfold arrive; split <;> rfl

@[simp] theorem deviceMonitor_arrive (r : Receiver) :
    r.arrive.deviceMonitor = r.deviceMonitor := by
  unfold arrive; split <;> rfl

@[simp] theorem announcements_arrive (r : Receiver) :
    r.arrive.announcements = r.announcements := by
  unfold arrive; split <;> rfl

theorem receiveEventHandler_nil (parse : Json.Reader) {r : Receiver} (h : r.arrive.queue = []) :
    r.receiveEventHandler parse = (-1, { r.arrive with wouldBlock := true }) := by
  simp [receiveEventHandler, receiveTelegramByName, receiveTelegram, recvmsg, h]

/-- A call that takes a datagram to be announced returns its length. -/
theorem receiveEventHandler_announced (parse : Json.Reader) {r : Receiver} {datagram : Datagram}
    {queue : List Datagram} (h : r.arrive.queue = datagram :: queue)
    {adapterName message : StdString}
    (hmade : announcementOf r.netadapterList datagram = some (adapterName, message)) :
    0 < datagram.payload.length ∧
      r.receiveEventHandler parse = ((datagram.payload.length : Int),
        { r.arrive with queue := queue, wouldBlock := false }.processReceivedAnnouncement parse
          adapterName message) := by
  unfold announcementOf at hmade
  split at hmade
  · cases hmade
  · rename_i hempty
    have hlength : 0 < datagram.payload.length := List.length_pos_iff.mpr hempty
    split at hmade
    · rename_i adapter hget
      cases hmade
      refine ⟨hlength, ?_⟩
      simp [receiveEventHandler, receiveTelegramByName, receiveTelegram, recvmsg, h, hlength, hget]
    · cases hmade

/-- **A call that takes any other datagram returns what it returns at the end of the queue**, or
0: the loop does not go on. -/
theorem receiveEventHandler_dropped (parse : Json.Reader) {r : Receiver} {datagram : Datagram}
    {queue : List Datagram} (h : r.arrive.queue = datagram :: queue)
    (hmade : announcementOf r.netadapterList datagram = none) :
    ∃ n : Int, n ≤ 0 ∧
      r.receiveEventHandler parse = (n, { r.arrive with queue := queue, wouldBlock := false }) := by
  unfold announcementOf at hmade
  split at hmade
  · rename_i hempty
    refine ⟨0, Int.le_refl 0, ?_⟩
    simp [receiveEventHandler, receiveTelegramByName, receiveTelegram, recvmsg, h, hempty]
  · rename_i hempty
    have hlength : 0 < datagram.payload.length := List.length_pos_iff.mpr hempty
    split at hmade
    · cases hmade
    · rename_i e hget
      refine ⟨-1, by omega, ?_⟩
      simp [receiveEventHandler, receiveTelegramByName, receiveTelegram, recvmsg, h, hlength, hget]

/-- What is in the socket and what is still to come. -/
def remaining (r : Receiver) : Nat := (r.queue ++ r.upcoming.flatMap Interval.arrivals).length

theorem remaining_arrive (r : Receiver) : r.arrive.remaining = r.remaining := by
  unfold arrive
  split
  · rfl
  · rename_i interval upcoming hupcoming
    simp only [remaining, hupcoming, List.flatMap_cons, List.append_assoc]

/-- The handler in the loop: as long as it returns something positive it has taken a datagram. -/
def announcementHandler (parse : Json.Reader) : Lib.Handler Receiver Exn where
  call r := (.ok (r.receiveEventHandler parse).1, (r.receiveEventHandler parse).2)
  size := remaining
  progress := by
    intro r n r' hcall hn
    obtain ⟨hresult, rfl⟩ := Prod.mk.inj hcall
    obtain rfl := Except.ok.inj hresult
    rw [← remaining_arrive r]
    cases hqueue : r.arrive.queue with
    | nil =>
      rw [receiveEventHandler_nil parse hqueue] at hn
      exact absurd hn (by simp)
    | cons datagram queue =>
      cases hmade : announcementOf r.netadapterList datagram with
      | none =>
        obtain ⟨m, hm, heq⟩ := receiveEventHandler_dropped parse hqueue hmade
        rw [heq] at hn
        exact absurd hn (Int.not_lt.mpr hm)
      | some made =>
        rw [(receiveEventHandler_announced parse hqueue hmade).2]
        simp [remaining, processReceivedAnnouncement, hqueue]

/-- `do { result = pEventInfo->eventHandler(); } while (result > 0);` -/
def handleAnnouncements (parse : Json.Reader) (r : Receiver) : Except Exn Int × Receiver :=
  (announcementHandler parse).drain r

end Receiver
end DevScan.Net
