import DevScan.Monitor.CommunicationPath
import Mathlib.Data.List.AList

/-!
# `Monitor/DeviceMonitor.lean` — the announcement store and its callbacks

`devscan/devicemonitor.cpp`, operation by operation. Three things of the surroundings are made
explicit so that the theorems can quantify over them:

* **The callbacks.** A callback is user code; what it does may depend on anything it has seen.
  It is a function of the *calls so far*, oldest first and its own invocation last, and it
  returns or throws. The monitor carries these calls in `calls`, which is a record and not a
  member of the class: no operation reads it. A callback does not call back into the monitor
  (the class is documented as not reentrant).
* **The clock.** The operations that read `steady_clock::now()` take the time as an argument.
* **The iteration order** of `std::unordered_map`, which nothing fixes: each operation that
  walks `m_announcements` takes the order it walks it in.
-/

set_option autoImplicit false

namespace DevScan.Monitor

/-- `std::chrono::steady_clock::time_point`, in nanoseconds. -/
abbrev TimePoint := Int

/-- `std::chrono::seconds`, in the ticks of the clock. -/
def seconds (count : Nat) : TimePoint := count * 1000000000

structure ExpiringEntry where
  announcement : StdString
  timeOfExpiry : TimePoint
deriving DecidableEq, Repr

/-- `announcements_t`; a key is there at most once. -/
abbrev Announcements := AList fun _ : StdString => ExpiringEntry

/-- An entry of the map with its key. -/
abbrev KeyedEntry := Sigma fun _ : StdString => ExpiringEntry

/-- An order in which `std::unordered_map` may be walked. -/
structure IterationOrder where
  visit : List KeyedEntry → List KeyedEntry
  perm : ∀ entries, (visit entries).Perm entries

/-- An invocation of a callback, with its arguments. -/
inductive Call where
  | announce (path : CommunicationPath) (announcement : StdString)
  | expire (path : CommunicationPath)
  | error (errorCode : UInt32) (userMessage announcement : StdString)
deriving DecidableEq, Repr

/-- User code behind a callback: what it does on the last of the given calls. -/
abbrev Callback := List Call → Except Exn Unit

structure DeviceMonitor where
  announcements : Announcements := ∅
  announceCb : Option Callback := none
  expireCb : Option Callback := none
  errorCb : Option Callback := none
  /-- What the callbacks have been called with; not a member of the class. -/
  calls : List Call := []

/-- What a message that is processed without an exception turns out to be. -/
inductive Verdict where
  | rejected (errorCode : UInt32) (userMessage : StdString)
  | accepted (sendingInterfaceName sendingUuid router : StdString) (expire : Nat)
deriving DecidableEq, Repr

/-- The `try` block of `processReceivedAnnouncement` up to the look-up in `m_announcements`. -/
def examine (parse : Json.Reader) (message : StdString) : Except Exn Verdict :=
  match parse message with
  | none => .ok (.rejected (dataDropped ||| errorParse) "JSON parser failed".toList)
  | some announcement => do
    let method ← (← announcement.index Jsonrpc.method).asString
    if method ≠ tagAnnounce then
      return .rejected (dataDropped ||| errorMethod)
        "Missing \"announcement\" in JSON-document".toList
    let params ← announcement.index Jsonrpc.params
    let sendingInterfaceName ←
      (← params.indexPath [tagNetSettings, tagInterface, tagName]).asString
    if sendingInterfaceName = [] then
      return .rejected (dataDropped ||| errorIpaddr)
        "Missing interface name in JSON-document".toList
    let sendingUuid ← (← params.indexPath [tagDevice, tagUuid]).asString
    if sendingUuid = [] then
      return .rejected (dataDropped ||| errorUuid) "Missing uuid in JSON-document".toList
    let router ← (← params.indexPath [tagRouter, tagUuid]).asString
    let expire ← (← params.index tagExpiration).asUInt
    if expire = 0 then
      return .rejected (dataDropped ||| errorExpire)
        "Missing expiration in JSON-document".toList
    return .accepted sendingInterfaceName sendingUuid router expire

namespace DeviceMonitor

def invoke (m : DeviceMonitor) (cb : Callback) (c : Call) : Except Exn Unit × DeviceMonitor :=
  (cb (m.calls ++ [c]), { m with calls := m.calls ++ [c] })

/-- `callErrorCb`: what the error callback throws is swallowed. -/
def callErrorCb (m : DeviceMonitor) (errorCode : UInt32) (userMessage announcement : StdString) :
    DeviceMonitor :=
  match m.errorCb with
  | some cb => (m.invoke cb (.error errorCode userMessage announcement)).2
  | none => m

/-- `if (m_announceCb) { m_announceCb(…); }` -/
def callAnnounceCb (m : DeviceMonitor) (path : CommunicationPath) (announcement : StdString) :
    Except Exn Unit × DeviceMonitor :=
  match m.announceCb with
  | some cb => m.invoke cb (.announce path announcement)
  | none => (.ok (), m)

def setEntry (m : DeviceMonitor) (key : StdString) (entry : ExpiringEntry) : DeviceMonitor :=
  { m with announcements := m.announcements.insert key entry }

/-- The rest of the `try` block: update the entry of an accepted announcement, or add one. -/
def storeAnnouncement (m : DeviceMonitor) (path : CommunicationPath) (message : StdString)
    (timeOfExpiry : TimePoint) : Except Exn Unit × DeviceMonitor :=
  match m.announcements.lookup path.key with
  | some currentEntry =>
    let currentEntry := { currentEntry with timeOfExpiry := timeOfExpiry }
    if message ≠ currentEntry.announcement then
      (m.setEntry path.key { currentEntry with announcement := message }).callAnnounceCb path
        message
    else (.ok (), m.setEntry path.key currentEntry)
  | none => (m.setEntry path.key ⟨message, timeOfExpiry⟩).callAnnounceCb path message

/-- The two `catch` clauses of `processReceivedAnnouncement`. -/
def catchReceivingError (m : DeviceMonitor) (message : StdString) : Exn → DeviceMonitor
  | .stdException => m.callErrorCb (dataDropped ||| eException1) "Receiving error 1".toList message
  | .other => m.callErrorCb (dataDropped ||| eException2) "Receiving error 2".toList message

def processReceivedAnnouncement (parse : Json.Reader) (now : TimePoint)
    (receivingInterfaceName message : StdString) (m : DeviceMonitor) : DeviceMonitor :=
  match examine parse message with
  | .error e => m.catchReceivingError message e
  | .ok (.rejected errorCode userMessage) => m.callErrorCb errorCode userMessage message
  | .ok (.accepted sendingInterfaceName sendingUuid router expire) =>
    match m.storeAnnouncement ⟨receivingInterfaceName, sendingInterfaceName, sendingUuid, router⟩
        message (now + seconds expire) with
    | (.ok (), m) => m
    | (.error e, m) => m.catchReceivingError message e

/-- One round of the replay in `setAnnounceCb`; `catch(...)` swallows a key that does not decode
as well as what the callback throws. -/
def replayEntry (cb : Callback) (m : DeviceMonitor) (entry : KeyedEntry) : DeviceMonitor :=
  match CommunicationPath.ofKey entry.1 with
  | .ok path => (m.invoke cb (.announce path entry.2.announcement)).2
  | .error _ => m

def setAnnounceCb (cb : Option Callback) (order : IterationOrder) (m : DeviceMonitor) :
    DeviceMonitor :=
  let m := { m with announceCb := cb }
  match cb with
  | some cb => (order.visit m.announcements.entries).foldl (replayEntry cb) m
  | none => m

def setExpireCb (cb : Option Callback) (m : DeviceMonitor) : DeviceMonitor :=
  { m with expireCb := cb }

def setErrorCb (cb : Option Callback) (m : DeviceMonitor) : DeviceMonitor :=
  { m with errorCb := cb }

/-- Report one expired entry; again `catch(...)` swallows everything. -/
def callExpireCb (m : DeviceMonitor) (key : StdString) : DeviceMonitor :=
  match m.expireCb with
  | some cb =>
    match CommunicationPath.ofKey key with
    | .ok path => (m.invoke cb (.expire path)).2
    | .error _ => m
  | none => m

/-- One round of the loop in `checkForExpiredAnnouncements`. -/
def checkEntry (timeNow : TimePoint) (m : DeviceMonitor) (entry : KeyedEntry) : DeviceMonitor :=
  if entry.2.timeOfExpiry < timeNow then
    let m := m.callExpireCb entry.1
    { m with announcements := m.announcements.erase entry.1 }
  else m

def checkForExpiredAnnouncements (timeNow : TimePoint) (order : IterationOrder)
    (m : DeviceMonitor) : DeviceMonitor :=
  (order.visit m.announcements.entries).foldl (checkEntry timeNow) m

end DeviceMonitor

/-- The calls a client of the monitor makes, with what they read of their surroundings. -/
inductive Op where
  | processReceivedAnnouncement (now : TimePoint) (receivingInterfaceName message : StdString)
  | checkForExpiredAnnouncements (timeNow : TimePoint) (order : IterationOrder)
  | setAnnounceCb (cb : Option Callback) (order : IterationOrder)
  | setExpireCb (cb : Option Callback)
  | setErrorCb (cb : Option Callback)

def step (parse : Json.Reader) (m : DeviceMonitor) : Op → DeviceMonitor
  | .processReceivedAnnouncement now receivingInterfaceName message =>
    m.processReceivedAnnouncement parse now receivingInterfaceName message
  | .checkForExpiredAnnouncements timeNow order => m.checkForExpiredAnnouncements timeNow order
  | .setAnnounceCb cb order => m.setAnnounceCb cb order
  | .setExpireCb cb => m.setExpireCb cb
  | .setErrorCb cb => m.setErrorCb cb

end DevScan.Monitor
