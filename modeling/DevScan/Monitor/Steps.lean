import DevScan.Lib.Runs
import DevScan.Monitor.Accepted

/-!
# `Monitor/Steps.lean` — what one operation does

The operations of the monitor are unfolded here and nowhere else. What an operation does is said
in three parts, each once and for all operations:

* `lookup_step` — the store: an accepted announcement writes its entry, a sweep removes what has
  expired, nothing else changes anything. The callbacks do not appear: whatever they throw, the
  store does not depend on them.
* `notices_step` — the announce and expire calls (the *notices*; error calls are left out).
* `announceCb_step`, `expireCb_step` — the registrations.
-/

set_option autoImplicit false

namespace DevScan.Monitor

/-- An announcement that passed every check, with the time it was received. -/
structure Announcement where
  path : CommunicationPath
  text : StdString
  now : TimePoint
  expire : Nat
deriving DecidableEq, Repr

def Announcement.timeOfExpiry (a : Announcement) : TimePoint := a.now + seconds a.expire

def Announcement.entry (a : Announcement) : ExpiringEntry := ⟨a.text, a.timeOfExpiry⟩

/-- The announcement an operation accepts, if it does. -/
def Op.accepted (parse : Json.Reader) : Op → Option Announcement
  | .processReceivedAnnouncement now receivingInterfaceName message =>
    match examine parse message with
    | .ok (.accepted sendingInterfaceName sendingUuid router expire) =>
      some ⟨⟨receivingInterfaceName, sendingInterfaceName, sendingUuid, router⟩, message, now,
        expire⟩
    | _ => none
  | _ => none

theorem Op.accepted_eq_some_iff {parse : Json.Reader} {op : Op} {a : Announcement} :
    op.accepted parse = some a ↔
      op = .processReceivedAnnouncement a.now a.path.receivingInterface a.text ∧
        ∃ announcement, parse a.text = some announcement ∧
          Announces announcement a.path.sendingInterface a.path.uuid a.path.router a.expire := by
  constructor
  · intro h
    cases op with
    | processReceivedAnnouncement now receivingInterfaceName message =>
      simp only [Op.accepted] at h
      split at h
      · rename_i hexamine
        obtain rfl := Option.some.inj h
        exact ⟨rfl, examine_eq_accepted_iff.mp hexamine⟩
      · exact absurd h (by simp)
    | checkForExpiredAnnouncements timeNow order => exact absurd h (by simp [Op.accepted])
    | setAnnounceCb cb order => exact absurd h (by simp [Op.accepted])
    | setExpireCb cb => exact absurd h (by simp [Op.accepted])
    | setErrorCb cb => exact absurd h (by simp [Op.accepted])
  · intro haccepted
    obtain ⟨rfl, hann⟩ := haccepted
    simp only [Op.accepted, examine_eq_accepted_iff.mpr hann]

theorem Op.accepted_device {parse : Json.Reader} {d : Device} (hparse : parse d.text = some d.json)
    (h : d.Plain) (now : TimePoint) (receivingInterfaceName : StdString) :
    (Op.processReceivedAnnouncement now receivingInterfaceName d.text).accepted parse =
      some ⟨⟨receivingInterfaceName, d.sendingInterface, d.uuid, d.router⟩, d.text, now,
        d.expiration⟩ :=
  Op.accepted_eq_some_iff.mpr ⟨rfl, d.json, hparse, Device.announces_json h⟩

def Op.sweep? : Op → Option TimePoint
  | .checkForExpiredAnnouncements timeNow _ => some timeNow
  | _ => none

def Callback.quiet : Callback := fun _ => .ok ()

def IterationOrder.stored : IterationOrder := ⟨id, fun _ => .refl _⟩

def Call.isError : Call → Bool
  | .error .. => true
  | _ => false

/-- The calls of the announce and the expire callback. -/
def notices (calls : List Call) : List Call := calls.filter (!·.isError)

@[simp] theorem notices_append (a b : List Call) : notices (a ++ b) = notices a ++ notices b :=
  List.filter_append a b

namespace DeviceMonitor

/-! ## The error path

Whatever is reported, only `calls` changes, and by an error call. -/

theorem callErrorCb_eq (m : DeviceMonitor) (errorCode : UInt32)
    (userMessage announcement : StdString) :
    ∃ errs, notices errs = [] ∧
      m.callErrorCb errorCode userMessage announcement = { m with calls := m.calls ++ errs } := by
  unfold callErrorCb
  split
  · exact ⟨[.error errorCode userMessage announcement], rfl, rfl⟩
  · exact ⟨[], rfl, by rw [List.append_nil]⟩

theorem catchReceivingError_eq (m : DeviceMonitor) (message : StdString) (e : Exn) :
    ∃ errs, notices errs = [] ∧
      m.catchReceivingError message e = { m with calls := m.calls ++ errs } := by
  cases e with
  | stdException => exact m.callErrorCb_eq _ _ _
  | other => exact m.callErrorCb_eq _ _ _

/-! ## `processReceivedAnnouncement` -/

/-- The announce calls for an accepted announcement: one, if a callback is registered and the
text is not the stored one already. -/
def announceNotices (m : DeviceMonitor) (path : CommunicationPath) (message : StdString) :
    List Call :=
  if m.announceCb.isSome ∧
      (m.announcements.lookup path.key).map ExpiringEntry.announcement ≠ some message then
    [.announce path message]
  else []

theorem callAnnounceCb_snd (m : DeviceMonitor) (path : CommunicationPath) (message : StdString) :
    (m.callAnnounceCb path message).2 =
      { m with calls := m.calls ++ if m.announceCb.isSome then [.announce path message] else [] } := by
  unfold callAnnounceCb
  split
  · rename_i cb h
    rw [if_pos (by rw [h]; rfl)]; rfl
  · rename_i h
    rw [if_neg (by rw [h]; simp), List.append_nil]

/-- An accepted announcement writes its entry in every branch: the text of an entry that is only
refreshed is the text it has. -/
theorem storeAnnouncement_snd (m : DeviceMonitor) (path : CommunicationPath)
    (message : StdString) (timeOfExpiry : TimePoint) :
    (m.storeAnnouncement path message timeOfExpiry).2 =
      { m with
        announcements := m.announcements.insert path.key ⟨message, timeOfExpiry⟩
        calls := m.calls ++ m.announceNotices path message } := by
  unfold storeAnnouncement
  cases hlookup : m.announcements.lookup path.key with
  | none => simp [callAnnounceCb_snd, setEntry, announceNotices, hlookup]
  | some currentEntry =>
    by_cases htext : message = currentEntry.announcement
    · subst htext
      simp [setEntry, announceNotices, hlookup]
    · have htext' : currentEntry.announcement ≠ message := fun h => htext h.symm
      simp [callAnnounceCb_snd, setEntry, announceNotices, hlookup, htext, htext']

/-- An accepted message writes its entry and is announced if that is due; a message that is not
accepted changes nothing. Either may add error calls. -/
theorem processReceivedAnnouncement_eq (parse : Json.Reader) (now : TimePoint)
    (receivingInterfaceName message : StdString) (m : DeviceMonitor) :
    ∃ errs, notices errs = [] ∧
      m.processReceivedAnnouncement parse now receivingInterfaceName message =
        match (Op.processReceivedAnnouncement now receivingInterfaceName message).accepted parse with
        | some a =>
          { m with
            announcements := m.announcements.insert a.path.key a.entry
            calls := m.calls ++ m.announceNotices a.path a.text ++ errs }
        | none => { m with calls := m.calls ++ errs } := by
  unfold processReceivedAnnouncement
  simp only [Op.accepted]
  cases hx : examine parse message with
  | error e => exact m.catchReceivingError_eq message e
  | ok verdict =>
    cases verdict with
    | rejected errorCode userMessage => exact m.callErrorCb_eq errorCode userMessage message
    | accepted si uuid router expire =>
      have hstore := m.storeAnnouncement_snd ⟨receivingInterfaceName, si, uuid, router⟩ message
        (now + seconds expire)
      cases hs : m.storeAnnouncement ⟨receivingInterfaceName, si, uuid, router⟩ message
        (now + seconds expire) with
      | mk result m' =>
        rw [hs] at hstore
        obtain rfl : m' = _ := hstore
        cases result with
        | ok u => exact ⟨[], rfl, by simp [Announcement.entry, Announcement.timeOfExpiry, hs]⟩
        | error e =>
          -- the callback threw: the entry is written already, only the error is reported
          obtain ⟨errs, herrs, heq⟩ := catchReceivingError_eq _ message e
          refine ⟨errs, herrs, ?_⟩
          simp only [hs]
          rw [heq]
          rfl

/-! ## `setAnnounceCb` -/

def replayNotices (entry : KeyedEntry) : List Call :=
  match CommunicationPath.ofKey entry.1 with
  | .ok path => [.announce path entry.2.announcement]
  | .error _ => []

theorem replayEntry_eq (cb : Callback) (m : DeviceMonitor) (entry : KeyedEntry) :
    replayEntry cb m entry = { m with calls := m.calls ++ replayNotices entry } := by
  unfold replayEntry replayNotices
  cases CommunicationPath.ofKey entry.1 with
  | ok path => rfl
  | error e => simp only [List.append_nil]

theorem foldl_replayEntry (cb : Callback) : ∀ (entries : List KeyedEntry) (m : DeviceMonitor),
    entries.foldl (replayEntry cb) m = { m with calls := m.calls ++ entries.flatMap replayNotices }
  | [], m => by simp
  | entry :: entries, m => by
    rw [List.foldl_cons, foldl_replayEntry cb entries, replayEntry_eq]
    simp

theorem setAnnounceCb_eq (cb : Option Callback) (order : IterationOrder) (m : DeviceMonitor) :
    m.setAnnounceCb cb order =
      { m with
        announceCb := cb
        calls := m.calls ++
          if cb.isSome then (order.visit m.announcements.entries).flatMap replayNotices else [] } := by
  unfold setAnnounceCb
  cases cb with
  | none => simp
  | some cb => simp [foldl_replayEntry]

/-! ## `checkForExpiredAnnouncements`

The loop erases while it walks. What it has erased is behind it, so every entry is looked at
exactly once, as it was when the loop started. -/

def expiryNotices (key : StdString) : List Call :=
  match CommunicationPath.ofKey key with
  | .ok path => [.expire path]
  | .error _ => []

theorem callExpireCb_eq (m : DeviceMonitor) (key : StdString) :
    m.callExpireCb key =
      { m with calls := m.calls ++ if m.expireCb.isSome then expiryNotices key else [] } := by
  unfold callExpireCb
  split
  · rename_i cb hcb
    rw [if_pos (by rw [hcb]; rfl), expiryNotices]
    cases CommunicationPath.ofKey key with
    | ok path => rfl
    | error e => simp only [List.append_nil]
  · rename_i hcb
    rw [if_neg (by rw [hcb]; simp), List.append_nil]

def dropExpired (timeNow : TimePoint) (store : Announcements) (entries : List KeyedEntry) :
    Announcements :=
  entries.foldl
    (fun store entry => if entry.2.timeOfExpiry < timeNow then store.erase entry.1 else store) store

theorem foldl_checkEntry (timeNow : TimePoint) : ∀ (entries : List KeyedEntry) (m : DeviceMonitor),
    entries.foldl (checkEntry timeNow) m =
      { m with
        announcements := dropExpired timeNow m.announcements entries
        calls := m.calls ++ entries.flatMap fun entry =>
          if entry.2.timeOfExpiry < timeNow ∧ m.expireCb.isSome then expiryNotices entry.1
          else [] }
  | [], m => by simp [dropExpired]
  | entry :: entries, m => by
    rw [List.foldl_cons, foldl_checkEntry timeNow entries]
    unfold checkEntry
    by_cases h : entry.2.timeOfExpiry < timeNow
    · simp [h, callExpireCb_eq, dropExpired]
    · simp [h, dropExpired]

theorem lookup_dropExpired (timeNow : TimePoint) (k : StdString) :
    ∀ (entries : List KeyedEntry) (store : Announcements),
      (dropExpired timeNow store entries).lookup k =
        if entries.any fun entry => entry.1 = k ∧ entry.2.timeOfExpiry < timeNow then none
        else store.lookup k
  | [], store => by simp [dropExpired]
  | entry :: entries, store => by
    rw [dropExpired, List.foldl_cons, ← dropExpired, lookup_dropExpired timeNow k entries]
    rw [List.any_cons]
    by_cases hgone : entry.1 = k ∧ entry.2.timeOfExpiry < timeNow
    · obtain ⟨rfl, h⟩ := hgone
      simp [h]
    · rw [decide_eq_false hgone, Bool.false_or]
      by_cases h : entry.2.timeOfExpiry < timeNow
      · have hk : k ≠ entry.1 := fun hk => hgone ⟨hk.symm, h⟩
        rw [if_pos h, AList.lookup_erase_ne hk]
      · rw [if_neg h]

theorem checkForExpiredAnnouncements_eq (timeNow : TimePoint) (order : IterationOrder)
    (m : DeviceMonitor) :
    m.checkForExpiredAnnouncements timeNow order =
      { m with
        announcements :=
          dropExpired timeNow m.announcements (order.visit m.announcements.entries)
        calls := m.calls ++ (order.visit m.announcements.entries).flatMap fun entry =>
          if entry.2.timeOfExpiry < timeNow ∧ m.expireCb.isSome then expiryNotices entry.1
          else [] } :=
  foldl_checkEntry timeNow _ m

end DeviceMonitor

/-! ## All operations -/

open DeviceMonitor

theorem notices_announceNotices (m : DeviceMonitor) (path : CommunicationPath)
    (message : StdString) : notices (m.announceNotices path message) =
      m.announceNotices path message := by
  unfold announceNotices
  split <;> rfl

theorem notices_replayNotices (entry : KeyedEntry) :
    notices (replayNotices entry) = replayNotices entry := by
  unfold replayNotices
  split <;> rfl

theorem notices_expiryNotices (key : StdString) :
    notices (expiryNotices key) = expiryNotices key := by
  unfold expiryNotices
  split <;> rfl

theorem notices_flatMap {f : KeyedEntry → List Call} (hf : ∀ entry, notices (f entry) = f entry)
    (entries : List KeyedEntry) : notices (entries.flatMap f) = entries.flatMap f := by
  induction entries with
  | nil => rfl
  | cons entry entries ih => rw [List.flatMap_cons, notices_append, hf, ih]

theorem lookup_isSome_iff {store : Announcements} {k : StdString} {entry : ExpiringEntry} :
    store.lookup k = some entry ↔ (⟨k, entry⟩ : KeyedEntry) ∈ store.entries :=
  AList.mem_lookup_iff

/-- A sweep keeps an entry exactly if its deadline has not passed. -/
theorem lookup_checkForExpired (timeNow : TimePoint) (order : IterationOrder) (m : DeviceMonitor)
    (k : StdString) :
    (m.checkForExpiredAnnouncements timeNow order).announcements.lookup k =
      (m.announcements.lookup k).filter fun entry => ¬entry.timeOfExpiry < timeNow := by
  unfold DeviceMonitor.checkForExpiredAnnouncements
  rw [DeviceMonitor.foldl_checkEntry]
  simp only [DeviceMonitor.lookup_dropExpired, List.any_eq_true, decide_eq_true_eq,
    (order.perm _).mem_iff]
  cases hk : m.announcements.lookup k with
  | none =>
    rw [if_neg]
    · simp
    · intro hvisited
      obtain ⟨⟨k', entry⟩, hmem, rfl, -⟩ := hvisited
      rw [lookup_isSome_iff.mpr hmem] at hk
      exact absurd hk (by simp)
  | some entry =>
    have hiff : (∃ e ∈ m.announcements.entries, e.1 = k ∧ e.2.timeOfExpiry < timeNow) ↔
        entry.timeOfExpiry < timeNow := by
      constructor
      · intro hvisited
        obtain ⟨⟨k', entry'⟩, hmem, rfl, hlt⟩ := hvisited
        rw [lookup_isSome_iff.mpr hmem] at hk
        exact Option.some.inj hk ▸ hlt
      · exact fun hlt => ⟨⟨k, entry⟩, lookup_isSome_iff.mp hk, rfl, hlt⟩
    by_cases hlt : entry.timeOfExpiry < timeNow
    · rw [if_pos (hiff.mpr hlt)]; simp [Option.filter, hlt]
    · rw [if_neg (fun h => hlt (hiff.mp h))]; simp [Option.filter, hlt]

/-- **The store.** An accepted announcement writes its entry, a sweep removes what has expired;
no callback has a say in either. -/
theorem lookup_step (parse : Json.Reader) (m : DeviceMonitor) (op : Op) (k : StdString) :
    (step parse m op).announcements.lookup k =
      match op.accepted parse, op.sweep? with
      | some a, _ => if k = a.path.key then some a.entry else m.announcements.lookup k
      | none, some timeNow =>
        (m.announcements.lookup k).filter fun entry => ¬entry.timeOfExpiry < timeNow
      | none, none => m.announcements.lookup k := by
  cases op with
  | processReceivedAnnouncement now receivingInterfaceName message =>
    obtain ⟨errs, -, heq⟩ :=
      m.processReceivedAnnouncement_eq parse now receivingInterfaceName message
    rw [step, heq]
    cases (Op.processReceivedAnnouncement now receivingInterfaceName message).accepted parse with
    | none => rfl
    | some a =>
      by_cases hk : k = a.path.key
      · subst hk; simp
      · simp [hk]
  | checkForExpiredAnnouncements timeNow order => exact lookup_checkForExpired timeNow order m k
  | setAnnounceCb cb order => rw [step, DeviceMonitor.setAnnounceCb_eq]; rfl
  | setExpireCb cb => rfl
  | setErrorCb cb => rfl

def newNotices (parse : Json.Reader) (m : DeviceMonitor) : Op → List Call
  | .processReceivedAnnouncement now receivingInterfaceName message =>
    match (Op.processReceivedAnnouncement now receivingInterfaceName message).accepted parse with
    | some a => m.announceNotices a.path a.text
    | none => []
  | .checkForExpiredAnnouncements timeNow order =>
    (order.visit m.announcements.entries).flatMap fun entry =>
      if entry.2.timeOfExpiry < timeNow ∧ m.expireCb.isSome then expiryNotices entry.1 else []
  | .setAnnounceCb cb order =>
    if cb.isSome then (order.visit m.announcements.entries).flatMap replayNotices else []
  | .setExpireCb _ => []
  | .setErrorCb _ => []

/-- **The notices.** -/
theorem notices_step (parse : Json.Reader) (m : DeviceMonitor) (op : Op) :
    notices (step parse m op).calls = notices m.calls ++ newNotices parse m op := by
  cases op with
  | processReceivedAnnouncement now receivingInterfaceName message =>
    obtain ⟨errs, herrs, heq⟩ :=
      m.processReceivedAnnouncement_eq parse now receivingInterfaceName message
    rw [step, heq, newNotices]
    cases (Op.processReceivedAnnouncement now receivingInterfaceName message).accepted parse with
    | none => rw [notices_append, herrs]
    | some a =>
      rw [notices_append, notices_append, herrs, List.append_nil, notices_announceNotices]
  | checkForExpiredAnnouncements timeNow order =>
    rw [step, DeviceMonitor.checkForExpiredAnnouncements_eq, newNotices, notices_append,
      notices_flatMap]
    intro entry
    split
    · exact notices_expiryNotices entry.1
    · rfl
  | setAnnounceCb cb order =>
    rw [step, DeviceMonitor.setAnnounceCb_eq, newNotices, notices_append]
    split
    · rw [notices_flatMap notices_replayNotices]
    · rfl
  | setExpireCb cb => exact (List.append_nil _).symm
  | setErrorCb cb => exact (List.append_nil _).symm

theorem announceCb_step (parse : Json.Reader) (m : DeviceMonitor) (op : Op) :
    (step parse m op).announceCb =
      match op with
      | .setAnnounceCb cb _ => cb
      | _ => m.announceCb := by
  cases op with
  | processReceivedAnnouncement now receivingInterfaceName message =>
    obtain ⟨errs, -, heq⟩ :=
      m.processReceivedAnnouncement_eq parse now receivingInterfaceName message
    rw [step, heq]
    split <;> rfl
  | checkForExpiredAnnouncements timeNow order =>
    rw [step, DeviceMonitor.checkForExpiredAnnouncements_eq]
  | setAnnounceCb cb order => rw [step, DeviceMonitor.setAnnounceCb_eq]
  | setExpireCb cb => rfl
  | setErrorCb cb => rfl

theorem expireCb_step (parse : Json.Reader) (m : DeviceMonitor) (op : Op) :
    (step parse m op).expireCb =
      match op with
      | .setExpireCb cb => cb
      | _ => m.expireCb := by
  cases op with
  | processReceivedAnnouncement now receivingInterfaceName message =>
    obtain ⟨errs, -, heq⟩ :=
      m.processReceivedAnnouncement_eq parse now receivingInterfaceName message
    rw [step, heq]
    split <;> rfl
  | checkForExpiredAnnouncements timeNow order =>
    rw [step, DeviceMonitor.checkForExpiredAnnouncements_eq]
  | setAnnounceCb cb order => rw [step, DeviceMonitor.setAnnounceCb_eq]
  | setExpireCb cb => rfl
  | setErrorCb cb => rfl

end DevScan.Monitor
