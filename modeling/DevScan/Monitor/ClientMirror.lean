import DevScan.Lib.Replica
import DevScan.Monitor.Steps

/-!
# `Monitor/ClientMirror.lean` — the table a client keeps

A client that writes an entry on every announce callback and deletes it on every expire callback
is a replica of the store, in the sense of `Lib/Replica.lean`: accepted announcements are told as
writes, sweeps as removals, `setAnnounceCb` as a replay, and while no announce callback is
registered the telling is off. The source it is a replica of is the store with its keys decoded
(`decodedTable`).
-/

set_option autoImplicit false

namespace DevScan.Monitor

open Lib (run transitions)
open Lib.Replica (Mirrors follow follow_append)

/-- What a call means to the client's table. -/
def Call.message : Call → Option (Lib.Replica.Message CommunicationPath StdString)
  | .announce path announcement => some ⟨path, some announcement⟩
  | .expire path => some ⟨path, none⟩
  | .error .. => none

def clientTable (calls : List Call) : CommunicationPath → Option StdString :=
  follow (fun _ => none) (calls.filterMap Call.message)

/-- The store with its keys decoded, as a table of texts. -/
def decodedTable (store : Announcements) (path : CommunicationPath) : Option StdString :=
  if path.ColonFree then (store.lookup path.key).map ExpiringEntry.announcement else none

theorem decodedTable_eq_some_iff {store : Announcements} {path : CommunicationPath}
    {text : StdString} :
    decodedTable store path = some text ↔
      ∃ key entry, store.lookup key = some entry ∧ CommunicationPath.ofKey key = .ok path ∧
        entry.announcement = text := by
  unfold decodedTable
  constructor
  · intro h
    split at h
    · rename_i hpath
      obtain ⟨entry, hlookup, htext⟩ := Option.map_eq_some_iff.mp h
      exact ⟨path.key, entry, hlookup, CommunicationPath.ofKey_key hpath, htext⟩
    · exact absurd h (by simp)
  · intro hdecoded
    obtain ⟨key, entry, hlookup, hkey, rfl⟩ := hdecoded
    obtain rfl := CommunicationPath.key_of_ofKey hkey
    rw [if_pos (CommunicationPath.ofKey_key_eq_ok.mp hkey).1, hlookup]
    rfl

/-- No announcement the operation accepts has a `:` in an identifier, and the operation leaves
the client its expire callback. -/
def Op.Admissible (parse : Json.Reader) (op : Op) : Prop :=
  (∀ a, op.accepted parse = some a → a.path.ColonFree) ∧ ∀ cb, op = .setExpireCb cb → cb.isSome

/-- The invariant of a run: a client that mirrors the store, and a store whose keys decode. -/
structure Mirrored (m : DeviceMonitor) : Prop where
  expireCb : m.expireCb.isSome
  keys : ∀ key entry, m.announcements.lookup key = some entry →
    ∃ path, CommunicationPath.ofKey key = .ok path
  mirrors : Mirrors (m.announceCb.isSome) (decodedTable m.announcements) (clientTable m.calls)

/-! ## What an operation tells the client -/

theorem filterMap_message_notices (calls : List Call) :
    (notices calls).filterMap Call.message = calls.filterMap Call.message := by
  rw [notices, List.filterMap_filter]
  congr 1
  funext c
  cases c <;> rfl

theorem clientTable_step (parse : Json.Reader) (m : DeviceMonitor) (op : Op) :
    clientTable (step parse m op).calls =
      follow (clientTable m.calls) ((newNotices parse m op).filterMap Call.message) := by
  rw [clientTable, ← filterMap_message_notices, notices_step, List.filterMap_append, follow_append,
    filterMap_message_notices, clientTable]

theorem decodedTable_insert {store store' : Announcements} {a : Announcement}
    (ha : a.path.ColonFree)
    (hstore : ∀ k, store'.lookup k = if k = a.path.key then some a.entry else store.lookup k) :
    decodedTable store' = Function.update (decodedTable store) a.path (some a.text) := by
  funext path
  by_cases hpath : path = a.path
  · subst hpath
    rw [Function.update_self, decodedTable, if_pos ha, hstore, if_pos rfl]
    rfl
  · rw [Function.update_of_ne hpath, decodedTable, decodedTable]
    split
    · rename_i hfree
      have hkey : path.key ≠ a.path.key := fun hkey =>
        hpath (CommunicationPath.eq_of_key_eq hfree hkey).symm
      rw [hstore, if_neg hkey]
    · rfl

theorem mem_message_replay {entries : List KeyedEntry}
    {msg : Lib.Replica.Message CommunicationPath StdString} :
    msg ∈ (entries.flatMap DeviceMonitor.replayNotices).filterMap Call.message ↔
      ∃ entry ∈ entries, CommunicationPath.ofKey entry.1 = .ok msg.key ∧
        msg.value = some entry.2.announcement := by
  simp only [List.mem_filterMap, List.mem_flatMap]
  constructor
  · intro htold
    obtain ⟨c, ⟨entry, hentry, hc⟩, hmsg⟩ := htold
    refine ⟨entry, hentry, ?_⟩
    unfold DeviceMonitor.replayNotices at hc
    split at hc
    · rename_i path hpath
      rw [List.mem_singleton.mp hc] at hmsg
      obtain rfl := Option.some.inj hmsg
      exact ⟨hpath, rfl⟩
    · exact absurd hc (by simp)
  · intro hsource
    obtain ⟨entry, hentry, hpath, hvalue⟩ := hsource
    refine ⟨.announce msg.key entry.2.announcement, ⟨entry, hentry, ?_⟩, ?_⟩
    · rw [DeviceMonitor.replayNotices, hpath]
      exact List.mem_singleton_self _
    · rw [Call.message, ← hvalue]

theorem mem_message_expiry {entries : List KeyedEntry} {timeNow : TimePoint}
    {msg : Lib.Replica.Message CommunicationPath StdString} :
    msg ∈ (entries.flatMap fun entry => if entry.2.timeOfExpiry < timeNow
        then DeviceMonitor.expiryNotices entry.1 else []).filterMap Call.message ↔
      ∃ entry ∈ entries, entry.2.timeOfExpiry < timeNow ∧
        CommunicationPath.ofKey entry.1 = .ok msg.key ∧ msg.value = none := by
  simp only [List.mem_filterMap, List.mem_flatMap]
  constructor
  · intro htold
    obtain ⟨c, ⟨entry, hentry, hc⟩, hmsg⟩ := htold
    refine ⟨entry, hentry, ?_⟩
    split at hc
    · rename_i hlt
      unfold DeviceMonitor.expiryNotices at hc
      split at hc
      · rename_i path hpath
        rw [List.mem_singleton.mp hc] at hmsg
        obtain rfl := Option.some.inj hmsg
        exact ⟨hlt, hpath, rfl⟩
      · exact absurd hc (by simp)
    · exact absurd hc (by simp)
  · intro hsource
    obtain ⟨entry, hentry, hlt, hpath, hvalue⟩ := hsource
    refine ⟨.expire msg.key, ⟨entry, hentry, ?_⟩, ?_⟩
    · rw [if_pos hlt, DeviceMonitor.expiryNotices, hpath]
      exact List.mem_singleton_self _
    · rw [Call.message, ← hvalue]

/-! ## The invariant, operation by operation -/

theorem Mirrored.accept {parse : Json.Reader} {m : DeviceMonitor} {op : Op} {a : Announcement}
    (h : Mirrored m) (hop : op.accepted parse = some a) (ha : a.path.ColonFree) :
    Mirrored (step parse m op) := by
  have hlookup : ∀ k, (step parse m op).announcements.lookup k =
      if k = a.path.key then some a.entry else m.announcements.lookup k := by
    intro k
    rw [lookup_step, hop]
  cases op with
  | processReceivedAnnouncement now receivingInterfaceName message =>
    refine ⟨?_, fun key entry hkey => ?_, ?_⟩
    · rw [expireCb_step]; exact h.expireCb
    · rw [hlookup] at hkey
      split at hkey
      · rename_i hk
        exact ⟨a.path, hk ▸ CommunicationPath.ofKey_key ha⟩
      · exact h.keys key entry hkey
    · rw [announceCb_step, decodedTable_insert ha hlookup, clientTable_step]
      have hmsgs : (newNotices parse m
          (.processReceivedAnnouncement now receivingInterfaceName message)).filterMap Call.message =
          if m.announceCb.isSome ∧ decodedTable m.announcements a.path ≠ some a.text then
            [⟨a.path, some a.text⟩] else [] := by
        simp only [newNotices, hop, DeviceMonitor.announceNotices, decodedTable, if_pos ha]
        split <;> rfl
      rw [hmsgs]
      exact h.mirrors.write a.path a.text
  | checkForExpiredAnnouncements timeNow order => exact absurd hop (by simp [Op.accepted])
  | setAnnounceCb cb order => exact absurd hop (by simp [Op.accepted])
  | setExpireCb cb => exact absurd hop (by simp [Op.accepted])
  | setErrorCb cb => exact absurd hop (by simp [Op.accepted])

/-- An operation that leaves the store and the registrations and tells the client nothing. -/
theorem Mirrored.idle {parse : Json.Reader} {m : DeviceMonitor} {op : Op} (h : Mirrored m)
    (hexpire : (step parse m op).expireCb.isSome)
    (hlookup : ∀ k, (step parse m op).announcements.lookup k = m.announcements.lookup k)
    (hannounce : (step parse m op).announceCb = m.announceCb)
    (hnotices : newNotices parse m op = []) : Mirrored (step parse m op) := by
  refine ⟨hexpire, fun key entry hkey => h.keys key entry (hlookup key ▸ hkey), ?_⟩
  have htable : decodedTable (step parse m op).announcements = decodedTable m.announcements := by
    funext path
    rw [decodedTable, decodedTable, hlookup]
  rw [hannounce, htable, clientTable_step, hnotices]
  exact h.mirrors

theorem Mirrored.sweep {parse : Json.Reader} {m : DeviceMonitor} (h : Mirrored m)
    (timeNow : TimePoint) (order : IterationOrder) :
    Mirrored (step parse m (.checkForExpiredAnnouncements timeNow order)) := by
  have hlookup : ∀ k, (step parse m (.checkForExpiredAnnouncements timeNow order)).announcements.lookup
      k = (m.announcements.lookup k).filter fun entry => ¬entry.timeOfExpiry < timeNow :=
    lookup_checkForExpired timeNow order m
  refine ⟨?_, fun key entry hkey => ?_, ?_⟩
  · rw [expireCb_step]; exact h.expireCb
  · rw [hlookup] at hkey
    exact h.keys key entry (Option.eq_some_of_filter_eq_some hkey)
  · have hmsgs : newNotices parse m (.checkForExpiredAnnouncements timeNow order) =
        (order.visit m.announcements.entries).flatMap fun entry =>
          if entry.2.timeOfExpiry < timeNow then DeviceMonitor.expiryNotices entry.1 else [] := by
      simp only [newNotices, h.expireCb, and_true]
    rw [announceCb_step, clientTable_step, hmsgs]
    -- a path goes if its entry has expired
    refine h.mirrors.remove (fun path => ∃ entry,
      m.announcements.lookup path.key = some entry ∧ entry.timeOfExpiry < timeNow)
      ?_ ?_ ?_ ?_
    · intro path hexpired
      obtain ⟨entry, hentry, hlt⟩ := hexpired
      simp [decodedTable, hlookup, hentry, Option.filter, hlt]
    · intro path hkept
      have hsame : (m.announcements.lookup path.key).filter
          (fun entry => ¬entry.timeOfExpiry < timeNow) = m.announcements.lookup path.key := by
        cases hentry : m.announcements.lookup path.key with
        | none => rfl
        | some entry =>
          have hlt : ¬entry.timeOfExpiry < timeNow := fun hlt => hkept ⟨entry, hentry, hlt⟩
          exact Option.filter_some_pos (decide_eq_true hlt)
      rw [decodedTable, hlookup, hsame, decodedTable]
    · intro msg hmsg
      obtain ⟨entry, hentry, hlt, hkey, hvalue⟩ := mem_message_expiry.mp hmsg
      rw [(order.perm _).mem_iff] at hentry
      exact ⟨⟨entry.2, CommunicationPath.key_of_ofKey hkey ▸ lookup_isSome_iff.mpr hentry, hlt⟩,
        hvalue⟩
    · intro path hexpired hpath
      obtain ⟨entry, hentry, hlt⟩ := hexpired
      obtain ⟨text, htext⟩ := Option.ne_none_iff_exists'.mp hpath
      obtain ⟨key, -, -, hkey, -⟩ := decodedTable_eq_some_iff.mp htext
      obtain rfl := CommunicationPath.key_of_ofKey hkey
      exact ⟨⟨path, none⟩, mem_message_expiry.mpr
        ⟨⟨path.key, entry⟩, (order.perm _).mem_iff.mpr (lookup_isSome_iff.mp hentry), hlt, hkey,
          rfl⟩, rfl⟩

theorem Mirrored.register {parse : Json.Reader} {m : DeviceMonitor} (h : Mirrored m)
    (cb : Option Callback) (order : IterationOrder) :
    Mirrored (step parse m (.setAnnounceCb cb order)) := by
  have hstore : (step parse m (.setAnnounceCb cb order)).announcements = m.announcements := by
    rw [step, DeviceMonitor.setAnnounceCb_eq]
  refine ⟨?_, fun key entry hkey => h.keys key entry (hstore ▸ hkey), ?_⟩
  · rw [expireCb_step]; exact h.expireCb
  · rw [announceCb_step, hstore, clientTable_step]
    cases cb with
    | none => exact ⟨h.mirrors.absent, fun hc => absurd hc (by simp)⟩
    | some cb =>
      have hmsgs : newNotices parse m (.setAnnounceCb (some cb) order) =
          (order.visit m.announcements.entries).flatMap DeviceMonitor.replayNotices := rfl
      rw [hmsgs]
      refine h.mirrors.replay (fun msg hmsg => ?_) fun path hpath => ?_
      · obtain ⟨entry, hentry, hkey, hvalue⟩ := mem_message_replay.mp hmsg
        rw [(order.perm _).mem_iff] at hentry
        rw [hvalue, eq_comm, decodedTable_eq_some_iff]
        exact ⟨entry.1, entry.2, lookup_isSome_iff.mpr hentry, hkey, rfl⟩
      · obtain ⟨text, htext⟩ := Option.ne_none_iff_exists'.mp hpath
        obtain ⟨key, entry, hentry, hkey, rfl⟩ := decodedTable_eq_some_iff.mp htext
        exact ⟨⟨path, some entry.announcement⟩, mem_message_replay.mpr
          ⟨⟨key, entry⟩, (order.perm _).mem_iff.mpr (lookup_isSome_iff.mp hentry), hkey, rfl⟩, rfl⟩

theorem mirrored_step {parse : Json.Reader} {m : DeviceMonitor} {op : Op} (h : Mirrored m)
    (hop : op.Admissible parse) : Mirrored (step parse m op) := by
  cases hacc : op.accepted parse with
  | some a => exact h.accept hacc (hop.1 a hacc)
  | none =>
    cases op with
    | processReceivedAnnouncement now receivingInterfaceName message =>
      refine h.idle ?_ (fun k => ?_) ?_ ?_
      · rw [expireCb_step]; exact h.expireCb
      · rw [lookup_step, hacc]; rfl
      · rw [announceCb_step]
      · simp only [newNotices, hacc]
    | checkForExpiredAnnouncements timeNow order => exact h.sweep timeNow order
    | setAnnounceCb cb order => exact h.register cb order
    | setExpireCb cb =>
      exact h.idle (by rw [expireCb_step]; exact hop.2 cb rfl) (fun k => rfl) rfl rfl
    | setErrorCb cb => exact h.idle h.expireCb (fun k => rfl) rfl rfl

theorem mirrored_empty (cb : Callback) : Mirrored { expireCb := some cb } where
  expireCb := rfl
  keys := by simp
  mirrors := ⟨fun _ _ => rfl, fun h => absurd h (by simp)⟩

theorem mirrored_run {parse : Json.Reader} {m : DeviceMonitor} (h : Mirrored m) {ops : List Op}
    (hops : ∀ op ∈ ops, op.Admissible parse) : Mirrored (run (step parse) m ops) := by
  refine Lib.run_invariant (step parse) (C := fun _ op => op.Admissible parse)
    (fun m op hm hop => mirrored_step hm hop) h fun p hp => ?_
  obtain ⟨pre, post, rfl, -⟩ := (Lib.mem_transitions_iff (step parse)).mp hp
  exact hops p.2 (by simp)

/-- **The client mirrors the store.** After any operations, as often as the announce callback is
registered at their end: every stored key decodes, and the client's table is the decoded store. -/
theorem client_mirrors_store (parse : Json.Reader) (cb : Callback) (ops : List Op)
    (hops : ∀ op ∈ ops, op.Admissible parse)
    (hregistered : (run (step parse) { expireCb := some cb } ops).announceCb.isSome) :
    (∀ key entry,
      (run (step parse) { expireCb := some cb } ops).announcements.lookup key = some entry →
      ∃ path, CommunicationPath.ofKey key = .ok path) ∧
    ∀ path text, clientTable (run (step parse) { expireCb := some cb } ops).calls path = some text ↔
      ∃ key entry,
        (run (step parse) { expireCb := some cb } ops).announcements.lookup key = some entry ∧
          CommunicationPath.ofKey key = .ok path ∧ entry.announcement = text := by
  have h := mirrored_run (mirrored_empty cb) hops
  refine ⟨h.keys, fun path text => ?_⟩
  rw [h.mirrors.agrees hregistered, decodedTable_eq_some_iff]

theorem client_mirrors_store_sampleDevice :
    clientTable (run (step (Device.reader [sampleDevice])) { expireCb := some .quiet }
      [.setAnnounceCb (some .quiet) .stored,
        .processReceivedAnnouncement 0 "eth0".toList sampleDevice.text]).calls
      ⟨"eth0".toList, sampleDevice.sendingInterface, sampleDevice.uuid, sampleDevice.router⟩ =
    some sampleDevice.text := by
  have haccepted := Op.accepted_device reader_sampleDevice sampleDevice_plain 0 "eth0".toList
  refine ((client_mirrors_store (Device.reader [sampleDevice]) .quiet _ ?_ ?_).2 _ _).mpr
    ⟨CommunicationPath.key ⟨"eth0".toList, sampleDevice.sendingInterface, sampleDevice.uuid,
      sampleDevice.router⟩, ⟨sampleDevice.text, 0 + seconds 15⟩, ?_,
      CommunicationPath.ofKey_key (by decide), rfl⟩
  · intro op hop
    simp only [List.mem_cons, List.not_mem_nil, or_false] at hop
    rcases hop with rfl | rfl
    · exact ⟨fun a ha => absurd ha (by simp [Op.accepted]), fun cb hcb => absurd hcb (by simp)⟩
    · refine ⟨fun a ha => ?_, fun cb hcb => absurd hcb (by simp)⟩
      obtain rfl := Option.some.inj (haccepted.symm.trans ha)
      decide
  · rw [Lib.run_cons, Lib.run_cons, Lib.run_nil, announceCb_step, announceCb_step]
    rfl
  · rw [Lib.run_cons, Lib.run_cons, Lib.run_nil, lookup_step, haccepted]
    rfl

end DevScan.Monitor
