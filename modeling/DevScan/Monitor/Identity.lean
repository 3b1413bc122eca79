import DevScan.Monitor.Deadlines

/-!
# `Monitor/Identity.lean` — does a key identify a communication path

The four identifiers of an announcement are unrestricted texts, the key joins them with a `:`.
What the class promises of its keys (`PathIdentity`) is that different paths have different keys
and that a stored key leads back to its path, so that the replay and the expiry reach the client
for every entry. **A run keeps the promise exactly if no identifier it accepts contains a `:`**
(`pathIdentity_iff`): with one, the entry is stored and announced, but `catch(...)` swallows the
key that does not decode, and two such paths may share one entry.
-/

set_option autoImplicit false

namespace DevScan.Monitor

open Lib (run)

def Accepts (parse : Json.Reader) (ops : List Op) (a : Announcement) : Prop :=
  ∃ op ∈ ops, op.accepted parse = some a

/-- The state a run from the empty monitor comes to, as far as one entry goes. -/
def Stored (parse : Json.Reader) (ops : List Op) (key : StdString) (entry : ExpiringEntry) : Prop :=
  (run (step parse) {} ops).announcements.lookup key = some entry

/-- What the keys are for, in every state of a run. -/
structure PathIdentity (parse : Json.Reader) (ops : List Op) : Prop where
  /-- Different paths are stored under different keys. -/
  injective : ∀ a b, Accepts parse ops a → Accepts parse ops b → a.path ≠ b.path →
    a.path.key ≠ b.path.key
  /-- A stored key leads back to the path of every announcement accepted under it. -/
  decodes : ∀ pre post, ops = pre ++ post → ∀ key entry, Stored parse pre key entry →
    (∃ a, Accepts parse pre a ∧ a.path.key = key) ∧
      ∀ a, Accepts parse pre a → a.path.key = key → CommunicationPath.ofKey key = .ok a.path
  /-- The replay to a new announce callback reaches every stored entry. -/
  replayed : ∀ pre post, ops = pre ++ post → ∀ key entry, Stored parse pre key entry →
    ∀ a, Accepts parse pre a → a.path.key = key → ∀ cb order, ∃ new,
      ((run (step parse) {} pre).setAnnounceCb (some cb) order).calls =
        (run (step parse) {} pre).calls ++ new ∧ .announce a.path entry.announcement ∈ new
  /-- The sweep reports every entry it removes. -/
  expired : ∀ pre post, ops = pre ++ post → ∀ key entry, Stored parse pre key entry →
    ∀ a, Accepts parse pre a → a.path.key = key → (run (step parse) {} pre).expireCb.isSome →
      ∀ timeNow order, entry.timeOfExpiry < timeNow → ∃ new,
        ((run (step parse) {} pre).checkForExpiredAnnouncements timeNow order).calls =
          (run (step parse) {} pre).calls ++ new ∧ .expire a.path ∈ new

theorem Accepts.of_append {parse : Json.Reader} {pre post : List Op} {a : Announcement}
    (h : Accepts parse pre a) : Accepts parse (pre ++ post) a := by
  obtain ⟨op, hop, ha⟩ := h
  exact ⟨op, List.mem_append_left _ hop, ha⟩

theorem Stored.accepts {parse : Json.Reader} {ops : List Op} {key : StdString}
    {entry : ExpiringEntry} (h : Stored parse ops key entry) :
    ∃ a, Accepts parse ops a ∧ a.path.key = key := by
  obtain ⟨a, ⟨pre, op, post, rfl, ha, hkey, -⟩, -⟩ := lookup_run_eq_some_iff.mp h
  exact ⟨a, ⟨op, by simp, ha⟩, hkey⟩

theorem stored_of_accepted {parse : Json.Reader} (pre : List Op) {op : Op} {a : Announcement}
    (ha : op.accepted parse = some a) : Stored parse (pre ++ [op]) a.path.key a.entry := by
  rw [Stored, Lib.run_concat, lookup_step, ha]
  exact if_pos rfl

theorem replayed_of_stored {parse : Json.Reader} {ops : List Op} {entry : ExpiringEntry}
    {path : CommunicationPath} (h : Stored parse ops path.key entry) (hpath : path.ColonFree)
    (cb : Callback) (order : IterationOrder) :
    ∃ new, ((run (step parse) {} ops).setAnnounceCb (some cb) order).calls =
      (run (step parse) {} ops).calls ++ new ∧ .announce path entry.announcement ∈ new := by
  rw [DeviceMonitor.setAnnounceCb_eq]
  refine ⟨_, rfl, ?_⟩
  rw [if_pos Option.isSome_some, List.mem_flatMap]
  refine ⟨⟨path.key, entry⟩, (order.perm _).mem_iff.mpr (lookup_isSome_iff.mp h), ?_⟩
  rw [DeviceMonitor.replayNotices, CommunicationPath.ofKey_key hpath]
  exact List.mem_singleton_self _

theorem expired_of_stored {parse : Json.Reader} {ops : List Op} {entry : ExpiringEntry}
    {path : CommunicationPath} (h : Stored parse ops path.key entry) (hpath : path.ColonFree)
    (hcb : (run (step parse) {} ops).expireCb.isSome) {timeNow : TimePoint}
    (hlt : entry.timeOfExpiry < timeNow) (order : IterationOrder) :
    ∃ new, ((run (step parse) {} ops).checkForExpiredAnnouncements timeNow order).calls =
      (run (step parse) {} ops).calls ++ new ∧ .expire path ∈ new := by
  rw [DeviceMonitor.checkForExpiredAnnouncements_eq]
  refine ⟨_, rfl, ?_⟩
  rw [List.mem_flatMap]
  refine ⟨⟨path.key, entry⟩, (order.perm _).mem_iff.mpr (lookup_isSome_iff.mp h), ?_⟩
  rw [if_pos ⟨hlt, hcb⟩, DeviceMonitor.expiryNotices, CommunicationPath.ofKey_key hpath]
  exact List.mem_singleton_self _

/-- **The keys of a run identify its paths exactly if no accepted identifier has a `:`.** -/
theorem pathIdentity_iff (parse : Json.Reader) (ops : List Op) :
    PathIdentity parse ops ↔ ∀ a, Accepts parse ops a → a.path.ColonFree := by
  constructor
  · intro h a haccepts
    obtain ⟨op, hop, ha⟩ := haccepts
    obtain ⟨pre, post, rfl⟩ := List.append_of_mem hop
    -- the entry is there right after it was accepted, and its key must decode
    have hsplit : pre ++ op :: post = (pre ++ [op]) ++ post := by simp
    have hdecodes := (h.decodes (pre ++ [op]) post hsplit _ _ (stored_of_accepted pre ha)).2 a
      ⟨op, by simp, ha⟩ rfl
    exact (CommunicationPath.ofKey_key_eq_ok.mp hdecodes).1
  · intro h
    constructor
    · intro a b ha _ hne hkey
      exact hne (CommunicationPath.eq_of_key_eq (h a ha) hkey).symm
    · intro pre post hops key entry hstored
      refine ⟨hstored.accepts, fun a ha hkey => ?_⟩
      rw [← hkey]
      exact CommunicationPath.ofKey_key (h a (hops ▸ ha.of_append))
    · rintro pre post hops key entry hstored a ha rfl cb order
      exact replayed_of_stored hstored (h a (hops ▸ ha.of_append)) cb order
    · rintro pre post hops key entry hstored a ha rfl hcb timeNow order hlt
      exact expired_of_stored hstored (h a (hops ▸ ha.of_append)) hcb hlt order

/-- Two devices whose announcements, received on one interface, have one key. -/
def collidingDevices : Device × Device :=
  (⟨"00:09".toList, "eth1".toList, "E5".toList, 15⟩, ⟨"00".toList, "eth1".toList, "09:E5".toList, 15⟩)

/-- **The keys do not identify the paths in general**: here two different paths share an entry. -/
theorem not_pathIdentity_collidingDevices :
    ¬PathIdentity (Device.reader [collidingDevices.1, collidingDevices.2])
      [.processReceivedAnnouncement 0 "eth0".toList collidingDevices.1.text,
        .processReceivedAnnouncement 0 "eth0".toList collidingDevices.2.text] := by
  intro h
  have hfirst : Device.reader [collidingDevices.1, collidingDevices.2] collidingDevices.1.text =
      some collidingDevices.1.json := by simp [Device.reader]
  have hsecond : Device.reader [collidingDevices.1, collidingDevices.2] collidingDevices.2.text =
      some collidingDevices.2.json := by
    have hne : collidingDevices.1.text ≠ collidingDevices.2.text := by decide
    simp [Device.reader, hne]
  have hplain : collidingDevices.1.Plain ∧ collidingDevices.2.Plain :=
    ⟨⟨by decide, by decide, by decide, by decide, by decide, by decide⟩,
      ⟨by decide, by decide, by decide, by decide, by decide, by decide⟩⟩
  exact h.injective _ _ ⟨_, by simp, Op.accepted_device hfirst hplain.1 0 "eth0".toList⟩
    ⟨_, by simp, Op.accepted_device hsecond hplain.2 0 "eth0".toList⟩ (by decide) (by decide)

end DevScan.Monitor
