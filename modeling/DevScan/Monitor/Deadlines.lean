import DevScan.Lib.Lease
import DevScan.Monitor.Steps
import Mathlib.Data.Int.Order.Basic

/-!
# `Monitor/Deadlines.lean` — the store as a table of leases

An accepted announcement is a lease on its key: it carries its own life time, and every further
one for the key replaces text and deadline, also by an earlier deadline. Under that reading the
store **is** the lease table of `Lib/Lease.lean` (`leases_run`), whatever the callbacks do, and
what it holds after any history of operations is said by the history alone (`StillValid`).
-/

set_option autoImplicit false

namespace DevScan.Monitor

open Lib (run run_simulation)
open Lib.Lease (Held)

/-- The store with its entries taken as leases. -/
def leases (m : DeviceMonitor) : Lib.Lease.Table StdString StdString TimePoint := fun k =>
  (m.announcements.lookup k).map fun entry => (entry.announcement, entry.timeOfExpiry)

theorem leases_eq_some_iff {m : DeviceMonitor} {k : StdString} {entry : ExpiringEntry} :
    leases m k = some (entry.announcement, entry.timeOfExpiry) ↔
      m.announcements.lookup k = some entry := by
  simp only [leases, Option.map_eq_some_iff, Prod.mk.injEq]
  constructor
  · intro hlease
    obtain ⟨⟨text, deadline⟩, hlookup, rfl, rfl⟩ := hlease
    exact hlookup
  · exact fun hlookup => ⟨entry, hlookup, rfl, rfl⟩

def Op.leaseEvent (parse : Json.Reader) (op : Op) :
    Lib.Lease.Event StdString StdString TimePoint :=
  match op.accepted parse, op.sweep? with
  | some a, _ => .renew a.path.key a.text a.timeOfExpiry
  | none, some timeNow => .sweep timeNow
  | none, none => .idle

theorem Op.leaseEvent_eq_renew_iff {parse : Json.Reader} {op : Op} {k text : StdString}
    {deadline : TimePoint} :
    op.leaseEvent parse = .renew k text deadline ↔
      ∃ a, op.accepted parse = some a ∧ a.path.key = k ∧ a.text = text ∧
        a.timeOfExpiry = deadline := by
  unfold Op.leaseEvent
  cases op.accepted parse with
  | some a => simp
  | none => cases op.sweep? <;> simp

theorem Op.leaseEvent_eq_sweep_iff {parse : Json.Reader} {op : Op} {timeNow : TimePoint} :
    op.leaseEvent parse = .sweep timeNow ↔ op.sweep? = some timeNow := by
  cases op with
  | processReceivedAnnouncement now receivingInterfaceName message =>
    refine iff_of_false ?_ (by simp [Op.sweep?])
    unfold Op.leaseEvent
    split <;> simp_all [Op.sweep?]
  | checkForExpiredAnnouncements t order => simp [Op.leaseEvent, Op.accepted, Op.sweep?]
  | setAnnounceCb cb order => simp [Op.leaseEvent, Op.accepted, Op.sweep?]
  | setExpireCb cb => simp [Op.leaseEvent, Op.accepted, Op.sweep?]
  | setErrorCb cb => simp [Op.leaseEvent, Op.accepted, Op.sweep?]

/-! ## The store is the lease table -/

theorem leases_step (parse : Json.Reader) (m : DeviceMonitor) (op : Op) :
    leases (step parse m op) = Lib.Lease.apply (leases m) (op.leaseEvent parse) := by
  funext k
  simp only [leases, lookup_step, Op.leaseEvent]
  cases op.accepted parse with
  | some a =>
    by_cases hk : k = a.path.key
    · subst hk; simp [Lib.Lease.apply, Announcement.entry]
    · simp [Lib.Lease.apply, leases, hk]
  | none =>
    cases op.sweep? with
    | none => rfl
    | some timeNow =>
      cases h : m.announcements.lookup k with
      | none => simp [Lib.Lease.apply, leases, h]
      | some entry =>
        by_cases hlt : entry.timeOfExpiry < timeNow <;>
          simp [Lib.Lease.apply, leases, h, hlt, Option.filter]

/-- **The store after any history is the lease table of that history.** -/
theorem leases_run (parse : Json.Reader) (m : DeviceMonitor) (ops : List Op) :
    leases (run (step parse) m ops) =
      run Lib.Lease.apply (leases m) (ops.map (Op.leaseEvent parse)) :=
  run_simulation (step parse) (leases_step parse) m ops

/-! ## Said by the history -/

/-- `a` is the last announcement the operations accept under the key `k`, and no sweep after it
ran later than its deadline. -/
def StillValid (parse : Json.Reader) (ops : List Op) (k : StdString) (a : Announcement) : Prop :=
  ∃ pre op post, ops = pre ++ op :: post ∧ op.accepted parse = some a ∧ a.path.key = k ∧
    (∀ later ∈ post, ∀ b, later.accepted parse = some b → b.path.key ≠ k) ∧
    ∀ later ∈ post, ∀ timeNow, later.sweep? = some timeNow → ¬timeNow > a.now + seconds a.expire

theorem held_iff_stillValid {parse : Json.Reader} {ops : List Op} {k text : StdString}
    {deadline : TimePoint} :
    Held (ops.map (Op.leaseEvent parse)) k text deadline ↔
      ∃ a, StillValid parse ops k a ∧ a.text = text ∧ a.timeOfExpiry = deadline := by
  constructor
  · intro hheld
    obtain ⟨pre, post, hops, hlast, hsweep⟩ := hheld
    obtain ⟨pre', rest, rfl, rfl, hrest⟩ := List.map_eq_append_iff.mp hops
    obtain ⟨op, post', rfl, hop, rfl⟩ := List.map_eq_cons_iff.mp hrest
    obtain ⟨a, ha, hk, rfl, rfl⟩ := Op.leaseEvent_eq_renew_iff.mp hop
    refine ⟨a, ⟨pre', op, post', rfl, ha, hk, fun later hmem b hb hkb => ?_,
      fun later hmem timeNow ht => ?_⟩, rfl, rfl⟩
    · exact hlast b.text b.timeOfExpiry
        (List.mem_map.mpr ⟨later, hmem, Op.leaseEvent_eq_renew_iff.mpr ⟨b, hb, hkb, rfl, rfl⟩⟩)
    · exact hsweep timeNow (List.mem_map.mpr ⟨later, hmem, Op.leaseEvent_eq_sweep_iff.mpr ht⟩)
  · intro hvalid
    obtain ⟨a, ⟨pre, op, post, rfl, ha, hk, hlast, hsweep⟩, rfl, rfl⟩ := hvalid
    refine ⟨pre.map (Op.leaseEvent parse), post.map (Op.leaseEvent parse), ?_,
      fun text' deadline' hmem => ?_, fun timeNow hmem => ?_⟩
    · rw [List.map_append, List.map_cons,
        Op.leaseEvent_eq_renew_iff.mpr ⟨a, ha, hk, rfl, rfl⟩]
    · obtain ⟨later, hlater, he⟩ := List.mem_map.mp hmem
      obtain ⟨b, hb, hkb, -, -⟩ := Op.leaseEvent_eq_renew_iff.mp he
      exact hlast later hlater b hb hkb
    · obtain ⟨later, hlater, he⟩ := List.mem_map.mp hmem
      exact hsweep later hlater timeNow (Op.leaseEvent_eq_sweep_iff.mp he)

/-- **The store is said by its history.** -/
theorem lookup_run_eq_some_iff {parse : Json.Reader} {ops : List Op} {k : StdString}
    {entry : ExpiringEntry} :
    (run (step parse) {} ops).announcements.lookup k = some entry ↔
      ∃ a, StillValid parse ops k a ∧ entry = ⟨a.text, a.now + seconds a.expire⟩ := by
  have hempty : leases {} = fun _ => none := by
    funext k'
    simp [leases]
  rw [← leases_eq_some_iff, leases_run, hempty, Lib.Lease.run_eq_some_iff, held_iff_stillValid]
  refine exists_congr fun a => and_congr_right fun _ => ?_
  obtain ⟨text, deadline⟩ := entry
  rw [ExpiringEntry.mk.injEq, eq_comm, @eq_comm _ a.timeOfExpiry]
  rfl

/-- **The timed reference model.** After any history, with callbacks that do anything at all: an
entry is there exactly if its announcement is still valid, with the text and the deadline of that
announcement; a sweep removes exactly what has expired; and an accepted announcement is passed to
a registered callback exactly if its key is new or its text is. -/
theorem store_meets_timed_model (parse : Json.Reader) (ops : List Op) :
    (∀ k entry, (run (step parse) {} ops).announcements.lookup k = some entry ↔
      ∃ a, StillValid parse ops k a ∧ entry = ⟨a.text, a.now + seconds a.expire⟩) ∧
    (∀ timeNow order k entry,
      ((run (step parse) {} ops).checkForExpiredAnnouncements timeNow order).announcements.lookup k =
        some entry ↔
      (run (step parse) {} ops).announcements.lookup k = some entry ∧
        ¬entry.timeOfExpiry < timeNow) ∧
    ∀ now receivingInterfaceName message,
      notices ((run (step parse) {} ops).processReceivedAnnouncement parse now
        receivingInterfaceName message).calls =
      notices (run (step parse) {} ops).calls ++
        match (Op.processReceivedAnnouncement now receivingInterfaceName message).accepted parse with
        | none => []
        | some a =>
          if (run (step parse) {} ops).announceCb.isSome ∧
            ((run (step parse) {} ops).announcements.lookup a.path.key).map
              ExpiringEntry.announcement ≠ some a.text then [.announce a.path a.text]
          else [] := by
  refine ⟨fun k entry => lookup_run_eq_some_iff, fun timeNow order k entry => ?_,
    fun now receivingInterfaceName message => ?_⟩
  · rw [lookup_checkForExpired, Option.filter_eq_some_iff]
    simp
  · refine (notices_step parse (run (step parse) {} ops)
      (.processReceivedAnnouncement now receivingInterfaceName message)).trans ?_
    rw [newNotices]
    cases (Op.processReceivedAnnouncement now receivingInterfaceName message).accepted parse <;> rfl

end DevScan.Monitor
