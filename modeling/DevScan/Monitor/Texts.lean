import DevScan.Json.RoundTrip
import DevScan.Json.Spelled
import DevScan.Monitor.Identity

/-!
# `Monitor/Texts.lean` — the store as it follows from the texts

What devices send are texts, and what the monitor holds is said here without the reader: by what the
texts spell (`TextAnnounces`). A run over unambiguous texts holds an entry exactly if some text that
was received spells an announcement under its key, no later one does, and no sweep came too late for
it (`stored_iff_text`).
-/

set_option autoImplicit false

namespace DevScan.Monitor

open Lib (run)
open Json.Reader (Setup Plain Unambiguous Starts reader_eq_some_iff)

/-- The text spells an announcement of the path's sending interface, uuid and router. -/
def TextAnnounces (setup : Setup) (text : StdString) (path : CommunicationPath) (expire : Nat) : Prop :=
  ∃ announcement, Starts setup text announcement ∧
    Announces announcement path.sendingInterface path.uuid path.router expire

/-- Every text that is received has but one reading. -/
def AllUnambiguous (ops : List Op) : Prop :=
  ∀ now receivingInterface text, .processReceivedAnnouncement now receivingInterface text ∈ ops →
    Unambiguous text

variable {setup : Setup}

theorem accepted_iff_text (hplain : Plain setup) (hstrict : setup.features.strictRoot = false)
    {ops : List Op} (hdocuments : AllUnambiguous ops) {op : Op} (hop : op ∈ ops) {a : Announcement} :
    op.accepted setup.reader = some a ↔
      op = .processReceivedAnnouncement a.now a.path.receivingInterface a.text ∧
        TextAnnounces setup a.text a.path a.expire := by
  rw [Op.accepted_eq_some_iff]
  refine and_congr_right fun heq => ?_
  have hdocument := hdocuments a.now a.path.receivingInterface a.text (heq ▸ hop)
  exact exists_congr fun v => and_congr_left fun _ => reader_eq_some_iff hplain hstrict hdocument

/-- The entry is that of a text received in the run; what came later did not replace it, and no sweep
found it expired. -/
def HeldText (setup : Setup) (ops : List Op) (key : StdString) (entry : ExpiringEntry) : Prop :=
  ∃ pre post now path expire,
    ops = pre ++ .processReceivedAnnouncement now path.receivingInterface entry.announcement :: post ∧
    TextAnnounces setup entry.announcement path expire ∧ path.key = key ∧
    entry.timeOfExpiry = now + seconds expire ∧
    (∀ now' path' text expire',
      .processReceivedAnnouncement now' path'.receivingInterface text ∈ post →
        TextAnnounces setup text path' expire' → path'.key ≠ key) ∧
    ∀ timeNow order, .checkForExpiredAnnouncements timeNow order ∈ post → ¬entry.timeOfExpiry < timeNow

/-- **The store is said by the texts.** -/
theorem stored_iff_text (hplain : Plain setup) (hstrict : setup.features.strictRoot = false)
    {ops : List Op} (hdocuments : AllUnambiguous ops) (key : StdString) (entry : ExpiringEntry) :
    (run (step setup.reader) {} ops).announcements.lookup key = some entry ↔
      HeldText setup ops key entry := by
  have haccepted : ∀ op ∈ ops, ∀ a, op.accepted setup.reader = some a ↔ _ := fun op hop a =>
    accepted_iff_text hplain hstrict hdocuments hop
  rw [lookup_run_eq_some_iff]
  constructor
  · rintro ⟨a, ⟨pre, op, post, hops, ha, hkey, hlast, hsweep⟩, rfl⟩
    obtain ⟨rfl, htext⟩ := (haccepted op (hops ▸ List.mem_append_right _ List.mem_cons_self) a).mp ha
    have hpost : ∀ later ∈ post, later ∈ ops := fun later hlater =>
      hops ▸ List.mem_append_right _ (List.mem_cons_of_mem _ hlater)
    refine ⟨pre, post, a.now, a.path, a.expire, hops, htext, hkey, rfl, ?_, ?_⟩
    · intro now' path' text expire' hlater hannounces
      exact hlast _ hlater ⟨path', text, now', expire'⟩
        ((haccepted _ (hpost _ hlater) _).mpr ⟨rfl, hannounces⟩)
    · exact fun timeNow order hlater => hsweep _ hlater timeNow rfl
  · rintro ⟨pre, post, now, path, expire, hops, htext, hkey, hexpiry, hlast, hsweep⟩
    have hpost : ∀ later ∈ post, later ∈ ops := fun later hlater =>
      hops ▸ List.mem_append_right _ (List.mem_cons_of_mem _ hlater)
    refine ⟨⟨path, entry.announcement, now, expire⟩, ⟨pre, _, post, hops, ?_, hkey, ?_, ?_⟩, ?_⟩
    · exact (haccepted _ (hops ▸ List.mem_append_right _ List.mem_cons_self) _).mpr ⟨rfl, htext⟩
    · intro later hlater b hb
      obtain ⟨rfl, hannounces⟩ := (haccepted later (hpost later hlater) b).mp hb
      exact hlast b.now b.path b.text b.expire hlater hannounces
    · intro later hlater timeNow hsweeps
      cases later with
      | checkForExpiredAnnouncements timeNow' order =>
        obtain rfl := Option.some.inj hsweeps
        have hvalid := hsweep timeNow' order hlater
        rwa [hexpiry] at hvalid
      | _ => exact absurd hsweeps (by simp [Op.sweep?])
    · exact congrArg (ExpiringEntry.mk entry.announcement) hexpiry

/-! ## A device behind a router -/

theorem writable_singleton {sscanf : StdString → Option Json.Real} {name : StdString} {v : Json.Value}
    (hname : Json.cString name = name) (hv : v.Writable sscanf) :
    (Json.Value.objectValue [(name, v)]).Writable sscanf :=
  .object (List.forall_mem_singleton.mpr hname) (List.forall_mem_singleton.mpr hv)

theorem Device.writable_json (sscanf : StdString → Option Json.Real) {d : Device} (h : d.Plain) :
    d.json.Writable sscanf := by
  have huuid : ∀ s, (Json.Value.objectValue [(tagUuid, .stringValue s)]).Writable sscanf := fun s =>
    writable_singleton rfl (.string s)
  have hinterface : ∀ s, (Json.Value.objectValue [(tagName, .stringValue s)]).Writable sscanf :=
    fun s => writable_singleton rfl (.string s)
  have hexpiration : (Json.Value.intValue d.expiration).Writable sscanf := by
    have hmax := h.expiration.2
    rw [Json.maxUInt] at hmax
    exact .int (by rw [Json.minLargestIntAbs]; omega) (by rw [Json.minLargestIntAbs]; omega)
  refine Json.writable_pair sscanf rfl rfl (.string _) (.object ?_ ?_)
  · simp only [List.forall_mem_cons]
    exact ⟨rfl, rfl, rfl, rfl, List.forall_mem_nil _⟩
  · simp only [List.forall_mem_cons]
    exact ⟨huuid _, hexpiration, writable_singleton rfl (hinterface _), huuid _, List.forall_mem_nil _⟩

def routedDevice : Device := ⟨"0009E500A1B2".toList, "eth1".toList, "0009E5001571".toList, 15⟩

theorem routedDevice_plain : routedDevice.Plain :=
  ⟨by decide, by decide, by decide, by decide, by decide, by decide⟩

def routedPath : CommunicationPath :=
  ⟨"eth0".toList, routedDevice.sendingInterface, routedDevice.uuid, routedDevice.router⟩

/-- Received once, and looked at when it has just not expired. -/
def routedOps : List Op :=
  [.processReceivedAnnouncement 0 "eth0".toList routedDevice.text,
    .checkForExpiredAnnouncements (seconds 15) .stored]

theorem unambiguous_routedDevice : Unambiguous routedDevice.text := by
  decide +kernel

/-- The announcement is held. -/
theorem heldText_routedOps :
    HeldText { sscanf := fun _ => none } routedOps routedPath.key
      ⟨routedDevice.text, 0 + seconds 15⟩ := by
  have hstarts : Starts { sscanf := fun _ => none } routedDevice.text routedDevice.json :=
    ⟨[], routedDevice.text, [], rfl, .nil,
      Json.FastWriter.spells_writeValue {} rfl (Device.writable_json _ routedDevice_plain),
      fun _ _ h => absurd h (by simp)⟩
  refine ⟨[], _, 0, routedPath, 15, rfl, ⟨_, hstarts, Device.announces_json routedDevice_plain⟩, rfl,
    rfl, ?_, ?_⟩
  · intro now' path' text expire' hmem
    simp at hmem
  · intro timeNow order hmem
    obtain ⟨rfl, -⟩ := Op.checkForExpiredAnnouncements.inj (List.mem_singleton.mp hmem)
    decide

end DevScan.Monitor
