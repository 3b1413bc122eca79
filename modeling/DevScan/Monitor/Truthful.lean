import DevScan.Monitor.Identity

/-!
# `Monitor/Truthful.lean` — what an announce call says is so

An announce call passes a path and a text. The text is one that was accepted, and the path is
the one that was read from it; for the replay this rests on two facts: an entry's text is that of
the last announcement under its key, and a key that splits into four tokens splits into the
identifiers it was made from.

The receiving interface is that of the last announcement **on this path**. It need not be the
interface the text was last received on: a device that announces one text on two interfaces has
two entries, and the replay reports both.
-/

set_option autoImplicit false

namespace DevScan.Monitor

open Lib (run)

/-- The text is an announcement of the path's sending interface, uuid and router. -/
def AnnouncesPath (parse : Json.Reader) (path : CommunicationPath) (text : StdString) : Prop :=
  ∃ announcement expire, parse text = some announcement ∧
    Announces announcement path.sendingInterface path.uuid path.router expire

/-- The interface the text was last received on, be it on this path or another. -/
def LastReceivedOn (ops : List Op) (text receivingInterface : StdString) : Prop :=
  ∃ pre now post, ops = pre ++ .processReceivedAnnouncement now receivingInterface text :: post ∧
    ∀ later ∈ post, ∀ now' receivingInterface',
      later ≠ .processReceivedAnnouncement now' receivingInterface' text

/-- The text is that of the last announcement accepted on the path. -/
def LastAnnouncedOn (parse : Json.Reader) (ops : List Op) (path : CommunicationPath)
    (text : StdString) : Prop :=
  ∃ pre now post,
    ops = pre ++ .processReceivedAnnouncement now path.receivingInterface text :: post ∧
    (∃ a, (Op.processReceivedAnnouncement now path.receivingInterface text).accepted parse = some a ∧
      a.path = path) ∧
    ∀ later ∈ post, ∀ b, later.accepted parse = some b → b.path ≠ path

theorem announcesPath_of_accepted {parse : Json.Reader} {op : Op} {a : Announcement}
    (h : op.accepted parse = some a) : AnnouncesPath parse a.path a.text := by
  obtain ⟨-, announcement, hparse, hann⟩ := Op.accepted_eq_some_iff.mp h
  exact ⟨announcement, a.expire, hparse, hann⟩

/-- An entry of the store whose key decodes, decodes to the path of the announcement it holds. -/
theorem lastAnnouncedOn_of_stored {parse : Json.Reader} {ops : List Op} {key : StdString}
    {entry : ExpiringEntry} {path : CommunicationPath}
    (hstored : (run (step parse) {} ops).announcements.lookup key = some entry)
    (hkey : CommunicationPath.ofKey key = .ok path) :
    AnnouncesPath parse path entry.announcement ∧
      LastAnnouncedOn parse ops path entry.announcement := by
  obtain ⟨a, ⟨pre, op, post, rfl, ha, hk, hlast, -⟩, rfl⟩ := lookup_run_eq_some_iff.mp hstored
  obtain rfl : path = a.path := (CommunicationPath.ofKey_key_eq_ok.mp (hk ▸ hkey)).2
  refine ⟨announcesPath_of_accepted ha, ?_⟩
  obtain ⟨rfl, -⟩ := Op.accepted_eq_some_iff.mp ha
  exact ⟨pre, a.now, post, rfl, ⟨a, ha, rfl⟩, fun later hlater b hb hpath =>
    hlast later hlater b hb (by rw [hpath, hk])⟩

theorem mem_newNotices {parse : Json.Reader} {m : DeviceMonitor} {op : Op} {new : List Call}
    (hnew : (step parse m op).calls = m.calls ++ new) {path : CommunicationPath} {text : StdString}
    (hmem : .announce path text ∈ new) : .announce path text ∈ newNotices parse m op := by
  have hnotices := notices_step parse m op
  rw [hnew, notices_append] at hnotices
  rw [← List.append_cancel_left hnotices]
  exact List.mem_filter.mpr ⟨hmem, rfl⟩

/-- **Announce calls are truthful.** Whatever was received before, an announce call passes a text
that is an announcement of the identifiers passed with it, and it is the text of the last
announcement accepted on that path, the receiving interface included. -/
theorem announce_truthful (parse : Json.Reader) (ops : List Op) (op : Op) (new : List Call)
    (hnew : (run (step parse) {} (ops ++ [op])).calls = (run (step parse) {} ops).calls ++ new)
    (path : CommunicationPath) (text : StdString) (hcall : .announce path text ∈ new) :
    AnnouncesPath parse path text ∧ LastAnnouncedOn parse (ops ++ [op]) path text := by
  rw [Lib.run_concat] at hnew
  have hmem := mem_newNotices hnew hcall
  cases op with
  | processReceivedAnnouncement now receivingInterfaceName message =>
    rw [newNotices] at hmem
    split at hmem
    · rename_i a ha
      unfold DeviceMonitor.announceNotices at hmem
      split at hmem
      · obtain ⟨rfl, rfl⟩ := Call.announce.inj (List.mem_singleton.mp hmem)
        obtain ⟨hop, -⟩ := Op.accepted_eq_some_iff.mp ha
        refine ⟨announcesPath_of_accepted ha, ops, a.now, [], by rw [hop], ⟨a, hop ▸ ha, rfl⟩, ?_⟩
        simp
      · exact absurd hmem (by simp)
    · exact absurd hmem (by simp)
  | checkForExpiredAnnouncements timeNow order =>
    obtain ⟨entry, -, hentry⟩ := List.mem_flatMap.mp hmem
    split at hentry
    · unfold DeviceMonitor.expiryNotices at hentry
      split at hentry <;> simp at hentry
    · exact absurd hentry (by simp)
  | setAnnounceCb cb order =>
    rw [newNotices] at hmem
    split at hmem
    · obtain ⟨entry, hentry, hannounce⟩ := List.mem_flatMap.mp hmem
      rw [(order.perm _).mem_iff] at hentry
      unfold DeviceMonitor.replayNotices at hannounce
      split at hannounce
      · rename_i path' hpath
        obtain ⟨rfl, rfl⟩ := Call.announce.inj (List.mem_singleton.mp hannounce)
        obtain ⟨htext, pre, now, post, hops, ha, hlast⟩ :=
          lastAnnouncedOn_of_stored (lookup_isSome_iff.mpr hentry) hpath
        refine ⟨htext, pre, now, post ++ [.setAnnounceCb cb order], by rw [hops]; simp, ha,
          fun later hlater b hb => ?_⟩
        rcases List.mem_append.mp hlater with hlater | hlater
        · exact hlast later hlater b hb
        · rw [List.mem_singleton.mp hlater] at hb
          exact absurd hb (by simp [Op.accepted])
      · exact absurd hannounce (by simp)
    · exact absurd hmem (by simp)
  | setExpireCb cb => exact absurd hmem (by simp [newNotices])
  | setErrorCb cb => exact absurd hmem (by simp [newNotices])

/-! ## One device on two interfaces -/

def samplePath (receivingInterface : StdString) : CommunicationPath :=
  ⟨receivingInterface, sampleDevice.sendingInterface, sampleDevice.uuid, sampleDevice.router⟩

def sampleReceived (receivingInterface : StdString) : Op :=
  .processReceivedAnnouncement 0 receivingInterface sampleDevice.text

theorem sampleReceived_accepted (receivingInterface : StdString) :
    (sampleReceived receivingInterface).accepted (Device.reader [sampleDevice]) =
      some ⟨samplePath receivingInterface, sampleDevice.text, 0, sampleDevice.expiration⟩ :=
  Op.accepted_device reader_sampleDevice sampleDevice_plain 0 receivingInterface

/-- The announcement as it is replayed to a callback that comes later. -/
theorem announce_truthful_sampleDevice :
    LastAnnouncedOn (Device.reader [sampleDevice])
      ([sampleReceived "eth0".toList] ++ [.setAnnounceCb (some .quiet) .stored])
      (samplePath "eth0".toList) sampleDevice.text := by
  have hstored := stored_of_accepted [] (sampleReceived_accepted "eth0".toList)
  obtain ⟨new, hnew, hmem⟩ := replayed_of_stored hstored (by decide) .quiet .stored
  exact (announce_truthful _ _ _ new (by rw [Lib.run_concat]; exact hnew) _ _ hmem).2

/-- **The interface of a call is not the one its text was last received on**: the replay reports
the path by `eth0`, after the same text came in by `eth1`. -/
theorem replay_of_other_interface :
    ¬∀ new, (run (step (Device.reader [sampleDevice])) {}
          ([sampleReceived "eth0".toList, sampleReceived "eth1".toList] ++
            [.setAnnounceCb (some .quiet) .stored])).calls =
        (run (step (Device.reader [sampleDevice])) {}
          [sampleReceived "eth0".toList, sampleReceived "eth1".toList]).calls ++ new →
      ∀ path text, .announce path text ∈ new →
        AnnouncesPath (Device.reader [sampleDevice]) path text ∧
          LastReceivedOn ([sampleReceived "eth0".toList, sampleReceived "eth1".toList] ++
            [.setAnnounceCb (some .quiet) .stored]) text path.receivingInterface := by
  intro h
  have hstored : Stored (Device.reader [sampleDevice])
      [sampleReceived "eth0".toList, sampleReceived "eth1".toList] (samplePath "eth0".toList).key
      ⟨sampleDevice.text, 0 + seconds 15⟩ := by
    have hne : (samplePath "eth0".toList).key ≠ (samplePath "eth1".toList).key := by decide
    rw [Stored, Lib.run_cons, Lib.run_cons, Lib.run_nil, lookup_step, sampleReceived_accepted]
    simp only [hne, if_false]
    rw [lookup_step, sampleReceived_accepted]
    exact if_pos rfl
  obtain ⟨new, hnew, hmem⟩ := replayed_of_stored hstored (by decide) .quiet .stored
  obtain ⟨-, pre, now, post, hops, hlast⟩ :=
    h new (by rw [Lib.run_concat]; exact hnew) _ _ hmem
  -- the text can only be the first one received, and the second comes after it
  have hsecond : sampleReceived "eth1".toList ∈ post := by
    rcases pre with _ | ⟨a, _ | ⟨b, _ | ⟨c, pre⟩⟩⟩
    · obtain ⟨-, rfl⟩ := List.cons.inj hops
      simp
    · simp [sampleReceived, samplePath] at hops
    · simp at hops
    · simp at hops
  exact hlast _ hsecond 0 "eth1".toList rfl

end DevScan.Monitor
