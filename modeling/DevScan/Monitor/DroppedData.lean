import DevScan.Monitor.Steps

/-!
# `Monitor/DroppedData.lean` — what `DATA_DROPPED` reports

The bit says that the received data was discarded and that nothing was forwarded. Every error
`processReceivedAnnouncement` reports carries it (`dropsData_catchReceivingError`,
`dropsData_examine`), those of the two `catch` clauses included, and these also catch what the
announce callback throws — after the entry has been written and the callback has been entered.

`processReceivedAnnouncement_errors` says which calls report an error at all;
`droppedUntouched_iff` is then one comparison with the calls that write.
-/

set_option autoImplicit false

namespace DevScan.Monitor

open Lib (of_bind_eq_ok of_ite_eq_ok)

/-- An error call with the `DATA_DROPPED` bit. -/
def Call.dropsData : Call → Bool
  | .error errorCode _ _ => errorCode &&& dataDropped ≠ 0
  | _ => false

theorem Call.isError_of_dropsData {c : Call} (h : c.dropsData) : c.isError := by
  cases c with
  | announce path announcement => exact absurd h (by simp [dropsData])
  | expire path => exact absurd h (by simp [dropsData])
  | error errorCode userMessage announcement => rfl

/-- The calls made on the way from `m` to `m'`. -/
def newCalls (m m' : DeviceMonitor) : List Call := m'.calls.drop m.calls.length

/-- **A message reported as dropped has left no trace**: the store is what it was, no notice was
given, and the same message received again is announced just as if it came for the first time. -/
def DroppedUntouched (parse : Json.Reader) (m : DeviceMonitor) (now : TimePoint)
    (receivingInterfaceName message : StdString) : Prop :=
  let m' := m.processReceivedAnnouncement parse now receivingInterfaceName message
  (∃ c ∈ newCalls m m', c.dropsData) →
    m'.announcements = m.announcements ∧ notices (newCalls m m') = [] ∧
      ∀ later, newNotices parse m' (.processReceivedAnnouncement later receivingInterfaceName message) =
        newNotices parse m (.processReceivedAnnouncement later receivingInterfaceName message)

/-- The message is accepted, a callback is to be told of it, and throws when it is. -/
def AnnounceThrows (parse : Json.Reader) (m : DeviceMonitor) (now : TimePoint)
    (receivingInterfaceName message : StdString) : Prop :=
  ∃ a cb e, (Op.processReceivedAnnouncement now receivingInterfaceName message).accepted parse = some a ∧
    m.announceCb = some cb ∧
    (m.announcements.lookup a.path.key).map ExpiringEntry.announcement ≠ some message ∧
    cb (m.calls ++ [.announce a.path message]) = .error e

/-! ## Every error carries the bit -/

def Verdict.DropsData : Verdict → Prop
  | .rejected errorCode _ => errorCode &&& dataDropped ≠ 0
  | .accepted .. => True

theorem dropsData_examine {parse : Json.Reader} {message : StdString} :
    ∀ verdict, examine parse message = .ok verdict → verdict.DropsData := by
  have hrejected : ∀ (errorCode : UInt32) (userMessage : StdString) (verdict : Verdict),
      errorCode &&& dataDropped ≠ 0 →
      (pure (.rejected errorCode userMessage) : Except Exn Verdict) = .ok verdict →
        verdict.DropsData := by
    intro errorCode userMessage verdict hbit heq
    obtain rfl := Except.ok.inj heq
    exact hbit
  unfold examine
  split
  · exact fun verdict => hrejected _ _ verdict (by decide)
  · -- one step for each `←`, one for each `if`
    refine of_bind_eq_ok fun _ => of_bind_eq_ok fun method => of_ite_eq_ok
      (fun verdict => hrejected _ _ verdict (by decide)) ?_
    refine of_bind_eq_ok fun params => of_bind_eq_ok fun _ => of_bind_eq_ok fun name => of_ite_eq_ok
      (fun verdict => hrejected _ _ verdict (by decide)) ?_
    refine of_bind_eq_ok fun _ => of_bind_eq_ok fun uuid => of_ite_eq_ok
      (fun verdict => hrejected _ _ verdict (by decide)) ?_
    refine of_bind_eq_ok fun _ => of_bind_eq_ok fun router => of_bind_eq_ok fun _ =>
      of_bind_eq_ok fun expire => of_ite_eq_ok
      (fun verdict => hrejected _ _ verdict (by decide)) ?_
    intro verdict heq
    obtain rfl := Except.ok.inj heq
    exact trivial

namespace DeviceMonitor

theorem newCalls_append {m m' : DeviceMonitor} {calls : List Call}
    (h : m'.calls = m.calls ++ calls) : newCalls m m' = calls := by
  rw [newCalls, h, List.drop_left]

theorem dropsData_callErrorCb (m : DeviceMonitor) {errorCode : UInt32}
    (userMessage announcement : StdString) (hbit : errorCode &&& dataDropped ≠ 0) :
    ∃ errs, (m.callErrorCb errorCode userMessage announcement).calls = m.calls ++ errs ∧
      ((∃ c ∈ errs, c.dropsData) ↔ m.errorCb.isSome) := by
  unfold callErrorCb
  cases m.errorCb with
  | none => exact ⟨[], (List.append_nil _).symm, by simp⟩
  | some cb => exact ⟨[.error errorCode userMessage announcement], rfl, by simp [Call.dropsData, hbit]⟩

theorem dropsData_catchReceivingError (m : DeviceMonitor) (message : StdString) (e : Exn) :
    ∃ errs, (m.catchReceivingError message e).calls = m.calls ++ errs ∧
      ((∃ c ∈ errs, c.dropsData) ↔ m.errorCb.isSome) := by
  cases e with
  | stdException => exact m.dropsData_callErrorCb _ message (by decide)
  | other => exact m.dropsData_callErrorCb _ message (by decide)

/-! ## When an error is reported -/

/-- Storing throws what the announce callback throws, if that is called at all. -/
theorem storeAnnouncement_throws {m : DeviceMonitor} {path : CommunicationPath}
    {message : StdString} {timeOfExpiry : TimePoint} {e : Exn} :
    (m.storeAnnouncement path message timeOfExpiry).1 = .error e ↔
      ∃ cb, m.announceCb = some cb ∧
        (m.announcements.lookup path.key).map ExpiringEntry.announcement ≠ some message ∧
        cb (m.calls ++ [.announce path message]) = .error e := by
  have hcall : ∀ m' : DeviceMonitor, m'.announceCb = m.announceCb → m'.calls = m.calls →
      ((m'.callAnnounceCb path message).1 = .error e ↔
        ∃ cb, m.announceCb = some cb ∧ cb (m.calls ++ [.announce path message]) = .error e) := by
    intro m' hcb hcalls
    unfold callAnnounceCb
    rw [hcb]
    cases m.announceCb with
    | none => simp
    | some cb => simp [invoke, hcalls]
  unfold storeAnnouncement
  cases hlookup : m.announcements.lookup path.key with
  | none => simpa using hcall (m.setEntry path.key ⟨message, timeOfExpiry⟩) rfl rfl
  | some currentEntry =>
    by_cases htext : message = currentEntry.announcement
    · simp [htext]
    · have htext' : currentEntry.announcement ≠ message := fun h => htext h.symm
      simp only [ne_eq, htext, not_false_eq_true, if_true, Option.map_some, Option.some.injEq, htext',
        true_and]
      exact hcall (m.setEntry path.key ⟨message, timeOfExpiry⟩) rfl rfl

/-- The announce callback is told of data that is there. -/
theorem not_dropsData_announceNotices (m : DeviceMonitor) (path : CommunicationPath)
    (message : StdString) : ∀ c ∈ m.announceNotices path message, ¬c.dropsData := by
  intro c hc hdrops
  have herr := Call.isError_of_dropsData hdrops
  rw [← notices_announceNotices, notices, List.mem_filter, herr] at hc
  exact absurd hc.2 (by simp)

/-- **The messages reported as dropped**: those that are not accepted, and those whose
announcement throws. -/
theorem dropsData_processReceivedAnnouncement (parse : Json.Reader) (now : TimePoint)
    (receivingInterfaceName message : StdString) (m : DeviceMonitor) :
    (∃ c ∈ newCalls m (m.processReceivedAnnouncement parse now receivingInterfaceName message),
        c.dropsData) ↔
      m.errorCb.isSome ∧
        ((Op.processReceivedAnnouncement now receivingInterfaceName message).accepted parse = none ∨
          AnnounceThrows parse m now receivingInterfaceName message) := by
  unfold processReceivedAnnouncement AnnounceThrows
  simp only [Op.accepted]
  cases hx : examine parse message with
  | error e =>
    obtain ⟨errs, hcalls, hdrops⟩ := m.dropsData_catchReceivingError message e
    rw [newCalls_append hcalls, hdrops]
    simp
  | ok verdict =>
    have hbit := dropsData_examine verdict hx
    cases verdict with
    | rejected errorCode userMessage =>
      obtain ⟨errs, hcalls, hdrops⟩ := m.dropsData_callErrorCb userMessage message hbit
      simp only
      rw [newCalls_append hcalls, hdrops]
      simp
    | accepted si uuid router expire =>
      have hthrows := @storeAnnouncement_throws m ⟨receivingInterfaceName, si, uuid, router⟩ message
        (now + seconds expire)
      have hstore := m.storeAnnouncement_snd ⟨receivingInterfaceName, si, uuid, router⟩ message
        (now + seconds expire)
      cases hs : m.storeAnnouncement ⟨receivingInterfaceName, si, uuid, router⟩ message
        (now + seconds expire) with
      | mk result m' =>
        rw [hs] at hthrows hstore
        obtain rfl : m' = _ := hstore
        have hquiet := m.not_dropsData_announceNotices
          ⟨receivingInterfaceName, si, uuid, router⟩ message
        cases result with
        | ok u =>
          simp only [hs]
          rw [newCalls_append rfl]
          refine iff_of_false (fun h => h.elim fun c hc => hquiet c hc.1 hc.2) ?_
          intro hright
          rcases hright.2 with hnone | hthrow
          · exact absurd hnone (by simp)
          · obtain ⟨a, cb, e, ha, hcb, htext, he⟩ := hthrow
            obtain rfl := Option.some.inj ha
            exact absurd (hthrows.mpr ⟨cb, hcb, htext, he⟩) (by simp)
        | error e =>
          simp only [hs]
          obtain ⟨cb, hcb, htext, he⟩ := hthrows.mp rfl
          obtain ⟨errs, hcalls, hdrops⟩ := dropsData_catchReceivingError
            { m with
              announcements := m.announcements.insert _ ⟨message, now + seconds expire⟩
              calls := m.calls ++ m.announceNotices _ message } message e
          rw [newCalls_append (hcalls.trans (List.append_assoc _ _ _))]
          simp only [List.mem_append, or_and_right, exists_or, hdrops]
          constructor
          · intro h
            rcases h with ⟨c, hc, hdrop⟩ | hreg
            · exact absurd hdrop (hquiet c hc)
            · exact ⟨hreg, Or.inr ⟨_, cb, e, rfl, hcb, htext, he⟩⟩
          · exact fun h => Or.inr h.1

end DeviceMonitor

/-! ## What the bit promises -/

open DeviceMonitor

/-- A callback that is told of the message and throws has been told of it. -/
theorem not_droppedUntouched {parse : Json.Reader} {m : DeviceMonitor} {now : TimePoint}
    {receivingInterfaceName message : StdString} (hreg : m.errorCb.isSome)
    (hthrow : AnnounceThrows parse m now receivingInterfaceName message) :
    ¬DroppedUntouched parse m now receivingInterfaceName message := by
  intro huntouched
  have hdrop := (dropsData_processReceivedAnnouncement parse now receivingInterfaceName message
    m).mpr ⟨hreg, Or.inr hthrow⟩
  obtain ⟨-, hnotices, -⟩ := huntouched hdrop
  obtain ⟨errs, -, heq⟩ := m.processReceivedAnnouncement_eq parse now receivingInterfaceName message
  obtain ⟨a, cb, e, ha, hcb, htext, -⟩ := hthrow
  obtain ⟨hop, -⟩ := Op.accepted_eq_some_iff.mp ha
  have hmessage : message = a.text := (Op.processReceivedAnnouncement.inj hop).2.2
  rw [heq, ha, newCalls_append (List.append_assoc _ _ _), notices_append, notices_announceNotices,
    announceNotices, if_pos ⟨by rw [hcb]; rfl, hmessage ▸ htext⟩] at hnotices
  exact absurd hnotices (by simp)

/-- **`DATA_DROPPED` means that nothing happened, unless the announce callback threw.** -/
theorem droppedUntouched_iff (parse : Json.Reader) (m : DeviceMonitor) (now : TimePoint)
    (receivingInterfaceName message : StdString) :
    DroppedUntouched parse m now receivingInterfaceName message ↔
      ¬(m.errorCb.isSome ∧ AnnounceThrows parse m now receivingInterfaceName message) := by
  constructor
  · intro huntouched hthrow
    exact not_droppedUntouched hthrow.1 hthrow.2 huntouched
  · intro hreturns hdrop
    obtain ⟨hreg, hcase⟩ := (dropsData_processReceivedAnnouncement parse now receivingInterfaceName
      message m).mp hdrop
    have hrejected := hcase.resolve_right fun hthrow => hreturns ⟨hreg, hthrow⟩
    obtain ⟨errs, herrs, heq⟩ :=
      m.processReceivedAnnouncement_eq parse now receivingInterfaceName message
    rw [hrejected] at heq
    rw [heq]
    refine ⟨rfl, ?_, fun later => rfl⟩
    rw [newCalls_append rfl, herrs]

/-- A new device, an announce callback that throws and an error callback: the announcement is
stored and was forwarded, and is reported as dropped. -/
theorem not_droppedUntouched_sampleDevice :
    ¬DroppedUntouched (Device.reader [sampleDevice])
      { announceCb := some fun _ => .error .other, errorCb := some Callback.quiet } 0
      "eth0".toList sampleDevice.text := by
  have haccepted := Op.accepted_device reader_sampleDevice sampleDevice_plain 0 "eth0".toList
  exact not_droppedUntouched rfl
    ⟨_, fun _ => .error .other, .other, haccepted, rfl, by simp, rfl⟩

end DevScan.Monitor
