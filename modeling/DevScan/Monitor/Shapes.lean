import DevScan.Json.Shapes
import DevScan.Monitor.DroppedData

/-!
# `Monitor/Shapes.lean` — announcements of any shape

A received text may be any JSON document, with a value of any type where a member is expected.
`Acceptable` says which documents are announcements, in terms of their shapes alone; by
`announces_iff` they are those that `examine` gets to the end of.

What the exceptions do on the way is kept here (`receiveAnnouncement`): the accessors throw on
the wrong shapes, callbacks may throw, and the handlers of the `try` block call user code
themselves. Nothing gets out (`receiveAnnouncement_eq`), and a message is taken up or reported
as dropped, never both and never neither.
-/

set_option autoImplicit false

namespace DevScan.Monitor

open Json (Value)
open Json.Value (readString_eq_ok readUInt_eq_ok indexPath_eq_iff asString_eq_iff)

/-! ## The members of an announcement -/

def methodPath : List StdString := [Jsonrpc.method]
def namePath : List StdString := [Jsonrpc.params, tagNetSettings, tagInterface, tagName]
def uuidPath : List StdString := [Jsonrpc.params, tagDevice, tagUuid]
def routerPath : List StdString := [Jsonrpc.params, tagRouter, tagUuid]
def expirationPath : List StdString := [Jsonrpc.params, tagExpiration]

def memberPaths : List (List StdString) :=
  [methodPath, namePath, uuidPath, routerPath, expirationPath]

/-- **An acceptable document.** The router is the only member that may be missing. -/
structure Acceptable (announcement : Value) : Prop where
  root : announcement.IsObject
  indexable : ∀ path ∈ memberPaths, announcement.IndexableAlong path
  method : (announcement.getPath methodPath).text = tagAnnounce
  name_scalar : (announcement.getPath namePath).Scalar
  name_ne : (announcement.getPath namePath).text ≠ []
  uuid_scalar : (announcement.getPath uuidPath).Scalar
  uuid_ne : (announcement.getPath uuidPath).text ≠ []
  router_scalar : (announcement.getPath routerPath).Scalar
  expiration : (announcement.getPath expirationPath).Counts

/-- A string is read from a path exactly if every value on the way can be looked into, and the one
at its end is a scalar. -/
theorem readString_eq_ok_iff {v : Value} {path : List StdString} {s : StdString} :
    v.readString path = .ok s ↔
      v.IndexableAlong path ∧ (v.getPath path).Scalar ∧ (v.getPath path).text = s := by
  rw [readString_eq_ok]
  constructor
  · rintro ⟨w, hpath, hstring⟩
    obtain ⟨halong, rfl⟩ := indexPath_eq_iff.mp hpath
    exact ⟨halong, asString_eq_iff.mp hstring⟩
  · rintro ⟨halong, hstring⟩
    exact ⟨v.getPath path, indexPath_eq_iff.mpr ⟨halong, rfl⟩,
      asString_eq_iff.mpr hstring⟩

theorem scalar_of_text_ne {v : Value} (h : v.text ≠ []) : v.Scalar := by
  cases v with
  | arrayValue elems => exact absurd rfl h
  | objectValue members => exact absurd rfl h
  | _ => exact trivial

/-- Only an object has a member that is not null. -/
theorem isObject_of_text_ne {v : Value} {key : StdString} (h : (v.get key).text ≠ []) :
    v.IsObject := by
  cases v with
  | objectValue members => exact ⟨members, rfl⟩
  | _ => exact absurd rfl h

/-- **An acceptable document announces**, and the other way round; a real number as expiration is
left out. -/
theorem announces_iff {v : Value} (hreal : ∀ r, v.getPath expirationPath ≠ .realValue r)
    {sendingInterfaceName sendingUuid router : StdString} :
    (∃ expire, Announces v sendingInterfaceName sendingUuid router expire) ↔
      Acceptable v ∧ (v.getPath namePath).text = sendingInterfaceName ∧
        (v.getPath uuidPath).text = sendingUuid ∧ (v.getPath routerPath).text = router := by
  constructor
  · rintro ⟨expire, h⟩
    obtain ⟨hmethodIn, -, hmethod⟩ := readString_eq_ok_iff.mp h.method
    obtain ⟨hnameIn, hnameScalar, hname⟩ := readString_eq_ok_iff.mp h.sendingInterface
    obtain ⟨huuidIn, huuidScalar, huuid⟩ := readString_eq_ok_iff.mp h.uuid
    obtain ⟨hrouterIn, hrouterScalar, hrouter⟩ := readString_eq_ok_iff.mp h.router
    obtain ⟨w, hpath, hcount⟩ := readUInt_eq_ok.mp h.expiration
    obtain ⟨hexpirationIn, rfl⟩ := indexPath_eq_iff.mp hpath
    have hannounce : (v.get Jsonrpc.method).text ≠ [] := fun hnil =>
      absurd (hmethod.symm.trans hnil) (by decide)
    refine ⟨?_, hname, huuid, hrouter⟩
    exact
      { root := isObject_of_text_ne hannounce
        indexable := by
          simp only [memberPaths, List.forall_mem_cons]
          exact ⟨hmethodIn, hnameIn, huuidIn, hrouterIn, hexpirationIn, by simp⟩
        method := hmethod
        name_scalar := hnameScalar
        name_ne := hname ▸ h.sendingInterface_ne
        uuid_scalar := huuidScalar
        uuid_ne := huuid ▸ h.uuid_ne
        router_scalar := hrouterScalar
        expiration := (Value.asUInt_pos_iff hreal).mp ⟨expire, hcount, h.expire_pos⟩ }
  · rintro ⟨h, rfl, rfl, rfl⟩
    have halong := h.indexable
    simp only [memberPaths, List.forall_mem_cons] at halong
    obtain ⟨hmethodIn, hnameIn, huuidIn, hrouterIn, hexpirationIn, -⟩ := halong
    have hannounce : (v.getPath methodPath).text ≠ [] := fun hnil =>
      absurd (h.method.symm.trans hnil) (by decide)
    obtain ⟨expire, hcount, hpos⟩ := (Value.asUInt_pos_iff hreal).mpr h.expiration
    refine ⟨expire, ?_⟩
    exact
      { method := readString_eq_ok_iff.mpr ⟨hmethodIn, scalar_of_text_ne hannounce, h.method⟩
        sendingInterface := readString_eq_ok_iff.mpr ⟨hnameIn, h.name_scalar, rfl⟩
        uuid := readString_eq_ok_iff.mpr ⟨huuidIn, h.uuid_scalar, rfl⟩
        router := readString_eq_ok_iff.mpr ⟨hrouterIn, h.router_scalar, rfl⟩
        expiration := readUInt_eq_ok.mpr
          ⟨_, indexPath_eq_iff.mpr ⟨hexpirationIn, rfl⟩, hcount⟩
        sendingInterface_ne := h.name_ne
        uuid_ne := h.uuid_ne
        expire_pos := hpos }

/-- The path of an acceptable announcement received on an interface. -/
def pathOf (receivingInterfaceName : StdString) (announcement : Value) : CommunicationPath :=
  ⟨receivingInterfaceName, (announcement.getPath namePath).text,
    (announcement.getPath uuidPath).text, (announcement.getPath routerPath).text⟩

/-- The text is one of an acceptable document. -/
def AcceptableText (parse : Json.Reader) (message : StdString) : Prop :=
  ∃ announcement, parse message = some announcement ∧ Acceptable announcement

theorem examine_accepts_iff {parse : Json.Reader} {message : StdString}
    (hreal : ∀ v r, parse message = some v → v.getPath expirationPath ≠ .realValue r) :
    (∃ si uuid router expire, examine parse message = .ok (.accepted si uuid router expire)) ↔
      AcceptableText parse message := by
  constructor
  · rintro ⟨si, uuid, router, expire, haccepted⟩
    obtain ⟨v, hparse, hannounces⟩ := examine_eq_accepted_iff.mp haccepted
    exact ⟨v, hparse, ((announces_iff fun r => hreal v r hparse).mp ⟨expire, hannounces⟩).1⟩
  · rintro ⟨v, hparse, hacceptable⟩
    obtain ⟨expire, hannounces⟩ :=
      (announces_iff fun r => hreal v r hparse).mpr ⟨hacceptable, rfl, rfl, rfl⟩
    exact ⟨_, _, _, expire, examine_eq_accepted_iff.mpr ⟨v, hparse, hannounces⟩⟩

/-! ## What is thrown on the way -/

namespace DeviceMonitor

/-- `callErrorCb` with the exception the callback may throw: `catch(...)` ends it. -/
def reportError (m : DeviceMonitor) (errorCode : UInt32) (userMessage announcement : StdString) :
    Except Exn Unit × DeviceMonitor :=
  match m.errorCb with
  | some cb =>
    match m.invoke cb (.error errorCode userMessage announcement) with
    | (.ok (), m) => (.ok (), m)
    | (.error _, m) => (.ok (), m)
  | none => (.ok (), m)

/-- The `try` block of `processReceivedAnnouncement`: what it throws and what it has done by
then. -/
def tryReceived (parse : Json.Reader) (now : TimePoint) (receivingInterfaceName message : StdString)
    (m : DeviceMonitor) : Except Exn Unit × DeviceMonitor :=
  match examine parse message with
  | .error e => (.error e, m)
  | .ok (.rejected errorCode userMessage) => m.reportError errorCode userMessage message
  | .ok (.accepted sendingInterfaceName sendingUuid router expire) =>
    m.storeAnnouncement ⟨receivingInterfaceName, sendingInterfaceName, sendingUuid, router⟩ message
      (now + seconds expire)

/-- The two `catch` clauses. -/
def catchReceived (message : StdString) :
    Except Exn Unit × DeviceMonitor → Except Exn Unit × DeviceMonitor
  | (.ok (), m) => (.ok (), m)
  | (.error .stdException, m) =>
    m.reportError (dataDropped ||| eException1) "Receiving error 1".toList message
  | (.error .other, m) =>
    m.reportError (dataDropped ||| eException2) "Receiving error 2".toList message

/-- `processReceivedAnnouncement`, with what it throws to its caller. -/
def receiveAnnouncement (parse : Json.Reader) (now : TimePoint)
    (receivingInterfaceName message : StdString) (m : DeviceMonitor) :
    Except Exn Unit × DeviceMonitor :=
  catchReceived message (m.tryReceived parse now receivingInterfaceName message)

theorem reportError_eq (m : DeviceMonitor) (errorCode : UInt32)
    (userMessage announcement : StdString) :
    m.reportError errorCode userMessage announcement =
      (.ok (), m.callErrorCb errorCode userMessage announcement) := by
  unfold reportError callErrorCb
  cases hcb : m.errorCb with
  | none => rfl
  | some cb =>
    simp only [invoke]
    cases cb (m.calls ++ [.error errorCode userMessage announcement]) with
    | ok u =>
      cases u
      rfl
    | error e => rfl

theorem catchReceived_error (m : DeviceMonitor) (message : StdString) (e : Exn) :
    catchReceived message (.error e, m) = (.ok (), m.catchReceivingError message e) := by
  cases e with
  | stdException => exact m.reportError_eq _ _ message
  | other => exact m.reportError_eq _ _ message

/-- **Nothing gets out.** -/
theorem receiveAnnouncement_eq (parse : Json.Reader) (now : TimePoint)
    (receivingInterfaceName message : StdString) (m : DeviceMonitor) :
    m.receiveAnnouncement parse now receivingInterfaceName message =
      (.ok (), m.processReceivedAnnouncement parse now receivingInterfaceName message) := by
  unfold receiveAnnouncement tryReceived processReceivedAnnouncement
  cases examine parse message with
  | error e => exact m.catchReceived_error message e
  | ok verdict =>
    cases verdict with
    | rejected errorCode userMessage =>
      show catchReceived message (m.reportError errorCode userMessage message) = _
      rw [reportError_eq]
      rfl
    | accepted si uuid router expire =>
      cases hstore : m.storeAnnouncement ⟨receivingInterfaceName, si, uuid, router⟩ message
        (now + seconds expire) with
      | mk result m' =>
        simp only [hstore]
        cases result with
        | ok u => rfl
        | error e => exact m'.catchReceived_error message e

end DeviceMonitor

/-! ## Taken up or dropped -/

/-- No error is reported, and the entry is there with this text. -/
def TakenUp (parse : Json.Reader) (receivingInterfaceName message : StdString)
    (m m' : DeviceMonitor) : Prop :=
  (∃ calls, m'.calls = m.calls ++ calls ∧ ∀ c ∈ calls, ¬c.isError) ∧
    ∃ announcement, parse message = some announcement ∧
      (m'.announcements.lookup (pathOf receivingInterfaceName announcement).key).map
        ExpiringEntry.announcement = some message

/-- The error callback, where there is one, is called once and nothing else is, with the
`DATA_DROPPED` bit; the store is as it was. -/
def Dropped (message : StdString) (m m' : DeviceMonitor) : Prop :=
  (∃ errorCode userMessage, errorCode &&& dataDropped ≠ 0 ∧
    m'.calls = m.calls ++
      if m.errorCb.isSome then [.error errorCode userMessage message] else []) ∧
    m'.announcements = m.announcements

/-- With an error callback the two are told apart by whether it is called. -/
theorem not_takenUp_and_dropped {parse : Json.Reader} {receivingInterfaceName message : StdString}
    {m m' : DeviceMonitor} (hreg : m.errorCb.isSome) :
    ¬(TakenUp parse receivingInterfaceName message m m' ∧ Dropped message m m') := by
  rintro ⟨⟨⟨calls, hcalls, hquiet⟩, -⟩, ⟨errorCode, userMessage, -, hreport⟩, -⟩
  rw [if_pos hreg] at hreport
  obtain rfl := List.append_cancel_left (hcalls.symm.trans hreport)
  exact hquiet (.error errorCode userMessage message) List.mem_cons_self rfl

namespace DeviceMonitor

theorem dropped_callErrorCb (m : DeviceMonitor) {errorCode : UInt32} (userMessage message : StdString)
    (hbit : errorCode &&& dataDropped ≠ 0) :
    Dropped message m (m.callErrorCb errorCode userMessage message) := by
  unfold Dropped callErrorCb
  cases hcb : m.errorCb with
  | none => exact ⟨⟨errorCode, userMessage, hbit, by simp⟩, rfl⟩
  | some cb => exact ⟨⟨errorCode, userMessage, hbit, rfl⟩, rfl⟩

theorem dropped_catchReceivingError (m : DeviceMonitor) (message : StdString) (e : Exn) :
    Dropped message m (m.catchReceivingError message e) := by
  cases e with
  | stdException => exact m.dropped_callErrorCb _ message (by decide)
  | other => exact m.dropped_callErrorCb _ message (by decide)

/-- Storing throws nothing if the announce callback does not. -/
theorem storeAnnouncement_quiet {m : DeviceMonitor}
    (hquiet : ∀ cb, m.announceCb = some cb → ∀ calls, cb calls = .ok ())
    (path : CommunicationPath) (message : StdString) (timeOfExpiry : TimePoint) :
    (m.storeAnnouncement path message timeOfExpiry).1 = .ok () := by
  cases hresult : (m.storeAnnouncement path message timeOfExpiry).1 with
  | ok u => rfl
  | error e =>
    obtain ⟨cb, hcb, -, hthrow⟩ := storeAnnouncement_throws.mp hresult
    exact absurd (hthrow.symm.trans (hquiet cb hcb _)) (by simp)

theorem processReceivedAnnouncement_accepted {parse : Json.Reader}
    {receivingInterfaceName message si uuid router : StdString} {expire : Nat}
    (haccepted : examine parse message = .ok (.accepted si uuid router expire)) {m : DeviceMonitor}
    (hquiet : ∀ cb, m.announceCb = some cb → ∀ calls, cb calls = .ok ()) (now : TimePoint) :
    m.processReceivedAnnouncement parse now receivingInterfaceName message =
      (m.storeAnnouncement ⟨receivingInterfaceName, si, uuid, router⟩ message
        (now + seconds expire)).2 := by
  have hreturns := storeAnnouncement_quiet hquiet ⟨receivingInterfaceName, si, uuid, router⟩ message
    (now + seconds expire)
  rw [processReceivedAnnouncement, haccepted]
  cases hstored : m.storeAnnouncement ⟨receivingInterfaceName, si, uuid, router⟩ message
    (now + seconds expire) with
  | mk result m' =>
    rw [hstored] at hreturns
    obtain rfl : result = .ok () := hreturns
    simp only [hstored]

end DeviceMonitor

open DeviceMonitor

/-- **Acceptance over all shapes.** For every text and whatever it parses to — a real as
expiration left out — and callbacks of which the announce callback does not throw: no exception
comes out, an acceptable document is taken up, and any other is dropped. -/
theorem received_takenUp_or_dropped {parse : Json.Reader} {message : StdString}
    (hreal : ∀ v r, parse message = some v → v.getPath expirationPath ≠ .realValue r)
    {m : DeviceMonitor} (hquiet : ∀ cb, m.announceCb = some cb → ∀ calls, cb calls = .ok ())
    (now : TimePoint) (receivingInterfaceName : StdString) :
    ∃ m', m.receiveAnnouncement parse now receivingInterfaceName message = (.ok (), m') ∧
      (AcceptableText parse message ∧ TakenUp parse receivingInterfaceName message m m' ∨
        ¬AcceptableText parse message ∧ Dropped message m m') ∧
      (m.errorCb.isSome →
        ¬(TakenUp parse receivingInterfaceName message m m' ∧ Dropped message m m')) := by
  refine ⟨_, m.receiveAnnouncement_eq parse now receivingInterfaceName message, ?_,
    not_takenUp_and_dropped⟩
  have hiff := examine_accepts_iff hreal
  cases hexamine : examine parse message with
  | error e =>
    refine Or.inr ⟨fun hacceptable => ?_, ?_⟩
    · obtain ⟨si, uuid, router, expire, haccepted⟩ := hiff.mpr hacceptable
      exact absurd (hexamine.symm.trans haccepted) (by simp)
    · rw [processReceivedAnnouncement, hexamine]
      exact m.dropped_catchReceivingError message e
  | ok verdict =>
    cases verdict with
    | rejected errorCode userMessage =>
      refine Or.inr ⟨fun hacceptable => ?_, ?_⟩
      · obtain ⟨si, uuid, router, expire, haccepted⟩ := hiff.mpr hacceptable
        exact absurd (hexamine.symm.trans haccepted) (by simp)
      · rw [processReceivedAnnouncement, hexamine]
        exact m.dropped_callErrorCb userMessage message (dropsData_examine _ hexamine)
    | accepted si uuid router expire =>
      obtain ⟨v, hparse, hannounces⟩ := examine_eq_accepted_iff.mp hexamine
      obtain ⟨-, rfl, rfl, rfl⟩ :=
        (announces_iff fun r => hreal v r hparse).mp ⟨expire, hannounces⟩
      refine Or.inl ⟨hiff.mp ⟨_, _, _, expire, hexamine⟩, ?_⟩
      rw [processReceivedAnnouncement_accepted hexamine hquiet now, storeAnnouncement_snd]
      refine ⟨⟨_, rfl, fun c hc => ?_⟩, v, hparse, ?_⟩
      · rw [← notices_announceNotices, notices, List.mem_filter] at hc
        simpa using hc.2
      · show ((m.announcements.insert (pathOf receivingInterfaceName v).key _).lookup
          (pathOf receivingInterfaceName v).key).map ExpiringEntry.announcement = some message
        rw [AList.lookup_insert]
        rfl

/-- The sample announcement is taken up, by a monitor with both callbacks. -/
theorem received_takenUp_sampleDevice :
    ∃ m', DeviceMonitor.receiveAnnouncement (Device.reader [sampleDevice]) 0 "eth0".toList
          sampleDevice.text { announceCb := some Callback.quiet, errorCb := some Callback.quiet } =
        (.ok (), m') ∧
      TakenUp (Device.reader [sampleDevice]) "eth0".toList sampleDevice.text
        { announceCb := some Callback.quiet, errorCb := some Callback.quiet } m' := by
  have hparse : ∀ v, Device.reader [sampleDevice] sampleDevice.text = some v →
      v = sampleDevice.json := fun v hv => Option.some.inj (hv.symm.trans reader_sampleDevice)
  have hreal : ∀ v r, Device.reader [sampleDevice] sampleDevice.text = some v →
      v.getPath expirationPath ≠ .realValue r := by
    intro v r hv hr
    have hint : sampleDevice.json.getPath expirationPath = .intValue 15 := rfl
    rw [hparse v hv, hint] at hr
    exact absurd hr (by simp)
  have hacceptable : AcceptableText (Device.reader [sampleDevice]) sampleDevice.text :=
    (examine_accepts_iff hreal).mp ⟨_, _, _, _, examine_eq_accepted_iff.mpr
      ⟨_, reader_sampleDevice, Device.announces_json sampleDevice_plain⟩⟩
  obtain ⟨m', hreceived, hcase, -⟩ := @received_takenUp_or_dropped _ _ hreal
    { announceCb := some Callback.quiet, errorCb := some Callback.quiet }
    (fun cb hcb calls => by rw [← Option.some.inj hcb]; rfl) 0 "eth0".toList
  rcases hcase with ⟨-, htaken⟩ | ⟨hnot, -⟩
  · exact ⟨m', hreceived, htaken⟩
  · exact absurd hacceptable hnot

end DevScan.Monitor
