import DevScan.Lib.Throwing
import DevScan.Monitor.DeviceMonitor

/-!
# `Monitor/Accepted.lean` — what an accepted telegram says

`examine` reads a telegram field by field and leaves at the first that is missing. A telegram
that gets to the end is said here by what its JSON document holds (`Announces`), in one
equivalence (`examine_eq_accepted_iff`); nothing later looks into `examine` again.
-/

set_option autoImplicit false

namespace DevScan

open Lib (bind_eq_ok pure_eq_ok ite_eq_ok_of_ne)

namespace Json.Value

/-- A member of a member … read as a string. -/
def readString (v : Value) (keys : List StdString) : Except Exn StdString := do
  (← v.indexPath keys).asString

def readUInt (v : Value) (keys : List StdString) : Except Exn Nat := do
  (← v.indexPath keys).asUInt

theorem readString_eq_ok {v : Value} {keys : List StdString} {s : StdString} :
    v.readString keys = .ok s ↔ ∃ w, v.indexPath keys = .ok w ∧ w.asString = .ok s := bind_eq_ok

theorem readUInt_eq_ok {v : Value} {keys : List StdString} {n : Nat} :
    v.readUInt keys = .ok n ↔ ∃ w, v.indexPath keys = .ok w ∧ w.asUInt = .ok n := bind_eq_ok

theorem indexPath_cons_eq_ok {v w : Value} {key : StdString} {keys : List StdString} :
    v.indexPath (key :: keys) = .ok w ↔ ∃ u, v.index key = .ok u ∧ u.indexPath keys = .ok w :=
  bind_eq_ok

theorem indexPath_singleton (v : Value) (key : StdString) : v.indexPath [key] = v.index key := by
  simp [indexPath]

end Json.Value

namespace Monitor

open Json.Value (readString_eq_ok readUInt_eq_ok indexPath_cons_eq_ok indexPath_singleton)

/-- The document is an announcement of the given sending interface, uuid and router, valid for
`expire` seconds. -/
structure Announces (announcement : Json.Value) (sendingInterfaceName sendingUuid router : StdString)
    (expire : Nat) : Prop where
  method : announcement.readString [Jsonrpc.method] = .ok tagAnnounce
  sendingInterface :
    announcement.readString [Jsonrpc.params, tagNetSettings, tagInterface, tagName] =
      .ok sendingInterfaceName
  uuid : announcement.readString [Jsonrpc.params, tagDevice, tagUuid] = .ok sendingUuid
  router : announcement.readString [Jsonrpc.params, tagRouter, tagUuid] = .ok router
  expiration : announcement.readUInt [Jsonrpc.params, tagExpiration] = .ok expire
  sendingInterface_ne : sendingInterfaceName ≠ []
  uuid_ne : sendingUuid ≠ []
  expire_pos : 0 < expire

/-- **A telegram is accepted exactly if it parses to an announcement.** -/
theorem examine_eq_accepted_iff {parse : Json.Reader}
    {message sendingInterfaceName sendingUuid router : StdString} {expire : Nat} :
    examine parse message = .ok (.accepted sendingInterfaceName sendingUuid router expire) ↔
      ∃ announcement, parse message = some announcement ∧
        Announces announcement sendingInterfaceName sendingUuid router expire := by
  unfold examine
  cases hparse : parse message with
  | none => simp
  | some announcement =>
    simp only [bind_eq_ok, ite_eq_ok_of_ne, pure_eq_ok, ne_eq, reduceCtorEq, not_false_eq_true,
      Verdict.accepted.injEq, Decidable.not_not]
    constructor
    · rintro ⟨method, hmethod, _, hasMethod, rfl, params, hparams, name, hname, _, hasName, hname_ne,
        uuid, huuid, _, hasUuid, huuid_ne, router, hrouter, _, hasRouter, expiration, hexpiration, _,
        hasExpire, hexpire_ne, rfl, rfl, rfl, rfl⟩
      have hread : ∀ {keys v}, params.indexPath keys = .ok v →
          announcement.indexPath (Jsonrpc.params :: keys) = .ok v :=
        fun h => indexPath_cons_eq_ok.mpr ⟨params, hparams, h⟩
      refine ⟨announcement, rfl, ?_⟩
      exact
        { method := readString_eq_ok.mpr
            ⟨method, (indexPath_singleton _ _).trans hmethod, hasMethod⟩
          sendingInterface := readString_eq_ok.mpr ⟨name, hread hname, hasName⟩
          uuid := readString_eq_ok.mpr ⟨uuid, hread huuid, hasUuid⟩
          router := readString_eq_ok.mpr ⟨router, hread hrouter, hasRouter⟩
          expiration := readUInt_eq_ok.mpr
            ⟨expiration, hread ((indexPath_singleton _ _).trans hexpiration), hasExpire⟩
          sendingInterface_ne := hname_ne
          uuid_ne := huuid_ne
          expire_pos := Nat.pos_of_ne_zero hexpire_ne }
    · rintro ⟨_, ⟨⟩, h⟩
      obtain ⟨method, hmethod, hasMethod⟩ := readString_eq_ok.mp h.method
      obtain ⟨name, hname, hasName⟩ := readString_eq_ok.mp h.sendingInterface
      obtain ⟨uuid, huuid, hasUuid⟩ := readString_eq_ok.mp h.uuid
      obtain ⟨router, hrouter, hasRouter⟩ := readString_eq_ok.mp h.router
      obtain ⟨expiration, hexpiration, hasExpire⟩ := readUInt_eq_ok.mp h.expiration
      obtain ⟨params, hparams, hname⟩ := indexPath_cons_eq_ok.mp hname
      -- `params` is read once; every path leads through the same value
      have hread : ∀ {keys v}, announcement.indexPath (Jsonrpc.params :: keys) = .ok v →
          params.indexPath keys = .ok v := by
        intro keys v hv
        obtain ⟨params', hparams', hv⟩ := indexPath_cons_eq_ok.mp hv
        rw [hparams] at hparams'
        exact Except.ok.inj hparams' ▸ hv
      exact ⟨method, (indexPath_singleton _ _).symm.trans hmethod, _, hasMethod, rfl, params, hparams,
        name, hname, _, hasName, h.sendingInterface_ne, uuid, hread huuid, _, hasUuid, h.uuid_ne,
        router, hread hrouter, _, hasRouter, expiration,
        (indexPath_singleton _ _).symm.trans (hread hexpiration), _, hasExpire,
        Nat.pos_iff_ne_zero.mp h.expire_pos, rfl, rfl, rfl, rfl⟩

/-! ## Announcements as devices send them

A device's announcement, reduced to the members the scan client reads: its document, and a text
of that document. -/

structure Device where
  uuid : StdString
  sendingInterface : StdString
  router : StdString
  expiration : Nat

namespace Device

def json (d : Device) : Json.Value :=
  .objectValue
    [(Jsonrpc.method, .stringValue tagAnnounce),
     (Jsonrpc.params, .objectValue
       [(tagDevice, .objectValue [(tagUuid, .stringValue d.uuid)]),
        (tagExpiration, .intValue d.expiration),
        (tagNetSettings, .objectValue
          [(tagInterface, .objectValue [(tagName, .stringValue d.sendingInterface)])]),
        (tagRouter, .objectValue [(tagUuid, .stringValue d.router)])])]

def text (d : Device) : StdString :=
  "\x7b\"method\":\"announce\",\"params\":\x7b\"device\":\x7b\"uuid\":\"".toList ++ d.uuid ++
    "\"\x7d,\"expiration\":".toList ++ Nat.toDigits 10 d.expiration ++
    ",\"netSettings\":\x7b\"interface\":\x7b\"name\":\"".toList ++ d.sendingInterface ++
    "\"\x7d\x7d,\"router\":\x7b\"uuid\":\"".toList ++ d.router ++ "\"\x7d\x7d\x7d".toList

/-- A reader that knows the announcements of the given devices and no other document. -/
def reader (devices : List Device) : Json.Reader := fun text =>
  (devices.find? fun d => d.text = text).map Device.json

/-- The device's strings are the ones read back: none is cut at a NUL, and the two that must be
there are. -/
structure Plain (d : Device) : Prop where
  uuid : Json.cString d.uuid = d.uuid
  sendingInterface : Json.cString d.sendingInterface = d.sendingInterface
  router : Json.cString d.router = d.router
  uuid_ne : d.uuid ≠ []
  sendingInterface_ne : d.sendingInterface ≠ []
  expiration : 0 < d.expiration ∧ d.expiration ≤ Json.maxUInt

theorem announces_json {d : Device} (h : d.Plain) :
    Announces d.json d.sendingInterface d.uuid d.router d.expiration where
  method := rfl
  sendingInterface := congrArg Except.ok h.sendingInterface
  uuid := congrArg Except.ok h.uuid
  router := congrArg Except.ok h.router
  expiration := if_pos ⟨Int.natCast_nonneg _, Int.ofNat_le.mpr h.expiration.2⟩
  sendingInterface_ne := h.sendingInterface_ne
  uuid_ne := h.uuid_ne
  expire_pos := h.expiration.1

end Device

/-- A device behind no router. -/
def sampleDevice : Device := ⟨"0009E500A1B2".toList, "eth1".toList, [], 15⟩

theorem sampleDevice_plain : sampleDevice.Plain :=
  ⟨by decide, by decide, by decide, by decide, by decide, by decide⟩

theorem reader_sampleDevice :
    Device.reader [sampleDevice] sampleDevice.text = some sampleDevice.json := by
  simp [Device.reader]

end Monitor
end DevScan
