import DevScan.Defines

/-!
# `Monitor/CommunicationPath.lean` — the key of an announcement

`m_announcements` is keyed by a text: the receiving interface, the sending interface, the uuid
and the router of an announcement, joined by `:`. Two operations take that text apart again
(`setAnnounceCb`'s replay and the expiry), by `split` and a token count.

**Decoding undoes encoding exactly on the paths none of whose four identifiers contains the
separator** (`ofKey_key`), and a key that decodes at all decodes to the path it was made from
(`ofKey_key_eq_ok`). The second fact is what survives on every path: a key made from an
identifier with a `:` has too many tokens, never the wrong four.
-/

set_option autoImplicit false

namespace DevScan.Monitor

/-- `DeviceMonitor::communicationPath`. -/
structure CommunicationPath where
  receivingInterface : StdString
  sendingInterface : StdString
  uuid : StdString
  router : StdString
deriving DecidableEq, Repr

namespace CommunicationPath

/-- The constructor from a key; it throws `std::runtime_error` unless there are four tokens. -/
def ofKey (communicationPath : StdString) : Except Exn CommunicationPath :=
  match Text.split communicationPath ":".toList with
  | [receivingInterface, sendingInterface, uuid, router] =>
    .ok ⟨receivingInterface, sendingInterface, uuid, router⟩
  | _ => .error .stdException

/-- The key `processReceivedAnnouncement` puts together. -/
def key (p : CommunicationPath) : StdString :=
  p.receivingInterface ++ ":".toList ++ p.sendingInterface ++ ":".toList ++ p.uuid ++
    ":".toList ++ p.router

/-- No identifier of the path contains the separator of the keys. -/
def ColonFree (p : CommunicationPath) : Prop :=
  ':' ∉ p.receivingInterface ∧ ':' ∉ p.sendingInterface ∧ ':' ∉ p.uuid ∧ ':' ∉ p.router

instance (p : CommunicationPath) : Decidable p.ColonFree :=
  inferInstanceAs (Decidable (_ ∧ _ ∧ _ ∧ _))

theorem count_key (p : CommunicationPath) :
    p.key.count ':' = p.receivingInterface.count ':' + p.sendingInterface.count ':' +
      p.uuid.count ':' + p.router.count ':' + 3 := by
  have hsep : (":".toList).count ':' = 1 := by decide
  simp only [key, List.count_append, hsep]
  omega

theorem colonFree_iff_count (p : CommunicationPath) : p.ColonFree ↔ p.key.count ':' = 3 := by
  rw [count_key, ColonFree]
  simp only [← List.count_eq_zero]
  omega

theorem split_key {p : CommunicationPath} (h : p.ColonFree) :
    Text.split p.key ":".toList = [p.receivingInterface, p.sendingInterface, p.uuid, p.router] := by
  have hkey : p.key =
      [':'].intercalate [p.receivingInterface, p.sendingInterface, p.uuid, p.router] := by
    simp [key, List.intercalate]
  rw [show ":".toList = [':'] from rfl, Text.split_singleton, hkey]
  refine List.splitOn_intercalate ':' (fun l hl => ?_) (by simp)
  simp only [List.mem_cons, List.not_mem_nil, or_false] at hl
  rcases hl with rfl | rfl | rfl | rfl
  exacts [h.1, h.2.1, h.2.2.1, h.2.2.2]

theorem count_of_ofKey {k : StdString} {p : CommunicationPath} (h : ofKey k = .ok p) :
    k.count ':' = 3 := by
  have hlen : (k.splitOn ':').length = 4 := by
    unfold ofKey at h
    rw [show ":".toList = [':'] from rfl, Text.split_singleton] at h
    split at h
    · rename_i hsplit; rw [hsplit]; rfl
    · exact absurd h (by simp)
  rw [Lib.length_splitOn] at hlen
  omega

/-- **Decoding undoes encoding, where no identifier contains the separator.** -/
theorem ofKey_key {p : CommunicationPath} (h : p.ColonFree) : ofKey p.key = .ok p := by
  rw [ofKey, split_key h]

/-- **A key that decodes, decodes to the path it was made from**, and that path is free of
separators. -/
theorem ofKey_key_eq_ok {p q : CommunicationPath} :
    ofKey p.key = .ok q ↔ p.ColonFree ∧ q = p := by
  constructor
  · intro h
    have hp : p.ColonFree := (colonFree_iff_count p).mpr (count_of_ofKey h)
    rw [ofKey_key hp] at h
    exact ⟨hp, (Except.ok.inj h).symm⟩
  · intro hdecodes
    obtain ⟨hp, rfl⟩ := hdecodes
    exact ofKey_key hp

theorem eq_of_key_eq {p q : CommunicationPath} (hp : p.ColonFree) (h : p.key = q.key) : q = p := by
  have hq : ofKey q.key = .ok p := h ▸ ofKey_key hp
  exact (ofKey_key_eq_ok.mp hq).2.symm

theorem key_of_ofKey {k : StdString} {p : CommunicationPath} (h : ofKey k = .ok p) : p.key = k := by
  unfold ofKey at h
  rw [show ":".toList = [':'] from rfl, Text.split_singleton] at h
  split at h
  · rename_i a b c d hsplit
    cases h
    have hjoin : [':'].intercalate (k.splitOn ':') = k := List.intercalate_splitOn ':'
    rw [hsplit] at hjoin
    rw [← hjoin]
    simp [key, List.intercalate]
  · exact absurd h (by simp)

end CommunicationPath
end DevScan.Monitor
