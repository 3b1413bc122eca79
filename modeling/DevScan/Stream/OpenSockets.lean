import DevScan.Lib.Slot
import DevScan.Sys.Registrations

/-!
# `Stream/OpenSockets.lean` — who closes a socket

`hbm/communication/linux/socketnonblocking.cpp` and `linux/tcpserver.cpp`, as to the descriptor each of
the two classes holds: `m_fd`, that `connect` overwrites, `disconnect` closes and `setDataCb` registers
with the event loop, and `m_listeningSocket`, that `start` overwrites and registers and `stop` closes
without forgetting it. The destructors are `disconnect` and `stop`. The kernel gives out any number that
is not open, to the object or to whatever else is in the process.
-/

set_option autoImplicit false

namespace DevScan.Stream

open Lib (run transitions)
open Lib.Custody (Slot)
open Sys (Fd Change registration registration_concat)

/-- A descriptor in a member, and the calls of `addEvent` and `eraseEvent` made for it. -/
structure OpenSocket where
  slot : Slot Nat := {}
  calls : List (Change Unit) := []

/-- What else happens in the process. -/
inductive OtherAction where
  | opens (fd : Nat)
  | closes (fd : Nat)
deriving DecidableEq, Repr

namespace OpenSocket

/-- The member. -/
def fd (s : OpenSocket) : Fd :=
  match s.slot.remembered with
  | none => -1
  | some fd => fd

/-- `m_fd = ::socket(...)`, with the number the kernel gives out, if any. -/
def socket (s : OpenSocket) : Option Nat → OpenSocket
  | none => { s with slot := s.slot.lose }
  | some fd => { s with slot := s.slot.take fd }

def addEvent (s : OpenSocket) : OpenSocket := { s with calls := s.calls ++ [⟨s.fd, some ()⟩] }

def eraseEvent (s : OpenSocket) : OpenSocket := { s with calls := s.calls ++ [⟨s.fd, none⟩] }

/-- `::close`, that does nothing about a -1. -/
def close (s : OpenSocket) (forget : Bool) : OpenSocket :=
  { s with slot := s.slot.giveBack forget }

def other (s : OpenSocket) : OtherAction → OpenSocket
  | .opens fd => { s with slot := s.slot.otherTakes fd }
  | .closes fd => { s with slot := s.slot.otherGivesBack fd }

/-- A number the kernel may give out. -/
def Free (s : OpenSocket) (fd : Nat) : Prop := s.slot.pool.table fd = none

instance (s : OpenSocket) (fd : Nat) : Decidable (s.Free fd) := inferInstanceAs (Decidable (_ = _))

def PossibleOther (s : OpenSocket) : OtherAction → Prop
  | .opens fd => s.Free fd
  | .closes fd => s.slot.pool.table fd = some .other

instance (s : OpenSocket) (a : OtherAction) : Decidable (s.PossibleOther a) :=
  match a with
  | .opens fd => inferInstanceAs (Decidable (s.Free fd))
  | .closes _ => inferInstanceAs (Decidable (_ = _))

/-- **The object keeps its descriptor**: it closes what it has opened, and nothing else, never more
than one is open, and the event loop is asked to watch that one at the most. -/
structure Kept (s : OpenSocket) : Prop where
  faithful : s.slot.Faithful
  watched : ∀ fd, registration s.calls fd ≠ none → ∃ n, fd = (n : Nat) ∧ s.slot.pool.Owns n

variable {s : OpenSocket} {fd : Nat}

theorem fd_eq_neg_one_iff : s.fd = -1 ↔ s.slot.remembered = none := by
  rw [OpenSocket.fd]
  split
  · rename_i hnone
    exact iff_of_true rfl hnone
  · rename_i n hn
    refine iff_of_false (fun h => ?_) (by simp [hn])
    have hle : (0 : Int) ≤ n := Int.natCast_nonneg n
    exact absurd (h ▸ hle) (by decide)

theorem fd_of_remembered (h : s.slot.remembered = some fd) : s.fd = fd := by
  rw [OpenSocket.fd, h]

theorem kept_empty : ({} : OpenSocket).Kept :=
  ⟨Slot.faithful_empty, fun _ hfd => absurd rfl hfd⟩

/-- With nothing open nothing is watched. -/
theorem Kept.unwatched (h : s.Kept) (hempty : s.slot.EmptyHanded) (fd : Fd) :
    registration s.calls fd = none := by
  by_contra hfd
  obtain ⟨n, -, hn⟩ := h.watched fd hfd
  exact hempty n hn

theorem kept_of_unwatched (hfaithful : s.slot.Faithful)
    (hnone : ∀ fd, registration s.calls fd = none) : s.Kept :=
  ⟨hfaithful, fun fd hfd => absurd (hnone fd) hfd⟩

/-- A descriptor is asked for with nothing open. -/
theorem kept_socket_iff (h : s.Kept) (answer : Option Nat) (hfree : ∀ fd ∈ answer, s.Free fd) :
    (s.socket answer).Kept ↔ s.slot.EmptyHanded := by
  cases answer with
  | none =>
    constructor
    · exact fun hkept => (Slot.faithful_lose_iff h.faithful).mp hkept.faithful
    · exact fun hempty => kept_of_unwatched ((Slot.faithful_lose_iff h.faithful).mpr hempty)
        (h.unwatched hempty)
  | some fd =>
    have hiff := Slot.faithful_take_iff h.faithful (hfree fd rfl)
    constructor
    · exact fun hkept => hiff.mp hkept.faithful
    · exact fun hempty => kept_of_unwatched (hiff.mpr hempty) (h.unwatched hempty)

/-- A descriptor that is registered is in the member and open. -/
theorem kept_addEvent_iff (h : s.Kept) :
    s.addEvent.Kept ↔ ∃ fd, s.slot.remembered = some fd ∧ s.slot.pool.Owns fd := by
  have hcalls : registration s.addEvent.calls = Function.update (registration s.calls) s.fd (some ()) :=
    registration_concat s.calls _
  constructor
  · intro hkept
    have hself : registration s.addEvent.calls s.fd = some () := by rw [hcalls, Function.update_self]
    obtain ⟨n, -, hn⟩ := hkept.watched s.fd (by simp [hself])
    exact ⟨n, h.faithful.remembered n hn, hn⟩
  · rintro ⟨n, hremembered, hn⟩
    refine ⟨h.faithful, fun fd hfd => ?_⟩
    by_cases heq : fd = s.fd
    · exact ⟨n, heq.trans (fd_of_remembered hremembered), hn⟩
    · rw [hcalls, Function.update_of_ne heq] at hfd
      exact h.watched fd hfd

/-- After `eraseEvent` nothing is watched: nothing but the descriptor in the member was. -/
theorem Kept.eraseEvent (h : s.Kept) : s.eraseEvent.Kept ∧
    ∀ fd, registration s.eraseEvent.calls fd = none := by
  have hcalls : registration s.eraseEvent.calls = Function.update (registration s.calls) s.fd none :=
    registration_concat s.calls _
  have hnone : ∀ fd, registration s.eraseEvent.calls fd = none := by
    intro fd
    rw [hcalls]
    by_cases heq : fd = s.fd
    · rw [heq, Function.update_self]
    · rw [Function.update_of_ne heq]
      by_contra hfd
      obtain ⟨n, rfl, hn⟩ := h.watched fd hfd
      exact heq (fd_of_remembered (h.faithful.remembered n hn)).symm
  exact ⟨kept_of_unwatched h.faithful hnone, hnone⟩

/-- `eraseEvent` and `close`, of what is still open. -/
theorem kept_close_iff (h : s.Kept) (forget : Bool) :
    (s.eraseEvent.close forget).Kept ↔ s.slot.Holding := by
  have hiff := Slot.faithful_giveBack_iff h.faithful forget
  exact ⟨fun hkept => hiff.mp hkept.faithful,
    fun hholding => kept_of_unwatched (hiff.mpr hholding) h.eraseEvent.2⟩

theorem Kept.emptyHanded_close (h : s.Kept) (forget : Bool) :
    (s.eraseEvent.close forget).slot.EmptyHanded :=
  Slot.emptyHanded_giveBack h.faithful forget

/-- What others do changes nothing of ours. -/
theorem Kept.other (h : s.Kept) {a : OtherAction} (hpossible : s.PossibleOther a) :
    (s.other a).Kept ∧ ∀ n, (s.other a).slot.pool.Owns n ↔ s.slot.pool.Owns n := by
  have howns : ∀ n, (s.other a).slot.pool.Owns n ↔ s.slot.pool.Owns n := by
    intro n
    cases a with
    | opens fd => exact Lib.Custody.Pool.owns_otherTakes_iff hpossible
    | closes fd => exact Lib.Custody.Pool.owns_otherGivesBack_iff hpossible
  have hfaithful : (s.other a).slot.Faithful := by
    cases a with
    | opens fd => exact h.faithful.otherTakes hpossible
    | closes fd => exact h.faithful.otherGivesBack hpossible
  refine ⟨⟨hfaithful, fun fd hfd => ?_⟩, howns⟩
  have hcalls : (s.other a).calls = s.calls := by cases a <;> rfl
  rw [hcalls] at hfd
  obtain ⟨n, hn, hown⟩ := h.watched fd hfd
  exact ⟨n, hn, (howns n).mpr hown⟩

theorem remembered_other (s : OpenSocket) (a : OtherAction) :
    (s.other a).slot.remembered = s.slot.remembered := by
  cases a <;> rfl

end OpenSocket

/-! ## `SocketNonblocking` -/

inductive WorkerCall where
  /-- `connect`, and whether the address could be resolved. -/
  | connect (resolved : Bool) (fd : Option Nat)
  | setDataCb (dataCb : Bool)
  /-- Also the destructor. -/
  | disconnect
  | other (a : OtherAction)
deriving DecidableEq, Repr

namespace WorkerSocket

open OpenSocket

/-- Whatever fails after `::socket`, `m_fd` stays as it is. -/
def connect (s : OpenSocket) (resolved : Bool) (fd : Option Nat) : OpenSocket :=
  if resolved then s.socket fd else s

def setDataCb (s : OpenSocket) (dataCb : Bool) : OpenSocket :=
  if dataCb then s.addEvent else s.eraseEvent

def disconnect (s : OpenSocket) : OpenSocket := s.eraseEvent.close true

/-- The constructor for `TcpServer::acceptClient` gets an open descriptor, whose options can be set. -/
def construct (fd : Option Nat) : OpenSocket :=
  match fd with
  | none => {}
  | some fd => ({} : OpenSocket).socket (some fd)

def Possible (s : OpenSocket) : WorkerCall → Prop
  | .connect _ fd => ∀ n ∈ fd, s.Free n
  | .other a => s.PossibleOther a
  | _ => True

instance (s : OpenSocket) (a : WorkerCall) : Decidable (Possible s a) :=
  match a with
  | .connect _ none => isTrue nofun
  | .connect _ (some fd) =>
    decidable_of_iff (s.Free fd) ⟨fun h _ hn => Option.some.inj hn ▸ h, fun h => h fd rfl⟩
  | .setDataCb _ => inferInstanceAs (Decidable True)
  | .disconnect => inferInstanceAs (Decidable True)
  | .other a => inferInstanceAs (Decidable (s.PossibleOther a))

def act (s : OpenSocket) : WorkerCall → OpenSocket
  | .connect resolved fd => connect s resolved fd
  | .setDataCb dataCb => setDataCb s dataCb
  | .disconnect => disconnect s
  | .other a => s.other a

/-- What is not possible does not happen. -/
def step (s : OpenSocket) (a : WorkerCall) : OpenSocket := if Possible s a then act s a else s

/-- Besides, `m_fd` is -1 or open. -/
structure Kept (s : OpenSocket) : Prop extends s.Kept where
  holding : s.slot.Holding

/-- `connect` is called when there is no descriptor, a data callback is set when there is one. -/
def Fits (s : OpenSocket) : WorkerCall → Prop
  | .connect resolved _ => resolved → s.fd = -1
  | .setDataCb dataCb => dataCb → s.fd ≠ -1
  | .disconnect => True
  | .other _ => True

instance (s : OpenSocket) (a : WorkerCall) : Decidable (Fits s a) :=
  match a with
  | .connect resolved _ => inferInstanceAs (Decidable (resolved → s.fd = -1))
  | .setDataCb dataCb => inferInstanceAs (Decidable (dataCb → s.fd ≠ -1))
  | .disconnect => inferInstanceAs (Decidable True)
  | .other _ => inferInstanceAs (Decidable True)

variable {s : OpenSocket}

theorem Kept.emptyHanded_iff (h : Kept s) : s.slot.EmptyHanded ↔ s.fd = -1 := by
  rw [fd_eq_neg_one_iff]
  refine ⟨fun hempty => ?_, h.faithful.emptyHanded⟩
  cases hremembered : s.slot.remembered with
  | none => rfl
  | some fd => exact absurd (h.holding fd hremembered) (hempty fd)

theorem Kept.owns_iff (h : Kept s) :
    (∃ fd, s.slot.remembered = some fd ∧ s.slot.pool.Owns fd) ↔ s.fd ≠ -1 := by
  rw [ne_eq, fd_eq_neg_one_iff]
  constructor
  · rintro ⟨fd, hfd, -⟩
    simp [hfd]
  · intro hne
    obtain ⟨fd, hfd⟩ := Option.ne_none_iff_exists'.mp hne
    exact ⟨fd, hfd, h.holding fd hfd⟩

theorem kept_construct (fd : Option Nat) : Kept (construct fd) := by
  cases fd with
  | none => exact ⟨kept_empty, nofun⟩
  | some fd =>
    have hkept := (kept_socket_iff kept_empty (some fd) fun _ _ => rfl).mpr Slot.emptyHanded_empty
    exact ⟨hkept, Slot.holding_take⟩

theorem kept_connect_iff (h : Kept s) {fd : Option Nat} (hfree : ∀ n ∈ fd, s.Free n) :
    Kept (s.socket fd) ↔ s.fd = -1 := by
  rw [← h.emptyHanded_iff, ← kept_socket_iff h.toKept fd hfree]
  refine ⟨fun hkept => hkept.toKept, fun hkept => ⟨hkept, ?_⟩⟩
  cases fd with
  | none => exact nofun
  | some fd => exact Slot.holding_take

theorem kept_disconnect (h : Kept s) : Kept (disconnect s) := by
  refine ⟨(kept_close_iff h.toKept true).mpr h.holding, fun fd hfd => ?_⟩
  have hnone : (disconnect s).slot.remembered = none := by
    simp only [disconnect, OpenSocket.eraseEvent, OpenSocket.close, Slot.giveBack]
    split
    · assumption
    · rfl
  exact absurd (hfd.symm.trans hnone) (Option.some_ne_none fd)

/-- One call keeps the descriptor exactly if it fits. -/
theorem kept_act_iff (h : Kept s) {a : WorkerCall} (hpossible : Possible s a) :
    Kept (act s a) ↔ Fits s a := by
  cases a with
  | connect resolved fd =>
    cases resolved with
    | false => exact iff_of_true h nofun
    | true =>
      have hiff : Kept (s.socket fd) ↔ s.fd = -1 := kept_connect_iff h hpossible
      exact hiff.trans ⟨fun hfd _ => hfd, fun hfd => hfd rfl⟩
  | setDataCb dataCb =>
    cases dataCb with
    | false => exact iff_of_true ⟨h.eraseEvent.1, h.holding⟩ nofun
    | true =>
      have hiff : s.addEvent.Kept ↔ s.fd ≠ -1 := (kept_addEvent_iff h.toKept).trans h.owns_iff
      exact ⟨fun hkept _ => hiff.mp hkept.toKept, fun hfd => ⟨hiff.mpr (hfd rfl), h.holding⟩⟩
  | disconnect => exact iff_of_true (kept_disconnect h) trivial
  | other a =>
    obtain ⟨hkept, howns⟩ := h.toKept.other hpossible
    refine iff_of_true ⟨hkept, fun n hn => (howns n).mpr (h.holding n ?_)⟩ trivial
    exact (remembered_other s a).symm.trans hn

theorem kept_step_iff (h : Kept s) (a : WorkerCall) :
    Kept (step s a) ↔ (Possible s a → Fits s a) := by
  by_cases hpossible : Possible s a
  · rw [step, if_pos hpossible, kept_act_iff h hpossible]
    exact ⟨fun hfits _ => hfits, fun hfits => hfits hpossible⟩
  · rw [step, if_neg hpossible]
    exact iff_of_true h fun hc => absurd hc hpossible

/-- **A worker socket keeps its descriptor, exactly if** it is connected only while it has none, and
gets a data callback only while it has one. -/
theorem worker_kept_iff (fd : Option Nat) (calls : List WorkerCall) :
    (∀ pre, pre <+: calls → Kept (run step (construct fd) pre)) ↔
      ∀ p ∈ transitions step (construct fd) calls, Possible p.1 p.2 → Fits p.1 p.2 :=
  Lib.run_exact step (P := Kept) (Q := Kept) (C := fun s a => Possible s a → Fits s a)
    (fun _ h => h) (fun _ a h ha => (kept_step_iff h a).mpr ha)
    (fun _ a h ha hkept => ha ((kept_step_iff h a).mp hkept)) (kept_construct fd)

/-- A `connect` that is tried again after it has failed loses the first descriptor. -/
theorem not_kept_retried :
    ¬∀ pre, pre <+: [.connect true (some 5), .connect true (some 6)] →
      Kept (run step (construct none) pre) := fun h =>
  absurd ((worker_kept_iff none _).mp h) (by decide)

/-- **What is left of it.** When such a socket is destroyed, every descriptor it ever had has been
closed exactly once, and nothing is registered. -/
theorem worker_destroyed (fd : Option Nat) (calls : List WorkerCall)
    (h : ∀ p ∈ transitions step (construct fd) calls, Possible p.1 p.2 → Fits p.1 p.2) :
    (∀ n < (disconnect (run step (construct fd) calls)).slot.pool.taken,
        (disconnect (run step (construct fd) calls)).slot.pool.returned.count (some (.own n)) = 1) ∧
      ∀ fd', registration (disconnect (run step (construct fd) calls)).calls fd' = none := by
  have hkept : Kept (run step (construct fd) calls) :=
    Lib.run_invariant step (P := Kept) (C := fun s a => Possible s a → Fits s a)
      (fun _ a hkept ha => (kept_step_iff hkept a).mpr ha) (kept_construct fd) h
  have hgone := kept_disconnect hkept
  have hempty := hkept.emptyHanded_close true
  exact ⟨fun n hn => hgone.faithful.returned_once hempty hn, hgone.unwatched hempty⟩

/-- Two connections, one after the other; in between the number goes to somebody else. -/
def reconnected : List WorkerCall :=
  [.connect true (some 5), .setDataCb true, .disconnect, .other (.opens 5), .connect true (some 6),
    .setDataCb true]

theorem worker_destroyed_reconnected :
    (∀ n < (disconnect (run step (construct none) reconnected)).slot.pool.taken,
        (disconnect (run step (construct none) reconnected)).slot.pool.returned.count
          (some (.own n)) = 1) ∧
      ∀ fd', registration (disconnect (run step (construct none) reconnected)).calls fd' = none :=
  worker_destroyed none reconnected (by decide)

end WorkerSocket

/-! ## `TcpServer` -/

inductive ServerCall where
  | start (fd : Option Nat) (bound listening acceptCb : Bool)
  /-- Also the destructor. -/
  | stop
  | other (a : OtherAction)
deriving DecidableEq, Repr

structure ListeningSocket extends OpenSocket where
  /-- A socket has been created since the last `stop`; not a member of the class. -/
  created : Bool := false

namespace ListeningSocket

open OpenSocket

/-- `start`; where it fails it leaves the descriptor open. -/
def listen (s : OpenSocket) (fd : Option Nat) (bound listening acceptCb : Bool) : OpenSocket :=
  match fd with
  | none => s.socket none
  | some fd =>
    if ¬bound then s.socket (some fd)
    else if ¬listening then s.socket (some fd)
    else if acceptCb then (s.socket (some fd)).addEvent
    else s.socket (some fd)

def stop (s : OpenSocket) : OpenSocket := s.eraseEvent.close false

def Possible (s : ListeningSocket) : ServerCall → Prop
  | .start fd _ _ _ => ∀ n ∈ fd, s.Free n
  | .stop => True
  | .other a => s.PossibleOther a

instance (s : ListeningSocket) (a : ServerCall) : Decidable (s.Possible a) :=
  match a with
  | .start none _ _ _ => isTrue nofun
  | .start (some fd) _ _ _ =>
    decidable_of_iff (s.Free fd) ⟨fun h _ hn => Option.some.inj hn ▸ h, fun h => h fd rfl⟩
  | .stop => inferInstanceAs (Decidable True)
  | .other a => inferInstanceAs (Decidable (s.PossibleOther a))

def act (s : ListeningSocket) : ServerCall → ListeningSocket
  | .start fd bound listening acceptCb =>
    ⟨listen s.toOpenSocket fd bound listening acceptCb, fd.isSome⟩
  | .stop => ⟨stop s.toOpenSocket, false⟩
  | .other a => ⟨s.toOpenSocket.other a, s.created⟩

/-- What is not possible does not happen. -/
def step (s : ListeningSocket) (a : ServerCall) : ListeningSocket :=
  if s.Possible a then s.act a else s

/-- `start` and `stop` take turns; only a server that has never had a socket may be stopped
without. -/
def Fits (s : ListeningSocket) : ServerCall → Prop
  | .start _ _ _ _ => s.created = false
  | .stop => s.fd = -1 ∨ s.created = true
  | .other _ => True

instance (s : ListeningSocket) (a : ServerCall) : Decidable (s.Fits a) :=
  match a with
  | .start _ _ _ _ => inferInstanceAs (Decidable (s.created = false))
  | .stop => inferInstanceAs (Decidable (_ ∨ _))
  | .other _ => inferInstanceAs (Decidable True)

/-- What is open is in the member. -/
structure Accounted (s : ListeningSocket) : Prop where
  kept : s.toOpenSocket.Kept
  created : s.created = true → ∃ fd, s.slot.remembered = some fd ∧ s.slot.pool.Owns fd
  idle : s.created = false → s.slot.EmptyHanded

variable {s : ListeningSocket}

theorem Accounted.emptyHanded_iff (h : s.Accounted) : s.slot.EmptyHanded ↔ s.created = false := by
  refine ⟨fun hempty => ?_, h.idle⟩
  by_contra hcreated
  obtain ⟨fd, -, hfd⟩ := h.created (Bool.not_eq_false _ ▸ hcreated)
  exact hempty fd hfd

theorem Accounted.holding_iff (h : s.Accounted) :
    s.slot.Holding ↔ s.fd = -1 ∨ s.created = true := by
  rw [fd_eq_neg_one_iff]
  constructor
  · intro hholding
    cases hremembered : s.slot.remembered with
    | none => exact Or.inl rfl
    | some fd =>
      refine Or.inr (by_contra fun hcreated => ?_)
      exact h.idle ((Bool.not_eq_true _).mp hcreated) fd (hholding fd hremembered)
  · rintro (hnone | hcreated) fd hfd
    · exact absurd (hnone.symm.trans hfd) nofun
    · obtain ⟨fd', hremembered, hown⟩ := h.created hcreated
      exact Option.some.inj (hremembered.symm.trans hfd) ▸ hown

/-- Whether it fails or not, `start` leaves its socket in the member. -/
theorem listen_cases (s : OpenSocket) (fd : Option Nat) (bound listening acceptCb : Bool) :
    listen s fd bound listening acceptCb = s.socket fd ∨
      ∃ n, fd = some n ∧ listen s fd bound listening acceptCb = (s.socket (some n)).addEvent := by
  cases fd with
  | none => exact Or.inl rfl
  | some n =>
    cases bound <;> cases listening <;> cases acceptCb
    case true.true.true => exact Or.inr ⟨n, rfl, rfl⟩
    all_goals exact Or.inl rfl

theorem slot_listen (s : OpenSocket) (fd : Option Nat) (bound listening acceptCb : Bool) :
    (listen s fd bound listening acceptCb).slot = (s.socket fd).slot := by
  rcases listen_cases s fd bound listening acceptCb with heq | ⟨n, rfl, heq⟩
  · rw [heq]
  · rw [heq]
    rfl

theorem kept_listen_iff {s : OpenSocket} (h : s.Kept) {fd : Option Nat}
    (hfree : ∀ n ∈ fd, s.Free n) (bound listening acceptCb : Bool) :
    (listen s fd bound listening acceptCb).Kept ↔ s.slot.EmptyHanded := by
  have hiff := kept_socket_iff h fd hfree
  rcases listen_cases s fd bound listening acceptCb with heq | ⟨n, rfl, heq⟩
  · rwa [heq]
  · rw [heq]
    constructor
    · exact fun hkept => (Slot.faithful_take_iff h.faithful (hfree n rfl)).mp hkept.faithful
    · intro hempty
      exact (kept_addEvent_iff (hiff.mpr hempty)).mpr ⟨n, rfl, Slot.holding_take n rfl⟩

/-- One call keeps the descriptor exactly if it fits, and then the next state is accounted for. -/
theorem Accounted.act (h : s.Accounted) {a : ServerCall} (hpossible : s.Possible a) :
    ((s.act a).Kept ↔ s.Fits a) ∧ (s.Fits a → (s.act a).Accounted) := by
  cases a with
  | start fd bound listening acceptCb =>
    have hiff : (listen s.toOpenSocket fd bound listening acceptCb).Kept ↔ s.created = false :=
      (kept_listen_iff h.kept hpossible bound listening acceptCb).trans h.emptyHanded_iff
    refine ⟨hiff, fun hfits => ⟨hiff.mpr hfits, fun hcreated => ?_, fun hidle => ?_⟩⟩
    · obtain ⟨n, rfl⟩ := Option.isSome_iff_exists.mp hcreated
      refine ⟨n, ?_⟩
      change (listen _ _ _ _ _).slot.remembered = _ ∧ (listen _ _ _ _ _).slot.pool.Owns n
      rw [slot_listen]
      exact ⟨rfl, Slot.holding_take n rfl⟩
    · obtain rfl : fd = none := Option.isSome_eq_false_iff.mp hidle |> Option.isNone_iff_eq_none.mp
      exact h.idle hfits
  | stop =>
    have hiff : (stop s.toOpenSocket).Kept ↔ s.fd = -1 ∨ s.created = true :=
      (kept_close_iff h.kept false).trans h.holding_iff
    exact ⟨hiff, fun hfits => ⟨hiff.mpr hfits, nofun, fun _ => h.kept.emptyHanded_close false⟩⟩
  | other a =>
    obtain ⟨hkept, howns⟩ := h.kept.other hpossible
    refine ⟨iff_of_true hkept trivial, fun _ => ⟨hkept, fun hcreated => ?_, fun hidle n hn => ?_⟩⟩
    · obtain ⟨fd, hremembered, hown⟩ := h.created hcreated
      exact ⟨fd, (remembered_other s.toOpenSocket a).trans hremembered, (howns fd).mpr hown⟩
    · exact h.idle hidle n ((howns n).mp hn)

theorem Accounted.step (h : s.Accounted) (a : ServerCall) :
    ((s.step a).Kept ↔ (s.Possible a → s.Fits a)) ∧
      ((s.Possible a → s.Fits a) → (s.step a).Accounted) := by
  by_cases hpossible : s.Possible a
  · obtain ⟨hiff, hnext⟩ := h.act hpossible
    rw [ListeningSocket.step, if_pos hpossible]
    exact ⟨hiff.trans ⟨fun hfits _ => hfits, fun hfits => hfits hpossible⟩,
      fun hfits => hnext (hfits hpossible)⟩
  · rw [ListeningSocket.step, if_neg hpossible]
    exact ⟨iff_of_true h.kept fun hc => absurd hc hpossible, fun _ => h⟩

theorem accounted_empty : ({} : ListeningSocket).Accounted :=
  ⟨kept_empty, nofun, fun _ => Slot.emptyHanded_empty⟩

/-- **A server keeps its descriptor, exactly if** `start` and `stop` take turns as `Fits` says:
`stop` does not forget the number, so that a second one closes whatever has got it since. A `start`
that gets no descriptor leaves nothing to be stopped, and a server without a number may be stopped
at any time. -/
theorem server_kept_iff (calls : List ServerCall) :
    (∀ pre, pre <+: calls → (run step {} pre).Kept) ↔
      ∀ p ∈ transitions step {} calls, p.1.Possible p.2 → p.1.Fits p.2 :=
  Lib.run_exact step (P := fun s => s.Kept) (Q := Accounted) (C := fun s a => s.Possible a → s.Fits a)
    (fun _ h => h.kept) (fun _ a h ha => (h.step a).2 ha)
    (fun _ a h ha hkept => ha ((h.step a).1.mp hkept)) accounted_empty

/-- A server that was stopped closes a descriptor of somebody else when it is destroyed. -/
theorem not_kept_stopped :
    ¬∀ pre, pre <+: [.start (some 5) true true true, .stop, .other (.opens 5), .stop] →
      (run step ({} : ListeningSocket) pre).Kept := fun h =>
  absurd ((server_kept_iff _).mp h) (by decide)

/-- **What is left of it.** When a server is destroyed after such calls, at a time when it might be
stopped as well, every descriptor it ever had has been closed exactly once, and nothing is
registered. -/
theorem server_destroyed (calls : List ServerCall)
    (h : ∀ p ∈ transitions step {} calls, p.1.Possible p.2 → p.1.Fits p.2)
    (hstop : (run step {} calls).Fits .stop) :
    (∀ n < (stop (run step {} calls).toOpenSocket).slot.pool.taken,
        (stop (run step {} calls).toOpenSocket).slot.pool.returned.count (some (.own n)) = 1) ∧
      ∀ fd', registration (stop (run step {} calls).toOpenSocket).calls fd' = none := by
  have haccounted : (run step {} calls).Accounted :=
    Lib.run_invariant step (fun _ a h ha => (h.step a).2 ha) accounted_empty h
  have hgone := (kept_close_iff haccounted.kept false).mpr (haccounted.holding_iff.mpr hstop)
  have hempty := haccounted.kept.emptyHanded_close false
  exact ⟨fun n hn => hgone.faithful.returned_once hempty hn, hgone.unwatched hempty⟩

/-- A server that is started again, after the port was taken the first time. -/
def restarted : List ServerCall :=
  [.start (some 5) false true true, .stop, .start (some 5) true true true]

theorem server_destroyed_restarted :
    (∀ n < (stop (run step {} restarted).toOpenSocket).slot.pool.taken,
        (stop (run step {} restarted).toOpenSocket).slot.pool.returned.count (some (.own n)) = 1) ∧
      ∀ fd', registration (stop (run step {} restarted).toOpenSocket).calls fd' = none :=
  server_destroyed restarted (by decide) (by decide)

end ListeningSocket
end DevScan.Stream
