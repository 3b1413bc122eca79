import DevScan.Sys.Awake
import DevScan.Sys.Registrations

/-!
# `Sys/Notifier.lean` — every notification is heard once

`hbm/sys/linux/notifier.cpp` on the loop. `notify`, by whatever thread and whenever, adds one to the
counter of an `eventfd`, unless that is at its maximum. The loop calls `process` for the descriptor,
which reads the counter, so that it is zero again, and calls the callback as many times; then it is
called once more and finds nothing. `set` gives it another callback, or none, from whatever thread or
out of the callback itself: first `m_eventHandler` is assigned, then the loop is asked for the change,
and anything may happen between the two but another `set`.

Two notifications may come to one event of epoll, and one may come while `process` is at work or while
the descriptor is not registered. All the same a callback is called once for each of them by the time
the loop has nothing more to do (`notified_heard`). The descriptor is the notifier's own: nobody else
registers or closes it, and moves and the destructor are in `Sys/Moves.lean`.
-/

set_option autoImplicit false

namespace DevScan.Sys

open Lib (run transitions)

/-- The largest value of an `eventfd`. -/
def maxCounter : Nat := 0xFFFFFFFFFFFFFFFE

structure Notifier where
  /-- The loop it is in. -/
  registry : Registry Unit
  /-- `m_fd` -/
  fd : Fd
  /-- `m_eventHandler` -/
  eventHandler : Option Nat := none
  /-- `set` has assigned `m_eventHandler`, and is going to call the loop. -/
  setting : Bool := false
  counter : Nat := 0
  /-- The epoll set is going to report the descriptor. -/
  ready : Bool := false
  /-- In `process`, the calls that its loop has still to make. -/
  left : Option Nat := none
  /-- The calls of `notify` that did not fail. Not in the source, as what follows. -/
  notified : Nat := 0
  /-- The callbacks that were called. -/
  called : List Nat := []
  /-- The rounds of the loop in `process` that found no callback. -/
  unheard : Nat := 0

inductive NotifierAction where
  | notify
  | set (eventHandler : Option Nat)
  /-- The second half of `set`. -/
  | ask
  /-- `process` is called: it reads the counter. -/
  | read
  /-- The next round of its loop, or its end. -/
  | round
  /-- Anything else that happens in the loop or is asked of it. -/
  | loop (a : Action Unit)

namespace Notifier

def create (changeFd stopFd fd : Fd) : Notifier where
  registry := .create Unit changeFd stopFd
  fd := fd

/-- The descriptor whose handler is called. -/
def calling (loop : EventLoop Unit) : Option Fd :=
  match loop.phase with
  | .handling addr _ => (loop.nodes addr).map EventInfo.fd
  | .priming _ => (loop.nodes (loop.nextAddr - 1)).map EventInfo.fd
  | _ => none

/-- The change list is locked, or the loop is gone. -/
def Waits (s : Notifier) : Prop := s.registry.loop.pushes (.request ⟨s.fd, none⟩) = none

instance (s : Notifier) : Decidable s.Waits :=
  decidable_of_iff ((s.registry.loop.pushes (.request ⟨s.fd, none⟩)).isNone = true)
    Option.isNone_iff_eq_none

/-- There is something to be read. -/
def readable (s : Notifier) : Bool := 0 < s.counter

def notify (s : Notifier) : Notifier :=
  if s.counter < maxCounter then
    { s with
      counter := s.counter + 1
      ready := s.ready || (s.registry.loop.interest s.fd).isSome
      notified := s.notified + 1 }
  else s

def set (s : Notifier) (eventHandler : Option Nat) : Notifier :=
  if s.setting then s else { s with eventHandler := eventHandler, setting := true }

/-- With a callback it is `addEvent`, without one `eraseEvent`. -/
def ask (s : Notifier) : Notifier :=
  if s.setting = true ∧ ¬s.Waits then
    { s with
      setting := false
      registry := s.registry.step (.request ⟨s.fd, s.eventHandler.map fun _ => ()⟩) }
  else s

/-- `process`, up to its loop; if there is nothing to be read, up to its end. -/
def read (s : Notifier) : Notifier :=
  if calling s.registry.loop = some s.fd ∧ s.left = none then
    if s.counter = 0 then { s with registry := s.registry.step (.handlerReturns (-1)) }
    else { s with counter := 0, left := some s.counter }
  else s

/-- `process` returns the number of bytes it has read. -/
def round (s : Notifier) : Notifier :=
  match s.left with
  | none => s
  | some 0 => { s with left := none, registry := s.registry.step (.handlerReturns 8) }
  | some (left + 1) =>
    match s.eventHandler with
    | some eventHandler => { s with left := some left, called := s.called ++ [eventHandler] }
    | none => { s with left := some left, unheard := s.unheard + 1 }

/-- The loop has to wait for `process`. -/
def Held (s : Notifier) : Action Unit → Prop
  | .handlerReturns _ => calling s.registry.loop = some s.fd ∨ s.left ≠ none
  | _ => False

instance (s : Notifier) (a : Action Unit) : Decidable (s.Held a) :=
  match a with
  | .handlerReturns _ => inferInstanceAs (Decidable (_ ∨ _))
  | .request _ => .isFalse id
  | .close _ => .isFalse id
  | .enter => .isFalse id
  | .report _ => .isFalse id
  | .leave => .isFalse id
  | .next => .isFalse id
  | .readChange => .isFalse id
  | .applyChange _ => .isFalse id

def loopStep (s : Notifier) (a : Action Unit) : Notifier :=
  if s.Held a ∨ ¬EventLoop.ReportsInput s.fd s.readable s.ready a then s
  else
    { s with
      registry := s.registry.step a
      ready := s.registry.loop.readyAfter s.fd s.readable s.ready a }

def step (s : Notifier) : NotifierAction → Notifier
  | .notify => s.notify
  | .set eventHandler => s.set eventHandler
  | .ask => s.ask
  | .read => s.read
  | .round => s.round
  | .loop a => s.loopStep a

/-- Nobody is in `set`, and the loop is in `epoll_wait`, which has nothing to report of the notifier or
of changes. -/
structure Blocked (s : Notifier) : Prop where
  set : s.setting = false
  waiting : s.registry.loop.phase = .waiting
  unchanged : s.registry.loop.changeCount = false
  quiet : s.ready = true → s.counter = 0

/-- Nobody else asks for anything for the descriptor, descriptors stay open while they are registered,
and the loop is not left at a stop event with one that is registered behind it. -/
def Fine (s : Notifier) : NotifierAction → Prop
  | .loop a =>
    (∀ change ∈ s.registry.loop.pushes a, change.fd ≠ s.fd) ∧ s.registry.KeepsOpen a ∧
      Tracked.DropsNothing ⟨s.registry.loop, []⟩ a = true
  | _ => True

instance (s : Notifier) (a : NotifierAction) : Decidable (s.Fine a) :=
  match a with
  | .loop _ => inferInstanceAs (Decidable (_ ∧ _ ∧ _))
  | .notify => .isTrue trivial
  | .set _ => .isTrue trivial
  | .ask => .isTrue trivial
  | .read => .isTrue trivial
  | .round => .isTrue trivial

/-- What holds in every state of a run. -/
structure Sound (changeFd stopFd : Fd) (s : Notifier) : Prop where
  own : s.fd ≠ changeFd ∧ s.fd ≠ stopFd
  keeps : s.registry.Keeps changeFd stopFd
  awake : s.registry.loop.Awake s.fd s.readable s.ready
  asked : s.setting = false →
    registration s.registry.calls s.fd = s.eventHandler.map fun _ => ()
  busy : s.left ≠ none → calling s.registry.loop ≠ none
  counted : s.notified = s.called.length + s.unheard + s.counter + s.left.getD 0

variable {changeFd stopFd : Fd} {s : Notifier}

theorem sound_create {fd : Fd} (hchange : fd ≠ changeFd) (hstop : fd ≠ stopFd) :
    (create changeFd stopFd fd).Sound changeFd stopFd where
  own := ⟨hchange, hstop⟩
  keeps := ⟨Registry.follows_create changeFd stopFd, .create⟩
  awake := EventLoop.awake_create changeFd stopFd fd
  asked _ := rfl
  busy h := absurd rfl h
  counted := rfl

/-! ## What a step of the loop changes -/

/-- While a handler is called, the loop goes on only when that returns. -/
theorem calling_step {loop : EventLoop Unit} {a : Action Unit} (h : calling loop ≠ none)
    (ha : ∀ result, a ≠ .handlerReturns result) : calling (loop.step a) = calling loop := by
  unfold calling at h
  have hphase : (∃ addr rest, loop.phase = .handling addr rest) ∨ ∃ rest, loop.phase = .priming rest := by
    split at h
    · rename_i addr rest hphase
      exact Or.inl ⟨addr, rest, hphase⟩
    · rename_i rest hphase
      exact Or.inr ⟨rest, hphase⟩
    · exact absurd rfl h
  cases a with
  | handlerReturns result => exact absurd rfl (ha result)
  | request change =>
    rcases hphase with ⟨addr, rest, hphase⟩ | ⟨rest, hphase⟩
    · simp only [EventLoop.step, hphase]
      rfl
    · simp only [EventLoop.step, hphase]
      rfl
  | close fd => rfl
  | _ =>
    rcases hphase with ⟨addr, rest, hphase⟩ | ⟨rest, hphase⟩
    · simp [EventLoop.step, hphase]
    · simp [EventLoop.step, hphase]

/-- The handler of a registered descriptor is called. -/
theorem calling_of_handling {loop : EventLoop Unit} (hsound : loop.Sound) {fd : Fd} {addr : Addr}
    {rest : List EpollEvent} (hphase : loop.phase = .handling addr rest)
    (hinterest : loop.interest fd = some (.node addr)) : calling loop = some fd := by
  obtain ⟨info, hinfo, hfd⟩ := hsound.nodes fd addr (hsound.interest fd addr hinterest)
  rw [calling, hphase]
  simp only [hinfo, Option.map_some, hfd]

/-- What is asked for other descriptors does not matter. -/
theorem registration_step {r : Registry Unit} {a : Action Unit} {fd : Fd}
    (h : ∀ change ∈ r.loop.pushes a, change.fd ≠ fd) :
    registration (r.step a).calls fd = registration r.calls fd := by
  rw [Registry.step]
  cases hpushes : r.loop.pushes a with
  | none => rw [Option.toList_none, List.append_nil]
  | some change =>
    rw [Option.toList_some, registration_concat, Function.update_of_ne]
    exact Ne.symm (h change hpushes)

/-- What is asked for while the list is not locked is queued. -/
theorem pushes_of_not_waits (h : ¬s.Waits) (change : Change Unit) :
    s.registry.loop.pushes (.request change) = some change := by
  simp only [Waits, EventLoop.pushes] at h ⊢
  split
  · rename_i hphase
    exact absurd (by simp only [hphase]) h
  · rename_i hphase
    exact absurd (by simp only [hphase]) h
  · rfl

/-! ## Every step -/

theorem Sound.notify (h : s.Sound changeFd stopFd) : s.notify.Sound changeFd stopFd := by
  unfold Notifier.notify
  split
  · -- the descriptor becomes ready, if epoll has it
    have hreadable : decide (0 < s.counter + 1) = true := decide_eq_true (Nat.succ_pos _)
    refine ⟨h.own, h.keeps, ?_, h.asked, h.busy, ?_⟩
    · show EventLoop.Awake _ _ (decide (0 < s.counter + 1)) _
      rw [hreadable]
      exact EventLoop.awake_arrive _ _ _
    · have hcounted := h.counted
      show s.notified + 1 = s.called.length + s.unheard + (s.counter + 1) + s.left.getD 0
      omega
  · exact h

theorem Sound.set (h : s.Sound changeFd stopFd) (eventHandler : Option Nat) :
    (s.set eventHandler).Sound changeFd stopFd := by
  unfold Notifier.set
  split
  · exact h
  · exact ⟨h.own, h.keeps, h.awake, fun hsetting => absurd hsetting (by simp), h.busy, h.counted⟩

theorem Sound.ask (h : s.Sound changeFd stopFd) : s.ask.Sound changeFd stopFd := by
  unfold Notifier.ask
  split
  · rename_i hasks
    have hpushes := pushes_of_not_waits hasks.2 ⟨s.fd, s.eventHandler.map fun _ => ()⟩
    refine ⟨h.own, Registry.keeps_step _ _ h.keeps trivial, ?_, fun _ => ?_, fun hleft => ?_,
      h.counted⟩
    · exact EventLoop.awake_step h.awake h.keeps.follows.sound _ rfl trivial fun _ _ _ ha =>
        absurd ha (by simp)
    · show registration (s.registry.calls ++ _) s.fd = _
      rw [hpushes, Option.toList_some, registration_concat, Function.update_self]
    · show calling (s.registry.loop.step _) ≠ none
      rw [calling_step (h.busy hleft) (fun _ => by simp)]
      exact h.busy hleft
  · exact h

theorem Sound.read (h : s.Sound changeFd stopFd) : s.read.Sound changeFd stopFd := by
  unfold Notifier.read
  split
  · rename_i hcalled
    obtain ⟨hcalling, hleft⟩ := hcalled
    have hcounted := h.counted
    rw [hleft] at hcounted
    split
    · rename_i hzero
      refine ⟨h.own, Registry.keeps_step _ _ h.keeps trivial, ?_, ?_, fun hne => absurd hleft hne,
        h.counted⟩
      · show EventLoop.Awake _ _ (decide (0 < s.counter)) _
        rw [hzero]
        exact EventLoop.awake_of_unreadable _ _ _
      · intro hsetting
        rw [registration_step (fun change hchange => absurd hchange (by simp [EventLoop.pushes]))]
        exact h.asked hsetting
    · refine ⟨h.own, h.keeps, EventLoop.awake_of_unreadable _ _ _, h.asked, fun _ => ?_, ?_⟩
      · rw [hcalling]
        exact Option.some_ne_none _
      · exact hcounted
  · exact h

theorem Sound.round (h : s.Sound changeFd stopFd) : s.round.Sound changeFd stopFd := by
  unfold Notifier.round
  have hcounted := h.counted
  cases hleft : s.left with
  | none => exact h
  | some left =>
    rw [hleft] at hcounted
    have hbusy : calling s.registry.loop ≠ none := h.busy (by rw [hleft]; exact Option.some_ne_none _)
    cases left with
    | zero =>
      refine ⟨h.own, Registry.keeps_step _ _ h.keeps trivial, ?_, ?_, fun hne => absurd rfl hne,
        hcounted⟩
      · refine EventLoop.awake_step h.awake h.keeps.follows.sound _ rfl trivial ?_
        intro result addr rest ha _ _ hle
        obtain rfl := Action.handlerReturns.inj ha
        exact absurd hle (by decide)
      · intro hsetting
        rw [registration_step (fun change hchange => absurd hchange (by simp [EventLoop.pushes]))]
        exact h.asked hsetting
    | succ left =>
      simp only [Option.getD_some] at hcounted
      dsimp only
      split
      · refine ⟨h.own, h.keeps, h.awake, h.asked, fun _ => hbusy, ?_⟩
        simp only [List.length_append, List.length_singleton, Option.getD_some]
        omega
      · refine ⟨h.own, h.keeps, h.awake, h.asked, fun _ => hbusy, ?_⟩
        simp only [Option.getD_some]
        omega

theorem Sound.loopStep (h : s.Sound changeFd stopFd) (a : Action Unit) (hfine : s.Fine (.loop a)) :
    (s.loopStep a).Sound changeFd stopFd := by
  unfold Notifier.loopStep
  split
  · exact h
  · rename_i hfree
    obtain ⟨hheld, hinput⟩ := not_or.mp hfree
    obtain ⟨hpushes, hopen, hdrops⟩ := hfine
    refine ⟨h.own, Registry.keeps_step _ _ h.keeps hopen, ?_, ?_, fun hleft => ?_, h.counted⟩
    · refine EventLoop.awake_step h.awake h.keeps.follows.sound a hdrops (not_not.mp hinput) ?_
      -- the handler that returns is not this one
      rintro result addr rest rfl hphase hinterest -
      exact absurd (Or.inl (calling_of_handling h.keeps.follows.sound hphase hinterest)) hheld
    · exact fun hsetting => (registration_step hpushes).trans (h.asked hsetting)
    · show calling (s.registry.loop.step a) ≠ none
      rw [calling_step (h.busy hleft)]
      · exact h.busy hleft
      · rintro result rfl
        exact hheld (Or.inr hleft)

theorem sound_step (s : Notifier) (a : NotifierAction) (h : s.Sound changeFd stopFd)
    (hfine : s.Fine a) : (s.step a).Sound changeFd stopFd := by
  cases a with
  | notify => exact h.notify
  | set eventHandler => exact h.set eventHandler
  | ask => exact h.ask
  | read => exact h.read
  | round => exact h.round
  | loop a => exact h.loopStep a hfine

/-- With a callback, nothing is left when there is nothing more to do. -/
theorem Sound.nothing_left (h : s.Sound changeFd stopFd) (hblocked : s.Blocked)
    (hset : s.eventHandler ≠ none) : s.counter = 0 ∧ s.left = none := by
  have hunapplied : ¬s.registry.loop.phase.applying := by
    rw [hblocked.waiting]
    exact Bool.false_ne_true
  have hlist : s.registry.loop.changeList = [] := by
    by_contra hne
    exact absurd ((h.keeps.follows.signalled hunapplied hne).symm.trans hblocked.unchanged) (by simp)
  have hsettled := h.keeps.settled hlist
  have hregistered : s.registry.loop.eventInfos s.fd ≠ none := by
    rw [Ne, hsettled.keys, h.asked hblocked.set, Option.map_eq_none_iff]
    exact hset
  obtain ⟨addr, haddr⟩ := Option.ne_none_iff_exists'.mp hregistered
  have hinterest : s.registry.loop.interest s.fd = some (.node addr) := by
    rw [hsettled.interest s.fd h.own.2 h.own.1, haddr]
    rfl
  constructor
  · -- registered and with something to be read it would be ready
    rcases Nat.eq_zero_or_pos s.counter with hzero | hpositive
    · exact hzero
    · exact hblocked.quiet
        (h.awake.ready_of_waiting hblocked.waiting hinterest (decide_eq_true hpositive))
  · by_contra hleft
    refine h.busy hleft ?_
    rw [calling, hblocked.waiting]

/-! ## A notifier that always has a callback -/

/-- What is queued was asked for. -/
theorem queued_step {r : Registry Unit} {a : Action Unit} (hsound : r.loop.Sound)
    (h : r.loop.changeList ⊆ r.calls) : (r.step a).loop.changeList ⊆ (r.step a).calls := by
  have hkind := r.loop.step_kind a
  unfold Registry.step
  generalize r.loop.step a = loop at hkind ⊢
  generalize r.loop.pushes a = pushed at hkind ⊢
  cases hkind with
  | push change phase _ =>
    intro change' hchange'
    rcases List.mem_append.mp hchange' with hold | hnew
    · exact List.mem_append_left _ (h hold)
    · exact List.mem_append_right _ hnew
  | apply rest item changeList added _ _ hlist =>
    rw [Option.toList_none, List.append_nil]
    intro change' hchange'
    rw [(hsound.applied hlist rest added).1] at hchange'
    exact h (hlist ▸ List.mem_cons_of_mem item hchange')
  | _ =>
    rw [Option.toList_none, List.append_nil]
    exact h

/-- For a descriptor nobody ever asked anything for no handler is called. -/
theorem calling_ne_of_unasked {r : Registry Unit} (hfollows : r.Follows)
    (hqueued : r.loop.changeList ⊆ r.calls) {fd : Fd} (hnone : ∀ change ∈ r.calls, change.fd ≠ fd) :
    calling r.loop ≠ some fd := by
  have hregistration : registration r.calls fd = none := by
    have hfilter : r.calls.filter (fun call => call.fd = fd) = [] :=
      List.filter_eq_nil_iff.mpr fun call hcall => by simpa using hnone call hcall
    rw [registration, hfilter]
    rfl
  rw [hfollows.registration_eq fun change hchange => hnone change (hqueued hchange),
    hfollows.sound.handlers_eq_none_iff] at hregistration
  have hnode : ∀ addr, (r.loop.nodes addr).map EventInfo.fd ≠ some fd := by
    intro addr hnode
    obtain ⟨info, hinfo, rfl⟩ := Option.map_eq_some_iff.mp hnode
    exact absurd ((hfollows.sound.eventInfos addr info hinfo).symm.trans hregistration) (by simp)
  unfold calling
  split
  · exact hnode _
  · exact hnode _
  · exact fun h => absurd h (by simp)

/-- What holds as long as the callback is never taken away. -/
structure Attentive (s : Notifier) : Prop where
  queued : s.registry.loop.changeList ⊆ s.registry.calls
  unasked : s.eventHandler = none → ∀ change ∈ s.registry.calls, change.fd ≠ s.fd
  setting : s.setting = true → s.eventHandler ≠ none
  busy : s.left ≠ none → s.eventHandler ≠ none
  unheard : s.unheard = 0

theorem attentive_create (changeFd stopFd fd : Fd) : (create changeFd stopFd fd).Attentive where
  queued := List.Subset.refl _
  unasked _ _ hchange := absurd hchange List.not_mem_nil
  setting h := absurd h Bool.false_ne_true
  busy h := absurd rfl h
  unheard := rfl

theorem Attentive.registry_step (h : s.Attentive) (hsound : s.registry.loop.Sound) {a : Action Unit}
    (hpushes : ∀ change ∈ s.registry.loop.pushes a, change.fd ≠ s.fd) :
    (s.registry.step a).loop.changeList ⊆ (s.registry.step a).calls ∧
      (s.eventHandler = none → ∀ change ∈ (s.registry.step a).calls, change.fd ≠ s.fd) := by
  refine ⟨queued_step hsound h.queued, fun hnone change hchange => ?_⟩
  rcases List.mem_append.mp hchange with hold | hnew
  · exact h.unasked hnone change hold
  · exact hpushes change (Option.mem_toList.mp hnew)

theorem attentive_step (s : Notifier) (a : NotifierAction) (hsound : s.Sound changeFd stopFd)
    (h : s.Attentive) (hfine : s.Fine a) (ha : a ≠ .set none) : (s.step a).Attentive := by
  have hloop := hsound.keeps.follows.sound
  have hreturns : ∀ result, ∀ change ∈ s.registry.loop.pushes (.handlerReturns result),
      change.fd ≠ s.fd := fun _ change hchange => absurd hchange (by simp [EventLoop.pushes])
  cases a with
  | notify =>
    show s.notify.Attentive
    unfold Notifier.notify
    split
    · exact ⟨h.queued, h.unasked, h.setting, h.busy, h.unheard⟩
    · exact h
  | set eventHandler =>
    show (s.set eventHandler).Attentive
    unfold Notifier.set
    split
    · exact h
    · have hsome : eventHandler ≠ none := fun hnone => ha (by rw [hnone])
      exact ⟨h.queued, fun hnone => absurd hnone hsome, fun _ => hsome, fun _ => hsome, h.unheard⟩
  | ask =>
    show s.ask.Attentive
    unfold Notifier.ask
    split
    · rename_i hasks
      have hsome := h.setting hasks.1
      exact ⟨queued_step hloop h.queued, fun hnone => absurd hnone hsome, fun _ => hsome,
        fun _ => hsome, h.unheard⟩
    · exact h
  | read =>
    show s.read.Attentive
    unfold Notifier.read
    split
    · rename_i hcalled
      split
      · obtain ⟨hqueued, hunasked⟩ := h.registry_step hloop (hreturns (-1))
        exact ⟨hqueued, hunasked, h.setting, h.busy, h.unheard⟩
      · refine ⟨h.queued, h.unasked, h.setting, fun _ hnone => ?_, h.unheard⟩
        exact calling_ne_of_unasked hsound.keeps.follows h.queued (h.unasked hnone) hcalled.1
    · exact h
  | round =>
    show s.round.Attentive
    unfold Notifier.round
    cases hleft : s.left with
    | none => exact h
    | some left =>
      have hsome : s.eventHandler ≠ none := h.busy (by rw [hleft]; exact Option.some_ne_none _)
      cases left with
      | zero =>
        obtain ⟨hqueued, hunasked⟩ := h.registry_step hloop (hreturns 8)
        exact ⟨hqueued, hunasked, h.setting, fun hne => absurd rfl hne, h.unheard⟩
      | succ left =>
        dsimp only
        split
        · exact ⟨h.queued, h.unasked, h.setting, fun _ => hsome, h.unheard⟩
        · rename_i hnone
          exact absurd hnone hsome
  | loop a =>
    show (s.loopStep a).Attentive
    unfold Notifier.loopStep
    split
    · exact h
    · obtain ⟨hqueued, hunasked⟩ := h.registry_step hloop hfine.1
      exact ⟨hqueued, hunasked, h.setting, h.busy, h.unheard⟩

/-! ## Every run -/

/-- **Every notification is heard once.** In every run in which the descriptor is the notifier's own,
whenever the loop has nothing more to do and there is a callback, the rounds of `process` have been as
many as the calls of `notify` that did not fail, before `set`, between two reads or at whatever time;
and if the callback was never taken away, it was called in each of them. -/
theorem notified_heard {changeFd stopFd fd : Fd} (hchange : fd ≠ changeFd) (hstop : fd ≠ stopFd)
    {actions : List NotifierAction}
    (hfine : ∀ p ∈ transitions step (create changeFd stopFd fd) actions, p.1.Fine p.2)
    (hblocked : (run step (create changeFd stopFd fd) actions).Blocked)
    (hset : (run step (create changeFd stopFd fd) actions).eventHandler ≠ none) :
    (run step (create changeFd stopFd fd) actions).called.length +
        (run step (create changeFd stopFd fd) actions).unheard =
      (run step (create changeFd stopFd fd) actions).notified ∧
    ((∀ a ∈ actions, a ≠ .set none) →
      (run step (create changeFd stopFd fd) actions).called.length =
        (run step (create changeFd stopFd fd) actions).notified) := by
  have hsound := Lib.run_invariant step (fun s a => sound_step s a)
    (sound_create hchange hstop) hfine
  obtain ⟨hcounter, hleft⟩ := hsound.nothing_left hblocked hset
  have hcounted := hsound.counted
  rw [hcounter, hleft, Option.getD_none, Nat.add_zero] at hcounted
  refine ⟨hcounted.symm, fun hkept => ?_⟩
  have hattentive := Lib.run_invariant step
    (P := fun s => s.Sound changeFd stopFd ∧ s.Attentive)
    (C := fun s a => s.Fine a ∧ a ≠ .set none)
    (fun s a h hC => ⟨sound_step s a h.1 hC.1, attentive_step s a h.1 h.2 hC.1 hC.2⟩)
    ⟨sound_create hchange hstop, attentive_create changeFd stopFd fd⟩
    (fun p hp => ⟨hfine p hp, hkept p.2 (by
      obtain ⟨pre, post, hsplit, -⟩ := (Lib.mem_transitions_iff step).mp hp
      rw [hsplit]
      exact List.mem_append_right pre List.mem_cons_self)⟩)
  rw [hcounted, hattentive.2.unheard, Nat.add_zero]

/-- Two notifications before the loop looks at the descriptor, one while the callback is called. -/
def notifiedActions : List NotifierAction :=
  [.set (some 7), .ask, .loop .enter, .loop (.report [⟨3, .change, false, true⟩]), .loop .next,
    .loop .readChange, .loop (.applyChange true), .read, .loop (.applyChange true),
    .loop .readChange, .loop .next, .notify, .notify,
    .loop (.report [⟨5, .node 0, false, true⟩]), .loop .next, .read, .round, .notify, .round, .round,
    .read, .round, .round, .read, .loop .next]

theorem notified_heard_thrice :
    (run step (create 3 4 5) notifiedActions).called.length +
        (run step (create 3 4 5) notifiedActions).unheard =
      (run step (create 3 4 5) notifiedActions).notified ∧
    ((∀ a ∈ notifiedActions, a ≠ .set none) →
      (run step (create 3 4 5) notifiedActions).called.length =
        (run step (create 3 4 5) notifiedActions).notified) :=
  notified_heard (by decide) (by decide) (by decide) ⟨rfl, rfl, rfl, by decide⟩ (by decide)

example : (run step (create 3 4 5) notifiedActions).called = [7, 7, 7] := by decide

end Notifier
end DevScan.Sys
