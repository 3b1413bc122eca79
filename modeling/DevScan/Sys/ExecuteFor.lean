import DevScan.Lib.Int32
import DevScan.Sys.EventLoop

/-!
# `Sys/ExecuteFor.lean` — the event loop against the clock

`EventLoop::execute_for` is the loop of `Sys/EventLoop.lean` with an end: at its head it reads the
clock, and `epoll_wait` gets the milliseconds that are left. Time passes between any two steps
(`elapse`), so a handler takes as long as it likes. What `epoll_wait` makes of its timeout is what
is known of it: none is reported before the timeout is over, and a negative one never is.

The milliseconds are counted in 64 bits and handed over as an `int`.
-/

set_option autoImplicit false

namespace DevScan.Sys

open Lib (run run_cons run_nil run_invariant)
open Lib.Int32 (toInt)

/-- Time points and durations of `steady_clock` are counted in nanoseconds. -/
def ticksPerMs : Int := 1000000

/-- An `epoll_wait` that has not returned. -/
structure Wait where
  timeout : Int
  called : Int
deriving DecidableEq, Repr

structure TimedLoop (H : Type) where
  loop : EventLoop H
  clock : Int
  endTime : Int
  wait : Option Wait := none
  /-- The timeouts `epoll_wait` was given, each with the time that had been read. -/
  timeouts : List (Int × Int) := []
  /-- What was returned, and when. -/
  result : Option (Int × Int) := none

inductive TimedAction (H : Type) where
  | elapse (ticks : Nat)
  /-- The head of the loop, up to the call of `epoll_wait`. -/
  | readClock
  | waitTimesOut
  /-- `epoll_wait` returns -1; `interrupted` is `errno == EINTR`. -/
  | waitFails (interrupted : Bool)
  | waitReturns (batch : List EpollEvent)
  /-- Any other step of the loop, or of somebody else. -/
  | other (a : Action H)

variable {H : Type}

/-- The steps `execute_for` does not take itself. -/
def Action.isOther : Action H → Bool
  | .enter => false
  | .report _ => false
  | .leave => false
  | _ => true

namespace TimedLoop

/-- `execute_for` is called at `start`. -/
def executeFor (loop : EventLoop H) (start : Int) (timeToWait : Int) : TimedLoop H where
  loop := { loop with phase := .waiting }
  clock := start
  endTime := if timeToWait ≠ 0 then start + timeToWait * ticksPerMs else 0

def returns (s : TimedLoop H) (result : Int) : TimedLoop H :=
  { s with loop := s.loop.step .leave, wait := none, result := some (result, s.clock) }

/-- `timediff.count()` -/
def timediff (s : TimedLoop H) : Int := (s.endTime - s.clock).tdiv ticksPerMs

/-- One step. An action that is not possible where the loop is leaves everything as it is. -/
def step (s : TimedLoop H) : TimedAction H → TimedLoop H
  | .elapse ticks => { s with clock := s.clock + ticks }
  | .readClock =>
    if s.loop.phase = .waiting ∧ s.wait = none then
      if s.endTime ≤ s.clock then s.returns 0
      else
        let timeout := toInt s.timediff.toNat
        { s with wait := some ⟨timeout, s.clock⟩, timeouts := s.timeouts ++ [(s.clock, timeout)] }
    else s
  | .waitTimesOut =>
    match s.wait with
    | some wait =>
      if 0 ≤ wait.timeout ∧ wait.called + wait.timeout * ticksPerMs ≤ s.clock then s.returns 0
      else s
    | none => s
  | .waitFails interrupted =>
    match s.wait with
    | some wait =>
      if interrupted then { s with wait := some { wait with called := s.clock } }
      else s.returns (-1)
    | none => s
  | .waitReturns batch =>
    match s.wait with
    | some _ =>
      if s.loop.MayReport batch then { s with loop := s.loop.step (.report batch), wait := none }
      else s
    | none => s
  | .other a =>
    if a.isOther then
      let loop := s.loop.step a
      -- the loop is left at a stop event
      if s.loop.phase ≠ .outside ∧ loop.phase = .outside then
        { s with loop := loop, result := some (0, s.clock) }
      else { s with loop := loop }
    else s

end TimedLoop

/-- An event that stops the loop. -/
def EpollEvent.isStop (e : EpollEvent) : Bool := e.ptr = .stop && !e.hupOrErr && e.input

/-- `epoll_wait` reports no error, and `stop` has not been called. -/
def TimedAction.quiet : TimedAction H → Bool
  | .waitFails _ => false
  | .waitReturns batch => batch.all fun e => !e.isStop
  | _ => true

/-- The events of the batch that are still to be looked at. -/
def Phase.batch : Phase → List EpollEvent
  | .outside => []
  | .waiting => []
  | .dispatching rest => rest
  | .handling _ rest => rest
  | .changeRead rest => rest
  | .changing rest => rest
  | .priming rest => rest
  | .undefined => []

namespace EventLoop

variable {s : EventLoop H}

theorem batch_dispatch {e e' : EpollEvent} {rest : List EpollEvent}
    (h : e' ∈ (s.dispatch e rest).phase.batch) : e' ∈ rest := by
  unfold dispatch at h
  split at h
  · split at h
    · exact h
    · exact h
    · split at h
      · exact h
      · cases h
  · split at h
    · split at h
      · cases h
      · exact h
      · exact h
    · exact h

theorem batch_applyChange {rest : List EpollEvent} (hphase : s.phase = .changing rest)
    (added : Bool) : (s.applyChange rest added).phase.batch = rest := by
  cases hlist : s.changeList with
  | nil =>
    rw [applyChange_nil hlist]
    rfl
  | cons item changeList =>
    rw [applyChange_cons hlist]
    cases item.eventHandler with
    | none => exact congrArg Phase.batch hphase
    | some eventHandler => rfl

/-- Only a report brings events. -/
theorem batch_step {a : Action H} {e : EpollEvent} (ha : a.isOther = true)
    (h : e ∈ (s.step a).phase.batch) : e ∈ s.phase.batch := by
  cases a with
  | request change =>
    simp only [step] at h
    split at h
    · exact h
    · exact h
    · exact h
  | close fd => exact h
  | enter => cases ha
  | report batch => cases ha
  | leave => cases ha
  | next =>
    simp only [step] at h
    split at h
    · cases h
    · rename_i e' rest hphase
      rw [hphase]
      exact List.mem_cons_of_mem _ (batch_dispatch h)
    · exact h
  | handlerReturns result =>
    simp only [step] at h
    split at h
    · rename_i addr rest hphase
      rw [hphase]
      split at h
      · split at h
        · rwa [hphase] at h
        · exact h
      · cases h
    · rename_i rest hphase
      rw [hphase]
      split at h
      · rwa [hphase] at h
      · exact h
    · exact h
  | readChange =>
    simp only [step] at h
    split at h
    · rename_i rest hphase
      rw [hphase]
      split at h
      · exact h
      · exact h
    · exact h
  | applyChange added =>
    simp only [step] at h
    split at h
    · rename_i rest hphase
      rw [batch_applyChange hphase] at h
      rwa [hphase]
    · exact h

theorem isStop_of_dispatch {e : EpollEvent} {rest : List EpollEvent}
    (h : (s.dispatch e rest).phase = .outside) : e.isStop = true := by
  unfold dispatch at h
  split at h
  · split at h
    · cases h
    · cases h
    · split at h
      · cases h
      · cases h
  · rename_i hnot
    split at h
    · rename_i hinput
      split at h
      · rename_i hptr
        simp [EpollEvent.isStop, hptr, hnot, hinput]
      · cases h
      · cases h
    · cases h

theorem outside_applyChange {rest : List EpollEvent} (hphase : s.phase = .changing rest)
    (added : Bool) : (s.applyChange rest added).phase ≠ .outside := by
  cases hlist : s.changeList with
  | nil =>
    rw [applyChange_nil hlist]
    simp
  | cons item changeList =>
    rw [applyChange_cons hlist]
    cases item.eventHandler with
    | none => exact fun h => absurd (hphase.symm.trans h) (by simp)
    | some eventHandler => simp

/-- The loop is left at a stop event. -/
theorem isStop_of_outside {a : Action H} (ha : a.isOther = true) (hphase : s.phase ≠ .outside)
    (h : (s.step a).phase = .outside) : ∃ e ∈ s.phase.batch, e.isStop = true := by
  cases a with
  | request change =>
    simp only [step] at h
    split at h
    · exact absurd h hphase
    · exact absurd h hphase
    · exact absurd h hphase
  | close fd => exact absurd h hphase
  | enter => cases ha
  | report batch => cases ha
  | leave => cases ha
  | next =>
    simp only [step] at h
    split at h
    · cases h
    · rename_i e rest hdispatching
      rw [hdispatching]
      exact ⟨e, List.mem_cons_self, isStop_of_dispatch h⟩
    · exact absurd h hphase
  | handlerReturns result =>
    simp only [step] at h
    split at h
    · split at h
      · split at h
        · exact absurd h hphase
        · cases h
      · cases h
    · split at h
      · exact absurd h hphase
      · cases h
    · exact absurd h hphase
  | readChange =>
    simp only [step] at h
    split at h
    · split at h
      · cases h
      · cases h
    · exact absurd h hphase
  | applyChange added =>
    simp only [step] at h
    split at h
    · rename_i rest hchanging
      exact absurd h (outside_applyChange hchanging added)
    · exact absurd h hphase

end EventLoop

namespace TimedLoop

/-! ## What has been asked of `epoll_wait` -/

/-- What is left at a time, in whole milliseconds. -/
def remaining (s : TimedLoop H) (now : Int) : Int := (s.endTime - now) / ticksPerMs

/-- **The invariant** of a quiet run: every timeout is what was left, as an `int`, and the loop
returns when its time is over, or when the timeout of an `epoll_wait` is. -/
structure Waits (start endTime : Int) (s : TimedLoop H) : Prop where
  endTime_eq : s.endTime = endTime
  clock : start ≤ s.clock
  timeouts : ∀ p ∈ s.timeouts, start ≤ p.1 ∧ p.1 < endTime ∧
    p.2 = toInt ((endTime - p.1) / ticksPerMs).toNat
  wait : ∀ wait ∈ s.wait, ∃ now ≤ wait.called, (now, wait.timeout) ∈ s.timeouts
  quiet : ∀ e ∈ s.loop.phase.batch, e.isStop = false
  result : ∀ r ∈ s.result, r.1 = 0 ∧
    (endTime ≤ r.2 ∨ ∃ p ∈ s.timeouts, 0 ≤ p.2 ∧ p.1 + p.2 * ticksPerMs ≤ r.2)

variable {s : TimedLoop H} {start endTime : Int}

theorem timediff_eq (h : s.clock < s.endTime) :
    s.timediff = (s.endTime - s.clock) / ticksPerMs := by
  rw [timediff, Int.tdiv_eq_ediv_of_nonneg (by omega)]

namespace Waits

/-- The loop returns 0 now, for one of the two reasons it may have. -/
theorem returns (h : Waits start endTime s)
    (hover : endTime ≤ s.clock ∨
      ∃ p ∈ s.timeouts, 0 ≤ p.2 ∧ p.1 + p.2 * ticksPerMs ≤ s.clock) :
    Waits start endTime (s.returns 0) where
  endTime_eq := h.endTime_eq
  clock := h.clock
  timeouts := h.timeouts
  wait := by
    intro wait hwait
    cases hwait
  quiet := by
    intro e he
    simp only [TimedLoop.returns, EventLoop.step] at he
    split at he
    · cases he
    · exact h.quiet e he
  result := by
    intro r hr
    obtain rfl := Option.some.inj hr
    exact ⟨rfl, hover⟩

theorem readClock (h : Waits start endTime s) : Waits start endTime (s.step .readClock) := by
  simp only [step]
  split
  · split
    · rename_i hover
      exact h.returns (Or.inl (h.endTime_eq ▸ hover))
    · rename_i hleft
      have hlt : s.clock < s.endTime := Int.not_le.mp hleft
      have htimeout : toInt s.timediff.toNat = toInt ((endTime - s.clock) / ticksPerMs).toNat := by
        rw [timediff_eq hlt, h.endTime_eq]
      refine ⟨h.endTime_eq, h.clock, fun p hp => ?_, fun wait hwait => ?_, h.quiet, fun r hr => ?_⟩
      · rcases List.mem_append.mp hp with hp | hp
        · exact h.timeouts p hp
        · obtain rfl := List.mem_singleton.mp hp
          exact ⟨h.clock, h.endTime_eq ▸ hlt, htimeout⟩
      · obtain rfl := Option.some.inj hwait
        exact ⟨s.clock, Int.le_refl _, List.mem_append_right _ (List.mem_singleton.mpr rfl)⟩
      · obtain ⟨hzero, hover⟩ := h.result r hr
        refine ⟨hzero, hover.imp_right fun hwaited => ?_⟩
        obtain ⟨p, hp, hsince⟩ := hwaited
        exact ⟨p, List.mem_append_left _ hp, hsince⟩
  · exact h

theorem waitTimesOut (h : Waits start endTime s) : Waits start endTime (s.step .waitTimesOut) := by
  simp only [step]
  split
  · rename_i wait hwait
    split
    · rename_i hover
      obtain ⟨now, hnow, hmem⟩ := h.wait wait hwait
      refine h.returns (Or.inr ⟨_, hmem, hover.1, ?_⟩)
      exact Int.le_trans (Int.add_le_add_right hnow _) hover.2
    · exact h
  · exact h

theorem waitReturns (h : Waits start endTime s) {batch : List EpollEvent}
    (hquiet : ∀ e ∈ batch, e.isStop = false) :
    Waits start endTime (s.step (.waitReturns batch)) := by
  simp only [step]
  split
  · split
    · refine ⟨h.endTime_eq, h.clock, h.timeouts, fun wait hwait => (by cases hwait), fun e he => ?_,
        h.result⟩
      simp only [EventLoop.step] at he
      split at he
      · exact hquiet e he
      · exact h.quiet e he
    · exact h
  · exact h

theorem other (h : Waits start endTime s) (a : Action H) :
    Waits start endTime (s.step (.other a)) := by
  simp only [step]
  split
  · rename_i ha
    have hquiet : ∀ e ∈ (s.loop.step a).phase.batch, e.isStop = false := fun e he =>
      h.quiet e (EventLoop.batch_step ha he)
    split
    · rename_i hleft
      obtain ⟨e, he, hstop⟩ := EventLoop.isStop_of_outside ha hleft.1 hleft.2
      exact absurd (h.quiet e he) (by simp [hstop])
    · exact ⟨h.endTime_eq, h.clock, h.timeouts, h.wait, hquiet, h.result⟩
  · exact h

theorem step (h : Waits start endTime s) {a : TimedAction H} (ha : a.quiet = true) :
    Waits start endTime (s.step a) := by
  cases a with
  | elapse ticks =>
    refine ⟨h.endTime_eq, ?_, h.timeouts, h.wait, h.quiet, h.result⟩
    have hclock := h.clock
    simp only [TimedLoop.step]
    omega
  | readClock => exact h.readClock
  | waitTimesOut => exact h.waitTimesOut
  | waitFails interrupted => cases ha
  | waitReturns batch =>
    refine h.waitReturns fun e he => ?_
    simpa using List.all_eq_true.mp ha e he
  | other a => exact h.other a

theorem executeFor (loop : EventLoop H) (start : Int) {timeToWait : Int} (hne : timeToWait ≠ 0) :
    Waits start (start + timeToWait * ticksPerMs) (executeFor loop start timeToWait) where
  endTime_eq := if_pos hne
  clock := Int.le_refl _
  timeouts _ hp := by cases hp
  wait _ hwait := by cases hwait
  quiet _ he := by cases he
  result _ hr := by cases hr

end Waits

/-! ## On time -/

/-- **The loop keeps to its time**: no timeout is negative or anything but what was left, and 0 is
returned, not more than a millisecond before the time is over. -/
structure KeepsTime (entered : Int) (timeToWait : Int) (s : TimedLoop H) : Prop where
  timeouts : ∀ p ∈ s.timeouts, 0 ≤ p.2 ∧ p.2 = s.remaining p.1
  result : ∀ r ∈ s.result, r.1 = 0 ∧ entered + (timeToWait - 1) * ticksPerMs ≤ r.2

theorem Waits.keepsTime {entered timeToWait : Int} (hentered : entered ≤ start)
    (hlt : timeToWait < Lib.Int32.bound)
    (h : Waits start (start + timeToWait * ticksPerMs) s) : KeepsTime entered timeToWait s := by
  have htimeout : ∀ p ∈ s.timeouts, 0 ≤ p.2 ∧ p.2 = s.remaining p.1 := by
    intro p hp
    obtain ⟨hstart, hend, htimeout⟩ := h.timeouts p hp
    have hpos : 0 ≤ (start + timeToWait * ticksPerMs - p.1) / ticksPerMs :=
      Int.ediv_nonneg (by omega) (by decide)
    have hle : (start + timeToWait * ticksPerMs - p.1) / ticksPerMs ≤ timeToWait := by
      have hticks : (0 : Int) < ticksPerMs := by decide
      refine Int.ediv_le_of_le_mul hticks ?_
      omega
    rw [Lib.Int32.toInt_of_lt (by omega), Int.toNat_of_nonneg hpos] at htimeout
    rw [htimeout, remaining, h.endTime_eq]
    exact ⟨hpos, rfl⟩
  refine ⟨htimeout, fun r hr => ?_⟩
  obtain ⟨hzero, hover⟩ := h.result r hr
  refine ⟨hzero, ?_⟩
  have hentered' : entered + (timeToWait - 1) * ticksPerMs ≤
      start + timeToWait * ticksPerMs - ticksPerMs := by
    rw [Int.sub_mul, Int.one_mul]
    omega
  rcases hover with hover | ⟨p, hp, -, hover⟩
  · have hticks : (0 : Int) ≤ ticksPerMs := by decide
    omega
  · obtain ⟨-, hremaining⟩ := htimeout p hp
    rw [hremaining, remaining, h.endTime_eq] at hover
    have hticks : (0 : Int) < ticksPerMs := by decide
    have hlow := Int.lt_ediv_add_one_mul_self (start + timeToWait * ticksPerMs - p.1) hticks
    rw [Int.add_mul, Int.one_mul] at hlow
    omega

/-- The first timeout, if the clock is read again before it has moved on. -/
theorem timeouts_readClock (loop : EventLoop H) (start : Int) {timeToWait : Int}
    (hpos : 0 < timeToWait) :
    ((executeFor loop start timeToWait).step .readClock).timeouts =
        [(start, toInt timeToWait.toNat)] ∧
      ((executeFor loop start timeToWait).step .readClock).remaining start = timeToWait := by
  have hticks : (0 : Int) < ticksPerMs := by decide
  have hend : (executeFor loop start timeToWait).endTime = start + timeToWait * ticksPerMs :=
    if_pos (Int.ne_of_lt hpos).symm
  have hlater : ¬(executeFor loop start timeToWait).endTime ≤
      (executeFor loop start timeToWait).clock := by
    have hmul := Int.mul_pos hpos hticks
    have hclock : (executeFor loop start timeToWait).clock = start := rfl
    rw [hend, hclock]
    omega
  have hleft : (start + timeToWait * ticksPerMs - start) / ticksPerMs = timeToWait := by
    have hsub : start + timeToWait * ticksPerMs - start = timeToWait * ticksPerMs := by omega
    rw [hsub, Int.mul_ediv_cancel _ (Int.ne_of_lt hticks).symm]
  have hdiff : (executeFor loop start timeToWait).timediff = timeToWait := by
    rw [timediff_eq (Int.not_le.mp hlater), hend]
    exact hleft
  simp only [step]
  rw [if_pos ⟨rfl, rfl⟩, if_neg hlater, hdiff]
  refine ⟨rfl, ?_⟩
  rw [remaining, hend]
  exact hleft

/-- **`execute_for` never ends early exactly for durations that are an `int` in milliseconds.**
For those every run without errors and stops keeps to its time, and for any longer one the first
timeout is a wrong one already if the clock is read again in the same nanosecond. -/
theorem executeFor_keepsTime_iff (loop : EventLoop H) {entered start : Int}
    (hentered : entered ≤ start) {timeToWait : Int} (hpos : 0 < timeToWait) :
    (∀ actions : List (TimedAction H), (∀ a ∈ actions, a.quiet = true) →
        KeepsTime entered timeToWait (run step (executeFor loop start timeToWait) actions)) ↔
      timeToWait < Lib.Int32.bound := by
  constructor
  · intro hkeeps
    have hone : ∀ a ∈ [TimedAction.readClock (H := H)], a.quiet = true := by
      intro a ha
      obtain rfl := List.mem_singleton.mp ha
      rfl
    obtain ⟨htimeouts, hremaining⟩ := timeouts_readClock loop start hpos
    have hfirst := (hkeeps [.readClock] hone).timeouts (start, toInt timeToWait.toNat) (by
      rw [run_cons, run_nil, htimeouts]
      exact List.mem_singleton.mpr rfl)
    have hlt := Lib.Int32.toInt_lt timeToWait.toNat
    rw [run_cons, run_nil, hremaining] at hfirst
    exact hfirst.2 ▸ hlt
  · intro hlt actions hquiet
    have hne : timeToWait ≠ 0 := (Int.ne_of_lt hpos).symm
    refine Waits.keepsTime hentered hlt ?_
    refine run_invariant step (C := fun _ a => a.quiet = true) (fun s a hs ha => hs.step ha)
      (Waits.executeFor loop start hne) fun p hp => ?_
    obtain ⟨pre, post, hsplit, -⟩ := (Lib.mem_transitions_iff step).mp hp
    exact hquiet p.2 (hsplit ▸ List.mem_append_right _ List.mem_cons_self)

/-- A tenth of a second is waited for. -/
theorem executeFor_keepsTime_tenth :
    KeepsTime 0 100 (run step (executeFor (EventLoop.create Unit 3 4) 0 100)
      [.readClock, .elapse 100000000, .waitTimesOut]) :=
  (executeFor_keepsTime_iff (EventLoop.create Unit 3 4) (Int.le_refl 0) (by decide)).mpr (by decide)
    _ (by decide)

/-- Of 2³² + 1 ms, about fifty days, one is left as an `int`; 2³¹ ms are waited for without end. -/
theorem executeFor_ends_early :
    (run step (executeFor (EventLoop.create Unit 3 4) 0 0x100000001)
        [.readClock, .elapse 1000000, .waitTimesOut]).result = some (0, 1000000) ∧
      (run step (executeFor (EventLoop.create Unit 3 4) 0 0x80000000) [.readClock]).timeouts =
        [(0, -0x80000000)] := by
  decide

end TimedLoop
end DevScan.Sys
