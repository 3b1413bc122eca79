import DevScan.Lib.Ledger
import DevScan.Lib.Runs

/-!
# `Sys/Timer.lean` — the one-shot timer

`hbm/sys/linux/timer.cpp`, for timers that are set to fire once. The object has a callback, the
kernel has a setting that is running or not and expirations that have not been read, and a
callback that has been called may not have returned yet: until it does, the function that called
it has not returned either (`frames`), and the callback may use the timer.

`timerfd_settime` replaces the setting and clears the unread expirations, `timerfd_gettime`
returns zero unless the setting is running, and neither fails. A callback is known by the number
of the `set` it was passed to.
-/

set_option autoImplicit false

namespace DevScan.Sys

/-- The function that has called a callback. -/
inductive Frame where
  | process
  | cancel
  | destructor
deriving DecidableEq, Repr

/-- An invocation of the callback of a `set`. -/
abbrev Invocation := Nat × Bool

structure Timer where
  /-- `m_eventHandler` -/
  eventHandler : Option Nat := none
  running : Bool := false
  unread : Bool := false
  /-- The callbacks that have not returned, the innermost first. -/
  frames : List Frame := []
  destroyed : Bool := false
  /-- Not a member of the class. -/
  invocations : List Invocation := []
deriving DecidableEq, Repr

namespace Timer

/-- `timerfd_settime` -/
def settime (t : Timer) (running : Bool) : Timer := { t with running := running, unread := false }

def call (t : Timer) (frame : Frame) (callback : Nat) (fired : Bool) : Timer :=
  { t with frames := frame :: t.frames, invocations := t.invocations ++ [(callback, fired)] }

/-- `set(period_ms, false, callback)`; a period of zero is refused. -/
def set (t : Timer) (periodMs : UInt32) (callback : Nat) : Timer :=
  if periodMs = 0 then t else { t with eventHandler := some callback }.settime true

/-- The end of `cancel`, and of the destructor when it has called `cancel`. -/
def finish (t : Timer) : Frame → Timer
  | .process => t
  | .cancel => t.settime false
  | .destructor => { t.settime false with destroyed := true }

/-- `cancel`, called by itself or by the destructor, up to its end or to the call of the
callback. -/
def cancel (t : Timer) (frame : Frame) : Timer :=
  let originalEventHandler := t.eventHandler
  let t := { t with eventHandler := none }
  match t.running, originalEventHandler with
  | true, some callback => t.call frame callback false
  | _, _ => t.finish frame

def process (t : Timer) : Timer :=
  if t.unread then
    let t := { t with unread := false }
    match t.eventHandler with
    | some callback => t.call .process callback true
    | none => t
  else t

/-- The kernel's timer expires. -/
def expire (t : Timer) : Timer :=
  if t.running then { t with running := false, unread := true } else t

/-- The `n`-th of the callbacks that have not returned does so, and the function that has called
it goes on to its end. -/
def callbackReturns (t : Timer) (n : Nat) : Timer :=
  match t.frames[n]? with
  | none => t
  | some frame => { t with frames := t.frames.eraseIdx n }.finish frame

/-- `cancel` goes to its end without calling the callback. -/
def cancelReturns (t : Timer) : Bool := !(t.running && t.eventHandler.isSome)

end Timer

inductive TimerAction where
  | set (periodMs : UInt32)
  | cancel
  | destruct
  | expire
  | process
  | callbackReturns (n : Nat)
deriving DecidableEq, Repr

/-- A timer with the record of how each `set` is to be reported. -/
structure TimerRun where
  timer : Timer := {}
  /-- The verdict on each `set`: `true` if its period elapsed and was processed, `false` if it was
  cancelled or replaced before that. -/
  ledger : Lib.Ledger Bool := .empty
  /-- The `set`s before this one have been followed by a `set`, a `cancel` or the destructor that
  has returned. -/
  due : Nat := 0

namespace TimerRun

/-- `cancel`, or the destructor up to the end of its `cancel`. -/
def cancel (s : TimerRun) (frame : Frame) : TimerRun where
  timer := s.timer.cancel frame
  ledger := s.ledger.settle false
  due := if s.timer.cancelReturns then s.ledger.count else s.due

/-- The destructor is not run from inside a callback, and nothing is done after it. -/
def step (s : TimerRun) (a : TimerAction) : TimerRun :=
  if s.timer.destroyed then s
  else
    match a with
    | .set periodMs =>
      if periodMs = 0 then s
      else
        { timer := s.timer.set periodMs s.ledger.count
          ledger := s.ledger.issue false
          due := s.ledger.count }
    | .cancel => s.cancel .cancel
    | .destruct => if s.timer.frames = [] then s.cancel .destructor else s
    | .expire => { s with timer := s.timer.expire }
    | .process =>
      { s with
        timer := s.timer.process
        ledger := if s.timer.unread then s.ledger.settle true else s.ledger }
    | .callbackReturns n =>
      { s with
        timer := s.timer.callbackReturns n
        due := if s.timer.frames[n]? = some .cancel ∨ s.timer.frames[n]? = some .destructor then
            s.ledger.count
          else s.due }

end TimerRun
end DevScan.Sys
