import DevScan.Sys.Timer

/-!
# `Sys/WindowsTimer.lean` — the one-shot timer on Windows

`hbm/sys/windows/timer.cpp`, for timers that are set to fire once, with the functions that wait for a
callback to return as on Linux (`Frame`). Whether the timer is running is kept in the object here, and
`process` leaves it as it is: a timer that has fired is still running for `cancel`, which tells its
callback once more. The destructor does not call `cancel`, and a period of zero is taken.

The kernel's object resets itself when a wait returns for it, and `SetWaitableTimer` replaces the
setting and resets the object; the due time `cancel` sets is out of reach.
-/

set_option autoImplicit false

namespace DevScan.Sys.Windows

structure Timer where
  /-- `m_eventHandler` -/
  eventHandler : Option Nat := none
  /-- `m_isRunning` -/
  isRunning : Bool := false
  /-- The kernel's timer is going to expire. -/
  awaited : Bool := false
  signaled : Bool := false
  /-- The callbacks that have not returned, the innermost first. -/
  frames : List Frame := []
  destroyed : Bool := false
  /-- Not a member of the class. -/
  invocations : List Invocation := []
deriving DecidableEq, Repr

namespace Timer

def setWaitableTimer (t : Timer) (awaited : Bool) : Timer :=
  { t with awaited := awaited, signaled := false }

def call (t : Timer) (frame : Frame) (callback : Nat) (fired : Bool) : Timer :=
  { t with frames := frame :: t.frames, invocations := t.invocations ++ [(callback, fired)] }

/-- `set(period_ms, false, callback)` -/
def set (t : Timer) (callback : Nat) : Timer :=
  { { t with eventHandler := some callback }.setWaitableTimer true with isRunning := true }

/-- The end of `cancel`. -/
def finish (t : Timer) : Frame → Timer
  | .cancel => t.setWaitableTimer false
  | _ => t

/-- `cancel`, up to its end or to the call of the callback. -/
def cancel (t : Timer) : Timer :=
  let originalEventHandler := t.eventHandler
  let t := { t with eventHandler := none }
  if t.isRunning then
    let t := { t with isRunning := false }
    match originalEventHandler with
    | some callback => t.call .cancel callback false
    | none => t.finish .cancel
  else t.finish .cancel

/-- A wait has returned for the object. -/
def process (t : Timer) : Timer :=
  if t.signaled then
    let t := { t with signaled := false }
    match t.eventHandler with
    | some callback => t.call .process callback true
    | none => t
  else t

def expire (t : Timer) : Timer :=
  if t.awaited then { t with awaited := false, signaled := true } else t

/-- The `n`-th of the callbacks that have not returned does so. -/
def callbackReturns (t : Timer) (n : Nat) : Timer :=
  match t.frames[n]? with
  | none => t
  | some frame => { t with frames := t.frames.eraseIdx n }.finish frame

/-- `cancel` goes to its end without calling the callback. -/
def cancelReturns (t : Timer) : Bool := !(t.isRunning && t.eventHandler.isSome)

end Timer

/-- A timer with the record of how each `set` is to be reported. -/
structure TimerRun where
  timer : Timer := {}
  ledger : Lib.Ledger Bool := .empty
  /-- The `set`s before this one have been followed by a `set`, a `cancel` or the destructor that
  has returned. -/
  due : Nat := 0

namespace TimerRun

/-- The destructor is not run from inside a callback, and nothing is done after it. -/
def step (s : TimerRun) (a : TimerAction) : TimerRun :=
  if s.timer.destroyed then s
  else
    match a with
    | .set _ =>
      { timer := s.timer.set s.ledger.count
        ledger := s.ledger.issue false
        due := s.ledger.count }
    | .cancel =>
      { timer := s.timer.cancel
        ledger := s.ledger.settle false
        due := if s.timer.cancelReturns then s.ledger.count else s.due }
    | .destruct =>
      if s.timer.frames = [] then
        { timer := { s.timer with destroyed := true }
          ledger := s.ledger.settle false
          due := s.ledger.count }
      else s
    | .expire => { s with timer := s.timer.expire }
    | .process =>
      { s with
        timer := s.timer.process
        ledger := if s.timer.signaled then s.ledger.settle true else s.ledger }
    | .callbackReturns n =>
      { s with
        timer := s.timer.callbackReturns n
        due := if s.timer.frames[n]? = some .cancel then s.ledger.count else s.due }

/-- No callback is invoked twice, those that are invoked are told the truth, and those whose time has
come have been invoked. -/
def Reported (s : TimerRun) : Prop := s.ledger.Honoured s.timer.invocations s.due

/-- A `set`, the destructor, or the end of a `cancel` after the callback, finds no outstanding `set`;
a `cancel` finds one, or nobody to call. -/
def Heeded (s : TimerRun) (a : TimerAction) : Prop :=
  s.timer.destroyed = false →
    match a with
    | .set _ => s.ledger.outstanding = none
    | .cancel => s.ledger.outstanding = none → s.timer.cancelReturns = true
    | .destruct => s.timer.frames = [] → s.ledger.outstanding = none
    | .expire => True
    | .process => True
    | .callbackReturns n => s.timer.frames[n]? = some .cancel → s.ledger.outstanding = none

instance (s : TimerRun) (a : TimerAction) : Decidable (s.Heeded a) :=
  match a with
  | .set _ => inferInstanceAs (Decidable (_ → _ = _))
  | .cancel => inferInstanceAs (Decidable (_ → _ → _))
  | .destruct => inferInstanceAs (Decidable (_ → _ → _))
  | .expire => inferInstanceAs (Decidable (_ → True))
  | .process => inferInstanceAs (Decidable (_ → True))
  | .callbackReturns _ => inferInstanceAs (Decidable (_ → _ → _))

/-- The timer keeps up with its ledger. -/
structure Armed (s : TimerRun) : Prop where
  invocations : s.timer.invocations = s.ledger.verdicts
  due_le : s.due ≤ s.ledger.count
  due_le_outstanding : ∀ i, s.ledger.outstanding = some i → s.due ≤ i
  armed : ∀ i, s.ledger.outstanding = some i →
    s.timer.eventHandler = some i ∧ s.timer.isRunning = true ∧ (s.timer.awaited ∨ s.timer.signaled)
  idle : s.ledger.outstanding = none → s.timer.eventHandler.isSome →
    s.timer.awaited = false ∧ s.timer.signaled = false
  known : ∀ i, s.timer.eventHandler = some i → i < s.ledger.count
  exclusive : s.timer.awaited → s.timer.signaled = false

theorem armed_start : Armed {} := by
  refine ⟨rfl, Nat.le_refl 0, ?_, ?_, ?_, ?_, ?_⟩
  · intro i hi
    exact absurd hi (by simp [Lib.Ledger.empty])
  · intro i hi
    exact absurd hi (by simp [Lib.Ledger.empty])
  · intro _ _
    exact ⟨rfl, rfl⟩
  · intro i hi
    exact absurd hi (by simp)
  · intro hawaited
    exact absurd hawaited (by simp)

theorem Armed.reported {s : TimerRun} (h : s.Armed) : s.Reported := by
  rw [Reported, h.invocations]
  exact Lib.Ledger.honoured_verdicts h.due_le h.due_le_outstanding

/-! ## What a transition does -/

/-- `cancel` of a timer that runs, or is still taken to run, calls the callback. -/
theorem cancel_of_running {t : Timer} {i : Nat} (hrunning : t.isRunning = true)
    (hhandler : t.eventHandler = some i) :
    t.cancelReturns = false ∧
      t.cancel = { t with eventHandler := none, isRunning := false }.call .cancel i false := by
  unfold Timer.cancelReturns Timer.cancel
  rw [hhandler, hrunning]
  exact ⟨rfl, rfl⟩

/-- Otherwise it goes to its end. -/
theorem cancel_of_returns {t : Timer} (h : t.cancelReturns = true) :
    t.cancel = { t with eventHandler := none, isRunning := false }.finish .cancel := by
  unfold Timer.cancelReturns at h
  unfold Timer.cancel
  cases hrunning : t.isRunning with
  | false => simp [Timer.finish, Timer.setWaitableTimer]
  | true =>
    cases hhandler : t.eventHandler with
    | none => rfl
    | some callback => simp [hrunning, hhandler] at h

theorem eventHandler_of_cancel {t : Timer} (h : t.cancelReturns = false) :
    t.isRunning = true ∧ ∃ i, t.eventHandler = some i := by
  unfold Timer.cancelReturns at h
  cases hhandler : t.eventHandler with
  | none => simp [hhandler] at h
  | some i =>
    refine ⟨?_, i, rfl⟩
    simpa [hhandler] using h

theorem invocations_finish (t : Timer) (frame : Frame) :
    (t.finish frame).invocations = t.invocations := by
  cases frame <;> rfl

/-- Nothing is outstanding, and nothing is awaited either. -/
theorem armed_of_idle {s : TimerRun} (hinvocations : s.timer.invocations = s.ledger.verdicts)
    (hdue : s.due ≤ s.ledger.count) (hnone : s.ledger.outstanding = none)
    (hknown : ∀ i, s.timer.eventHandler = some i → i < s.ledger.count)
    (hawaited : s.timer.awaited = false) (hsignaled : s.timer.signaled = false) : s.Armed where
  invocations := hinvocations
  due_le := hdue
  due_le_outstanding i hi := absurd (hnone.symm.trans hi) (by simp)
  armed i hi := absurd (hnone.symm.trans hi) (by simp)
  idle _ _ := ⟨hawaited, hsignaled⟩
  known := hknown
  exclusive _ := hsignaled

theorem armed_set {s : TimerRun} (h : s.Armed) (hnone : s.ledger.outstanding = none) :
    Armed
      { timer := s.timer.set s.ledger.count
        ledger := s.ledger.issue false
        due := s.ledger.count } := by
  refine ⟨?_, Nat.le_succ _, ?_, ?_, ?_, ?_, ?_⟩
  · rw [Lib.Ledger.issue]
    simp only [Lib.Ledger.settle_of_none false hnone]
    exact h.invocations
  · intro i hi
    exact Nat.le_of_eq (Option.some.inj hi)
  · intro i hi
    exact ⟨hi, rfl, Or.inl rfl⟩
  · intro hout
    exact absurd hout (by simp [Lib.Ledger.issue])
  · intro i hi
    obtain rfl := Option.some.inj hi
    exact Nat.lt_succ_self _
  · intro _
    rfl

theorem armed_cancel {s : TimerRun} (h : s.Armed)
    (hheeded : s.ledger.outstanding = none → s.timer.cancelReturns = true) :
    Armed
      { timer := s.timer.cancel
        ledger := s.ledger.settle false
        due := if s.timer.cancelReturns then s.ledger.count else s.due } := by
  cases hout : s.ledger.outstanding with
  | none =>
    -- nobody is to be told, and nobody is
    have hreturns := hheeded hout
    rw [hreturns, if_pos rfl, cancel_of_returns hreturns, Lib.Ledger.settle_of_none false hout]
    refine armed_of_idle ?_ (Nat.le_refl _) hout ?_ rfl rfl
    · rw [invocations_finish]
      exact h.invocations
    · intro i hi
      exact absurd hi (by simp [Timer.finish, Timer.setWaitableTimer])
  | some i =>
    obtain ⟨hhandler, hrunning, -⟩ := h.armed i hout
    obtain ⟨hreturns, hcancel⟩ := cancel_of_running hrunning hhandler
    have hsettled : (s.ledger.settle false).outstanding = none := Lib.Ledger.outstanding_settle false
    rw [hreturns, if_neg (by simp), hcancel]
    refine ⟨?_, ?_, ?_, ?_, ?_, ?_, h.exclusive⟩
    · rw [Lib.Ledger.verdicts_settle false hout]
      exact congrArg (· ++ [(i, false)]) h.invocations
    · rw [Lib.Ledger.count_settle]
      exact h.due_le
    · intro j hj
      exact absurd (hj.symm.trans hsettled) (by simp)
    · intro j hj
      exact absurd (hj.symm.trans hsettled) (by simp)
    · intro _ hsome
      exact absurd hsome (by simp [Timer.call])
    · intro j hj
      exact absurd hj (by simp [Timer.call])

/-- After the destructor there is nothing that could be told to anybody. -/
theorem armed_destruct {s : TimerRun} (h : s.Armed) (hnone : s.ledger.outstanding = none) :
    Armed
      { timer := { s.timer with destroyed := true }
        ledger := s.ledger.settle false
        due := s.ledger.count } := by
  rw [Lib.Ledger.settle_of_none false hnone]
  refine ⟨h.invocations, Nat.le_refl _, ?_, ?_, h.idle, h.known, h.exclusive⟩
  · intro i hi
    exact absurd (hnone.symm.trans hi) (by simp)
  · intro i hi
    exact absurd (hnone.symm.trans hi) (by simp)

theorem armed_expire {s : TimerRun} (h : s.Armed) : Armed { s with timer := s.timer.expire } := by
  unfold Timer.expire
  split
  · rename_i hawaited
    refine ⟨h.invocations, h.due_le, h.due_le_outstanding, ?_, ?_, h.known, ?_⟩
    · intro i hi
      obtain ⟨hhandler, hrunning, -⟩ := h.armed i hi
      exact ⟨hhandler, hrunning, Or.inr rfl⟩
    · intro hnone hsome
      exact absurd (h.idle hnone hsome).1 (by rw [hawaited]; simp)
    · intro hagain
      exact absurd hagain (by simp)
  · exact h

theorem armed_process {s : TimerRun} (h : s.Armed) :
    Armed
      { s with
        timer := s.timer.process
        ledger := if s.timer.signaled then s.ledger.settle true else s.ledger } := by
  unfold Timer.process
  cases hsignaled : s.timer.signaled with
  | false =>
    simp only [Bool.false_eq_true, if_false]
    exact h
  | true =>
    have hawaited : s.timer.awaited = false := by
      cases hwait : s.timer.awaited with
      | false => rfl
      | true => exact absurd (h.exclusive hwait) (by rw [hsignaled]; simp)
    simp only [if_true]
    cases hout : s.ledger.outstanding with
    | none =>
      -- a timer that expired while a `cancel` was on its way
      have hhandler : s.timer.eventHandler = none := by
        cases hhandler : s.timer.eventHandler with
        | none => rfl
        | some callback =>
          have hidle := h.idle hout (by rw [hhandler]; rfl)
          exact absurd hidle.2 (by rw [hsignaled]; simp)
      simp only [hhandler]
      rw [Lib.Ledger.settle_of_none true hout]
      refine armed_of_idle h.invocations h.due_le hout ?_ hawaited rfl
      intro i hi
      exact absurd hi (by simp)
    | some i =>
      obtain ⟨hhandler, -⟩ := h.armed i hout
      simp only [hhandler]
      refine armed_of_idle ?_ ?_ (Lib.Ledger.outstanding_settle true) ?_ hawaited rfl
      · rw [Lib.Ledger.verdicts_settle true hout]
        exact congrArg (· ++ [(i, true)]) h.invocations
      · rw [Lib.Ledger.count_settle]
        exact h.due_le
      · intro j hj
        rw [Lib.Ledger.count_settle]
        exact h.known j (hhandler.trans hj)

theorem armed_callbackReturns {s : TimerRun} (h : s.Armed) {n : Nat}
    (hheeded : s.timer.frames[n]? = some .cancel → s.ledger.outstanding = none) :
    Armed
      { s with
        timer := s.timer.callbackReturns n
        due := if s.timer.frames[n]? = some .cancel then s.ledger.count else s.due } := by
  unfold Timer.callbackReturns
  cases hframe : s.timer.frames[n]? with
  | none =>
    rw [if_neg (by simp)]
    exact h
  | some frame =>
    rw [hframe] at hheeded
    cases frame with
    | cancel =>
      rw [if_pos rfl]
      exact armed_of_idle h.invocations (Nat.le_refl _) (hheeded rfl) h.known rfl rfl
    | _ =>
      rw [if_neg (by simp)]
      exact ⟨h.invocations, h.due_le, h.due_le_outstanding, h.armed, h.idle, h.known, h.exclusive⟩

theorem armed_step (s : TimerRun) (a : TimerAction) (h : s.Armed) (hheeded : s.Heeded a) :
    (s.step a).Armed := by
  unfold step
  split
  · exact h
  · rename_i hdestroyed
    have hheeded := hheeded (by simpa using hdestroyed)
    cases a with
    | set periodMs => exact armed_set h hheeded
    | cancel => exact armed_cancel h hheeded
    | destruct =>
      simp only
      split
      · rename_i hframes
        exact armed_destruct h (hheeded hframes)
      · exact h
    | expire => exact armed_expire h
    | process => exact armed_process h
    | callbackReturns n => exact armed_callbackReturns h hheeded

/-! ## What is lost, and what is told twice -/

theorem not_reported_step (s : TimerRun) (a : TimerAction) (h : s.Armed) (hnot : ¬s.Heeded a) :
    ¬(s.step a).Reported := by
  unfold Heeded at hnot
  obtain ⟨hdestroyed, hunheeded⟩ := Classical.not_imp.mp hnot
  unfold step Reported
  rw [hdestroyed, if_neg (by simp)]
  cases a with
  | set periodMs =>
    show ¬Lib.Ledger.Honoured _ s.timer.invocations s.ledger.count
    rw [h.invocations]
    exact Lib.Ledger.not_honoured_of_outstanding hunheeded
  | cancel =>
    obtain ⟨hnone, hreturns⟩ := Classical.not_imp.mp hunheeded
    obtain ⟨hrunning, i, hhandler⟩ := eventHandler_of_cancel (eq_false_of_ne_true hreturns)
    simp only [(cancel_of_running hrunning hhandler).2, Timer.call, h.invocations]
    exact Lib.Ledger.not_honoured_of_again (h.known i hhandler) hnone false
  | destruct =>
    obtain ⟨hframes, hout⟩ := Classical.not_imp.mp hunheeded
    simp only [if_pos hframes, h.invocations]
    exact Lib.Ledger.not_honoured_of_outstanding hout
  | expire => exact absurd trivial hunheeded
  | process => exact absurd trivial hunheeded
  | callbackReturns n =>
    obtain ⟨hframe, hout⟩ := Classical.not_imp.mp hunheeded
    simp only [Timer.callbackReturns, hframe, if_pos, invocations_finish, h.invocations]
    exact Lib.Ledger.not_honoured_of_outstanding hout

/-! ## Every run -/

/-- **Every `set` reports once on Windows, in every state of a run, exactly if** all its transitions
find what they need: a `set`, the destructor, or the end of a `cancel` after its callback, no
outstanding `set`; a `cancel` an outstanding one, or a timer that has not fired since it was
cancelled. -/
theorem windows_reported_iff (actions : List TimerAction) :
    (∀ pre, pre <+: actions → (Lib.run step {} pre).Reported) ↔
      ∀ p ∈ Lib.transitions step {} actions, p.1.Heeded p.2 :=
  Lib.run_exact step (fun _ h => Armed.reported h) armed_step not_reported_step armed_start

/-- A timer that is cancelled after it has fired: its callback is told that it fired, and that it was
cancelled. -/
theorem not_reported_cancelled :
    ¬∀ pre, pre <+: [.set 100, .expire, .process, .callbackReturns 0, .cancel] →
      (Lib.run step {} pre).Reported := fun h =>
  absurd ((windows_reported_iff _).mp h) (by decide)

end TimerRun
end DevScan.Sys.Windows
