import DevScan.Sys.Timer

/-!
# `Sys/OneShot.lean` — does every `set` report once

What is to be reported is kept in a ledger beside the timer; the invocations are compared with
it (`Reported`). The timer keeps up with its ledger as long as the outstanding `set` is armed:
its callback is the one in the object, and its expiration is to come or has not been read
(`Armed`). Three transitions lose an outstanding `set` without a word — another `set`, a `cancel`
that finds the timer expired, and the end of a `cancel` whose callback has set the timer again —
and each of them is a violation there and then, so that the condition is exact
(`reported_iff`).
-/

set_option autoImplicit false

namespace DevScan.Sys.TimerRun

/-- **The property.** No callback is invoked twice, those that are invoked are told the truth,
and those whose time has come have been invoked. -/
def Reported (s : TimerRun) : Prop := s.ledger.Honoured s.timer.invocations s.due

/-- **The condition.** A `set`, or the end of a `cancel` or of the destructor after the callback,
finds no outstanding `set`; a `cancel` or the destructor finds none, or finds it running. -/
def Heeded (s : TimerRun) (a : TimerAction) : Prop :=
  s.timer.destroyed = false →
    match a with
    | .set periodMs => periodMs = 0 ∨ s.ledger.outstanding = none
    | .cancel => s.ledger.outstanding = none ∨ s.timer.running
    | .destruct => s.timer.frames = [] → s.ledger.outstanding = none ∨ s.timer.running
    | .expire => True
    | .process => True
    | .callbackReturns n =>
      s.timer.frames[n]? = some .cancel ∨ s.timer.frames[n]? = some .destructor →
        s.ledger.outstanding = none

/-- The timer keeps up with its ledger. -/
structure Armed (s : TimerRun) : Prop where
  invocations : s.timer.invocations = s.ledger.verdicts
  due_le : s.due ≤ s.ledger.count
  due_le_outstanding : ∀ i, s.ledger.outstanding = some i → s.due ≤ i
  armed : ∀ i, s.ledger.outstanding = some i →
    s.timer.eventHandler = some i ∧ (s.timer.running ∨ s.timer.unread)
  idle : s.ledger.outstanding = none → s.timer.eventHandler.isSome →
    s.timer.running = false ∧ s.timer.unread = false
  exclusive : s.timer.running → s.timer.unread = false

theorem armed_start : Armed {} := by
  refine ⟨rfl, Nat.le_refl 0, ?_, ?_, ?_, ?_⟩
  · intro i hi
    exact absurd hi (by simp [Lib.Ledger.empty])
  · intro i hi
    exact absurd hi (by simp [Lib.Ledger.empty])
  · intro _ _
    exact ⟨rfl, rfl⟩
  · intro hrunning
    exact absurd hrunning (by simp)

theorem Armed.reported {s : TimerRun} (h : s.Armed) : s.Reported := by
  rw [Reported, h.invocations]
  exact Lib.Ledger.honoured_verdicts h.due_le h.due_le_outstanding

/-! ## What a transition does -/

/-- `cancel` when nothing is outstanding calls nobody. -/
theorem Armed.cancelReturns {s : TimerRun} (h : s.Armed) (hnone : s.ledger.outstanding = none) :
    s.timer.cancelReturns = true := by
  unfold Timer.cancelReturns
  cases hhandler : s.timer.eventHandler with
  | none => simp
  | some callback =>
    have hidle := h.idle hnone (by rw [hhandler]; rfl)
    rw [hidle.1]
    rfl

theorem cancel_of_returns {t : Timer} (h : t.cancelReturns = true) (frame : Frame) :
    t.cancel frame = { t with eventHandler := none }.finish frame := by
  unfold Timer.cancelReturns at h
  unfold Timer.cancel
  cases hrunning : t.running with
  | false => rfl
  | true =>
    cases hhandler : t.eventHandler with
    | none => rfl
    | some callback => simp [hrunning, hhandler] at h

/-- `cancel` of a running timer calls the callback. -/
theorem cancel_of_running {t : Timer} {i : Nat} (hrunning : t.running = true)
    (hhandler : t.eventHandler = some i) (frame : Frame) :
    t.cancelReturns = false ∧ t.cancel frame = { t with eventHandler := none }.call frame i false := by
  unfold Timer.cancelReturns Timer.cancel
  rw [hhandler, hrunning]
  exact ⟨rfl, rfl⟩

theorem invocations_finish (t : Timer) (frame : Frame) :
    (t.finish frame).invocations = t.invocations := by
  cases frame <;> rfl

/-- The end of a `cancel` or of the destructor: the kernel's timer is disarmed. -/
theorem disarmed_finish (t : Timer) {frame : Frame} (hframe : frame ≠ .process) :
    (t.finish frame).running = false ∧ (t.finish frame).unread = false := by
  cases frame with
  | process => exact absurd rfl hframe
  | cancel => exact ⟨rfl, rfl⟩
  | destructor => exact ⟨rfl, rfl⟩

/-- Nothing is outstanding, and nothing is armed either. -/
theorem armed_of_idle {s : TimerRun} (hinvocations : s.timer.invocations = s.ledger.verdicts)
    (hdue : s.due ≤ s.ledger.count) (hnone : s.ledger.outstanding = none)
    (hrunning : s.timer.running = false) (hunread : s.timer.unread = false) : s.Armed where
  invocations := hinvocations
  due_le := hdue
  due_le_outstanding i hi := absurd (hnone.symm.trans hi) (by simp)
  armed i hi := absurd (hnone.symm.trans hi) (by simp)
  idle _ _ := ⟨hrunning, hunread⟩
  exclusive _ := hunread

/-! ## The step -/

theorem armed_cancel {s : TimerRun} (h : s.Armed) {frame : Frame} (hframe : frame ≠ .process)
    (hheeded : s.ledger.outstanding = none ∨ s.timer.running) : (s.cancel frame).Armed := by
  cases hout : s.ledger.outstanding with
  | none =>
    -- nobody to be told
    have hreturns := h.cancelReturns hout
    unfold cancel
    rw [hreturns, if_pos rfl, cancel_of_returns hreturns, Lib.Ledger.settle_of_none false hout]
    obtain ⟨hrunning, hunread⟩ := disarmed_finish { s.timer with eventHandler := none } hframe
    refine armed_of_idle ?_ (Nat.le_refl _) hout hrunning hunread
    rw [invocations_finish]
    exact h.invocations
  | some i =>
    -- the timer is running, and its callback is told
    obtain ⟨hhandler, -⟩ := h.armed i hout
    have hrunning : s.timer.running = true :=
      hheeded.resolve_left fun hnone => absurd (hnone.symm.trans hout) (by simp)
    obtain ⟨hreturns, hcancel⟩ := cancel_of_running hrunning hhandler frame
    unfold cancel
    rw [hreturns, if_neg (by simp), hcancel]
    refine ⟨?_, ?_, ?_, ?_, ?_, ?_⟩
    · rw [Lib.Ledger.verdicts_settle false hout]
      exact congrArg (· ++ [(i, false)]) h.invocations
    · rw [Lib.Ledger.count_settle]
      exact h.due_le
    · intro j hj
      exact absurd (hj.symm.trans (Lib.Ledger.outstanding_settle false)) (by simp)
    · intro j hj
      exact absurd (hj.symm.trans (Lib.Ledger.outstanding_settle false)) (by simp)
    · intro _ hsome
      exact absurd hsome (by simp [Timer.call])
    · intro hrun
      exact h.exclusive hrun

theorem armed_process {s : TimerRun} (h : s.Armed) :
    Armed
      { s with
        timer := s.timer.process
        ledger := if s.timer.unread then s.ledger.settle true else s.ledger } := by
  unfold Timer.process
  cases hunread : s.timer.unread with
  | false =>
    simp only [Bool.false_eq_true, if_false]
    exact h
  | true =>
    have hrunning : s.timer.running = false := by
      cases hrun : s.timer.running with
      | false => rfl
      | true => exact absurd (h.exclusive hrun) (by rw [hunread]; simp)
    simp only [if_true]
    cases hout : s.ledger.outstanding with
    | none =>
      -- a timer that expired while a `cancel` was on its way
      have hhandler : s.timer.eventHandler = none := by
        cases hhandler : s.timer.eventHandler with
        | none => rfl
        | some callback =>
          have hidle := h.idle hout (by rw [hhandler]; rfl)
          exact absurd hidle.2 (by rw [hunread]; simp)
      simp only [hhandler]
      rw [Lib.Ledger.settle_of_none true hout]
      exact armed_of_idle h.invocations h.due_le hout hrunning rfl
    | some i =>
      obtain ⟨hhandler, -⟩ := h.armed i hout
      simp only [hhandler]
      refine armed_of_idle ?_ ?_ (Lib.Ledger.outstanding_settle true) hrunning rfl
      · rw [Lib.Ledger.verdicts_settle true hout]
        exact congrArg (· ++ [(i, true)]) h.invocations
      · rw [Lib.Ledger.count_settle]
        exact h.due_le

theorem armed_set {s : TimerRun} (h : s.Armed) {periodMs : UInt32} (hperiod : periodMs ≠ 0)
    (hnone : s.ledger.outstanding = none) :
    Armed
      { timer := s.timer.set periodMs s.ledger.count
        ledger := s.ledger.issue false
        due := s.ledger.count } := by
  rw [Timer.set, if_neg hperiod]
  refine ⟨?_, Nat.le_succ _, ?_, ?_, ?_, ?_⟩
  · rw [Lib.Ledger.issue]
    simp only [Lib.Ledger.settle_of_none false hnone]
    exact h.invocations
  · intro i hi
    exact Nat.le_of_eq (Option.some.inj hi)
  · intro i hi
    exact ⟨hi, Or.inl rfl⟩
  · intro hout
    exact absurd hout (by simp [Lib.Ledger.issue])
  · intro _
    rfl

theorem armed_expire {s : TimerRun} (h : s.Armed) :
    Armed { s with timer := s.timer.expire } := by
  unfold Timer.expire
  split
  · rename_i hrunning
    refine ⟨h.invocations, h.due_le, h.due_le_outstanding, ?_, ?_, ?_⟩
    · intro i hi
      exact ⟨(h.armed i hi).1, Or.inr rfl⟩
    · intro hnone hsome
      exact absurd (h.idle hnone hsome).1 (by rw [hrunning]; simp)
    · intro hrun
      exact absurd hrun (by simp)
  · exact h

theorem armed_callbackReturns {s : TimerRun} (h : s.Armed) {n : Nat}
    (hheeded : s.timer.frames[n]? = some .cancel ∨ s.timer.frames[n]? = some .destructor →
      s.ledger.outstanding = none) :
    Armed
      { s with
        timer := s.timer.callbackReturns n
        due := if s.timer.frames[n]? = some .cancel ∨ s.timer.frames[n]? = some .destructor then
            s.ledger.count
          else s.due } := by
  unfold Timer.callbackReturns
  cases hframe : s.timer.frames[n]? with
  | none =>
    rw [if_neg (by simp)]
    exact h
  | some frame =>
    rw [hframe] at hheeded
    by_cases hprocess : frame = .process
    · rw [hprocess, if_neg (by simp)]
      exact ⟨h.invocations, h.due_le, h.due_le_outstanding, h.armed, h.idle, h.exclusive⟩
    · have hends : some frame = some Frame.cancel ∨ some frame = some Frame.destructor := by
        cases frame with
        | process => exact absurd rfl hprocess
        | cancel => exact Or.inl rfl
        | destructor => exact Or.inr rfl
      obtain ⟨hrunning, hunread⟩ :=
        disarmed_finish { s.timer with frames := s.timer.frames.eraseIdx n } hprocess
      rw [if_pos hends]
      refine armed_of_idle ?_ (Nat.le_refl _) (hheeded hends) hrunning hunread
      rw [invocations_finish]
      exact h.invocations

theorem armed_step (s : TimerRun) (a : TimerAction) (h : s.Armed) (hheeded : s.Heeded a) :
    (s.step a).Armed := by
  unfold step
  split
  · exact h
  · rename_i hdestroyed
    have hheeded := hheeded (by simpa using hdestroyed)
    cases a with
    | set periodMs =>
      simp only
      split
      · exact h
      · rename_i hperiod
        exact armed_set h hperiod (hheeded.resolve_left hperiod)
    | cancel => exact armed_cancel h (by simp) hheeded
    | destruct =>
      simp only
      split
      · rename_i hframes
        exact armed_cancel h (by simp) (hheeded hframes)
      · exact h
    | expire => exact armed_expire h
    | process => exact armed_process h
    | callbackReturns n => exact armed_callbackReturns h hheeded

/-! ## What is lost -/

/-- An outstanding `set` has come due, and nobody was told. -/
theorem not_reported {s s' : TimerRun} (h : s.Armed) (hout : s.ledger.outstanding ≠ none)
    (hinvocations : s'.timer.invocations = s.timer.invocations) (hdue : s'.due = s.ledger.count) :
    ¬s'.Reported := by
  rw [Reported, hinvocations, h.invocations, hdue]
  exact Lib.Ledger.not_honoured_of_outstanding hout

theorem not_reported_cancel {s : TimerRun} (h : s.Armed) (frame : Frame)
    (hunheeded : ¬(s.ledger.outstanding = none ∨ s.timer.running)) :
    ¬(s.cancel frame).Reported := by
  obtain ⟨hout, hrunning⟩ := not_or.mp hunheeded
  have hreturns : s.timer.cancelReturns = true := by
    unfold Timer.cancelReturns
    rw [eq_false_of_ne_true hrunning]
    rfl
  refine not_reported h hout ?_ (if_pos hreturns)
  unfold cancel
  rw [cancel_of_returns hreturns, invocations_finish]

theorem not_reported_step (s : TimerRun) (a : TimerAction) (h : s.Armed) (hnot : ¬s.Heeded a) :
    ¬(s.step a).Reported := by
  unfold Heeded at hnot
  obtain ⟨hdestroyed, hunheeded⟩ := Classical.not_imp.mp hnot
  unfold step
  rw [hdestroyed, if_neg (by simp)]
  cases a with
  | set periodMs =>
    obtain ⟨hperiod, hout⟩ := not_or.mp hunheeded
    simp only [if_neg hperiod]
    refine not_reported h hout ?_ rfl
    rw [Timer.set, if_neg hperiod]
    rfl
  | cancel => exact not_reported_cancel h _ hunheeded
  | destruct =>
    obtain ⟨hframes, hunheeded⟩ := Classical.not_imp.mp hunheeded
    simp only [if_pos hframes]
    exact not_reported_cancel h _ hunheeded
  | expire => exact absurd trivial hunheeded
  | process => exact absurd trivial hunheeded
  | callbackReturns n =>
    obtain ⟨hends, hout⟩ := Classical.not_imp.mp hunheeded
    refine not_reported h hout ?_ (if_pos hends)
    simp only [Timer.callbackReturns]
    split
    · rfl
    · exact invocations_finish _ _

/-! ## Every run -/

/-- **Every `set` reports once, in every state of a run, exactly if** all its transitions find
what they need: a `set`, or the end of a `cancel` or of the destructor after its callback, no
outstanding `set`; a `cancel` or the destructor none, or the timer running. -/
theorem reported_iff (actions : List TimerAction) :
    (∀ pre, pre <+: actions → (Lib.run step {} pre).Reported) ↔
      ∀ p ∈ Lib.transitions step {} actions, p.1.Heeded p.2 :=
  Lib.run_exact step (fun _ h => Armed.reported h) armed_step not_reported_step armed_start

/-- A timer that is set again while it is running. -/
theorem not_reported_restart : ¬(Lib.run step {} [.set 100, .set 100]).Reported := by
  intro hreported
  obtain ⟨fired, hmem⟩ := hreported.due 0 (by decide)
  exact absurd hmem (by simp [step, Timer.set, Timer.settime])

end DevScan.Sys.TimerRun
