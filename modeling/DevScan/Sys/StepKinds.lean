import DevScan.Sys.EventLoop

/-!
# `Sys/StepKinds.lean` — what a step of the event loop can do

Most steps only move the loop from one place to another. What else a step does to the change list,
the map, the epoll set and the notifier is one of four things (`Kind`), and `step_kind` says which:
what has to be kept by every step is then shown for each kind once.
-/

set_option autoImplicit false

namespace DevScan.Sys

variable {H : Type}

/-- `changeHandler` holds the mutex and is working on `m_changeList`. -/
def Phase.applying : Phase → Bool
  | .changing _ => true
  | .priming _ => true
  | _ => false

namespace EventLoop

/-- What a step pushes onto `m_changeList`: a call by a handler or another thread, or the loop's
own `eraseEvent` for a descriptor that is hung up. -/
def pushes (s : EventLoop H) : Action H → Option (Change H)
  | .request change =>
    match s.phase with
    | .changing _ => none
    | .undefined => none
    | _ => some change
  | .next =>
    match s.phase with
    | .dispatching (e :: _) =>
      if e.hupOrErr then
        match e.ptr with
        | .stop => none
        | .change => some ⟨s.changeFd, none⟩
        | .node addr => (s.nodes addr).map fun info => ⟨info.fd, none⟩
      else none
    | _ => none
  | _ => none

variable {s : EventLoop H}

/-- **The kinds of steps**, each with the change it pushes and the state it leads to. A step that
pushes nothing applies the first change of the list, or closes a descriptor, or reads the
notifier, or moves on without touching any of these; then it leaves `changeHandler` only if the
list is empty. -/
inductive Kind (s : EventLoop H) (a : Action H) : Option (Change H) → EventLoop H → Prop where
  | push (change : Change H) (phase : Phase) (happlying : phase.applying = s.phase.applying) :
    Kind s a (some change) { s.push change with phase := phase }
  | apply (rest : List EpollEvent) (item : Change H) (changeList : List (Change H)) (added : Bool)
      (hphase : s.phase = .changing rest) (haction : a = .applyChange added)
      (hlist : s.changeList = item :: changeList) : Kind s a none (s.applyChange rest added)
  | close (fd : Fd) (haction : a = .close fd) : Kind s a none (s.close fd)
  | read (rest : List EpollEvent) :
    Kind s a none { s with changeCount := false, phase := .changing rest }
  | move (phase : Phase) (hinto : phase.applying → s.phase.applying)
      (hout : s.phase.applying → ¬phase.applying → s.changeList = []) :
    Kind s a none { s with phase := phase }

namespace Kind

variable {a : Action H}

theorem stay : Kind s a none s := .move s.phase id fun happlying hnot => absurd happlying hnot

/-- A move between phases that are both outside of `changeHandler`'s loop. -/
theorem free {phase : Phase} (hfrom : s.phase.applying = false) (hto : phase.applying = false) :
    Kind s a none { s with phase := phase } :=
  .move phase (fun h => absurd (hto.symm.trans h) (by simp))
    fun h => absurd (hfrom.symm.trans h) (by simp)

end Kind

theorem kind_dispatch (a : Action H) {e : EpollEvent} {rest : List EpollEvent}
    (hphase : s.phase = .dispatching (e :: rest)) :
    Kind s a (s.pushes .next) (s.dispatch e rest) := by
  have hfrom : s.phase.applying = false := by rw [hphase]; rfl
  obtain ⟨fd, ptr, hupOrErr, input⟩ := e
  simp only [pushes, hphase, dispatch]
  cases hupOrErr with
  | true =>
    cases ptr with
    | stop => exact .free hfrom rfl
    | change => exact .push _ _ hfrom.symm
    | node addr =>
      cases hnode : s.nodes addr with
      | none =>
        simp only [hnode]
        exact .free hfrom rfl
      | some info =>
        simp only [hnode]
        exact .push _ _ hfrom.symm
  | false =>
    cases input with
    | true =>
      cases ptr with
      | stop => exact .free hfrom rfl
      | change => exact .free hfrom rfl
      | node addr => exact .free hfrom rfl
    | false => exact .free hfrom rfl

theorem step_kind (s : EventLoop H) (a : Action H) : Kind s a (s.pushes a) (s.step a) := by
  cases a with
  | request change =>
    cases hphase : s.phase with
    | changing rest =>
      simp only [step, pushes, hphase]
      exact .stay
    | undefined =>
      simp only [step, pushes, hphase]
      exact .stay
    | _ =>
      simp only [step, pushes, hphase]
      exact .push change s.phase rfl
  | close fd => exact .close fd rfl
  | enter =>
    simp only [step, pushes]
    split
    · rename_i hphase
      exact .free (by rw [hphase]; rfl) rfl
    · exact .stay
  | report batch =>
    simp only [step, pushes]
    split
    · rename_i hreport
      exact .free (by rw [hreport.1]; rfl) rfl
    · exact .stay
  | leave =>
    simp only [step, pushes]
    split
    · rename_i hphase
      exact .free (by rw [hphase]; rfl) rfl
    · exact .stay
  | next =>
    cases hphase : s.phase with
    | dispatching batch =>
      cases batch with
      | nil =>
        simp only [step, pushes, hphase]
        exact .free (by rw [hphase]; rfl) rfl
      | cons e rest =>
        simp only [step, hphase]
        exact kind_dispatch _ hphase
    | _ =>
      simp only [step, pushes, hphase]
      exact .stay
  | handlerReturns result =>
    simp only [step, pushes]
    split
    · rename_i addr rest hphase
      have hfrom : s.phase.applying = false := by rw [hphase]; rfl
      split
      · split
        · exact .stay
        · exact .free hfrom rfl
      · exact .free hfrom rfl
    · rename_i rest hphase
      split
      · exact .stay
      · exact .move _ (fun _ => by rw [hphase]; rfl) fun _ hnot => absurd rfl hnot
    · exact .stay
  | readChange =>
    simp only [step, pushes]
    split
    · rename_i rest hphase
      split
      · exact .read rest
      · exact .free (by rw [hphase]; rfl) rfl
    · exact .stay
  | applyChange added =>
    simp only [step, pushes]
    split
    · rename_i rest hphase
      cases hlist : s.changeList with
      | nil =>
        rw [applyChange_nil hlist]
        exact .move _ (fun h => absurd h (by simp [Phase.applying])) fun _ _ => hlist
      | cons item changeList => exact .apply rest item changeList added hphase rfl hlist
    · exact .stay

end EventLoop
end DevScan.Sys
