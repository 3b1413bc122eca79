import DevScan.Sys.LiveReferences

/-!
# `Sys/ReadinessEdges.lean` — is every reported event handled

The epoll set is edge-triggered: what `epoll_wait` has reported it does not report again, so an
event that is not handled is lost. What the loop **owes** is recorded beside it (`Tracked`): an
`EPOLLIN` event is owed from its report until a call of its handler returns nothing positive.
While a batch is being worked on, everything owed is in the part that is still to come
(`Accounted`); when the loop waits again, nothing is.

The one step that breaks this is `return 0` at a stop event, which drops what stands behind it.
`nothing_owed`: a run in which no stop event has the event of a registered descriptor behind it
never waits while it owes something.
-/

set_option autoImplicit false

namespace DevScan.Sys

open Lib (run transitions)

variable {H : Type}

/-- The references of the events in a batch that call for a handler. -/
def inputs : List EpollEvent → List Ptr
  | [] => []
  | e :: rest =>
    if !e.hupOrErr && e.input && e.ptr ≠ .stop then e.ptr :: inputs rest else inputs rest

/-- The references whose handlers the loop is going to call to the end. -/
def Phase.underway : Phase → List Ptr
  | .outside => []
  | .waiting => []
  | .dispatching rest => inputs rest
  | .handling addr rest => .node addr :: inputs rest
  | .changeRead rest => .change :: inputs rest
  | .changing rest => .change :: inputs rest
  | .priming rest => .change :: inputs rest
  | .undefined => []

/-- The loop, with the events that were reported and not handled. -/
structure Tracked (H : Type) where
  loop : EventLoop H
  owed : List Ptr := []

namespace Tracked

/-- The descriptor is still there: its node is, or it is the change notifier. -/
def Registered (s : EventLoop H) : Ptr → Bool
  | .stop => false
  | .change => true
  | .node addr => (s.nodes addr).isSome

/-- What is owed after a step. -/
def owedAfter (t : Tracked H) : Action H → List Ptr
  | .report batch =>
    if t.loop.phase = .waiting ∧ t.loop.MayReport batch then t.owed ++ inputs batch else t.owed
  | .handlerReturns result =>
    match t.loop.phase with
    | .handling addr _ => if 0 < result then t.owed else t.owed.filter (· ≠ .node addr)
    | _ => t.owed
  | .readChange =>
    match t.loop.phase with
    -- read fails, and that is what `changeHandler` returns
    | .changeRead _ => if t.loop.changeCount then t.owed else t.owed.filter (· ≠ .change)
    | _ => t.owed
  | _ => t.owed

def step (t : Tracked H) (a : Action H) : Tracked H := ⟨t.loop.step a, t.owedAfter a⟩

def create (H : Type) (changeFd stopFd : Fd) : Tracked H := ⟨.create H changeFd stopFd, []⟩

/-- **The step drops nothing**: if it leaves the loop at a stop event, no event of a registered
descriptor stands behind that. -/
def DropsNothing (t : Tracked H) : Action H → Bool
  | .next =>
    match t.loop.phase with
    | .dispatching (⟨_, .stop, false, true⟩ :: rest) =>
      (inputs rest).all fun ptr => !Registered t.loop ptr
    | _ => true
  | _ => true

/-- **The invariant**: what is owed to a registered descriptor is underway. -/
structure Accounted (t : Tracked H) : Prop where
  sound : t.loop.Sound
  known : ∀ addr, .node addr ∈ t.owed → addr < t.loop.nextAddr
  underway : t.loop.phase ≠ .undefined → ∀ ptr ∈ t.owed, Registered t.loop ptr = true →
    ptr ∈ t.loop.phase.underway

/-! ## What a batch reports -/

theorem mem_inputs {ptr : Ptr} {batch : List EpollEvent} (h : ptr ∈ inputs batch) :
    ∃ e ∈ batch, e.ptr = ptr := by
  induction batch with
  | nil => cases h
  | cons e rest ih =>
    have hlater : ptr ∈ inputs rest → ∃ e' ∈ e :: rest, e'.ptr = ptr := fun hrest => by
      obtain ⟨e', he', hptr⟩ := ih hrest
      exact ⟨e', List.mem_cons_of_mem _ he', hptr⟩
    rw [inputs] at h
    split at h
    · rcases List.mem_cons.mp h with rfl | h
      · exact ⟨e, List.mem_cons_self, rfl⟩
      · exact hlater h
    · exact hlater h

theorem lt_nextAddr_of_report {s : EventLoop H} (h : s.Sound) {batch : List EpollEvent}
    (hreport : s.MayReport batch) {addr : Addr} (haddr : .node addr ∈ inputs batch) :
    addr < s.nextAddr := by
  obtain ⟨e, he, hptr⟩ := mem_inputs haddr
  have hinterest := hreport.2.2.2 e he
  rw [hptr] at hinterest
  obtain ⟨info, hinfo, -⟩ := h.nodes _ _ (h.interest e.fd addr hinterest)
  exact h.fresh addr info hinfo

/-! ## What stays registered -/

/-- Erasing registers nothing. -/
theorem registered_of_erase {s : EventLoop H} {fd : Fd} {ptr : Ptr}
    (hreg : Registered (s.erase fd) ptr = true) : Registered s ptr = true := by
  cases ptr with
  | stop => exact hreg
  | change => exact hreg
  | node addr =>
    simp only [Registered, EventLoop.nodes_erase] at hreg
    split at hreg
    · exact absurd hreg (by simp)
    · exact hreg

/-- Inserting registers the node at the next address alone. -/
theorem registered_of_insert {s : EventLoop H} {fd : Fd} {eventHandler : H} {added : Bool}
    {ptr : Ptr} (hold : ptr ≠ .node s.nextAddr)
    (hreg : Registered (s.insert fd eventHandler added) ptr = true) : Registered s ptr = true := by
  cases ptr with
  | stop => exact hreg
  | change => exact hreg
  | node addr =>
    have hne : addr ≠ s.nextAddr := fun heq => hold (congrArg Ptr.node heq)
    rwa [Registered, EventLoop.nodes_insert, if_neg hne] at hreg

/-! ## The steps that touch a batch -/

namespace Accounted

variable {t : Tracked H}

theorem goto {phase phase' : Phase} (h : Accounted t) (hphase : t.loop.phase = phase)
    (hdefined : phase ≠ .undefined) (hsub : phase.underway ⊆ phase'.underway) :
    Accounted ⟨{ t.loop with phase := phase' }, t.owed⟩ where
  sound := h.sound.goto phase'
  known := h.known
  underway _ ptr hptr hreg := hsub (hphase ▸ h.underway (by rw [hphase]; exact hdefined) ptr hptr hreg)

theorem undefined (h : Accounted t) : Accounted ⟨{ t.loop with phase := .undefined }, t.owed⟩ where
  sound := h.sound.goto _
  known := h.known
  underway hdefined := absurd rfl hdefined

theorem push (h : Accounted t) (change : Change H) : Accounted ⟨t.loop.push change, t.owed⟩ :=
  ⟨h.sound.push change, h.known, h.underway⟩

theorem served {phase phase' : Phase} {ptr : Ptr} (h : Accounted t) (hphase : t.loop.phase = phase)
    (hdefined : phase ≠ .undefined) (hhead : phase.underway = ptr :: phase'.underway) :
    Accounted ⟨{ t.loop with phase := phase' }, t.owed.filter (· ≠ ptr)⟩ where
  sound := h.sound.goto phase'
  known addr haddr := h.known addr (List.mem_of_mem_filter haddr)
  underway := by
    intro _ ptr' hptr' hreg
    obtain ⟨howed, hne⟩ := List.mem_filter.mp hptr'
    have hmem := h.underway (by rw [hphase]; exact hdefined) ptr' howed hreg
    rw [hphase, hhead] at hmem
    exact (List.mem_cons.mp hmem).resolve_left (by simpa using hne)

/-- A report owes what it reports; what was owed before the wait is not registered any more. -/
theorem report {batch : List EpollEvent} (h : Accounted t) (hphase : t.loop.phase = .waiting)
    (hmay : t.loop.MayReport batch) :
    Accounted ⟨{ t.loop with phase := .dispatching batch }, t.owed ++ inputs batch⟩ := by
  refine ⟨h.sound.goto _, fun addr haddr => ?_, fun _ ptr hptr hreg => ?_⟩
  · rcases List.mem_append.mp haddr with haddr | haddr
    · exact h.known addr haddr
    · exact lt_nextAddr_of_report h.sound hmay haddr
  · rcases List.mem_append.mp hptr with hptr | hptr
    · have hnone := h.underway (by rw [hphase]; simp) ptr hptr hreg
      rw [hphase] at hnone
      cases hnone
    · exact hptr

theorem dispatch {e : EpollEvent} {rest : List EpollEvent} (h : Accounted t)
    (hphase : t.loop.phase = .dispatching (e :: rest)) (hdrops : t.DropsNothing .next = true) :
    Accounted ⟨t.loop.dispatch e rest, t.owed⟩ := by
  obtain ⟨fd, ptr, hupOrErr, input⟩ := e
  cases hupOrErr with
  | true =>
    cases ptr with
    | stop => exact h.goto hphase (by simp) (List.Subset.refl _)
    | change => exact (h.push _).goto hphase (by simp) (List.Subset.refl _)
    | node addr =>
      simp only [EventLoop.dispatch, if_true]
      split
      · exact (h.push _).goto hphase (by simp) (List.Subset.refl _)
      · exact h.undefined
  | false =>
    cases input with
    | false => exact h.goto hphase (by simp) (List.Subset.refl _)
    | true =>
      cases ptr with
      | stop =>
        -- the loop is left; by assumption nothing that is dropped is registered
        refine ⟨h.sound.goto _, h.known, fun _ ptr hptr hreg => ?_⟩
        have hmem := h.underway (by rw [hphase]; simp) ptr hptr hreg
        simp only [DropsNothing, hphase, List.all_eq_true, Bool.not_eq_true'] at hdrops
        rw [hphase] at hmem
        have hgone : Registered t.loop ptr = false := hdrops ptr hmem
        exact absurd (hgone.symm.trans hreg) (by simp)
      | change => exact h.goto hphase (by simp) (List.Subset.refl _)
      | node addr => exact h.goto hphase (by simp) (List.Subset.refl _)

/-- Applying a change takes descriptors away; the one it adds is not known yet. -/
theorem applyChange {rest : List EpollEvent} {added : Bool} (h : Accounted t)
    (hphase : t.loop.phase = .changing rest) :
    Accounted ⟨t.loop.applyChange rest added, t.owed⟩ := by
  have hsound := h.sound.applyChange rest added
  cases hlist : t.loop.changeList with
  | nil =>
    rw [EventLoop.applyChange_nil hlist]
    exact h.goto hphase (by simp) (List.Subset.refl _)
  | cons item changeList =>
    have hmem : ∀ ptr ∈ t.owed, Registered t.loop ptr = true → ptr ∈ Ptr.change :: inputs rest := by
      intro ptr hptr hreg
      have hold := h.underway (by rw [hphase]; simp) ptr hptr hreg
      rw [hphase] at hold
      exact hold
    rw [EventLoop.applyChange_cons hlist] at hsound ⊢
    cases hhandler : item.eventHandler with
    | none =>
      rw [hhandler] at hsound
      refine ⟨hsound, h.known, fun _ ptr hptr hreg => ?_⟩
      show ptr ∈ t.loop.phase.underway
      rw [hphase]
      exact hmem ptr hptr (registered_of_erase hreg)
    | some eventHandler =>
      rw [hhandler] at hsound
      refine ⟨hsound, fun addr haddr => Nat.lt_succ_of_lt (h.known addr haddr),
        fun _ ptr hptr hreg => hmem ptr hptr ?_⟩
      have hold : ptr ≠ .node t.loop.nextAddr := fun heq =>
        absurd (h.known _ (heq ▸ hptr)) (Nat.lt_irrefl _)
      have hinserted := @registered_of_insert H ({ t.loop with changeList := changeList }.erase item.fd)
        item.fd eventHandler added ptr hold hreg
      exact registered_of_erase hinserted

end Accounted

/-! ## Every step, every run -/

/-- **Every step that drops nothing keeps the account.** -/
theorem accounted_step {t : Tracked H} {a : Action H} (h : Accounted t)
    (hdrops : t.DropsNothing a = true) : Accounted (t.step a) := by
  cases a with
  | request change =>
    simp only [step, EventLoop.step, owedAfter]
    split
    · exact h
    · exact h
    · exact h.push change
  | close fd => exact ⟨h.sound.close fd, h.known, h.underway⟩
  | enter =>
    simp only [step, EventLoop.step, owedAfter]
    split
    · rename_i hphase
      exact h.goto hphase (by simp) (List.Subset.refl _)
    · exact h
  | report batch =>
    simp only [step, EventLoop.step, owedAfter]
    split
    · rename_i hreport
      exact h.report hreport.1 hreport.2
    · exact h
  | leave =>
    simp only [step, EventLoop.step, owedAfter]
    split
    · rename_i hphase
      exact h.goto hphase (by simp) (List.Subset.refl _)
    · exact h
  | next =>
    simp only [step, EventLoop.step, owedAfter]
    split
    · rename_i hphase
      exact h.goto hphase (by simp) (List.Subset.refl _)
    · rename_i e rest hphase
      exact h.dispatch hphase hdrops
    · exact h
  | handlerReturns result =>
    simp only [step, EventLoop.step, owedAfter]
    cases hphase : t.loop.phase with
    | handling addr rest =>
      simp only
      split
      · split
        · exact h
        · exact h.served hphase (by simp) rfl
      · refine ⟨h.sound.goto _, fun addr' haddr' => ?_, fun hdefined => absurd rfl hdefined⟩
        split at haddr'
        · exact h.known addr' haddr'
        · exact h.known addr' (List.mem_of_mem_filter haddr')
    | priming rest =>
      simp only
      split
      · exact h
      · exact h.goto hphase (by simp) (List.Subset.refl _)
    | _ => exact h
  | readChange =>
    simp only [step, EventLoop.step, owedAfter]
    cases hphase : t.loop.phase with
    | changeRead rest =>
      simp only
      split
      · have hgoto : Accounted ⟨{ t.loop with phase := .changing rest }, t.owed⟩ :=
          h.goto hphase (by simp) (List.Subset.refl _)
        exact ⟨⟨h.sound.interest, h.sound.nodes, h.sound.eventInfos, h.sound.fresh⟩, h.known,
          hgoto.underway⟩
      · exact h.served hphase (by simp) rfl
    | _ => exact h
  | applyChange added =>
    simp only [step, EventLoop.step, owedAfter]
    split
    · rename_i rest hphase
      exact h.applyChange hphase
    · exact h

theorem accounted_create (changeFd stopFd : Fd) : Accounted (create H changeFd stopFd) :=
  ⟨EventLoop.sound_create changeFd stopFd, fun _ haddr => (by cases haddr),
    fun _ ptr hptr => (by cases hptr)⟩

/-- **The loop never waits while it owes something**, in every run that leaves it at a stop event
only where nothing registered stands behind that. However often it is left and entered, what was
reported was handled before it waits again. -/
theorem nothing_owed (H : Type) (changeFd stopFd : Fd) (actions : List (Action H))
    (hdrops : ∀ p ∈ transitions step (create H changeFd stopFd) actions,
      p.1.DropsNothing p.2 = true)
    (hwaiting : (run step (create H changeFd stopFd) actions).loop.phase = .waiting) :
    ∀ ptr ∈ (run step (create H changeFd stopFd) actions).owed,
      Registered (run step (create H changeFd stopFd) actions).loop ptr = false := by
  intro ptr hptr
  have h := Lib.run_invariant step (P := Accounted) (C := fun t a => t.DropsNothing a = true)
    (fun t a ht ha => accounted_step ht ha) (accounted_create changeFd stopFd) hdrops
  refine Bool.eq_false_iff.mpr fun hreg => ?_
  have hunderway := h.underway (by rw [hwaiting]; simp) ptr hptr hreg
  rw [hwaiting] at hunderway
  cases hunderway

/-! ## An event in front of the stop event, and behind it -/

/-- Data arrives on descriptor 5 and the loop is stopped; it is entered again, and waits. -/
def sampleLeft : List (Action Unit) :=
  EventLoop.sampleAdded ++
    [.report [⟨5, .node 0, false, true⟩, ⟨4, .stop, false, true⟩], .next, .handlerReturns 0, .next,
      .enter]

theorem nothing_owed_sampleLeft :
    (run step (create Unit 3 4) sampleLeft).owed.filter
      (Registered (run step (create Unit 3 4) sampleLeft).loop) = [] := by
  refine List.filter_eq_nil_iff.mpr fun ptr hptr => ?_
  rw [nothing_owed Unit 3 4 sampleLeft (by decide) rfl ptr hptr]
  exact Bool.false_ne_true

/-- The loop is stopped while data arrives on descriptor 5, and entered again. -/
def sampleStopped : List (Action Unit) :=
  [.report [⟨4, .stop, false, true⟩, ⟨5, .node 0, false, true⟩], .next, .enter]

/-- **An edge is lost in general**: the loop waits again, and descriptor 5 was reported and not
handled. -/
theorem owed_sampleStopped :
    ¬((run step (create Unit 3 4) (EventLoop.sampleAdded ++ sampleStopped)).loop.phase = .waiting →
      ∀ ptr ∈ (run step (create Unit 3 4) (EventLoop.sampleAdded ++ sampleStopped)).owed,
        Registered (run step (create Unit 3 4) (EventLoop.sampleAdded ++ sampleStopped)).loop ptr =
          false) := by
  intro h
  have hlost := h rfl (.node 0) (by decide)
  cases hlost

end Tracked
end DevScan.Sys
