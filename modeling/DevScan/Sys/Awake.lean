import DevScan.Sys.ReadinessEdges

/-!
# `Sys/Awake.lean` — a descriptor that can be read is not forgotten

Edge-triggered, the epoll set holds on to a descriptor from the time something arrives until it has
been reported. Beside the loop it is recorded for one descriptor whether the set does (`ready`), and
whether there is anything to be read (`readable`). A registered descriptor that can be read is then
either going to be reported, or its handler is still going to be called (`Awake`).

Of the steps of the loop two break this: the one that leaves it at a stop event, with the descriptor
behind that, and the return of a handler that has not read everything (`awake_step`).
-/

set_option autoImplicit false

namespace DevScan.Sys.EventLoop

variable {H : Type} {s : EventLoop H} {fd : Fd} {readable ready : Bool}

/-- Whether the epoll set still has to report the descriptor after a step. A descriptor is ready when
it is added and can be read. -/
def readyAfter (s : EventLoop H) (fd : Fd) (readable ready : Bool) : Action H → Bool
  | .report batch =>
    if s.phase = .waiting ∧ s.MayReport batch ∧ fd ∈ batch.map EpollEvent.fd then false else ready
  | .applyChange added =>
    match s.phase, s.changeList with
    | .changing _, item :: _ =>
      if item.fd = fd then item.eventHandler.isSome && added && readable else ready
    | _, _ => ready
  | .close fd' => if fd' = fd then false else ready
  | _ => ready

/-- A report of the descriptor is one of input, and there is some. -/
def ReportsInput (fd : Fd) (readable ready : Bool) : Action H → Prop
  | .report batch =>
    ∀ e ∈ batch, e.fd = fd → e.hupOrErr = false ∧ e.input = true ∧ ready = true ∧ readable = true
  | _ => True

instance (fd : Fd) (readable ready : Bool) (a : Action H) :
    Decidable (ReportsInput fd readable ready a) :=
  match a with
  | .report _ => inferInstanceAs (Decidable (∀ e ∈ _, _ → _))
  | .request _ => .isTrue trivial
  | .close _ => .isTrue trivial
  | .enter => .isTrue trivial
  | .leave => .isTrue trivial
  | .next => .isTrue trivial
  | .handlerReturns _ => .isTrue trivial
  | .readChange => .isTrue trivial
  | .applyChange _ => .isTrue trivial

/-- **What can be read is reported, or its handler is called.** -/
def Awake (s : EventLoop H) (fd : Fd) (readable ready : Bool) : Prop :=
  s.phase ≠ .undefined → ∀ addr, s.interest fd = some (.node addr) → readable = true →
    ready = true ∨ .node addr ∈ s.phase.underway

theorem awake_create (changeFd stopFd : Fd) (fd : Fd) :
    (create H changeFd stopFd).Awake fd false false := fun _ _ _ hreadable =>
  absurd hreadable (by simp)

/-- Of a descriptor that nothing can be read from nothing is asked. -/
theorem awake_of_unreadable (s : EventLoop H) (fd : Fd) (ready : Bool) : s.Awake fd false ready :=
  fun _ _ _ hreadable => absurd hreadable (by simp)

/-- Something arrives: a descriptor of the epoll set becomes ready. -/
theorem awake_arrive (s : EventLoop H) (fd : Fd) (ready : Bool) :
    s.Awake fd true (ready || (s.interest fd).isSome) := by
  intro _ addr hinterest _
  exact Or.inl (by rw [hinterest, Option.isSome_some, Bool.or_true])

theorem Awake.goto {phase' : Phase} (h : s.Awake fd readable ready) (hdefined : s.phase ≠ .undefined)
    (hsub : s.phase.underway ⊆ phase'.underway) :
    ({ s with phase := phase' } : EventLoop H).Awake fd readable ready :=
  fun _ addr hinterest hreadable => (h hdefined addr hinterest hreadable).imp id fun hmem => hsub hmem

theorem awake_undefined (s : EventLoop H) (fd : Fd) (readable ready : Bool) :
    ({ s with phase := .undefined } : EventLoop H).Awake fd readable ready :=
  fun hdefined => absurd rfl hdefined

/-- What is registered is a node. -/
theorem Sound.registered_of_interest (hsound : s.Sound) {addr : Addr}
    (hinterest : s.interest fd = some (.node addr)) : Tracked.Registered s (.node addr) = true := by
  obtain ⟨info, hinfo, -⟩ := hsound.nodes fd addr (hsound.interest fd addr hinterest)
  rw [Tracked.Registered, hinfo]
  rfl

theorem mem_inputs_of_mem {e : EpollEvent} {batch : List EpollEvent} {addr : Addr} (he : e ∈ batch)
    (hhup : e.hupOrErr = false) (hinput : e.input = true) (hptr : e.ptr = .node addr) :
    .node addr ∈ inputs batch := by
  induction batch with
  | nil => cases he
  | cons first batch ih =>
    rw [inputs]
    rcases List.mem_cons.mp he with rfl | he
    · rw [if_pos (by simp [hhup, hinput, hptr]), hptr]
      exact List.mem_cons_self
    · split
      · exact List.mem_cons_of_mem _ (ih he)
      · exact ih he

theorem awake_report {batch : List EpollEvent} (h : s.Awake fd readable ready)
    (hphase : s.phase = .waiting) (hmay : s.MayReport batch)
    (hinput : ReportsInput (H := H) fd readable ready (.report batch)) :
    ({ s with phase := .dispatching batch } : EventLoop H).Awake fd readable
      (if fd ∈ batch.map EpollEvent.fd then false else ready) := by
  intro _ addr hinterest hreadable
  have hdefined : s.phase ≠ .undefined := by
    rw [hphase]
    simp
  split
  · rename_i hmem
    obtain ⟨e, he, hfd⟩ := List.mem_map.mp hmem
    obtain ⟨hhup, hin, -⟩ := hinput e he hfd
    -- epoll hands out the pointer that was registered
    have hptr : e.ptr = .node addr := by
      have hreported := hmay.2.2.2 e he
      rw [hfd] at hreported
      exact (Option.some.inj (hinterest.symm.trans hreported)).symm
    exact Or.inr (mem_inputs_of_mem he hhup hin hptr)
  · rcases h hdefined addr hinterest hreadable with hready | hunderway
    · exact Or.inl hready
    · rw [hphase] at hunderway
      cases hunderway

/-- The next event of the batch: that of another descriptor, or the one whose handler is now called. -/
theorem awake_dispatch {e : EpollEvent} {rest : List EpollEvent} (h : s.Awake fd readable ready)
    (hsound : s.Sound) (hphase : s.phase = .dispatching (e :: rest))
    (hdrops : Tracked.DropsNothing ⟨s, []⟩ .next = true) :
    (s.dispatch e rest).Awake fd readable ready := by
  have hdefined : s.phase ≠ .undefined := by
    rw [hphase]
    simp
  have hgoto : ∀ {phase' : Phase}, inputs (e :: rest) ⊆ phase'.underway →
      ({ s with phase := phase' } : EventLoop H).Awake fd readable ready := fun hsub =>
    h.goto hdefined (by rw [hphase]; exact hsub)
  obtain ⟨fd', ptr, hupOrErr, input⟩ := e
  rw [EventLoop.dispatch]
  cases hupOrErr with
  | true =>
    cases ptr with
    | stop => exact hgoto (List.Subset.refl _)
    | change => exact hgoto (List.Subset.refl _)
    | node addr =>
      simp only [if_true]
      split
      · exact hgoto (List.Subset.refl _)
      · exact awake_undefined s fd readable ready
  | false =>
    cases input with
    | false => exact hgoto (List.Subset.refl _)
    | true =>
      cases ptr with
      | stop =>
        -- the loop is left, and nothing registered stands behind the stop event
        intro _ addr hinterest hreadable
        refine (h hdefined addr hinterest hreadable).imp id fun hmem => ?_
        rw [hphase] at hmem
        simp only [Tracked.DropsNothing, hphase, List.all_eq_true, Bool.not_eq_true'] at hdrops
        exact absurd ((hdrops _ hmem).symm.trans (hsound.registered_of_interest hinterest)) (by simp)
      | change => exact hgoto (List.Subset.refl _)
      | node addr => exact hgoto (List.Subset.refl _)

/-- A change of the descriptor: what is added and can be read is ready. -/
theorem awake_applyChange {rest : List EpollEvent} {item : Change H} {changeList : List (Change H)}
    (h : s.Awake fd readable ready) (hphase : s.phase = .changing rest)
    (hlist : s.changeList = item :: changeList) (added : Bool) :
    (s.applyChange rest added).Awake fd readable
      (if item.fd = fd then item.eventHandler.isSome && added && readable else ready) := by
  intro _ addr hinterest hreadable
  have hdefined : s.phase ≠ .undefined := by
    rw [hphase]
    simp
  have hkept : s.interest fd = some (.node addr) →
      ready = true ∨ .node addr ∈ Ptr.change :: inputs rest := by
    intro hold
    have hunderway := h hdefined addr hold hreadable
    rwa [hphase] at hunderway
  rw [applyChange_cons hlist] at hinterest ⊢
  cases hhandler : item.eventHandler with
  | none =>
    simp only [hhandler, interest_erase] at hinterest
    split at hinterest
    · cases hinterest
    · rename_i hne
      rw [if_neg (Ne.symm hne)]
      refine (hkept hinterest).imp id fun hmem => ?_
      show Ptr.node addr ∈ s.phase.underway
      rw [hphase]
      exact hmem
  | some eventHandler =>
    simp only [hhandler, interest_insert, interest_erase] at hinterest
    split at hinterest
    · rename_i hadded
      rw [if_pos hadded.2.symm, hadded.1, hreadable]
      exact Or.inl rfl
    · split at hinterest
      · cases hinterest
      · rename_i hne
        rw [if_neg (Ne.symm hne)]
        exact hkept hinterest

/-- **A step keeps the descriptor awake**, if it does not leave the loop at a stop event with the
descriptor behind it, and if a handler of the descriptor that ends the calls has left nothing. -/
theorem awake_step (h : s.Awake fd readable ready) (hsound : s.Sound) (a : Action H)
    (hdrops : Tracked.DropsNothing ⟨s, []⟩ a = true) (hinput : ReportsInput fd readable ready a)
    (hends : ∀ result addr rest, a = .handlerReturns result → s.phase = .handling addr rest →
      s.interest fd = some (.node addr) → result ≤ 0 → readable = false) :
    (s.step a).Awake fd readable (s.readyAfter fd readable ready a) := by
  cases a with
  | request change =>
    simp only [step, readyAfter]
    split
    · exact h
    · exact h
    · exact h
  | close fd' =>
    intro hdefined addr hinterest hreadable
    rw [step, interest_close] at hinterest
    split at hinterest
    · cases hinterest
    · rename_i hne
      rw [readyAfter, if_neg (Ne.symm hne)]
      exact h hdefined addr hinterest hreadable
  | enter =>
    simp only [step, readyAfter]
    split
    · rename_i hphase
      exact h.goto (by rw [hphase]; simp) (by rw [hphase]; exact List.Subset.refl _)
    · exact h
  | report batch =>
    simp only [step, readyAfter]
    split
    · rename_i hreport
      have hnext := awake_report h hreport.1 hreport.2 hinput
      simp only [hreport.1, hreport.2, true_and]
      exact hnext
    · rename_i hno
      rw [if_neg fun hyes => hno ⟨hyes.1, hyes.2.1⟩]
      exact h
  | leave =>
    simp only [step, readyAfter]
    split
    · rename_i hphase
      exact h.goto (by rw [hphase]; simp) (by rw [hphase]; exact List.Subset.refl _)
    · exact h
  | next =>
    simp only [step, readyAfter]
    split
    · rename_i hphase
      exact h.goto (by rw [hphase]; simp) (by rw [hphase]; exact List.Subset.refl _)
    · rename_i e rest hphase
      exact awake_dispatch h hsound hphase hdrops
    · exact h
  | handlerReturns result =>
    simp only [step, readyAfter]
    cases hphase : s.phase with
    | handling addr rest =>
      simp only
      split
      · split
        · exact h
        · rename_i hle
          intro _ addr' hinterest hreadable
          refine (h (by rw [hphase]; simp) addr' hinterest hreadable).imp id fun hmem => ?_
          rw [hphase] at hmem
          rcases List.mem_cons.mp hmem with heq | hmem
          · -- its own handler ends the calls, and has left nothing to be read
            obtain rfl := Ptr.node.inj heq
            have hnone := hends result addr' rest rfl hphase hinterest (by omega)
            exact absurd (hreadable.symm.trans hnone) (by simp)
          · exact hmem
      · exact awake_undefined s fd readable ready
    | priming rest =>
      simp only
      split
      · exact h
      · exact h.goto (by rw [hphase]; simp) (by rw [hphase]; exact List.Subset.refl _)
    | _ => exact h
  | readChange =>
    simp only [step, readyAfter]
    cases hphase : s.phase with
    | changeRead rest =>
      have hsame : Phase.underway (.changing rest) = s.phase.underway := by
        rw [hphase]
        rfl
      simp only
      split
      · intro _ addr hinterest hreadable
        refine (h (by rw [hphase]; simp) addr hinterest hreadable).imp id fun hmem => ?_
        exact hsame ▸ hmem
      · intro _ addr hinterest hreadable
        refine (h (by rw [hphase]; simp) addr hinterest hreadable).imp id fun hmem => ?_
        rw [hphase] at hmem
        exact (List.mem_cons.mp hmem).resolve_left (by simp)
    | _ => exact h
  | applyChange added =>
    simp only [step, readyAfter]
    cases hphase : s.phase with
    | changing rest =>
      cases hlist : s.changeList with
      | nil =>
        show (s.applyChange rest added).Awake fd readable ready
        rw [applyChange_nil hlist]
        exact h.goto (by rw [hphase]; simp) (by rw [hphase]; exact List.Subset.refl _)
      | cons item changeList => exact awake_applyChange h hphase hlist added
    | _ => exact h

/-- **When the loop waits, what can be read is going to be reported.** -/
theorem Awake.ready_of_waiting (h : s.Awake fd readable ready) (hphase : s.phase = .waiting)
    {addr : Addr} (hinterest : s.interest fd = some (.node addr)) (hreadable : readable = true) :
    ready = true := by
  rcases h (by rw [hphase]; simp) addr hinterest hreadable with hready | hunderway
  · exact hready
  · rw [hphase] at hunderway
    cases hunderway

end DevScan.Sys.EventLoop
