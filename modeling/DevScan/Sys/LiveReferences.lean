import DevScan.Sys.StepKinds

/-!
# `Sys/LiveReferences.lean` — which references the loop follows

A batch is a snapshot of references, and `changeHandler`, dispatched from within the batch,
erases nodes. The references a phase has still to follow are listed (`Phase.followed`), and the
invariant is that all of them are live (`Safe`). Every step keeps it but one: a change applied to
a descriptor whose event stands further behind in the same batch (`Spares`). A run without such a
step follows live references only (`follows_live`); with one, the loop calls a handler that is
gone.
-/

set_option autoImplicit false

namespace DevScan.Sys

open Lib (run transitions)

variable {H : Type}

/-- The node references the rest of a batch makes the loop follow. The loop leaves at a stop
event and does not see what stands behind it. -/
def followed : List EpollEvent → List Addr
  | [] => []
  | e :: rest =>
    match e.ptr with
    | .stop => if !e.hupOrErr && e.input then [] else followed rest
    | .change => followed rest
    | .node addr => if e.hupOrErr || e.input then addr :: followed rest else followed rest

def Phase.followed : Phase → List Addr
  | .outside => []
  | .waiting => []
  | .dispatching rest => Sys.followed rest
  | .handling addr rest => addr :: Sys.followed rest
  | .changeRead rest => Sys.followed rest
  | .changing rest => Sys.followed rest
  | .priming rest => Sys.followed rest
  | .undefined => []

namespace EventLoop

/-- The reference a step follows, to read `fd` or `eventHandler`. -/
def follows (s : EventLoop H) : Action H → Option Addr
  | .next =>
    match s.phase with
    | .dispatching (⟨_, .node addr, true, _⟩ :: _) => some addr
    | _ => none
  | .handlerReturns _ =>
    match s.phase with
    | .handling addr _ => some addr
    | _ => none
  | _ => none

/-- The address is that of a node which is still in `m_eventInfos`. -/
def Live (s : EventLoop H) (addr : Addr) : Prop := ∃ fd, s.eventInfos fd = some addr

/-- The node a step erases. -/
def erases (s : EventLoop H) : Action H → Option Addr
  | .applyChange _ =>
    match s.phase, s.changeList with
    | .changing _, item :: _ => s.eventInfos item.fd
    | _, _ => none
  | _ => none

/-- **The step spares what the batch still refers to**: it erases no node that is yet to be
followed. -/
def Spares (s : EventLoop H) (a : Action H) : Prop := ∀ addr ∈ s.erases a, addr ∉ s.phase.followed

instance (s : EventLoop H) (a : Action H) : Decidable (s.Spares a) :=
  inferInstanceAs (Decidable (∀ addr ∈ s.erases a, addr ∉ s.phase.followed))

/-- The map, its nodes and the epoll set agree. -/
structure Sound (s : EventLoop H) : Prop where
  interest : ∀ fd addr, s.interest fd = some (.node addr) → s.eventInfos fd = some addr
  nodes : ∀ fd addr, s.eventInfos fd = some addr → ∃ info, s.nodes addr = some info ∧ info.fd = fd
  eventInfos : ∀ addr info, s.nodes addr = some info → s.eventInfos info.fd = some addr
  fresh : ∀ addr info, s.nodes addr = some info → addr < s.nextAddr

/-- **The invariant**: all references that will be followed are to nodes that are there. -/
def Safe (s : EventLoop H) : Prop := ∀ addr ∈ s.phase.followed, ∃ info, s.nodes addr = some info

/-! ## What keeps the map sound -/

namespace Sound

variable {s : EventLoop H}

theorem live_iff (h : Sound s) {addr : Addr} : s.Live addr ↔ ∃ info, s.nodes addr = some info := by
  constructor
  · intro hlive
    obtain ⟨fd, hfd⟩ := hlive
    obtain ⟨info, hinfo, -⟩ := h.nodes fd addr hfd
    exact ⟨info, hinfo⟩
  · intro hnode
    obtain ⟨info, hinfo⟩ := hnode
    exact ⟨info.fd, h.eventInfos addr info hinfo⟩

theorem fd_unique (h : Sound s) {fd fd' : Fd} {addr : Addr} (hfd : s.eventInfos fd = some addr)
    (hfd' : s.eventInfos fd' = some addr) : fd = fd' := by
  obtain ⟨info, hinfo, rfl⟩ := h.nodes fd addr hfd
  obtain ⟨info', hinfo', rfl⟩ := h.nodes fd' addr hfd'
  rw [hinfo] at hinfo'
  rw [Option.some.inj hinfo']

theorem goto (h : Sound s) (phase : Phase) : Sound { s with phase := phase } :=
  ⟨h.interest, h.nodes, h.eventInfos, h.fresh⟩

theorem push (h : Sound s) (change : Change H) : Sound (s.push change) :=
  ⟨h.interest, h.nodes, h.eventInfos, h.fresh⟩

theorem pop (h : Sound s) (changeList : List (Change H)) :
    Sound { s with changeList := changeList } :=
  ⟨h.interest, h.nodes, h.eventInfos, h.fresh⟩

theorem close (h : Sound s) (fd : Fd) : Sound (s.close fd) := by
  refine ⟨fun fd' addr hfd' => ?_, h.nodes, h.eventInfos, h.fresh⟩
  rw [interest_close] at hfd'
  split at hfd'
  · cases hfd'
  · exact h.interest fd' addr hfd'

theorem erase (h : Sound s) (fd : Fd) : Sound (s.erase fd) := by
  constructor
  · intro fd' addr hfd'
    rw [interest_erase] at hfd'
    split at hfd'
    · cases hfd'
    · rename_i hne
      rw [eventInfos_erase, if_neg hne]
      exact h.interest fd' addr hfd'
  · intro fd' addr hfd'
    rw [eventInfos_erase] at hfd'
    split at hfd'
    · cases hfd'
    · rename_i hne
      obtain ⟨info, hinfo, hinfofd⟩ := h.nodes fd' addr hfd'
      have hkept : s.eventInfos fd ≠ some addr := fun hc => hne (h.fd_unique hfd' hc)
      exact ⟨info, by rw [nodes_erase, if_neg hkept, hinfo], hinfofd⟩
  · intro addr info hnode
    rw [nodes_erase] at hnode
    split at hnode
    · cases hnode
    · rename_i hkept
      have hfd := h.eventInfos addr info hnode
      have hne : info.fd ≠ fd := fun hc => hkept (hc ▸ hfd)
      rw [eventInfos_erase, if_neg hne, hfd]
  · intro addr info hnode
    rw [nodes_erase] at hnode
    split at hnode
    · cases hnode
    · exact h.fresh addr info hnode

theorem insert (h : Sound s) {fd : Fd} (hfd : s.eventInfos fd = none)
    (hinterest : s.interest fd = none) (eventHandler : H) (added : Bool) :
    Sound (s.insert fd eventHandler added) := by
  constructor
  · intro fd' addr hfd'
    rw [interest_insert] at hfd'
    rw [eventInfos_insert]
    split at hfd'
    · rename_i hadded
      cases hfd'
      rw [if_pos hadded.2]
    · have hne : fd' ≠ fd := by
        intro hc
        rw [hc, hinterest] at hfd'
        cases hfd'
      rw [if_neg hne]
      exact h.interest fd' addr hfd'
  · intro fd' addr hfd'
    rw [eventInfos_insert] at hfd'
    split at hfd'
    · rename_i heq
      cases hfd'
      exact ⟨⟨fd, eventHandler⟩, by rw [nodes_insert, if_pos rfl], heq.symm⟩
    · obtain ⟨info, hinfo, hinfofd⟩ := h.nodes fd' addr hfd'
      have hlt := h.fresh addr info hinfo
      exact ⟨info, by rw [nodes_insert, if_neg (Nat.ne_of_lt hlt), hinfo], hinfofd⟩
  · intro addr info hnode
    rw [nodes_insert] at hnode
    rw [eventInfos_insert]
    split at hnode
    · rename_i heq
      cases hnode
      rw [if_pos rfl, heq]
    · have hold := h.eventInfos addr info hnode
      have hne : info.fd ≠ fd := by
        intro hc
        rw [hc, hfd] at hold
        cases hold
      rw [if_neg hne, hold]
  · intro addr info hnode
    rw [nodes_insert] at hnode
    split at hnode
    · rename_i heq
      exact heq ▸ Nat.lt_succ_self _
    · exact Nat.lt_succ_of_lt (h.fresh addr info hnode)

theorem applyChange (h : Sound s) (rest : List EpollEvent) (added : Bool) :
    Sound (s.applyChange rest added) := by
  cases hlist : s.changeList with
  | nil => rw [applyChange_nil hlist]; exact h.goto _
  | cons item changeList =>
    have herased := (h.pop changeList).erase item.fd
    rw [applyChange_cons hlist]
    cases item.eventHandler with
    | none => exact herased
    | some eventHandler =>
      exact (herased.insert (by rw [eventInfos_erase, if_pos rfl])
        (by rw [interest_erase, if_pos rfl]) eventHandler added).goto _

end Sound

theorem sound_step {s : EventLoop H} (h : Sound s) (a : Action H) : Sound (s.step a) := by
  have hkind := s.step_kind a
  generalize s.pushes a = pushed at hkind
  generalize s.step a = s' at hkind ⊢
  cases hkind with
  | push change phase happlying => exact (h.push change).goto phase
  | apply rest item changeList added hphase haction hlist => exact h.applyChange rest added
  | close fd haction => exact h.close fd
  | read rest => exact ⟨h.interest, h.nodes, h.eventInfos, h.fresh⟩
  | move phase hinto hout => exact h.goto phase

theorem sound_create (changeFd stopFd : Fd) : Sound (create H changeFd stopFd) := by
  refine ⟨fun fd addr hfd => ?_, ?_, ?_, ?_⟩
  · simp only [create, Function.update_apply] at hfd
    split at hfd
    · cases hfd
    · split at hfd <;> cases hfd
  · intro fd addr hfd; cases hfd
  · intro addr info hnode; cases hnode
  · intro addr info hnode; cases hnode

theorem sound_run (changeFd stopFd : Fd) (actions : List (Action H)) :
    Sound (run step (create H changeFd stopFd) actions) :=
  Lib.run_invariant step (P := Sound) (C := fun _ _ => True) (fun _ a h _ => sound_step h a)
    (sound_create changeFd stopFd) fun _ _ => trivial

/-! ## What a step leaves to be followed -/

namespace Safe

variable {s : EventLoop H}

theorem goto {phase phase' : Phase} (h : Safe s) (hphase : s.phase = phase)
    (hsub : phase'.followed ⊆ phase.followed) : Safe { s with phase := phase' } :=
  fun addr haddr => h addr (hphase ▸ hsub haddr)

theorem push (h : Safe s) (change : Change H) : Safe (s.push change) := h

theorem dispatch {e : EpollEvent} {rest : List EpollEvent} (h : Safe s)
    (hphase : s.phase = .dispatching (e :: rest)) : Safe (s.dispatch e rest) := by
  obtain ⟨fd, ptr, hupOrErr, input⟩ := e
  cases ptr with
  | stop =>
    cases hupOrErr with
    | true => exact h.goto hphase (List.Subset.refl _)
    | false =>
      cases input with
      | true => exact h.goto hphase (List.nil_subset _)
      | false => exact h.goto hphase (List.Subset.refl _)
  | change =>
    cases hupOrErr with
    | true => exact (h.push _).goto hphase (List.Subset.refl _)
    | false =>
      cases input with
      | true => exact h.goto hphase (List.Subset.refl _)
      | false => exact h.goto hphase (List.Subset.refl _)
  | node ref =>
    cases hupOrErr with
    | true =>
      -- the node is read for its descriptor
      obtain ⟨info, hinfo⟩ := h ref (by rw [hphase]; exact List.mem_cons_self)
      simp only [EventLoop.dispatch, if_true, hinfo]
      exact (h.push _).goto hphase (List.subset_cons_self _ _)
    | false =>
      cases input with
      | true => exact h.goto hphase (List.Subset.refl _)
      | false => exact h.goto hphase (List.Subset.refl _)

/-- Applying a change is where nodes go. -/
theorem applyChange {rest : List EpollEvent} {added : Bool} (h : Safe s)
    (hphase : s.phase = .changing rest) (hspares : s.Spares (.applyChange added)) :
    Safe (s.applyChange rest added) := by
  cases hlist : s.changeList with
  | nil =>
    rw [applyChange_nil hlist]
    exact h.goto hphase (List.Subset.refl _)
  | cons item changeList =>
    have hkept : ∀ addr ∈ s.phase.followed, ∃ info,
        ({ s with changeList := changeList }.erase item.fd).nodes addr = some info := by
      intro addr haddr
      obtain ⟨info, hinfo⟩ := h addr haddr
      have hother : s.eventInfos item.fd ≠ some addr := by
        intro hc
        refine hspares addr ?_ haddr
        rw [erases, hphase, hlist]
        exact hc
      exact ⟨info, by rw [nodes_erase, if_neg hother]; exact hinfo⟩
    rw [applyChange_cons hlist]
    cases item.eventHandler with
    | none => exact hkept
    | some eventHandler =>
      intro addr haddr
      obtain ⟨info, hinfo⟩ := hkept addr (by rw [hphase]; exact haddr)
      show ∃ info, (EventLoop.insert _ item.fd eventHandler added).nodes addr = some info
      rw [nodes_insert]
      split
      · exact ⟨_, rfl⟩
      · exact ⟨info, hinfo⟩

end Safe

theorem mem_of_mem_followed {addr : Addr} {batch : List EpollEvent} (h : addr ∈ followed batch) :
    ∃ e ∈ batch, e.ptr = .node addr := by
  induction batch with
  | nil => cases h
  | cons e rest ih =>
    have hlater : addr ∈ followed rest → ∃ e' ∈ e :: rest, e'.ptr = .node addr := fun hrest => by
      obtain ⟨e', he', hptr⟩ := ih hrest
      exact ⟨e', List.mem_cons_of_mem _ he', hptr⟩
    rw [followed] at h
    split at h
    · split at h
      · cases h
      · exact hlater h
    · exact hlater h
    · rename_i ref hptr
      split at h
      · rcases List.mem_cons.mp h with rfl | h
        · exact ⟨e, List.mem_cons_self, hptr⟩
        · exact hlater h
      · exact hlater h

/-- **Every step that spares what the batch refers to keeps the invariant.** -/
theorem safe_step {s : EventLoop H} {a : Action H} (hsound : Sound s) (h : Safe s)
    (hspares : s.Spares a) : Safe (s.step a) := by
  cases a with
  | request change =>
    simp only [step]
    split
    · exact h
    · exact h
    · exact h.push change
  | close fd => exact h
  | enter =>
    simp only [step]
    split
    · rename_i hphase
      exact h.goto hphase (List.nil_subset _)
    · exact h
  | report batch =>
    simp only [step]
    split
    · rename_i hreport
      intro addr haddr
      -- what is reported is in the epoll set, and that refers to nodes of the map
      obtain ⟨e, he, hptr⟩ := mem_of_mem_followed haddr
      have hinterest := hreport.2.2.2.2 e he
      rw [hptr] at hinterest
      exact hsound.live_iff.mp ⟨e.fd, hsound.interest e.fd addr hinterest⟩
    · exact h
  | leave =>
    simp only [step]
    split
    · rename_i hphase
      exact h.goto hphase (List.nil_subset _)
    · exact h
  | next =>
    simp only [step]
    split
    · rename_i hphase
      exact h.goto hphase (List.nil_subset _)
    · rename_i e rest hphase
      exact h.dispatch hphase
    · exact h
  | handlerReturns result =>
    simp only [step]
    split
    · rename_i addr rest hphase
      obtain ⟨info, hinfo⟩ := h addr (by rw [hphase]; exact List.mem_cons_self)
      simp only [hinfo]
      split
      · exact h
      · exact h.goto hphase (List.subset_cons_self _ _)
    · rename_i rest hphase
      split
      · exact h
      · exact h.goto hphase (List.Subset.refl _)
    · exact h
  | readChange =>
    simp only [step]
    split
    · rename_i rest hphase
      split
      · exact h.goto hphase (List.Subset.refl _)
      · exact h.goto hphase (List.Subset.refl _)
    · exact h
  | applyChange added =>
    simp only [step]
    split
    · rename_i rest hphase
      exact h.applyChange hphase hspares
    · exact h

theorem mem_followed_of_follows {s : EventLoop H} {a : Action H} {addr : Addr}
    (h : s.follows a = some addr) : addr ∈ s.phase.followed := by
  unfold follows at h
  split at h
  · split at h
    · rename_i hphase
      cases h
      rw [hphase]
      exact List.mem_cons_self
    · cases h
  · split at h
    · rename_i hphase
      cases h
      rw [hphase]
      exact List.mem_cons_self
    · cases h
  · cases h

/-- **Only live references are followed**, in every run that never changes a descriptor whose
event still waits in the batch. -/
theorem follows_live (H : Type) (changeFd stopFd : Fd) (actions : List (Action H))
    (hspares : ∀ p ∈ transitions step (create H changeFd stopFd) actions, p.1.Spares p.2) :
    ∀ p ∈ transitions step (create H changeFd stopFd) actions, ∀ addr,
      p.1.follows p.2 = some addr → p.1.Live addr := by
  intro p hp addr hfollows
  obtain ⟨hsound, hsafe⟩ := Lib.transitions_invariant step (P := fun s => Sound s ∧ Safe s)
    (C := Spares) (fun s a h hs => ⟨sound_step h.1 a, safe_step h.1 h.2 hs⟩)
    ⟨sound_create changeFd stopFd, fun _ haddr => absurd haddr (by simp [create, Phase.followed])⟩
    hspares p hp
  exact hsound.live_iff.mpr (hsafe addr (mem_followed_of_follows hfollows))

/-! ## A descriptor erased before its event -/

/-- Descriptor 5 is added and handled once. -/
def sampleAdded : List (Action Unit) :=
  [.request ⟨5, some ()⟩, .enter, .report [⟨3, .change, false, true⟩], .next, .readChange,
    .applyChange true, .handlerReturns (-1), .applyChange true, .readChange, .next,
    .report [⟨5, .node 0, false, true⟩], .next, .handlerReturns (-1), .next]

/-- Then it is erased, and data arrives before the loop gets to that. -/
def sampleErased : List (Action Unit) :=
  [.request ⟨5, none⟩, .report [⟨3, .change, false, true⟩, ⟨5, .node 0, false, true⟩], .next,
    .readChange, .applyChange true, .applyChange true, .readChange, .next]

theorem follows_live_sampleAdded :
    (run step (create Unit 3 4) (sampleAdded.take 12)).Live 0 := by
  refine follows_live Unit 3 4 sampleAdded (by decide) (_, .handlerReturns (-1)) ?_ 0 rfl
  exact (Lib.mem_transitions_iff step).mpr ⟨sampleAdded.take 12, sampleAdded.drop 13, rfl, rfl⟩

/-- **A dead reference is followed in general**: the handler of descriptor 5 is called through
its node after that was erased. -/
theorem not_follows_live_sampleErased :
    ¬∀ p ∈ transitions step (create Unit 3 4) (sampleAdded ++ sampleErased ++ [.handlerReturns 1]),
      ∀ addr, p.1.follows p.2 = some addr → p.1.Live addr := by
  intro h
  have hlive := h (run step (create Unit 3 4) (sampleAdded ++ sampleErased), .handlerReturns 1)
    ((Lib.mem_transitions_iff step).mpr ⟨sampleAdded ++ sampleErased, [], rfl, rfl⟩) 0 rfl
  obtain ⟨info, hinfo⟩ := (sound_run 3 4 _).live_iff.mp hlive
  cases hinfo

end EventLoop
end DevScan.Sys
