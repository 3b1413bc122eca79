import DevScan.Sys.ExecuteFor
import DevScan.Sys.Registrations

/-!
# `Sys/Invocations.lean` — whose handlers are called

The destructors of `Timer`, `Notifier`, `MulticastServer` and `SocketNonblocking` call
`eraseEvent` and expect that their handlers, which are bound to `this`, are not called from then
on. But `eraseEvent` only queues the removal. Until the loop has worked off what is queued, a
handler is called in spite of it: when it is added before its removal in the same list, when its
event stands in a batch or is still reported, and once more when it is erased while it is called
and returns a number greater than zero.

What a step calls is told by `Caller.invoked`. `Caller.Careful` looks at a step before it is taken: at
what is queued and what is left of the batch when something is erased, at what is reported, and at
what a handler returns. In a run of careful steps no erased handler is called
(`erased_not_called`).
-/

set_option autoImplicit false

namespace DevScan.Sys

open Lib (run transitions)

variable {H : Type}

/-- The handler of a descriptor is called for the event. -/
def EpollEvent.calls (e : EpollEvent) : Bool :=
  match e with
  | ⟨_, .node _, false, true⟩ => true
  | _ => false

/-- The events the loop gets to see: at a stop event it is left. -/
def ahead (batch : List EpollEvent) : List EpollEvent := batch.takeWhile fun e => !e.isStop

/-- In a loop that calls a handler. -/
def Phase.calling : Phase → Bool
  | .handling _ _ => true
  | .priming _ => true
  | _ => false

namespace EventLoop

/-- **The descriptor is to be handled**, from what is queued for it and from the map. -/
def Wanted (s : EventLoop H) (fd : Fd) : Prop :=
  match (s.changeList.filter fun change => change.fd = fd).getLast? with
  | some change => change.eventHandler ≠ none
  | none => s.eventInfos fd ≠ none

/-- The descriptor is in the map, or something is queued for it. -/
def Knows (s : EventLoop H) (fd : Fd) : Prop :=
  s.eventInfos fd ≠ none ∨ ∃ change ∈ s.changeList, change.fd = fd

/-- An addition of the descriptor is queued. -/
def adds (s : EventLoop H) (fd : Fd) : Bool :=
  s.changeList.any fun change => change.fd = fd && change.eventHandler.isSome

/-- The last thing queued for the descriptor is its removal. -/
def removes (s : EventLoop H) (fd : Fd) : Bool :=
  (s.changeList.filter fun change => change.fd = fd).getLast?.any fun change =>
    change.eventHandler.isNone

/-- An event the handler of the descriptor is called for is still to be looked at. -/
def awaits (s : EventLoop H) (fd : Fd) : Bool :=
  (ahead s.phase.batch).any fun e => e.fd = fd && e.calls

end EventLoop

/-- The loop with its calls, and the descriptor whose handler was called last. The loop itself
sees no descriptor while it calls a handler. -/
structure Caller (H : Type) extends Registry H where
  calledFd : Option Fd := none

namespace Caller

def create (H : Type) (changeFd stopFd : Fd) : Caller H where
  toRegistry := .create H changeFd stopFd

/-- **The descriptor whose handler a step calls.** The loops that call a handler do so at least
once, and again each time it returns a number greater than zero. -/
def invoked (c : Caller H) : Action H → Option Fd
  | .next =>
    match c.loop.phase with
    | .dispatching (⟨fd, .node _, false, true⟩ :: _) => some fd
    | _ => none
  | .applyChange _ =>
    match c.loop.phase, c.loop.changeList with
    | .changing _, item :: _ => item.eventHandler.map fun _ => item.fd
    | _, _ => none
  | .handlerReturns result =>
    match c.loop.phase with
    | .handling _ _ => if 0 < result then c.calledFd else none
    | .priming _ => if 0 < result then c.calledFd else none
    | _ => none
  | _ => none

def step (c : Caller H) (a : Action H) : Caller H :=
  ⟨c.toRegistry.step a, (c.invoked a).or c.calledFd⟩

/-- **A step that erases nothing the loop is still going to call**: what it queues the removal of has
no addition in the list and no event in the batch, it reports no event of what is to be removed, and
if it calls a handler again this is not to be removed. -/
def Careful (c : Caller H) (a : Action H) : Prop :=
  (∀ change ∈ c.loop.pushes a, change.eventHandler.isNone = true →
    c.loop.adds change.fd = false ∧ c.loop.awaits change.fd = false) ∧
  match a with
  | .report batch => c.loop.phase = .waiting ∧ c.loop.MayReport batch →
    ∀ e ∈ ahead batch, e.calls = true → c.loop.removes e.fd = false
  | .handlerReturns result => c.loop.phase.calling = true → 0 < result →
    ∀ fd ∈ c.calledFd, c.loop.removes fd = false
  | _ => True

instance (c : Caller H) (a : Action H) : Decidable (c.Careful a) :=
  match a with
  | .report _ => inferInstanceAs (Decidable (_ ∧ (_ ∧ _ → _)))
  | .handlerReturns _ => inferInstanceAs (Decidable (_ ∧ (_ → _ → _)))
  | .request _ => inferInstanceAs (Decidable (_ ∧ True))
  | .close _ => inferInstanceAs (Decidable (_ ∧ True))
  | .enter => inferInstanceAs (Decidable (_ ∧ True))
  | .leave => inferInstanceAs (Decidable (_ ∧ True))
  | .next => inferInstanceAs (Decidable (_ ∧ True))
  | .readChange => inferInstanceAs (Decidable (_ ∧ True))
  | .applyChange _ => inferInstanceAs (Decidable (_ ∧ True))

/-! ## What the loop can see of the calls -/

/-- A descriptor is registered by the calls if it is wanted in the loop. -/
theorem registration_iff {r : Registry H} (h : r.Follows) (fd : Fd) :
    registration r.calls fd ≠ none ↔ r.loop.Wanted fd := by
  have hfilter : (r.loop.changeList.map Change.message).filter (fun msg => msg.key = fd) =
      (r.loop.changeList.filter fun change => change.fd = fd).map Change.message := List.filter_map
  rw [h.follows, Lib.Replica.follow_eq_last, hfilter, List.getLast?_map, EventLoop.Wanted]
  cases (r.loop.changeList.filter fun change => change.fd = fd).getLast? with
  | none => exact not_congr (h.sound.handlers_eq_none_iff fd)
  | some change => exact Iff.rfl

theorem wanted_iff {s : EventLoop H} {fd : Fd} :
    s.Wanted fd ↔ s.removes fd = false ∧ s.Knows fd := by
  have hqueued : (∃ change ∈ s.changeList, change.fd = fd) ↔
      s.changeList.filter (fun change => change.fd = fd) ≠ [] := by
    simp [List.filter_eq_nil_iff]
  rw [EventLoop.Wanted, EventLoop.removes, EventLoop.Knows, hqueued]
  cases hlast : (s.changeList.filter fun change => change.fd = fd).getLast? with
  | none => simp [List.getLast?_eq_none_iff.mp hlast]
  | some change =>
    have hne : s.changeList.filter (fun change => change.fd = fd) ≠ [] := fun hnil => by
      rw [hnil] at hlast
      cases hlast
    simp [hne, Option.isSome_iff_ne_none]

/-! ## What the batch holds -/

theorem mem_ahead {e : EpollEvent} {batch : List EpollEvent} (h : e ∈ ahead batch) : e ∈ batch :=
  List.takeWhile_sublist _ |>.mem h

theorem ahead_nil_suffix (batch : List EpollEvent) : ahead [] <:+ ahead batch := List.nil_suffix

theorem ahead_dispatch {s : EventLoop H} (e : EpollEvent) (rest : List EpollEvent) :
    ahead (s.dispatch e rest).phase.batch <:+ ahead (e :: rest) := by
  obtain ⟨fd, ptr, hupOrErr, input⟩ := e
  have hrest : ∀ e : EpollEvent, e.isStop = false → ahead rest <:+ ahead (e :: rest) := fun e he => by
    rw [ahead, ahead, List.takeWhile_cons_of_pos (by simp [he])]
    exact List.suffix_cons _ _
  rw [EventLoop.dispatch]
  cases hupOrErr with
  | true =>
    cases ptr with
    | stop => exact hrest _ rfl
    | change => exact hrest _ rfl
    | node addr =>
      simp only [if_true]
      split
      · exact hrest _ rfl
      · exact ahead_nil_suffix _
  | false =>
    cases input with
    | false => exact hrest _ (by simp [EpollEvent.isStop])
    | true =>
      cases ptr with
      | stop => exact ahead_nil_suffix _
      | change => exact hrest _ rfl
      | node addr => exact hrest _ rfl

/-- Only a report brings events. -/
theorem ahead_step {s : EventLoop H} {a : Action H} (ha : ∀ batch, a ≠ .report batch) :
    ahead (s.step a).phase.batch <:+ ahead s.phase.batch := by
  cases a with
  | report batch => exact absurd rfl (ha batch)
  | close fd => exact List.suffix_refl _
  | request change =>
    simp only [EventLoop.step]
    split
    · exact List.suffix_refl _
    · exact List.suffix_refl _
    · exact List.suffix_refl _
  | enter =>
    simp only [EventLoop.step]
    split
    · exact ahead_nil_suffix _
    · exact List.suffix_refl _
  | leave =>
    simp only [EventLoop.step]
    split
    · exact ahead_nil_suffix _
    · exact List.suffix_refl _
  | next =>
    simp only [EventLoop.step]
    split
    · exact ahead_nil_suffix _
    · rename_i e rest hphase
      rw [hphase]
      exact ahead_dispatch e rest
    · exact List.suffix_refl _
  | handlerReturns result =>
    simp only [EventLoop.step]
    split
    · rename_i addr rest hphase
      split
      · split
        · exact List.suffix_refl _
        · rw [hphase]
          exact List.suffix_refl _
      · exact ahead_nil_suffix _
    · rename_i rest hphase
      split
      · exact List.suffix_refl _
      · rw [hphase]
        exact List.suffix_refl _
    · exact List.suffix_refl _
  | readChange =>
    simp only [EventLoop.step]
    split
    · rename_i rest hphase
      rw [hphase]
      split
      · exact List.suffix_refl _
      · exact List.suffix_refl _
    · exact List.suffix_refl _
  | applyChange added =>
    simp only [EventLoop.step]
    split
    · rename_i rest hphase
      rw [EventLoop.batch_applyChange hphase, hphase]
      exact List.suffix_refl _
    · exact List.suffix_refl _

theorem awaits_step {s : EventLoop H} {a : Action H} (ha : ∀ batch, a ≠ .report batch) {fd : Fd}
    (h : s.awaits fd = false) : (s.step a).awaits fd = false := by
  rw [EventLoop.awaits, List.any_eq_false] at h ⊢
  exact fun e he => h e ((ahead_step ha).mem he)

/-! ## Who is called -/

/-- A handler is called again, or it is the one of an event of the batch, or it is added. -/
theorem invoked_cases {c : Caller H} {a : Action H} {fd : Fd} (h : c.invoked a = some fd) :
    (∃ result, a = .handlerReturns result ∧ c.loop.phase.calling = true ∧ 0 < result ∧
        c.calledFd = some fd) ∨
      (a = .next ∧ c.loop.awaits fd = true) ∨ c.loop.adds fd = true := by
  cases a with
  | next =>
    refine Or.inr (Or.inl ⟨rfl, ?_⟩)
    simp only [invoked] at h
    split at h
    · rename_i fd' addr rest hphase
      obtain rfl := Option.some.inj h
      simp [EventLoop.awaits, hphase, Phase.batch, ahead, EpollEvent.isStop, EpollEvent.calls]
    · cases h
  | applyChange added =>
    refine Or.inr (Or.inr ?_)
    simp only [invoked] at h
    split at h
    · rename_i rest item changeList hphase hlist
      obtain ⟨eventHandler, hhandler, rfl⟩ := Option.map_eq_some_iff.mp h
      simp [EventLoop.adds, hlist, hhandler]
    · cases h
  | handlerReturns result =>
    refine Or.inl ⟨result, rfl, ?_⟩
    simp only [invoked] at h
    split at h
    · rename_i hphase
      split at h
      · rename_i hresult
        exact ⟨congrArg Phase.calling hphase, hresult, h⟩
      · cases h
    · rename_i hphase
      split at h
      · rename_i hresult
        exact ⟨congrArg Phase.calling hphase, hresult, h⟩
      · cases h
    · cases h
  | _ => cases h

/-- The body of the loop over the batch begins to call a handler for an event that asks for it. -/
theorem calls_of_calling_dispatch {s : EventLoop H} {e : EpollEvent} {rest : List EpollEvent}
    (h : (s.dispatch e rest).phase.calling = true) : e.calls = true := by
  obtain ⟨fd, ptr, hupOrErr, input⟩ := e
  rw [EventLoop.dispatch] at h
  cases hupOrErr with
  | true =>
    cases ptr with
    | stop => cases h
    | change => cases h
    | node addr =>
      simp only [if_true] at h
      split at h <;> cases h
  | false =>
    cases input with
    | false => cases h
    | true =>
      cases ptr with
      | stop => cases h
      | change => cases h
      | node addr => rfl

theorem invoked_next {c : Caller H} {e : EpollEvent} {rest : List EpollEvent}
    (hphase : c.loop.phase = .dispatching (e :: rest)) (hcalls : e.calls = true) :
    (c.invoked .next).isSome = true := by
  simp only [invoked, hphase]
  unfold EpollEvent.calls at hcalls
  split at hcalls
  · rfl
  · cases hcalls

/-- A change that leads into a loop that calls a handler is an addition. -/
theorem invoked_applyChange {c : Caller H} {rest : List EpollEvent} {added : Bool}
    (hphase : c.loop.phase = .changing rest)
    (h : (c.loop.applyChange rest added).phase.calling = true) :
    (c.invoked (.applyChange added)).isSome = true := by
  cases hlist : c.loop.changeList with
  | nil =>
    rw [EventLoop.applyChange_nil hlist] at h
    cases h
  | cons item changeList =>
    rw [EventLoop.applyChange_cons hlist] at h
    cases heh : item.eventHandler with
    | some eventHandler =>
      simp only [invoked, hphase, hlist, heh]
      rfl
    | none =>
      simp only [heh, EventLoop.erase, hphase] at h
      cases h

/-- The loop is in a loop that calls a handler if it was, or if the step calls one. -/
theorem calling_step {c : Caller H} {a : Action H} (h : (c.loop.step a).phase.calling = true) :
    c.loop.phase.calling = true ∨ (c.invoked a).isSome = true := by
  cases a with
  | close fd => exact Or.inl h
  | request change =>
    simp only [EventLoop.step] at h
    split at h <;> exact Or.inl h
  | enter =>
    simp only [EventLoop.step] at h
    split at h
    · cases h
    · exact Or.inl h
  | report batch =>
    simp only [EventLoop.step] at h
    split at h
    · cases h
    · exact Or.inl h
  | leave =>
    simp only [EventLoop.step] at h
    split at h
    · cases h
    · exact Or.inl h
  | next =>
    simp only [EventLoop.step] at h
    split at h
    · cases h
    · rename_i e rest hphase
      exact Or.inr (invoked_next hphase (calls_of_calling_dispatch h))
    · exact Or.inl h
  | handlerReturns result =>
    -- it was in such a loop, whatever is returned
    refine Or.inl ?_
    simp only [EventLoop.step] at h
    split at h
    · rename_i hphase
      rw [hphase]
      rfl
    · rename_i hphase
      rw [hphase]
      rfl
    · exact h
  | readChange =>
    simp only [EventLoop.step] at h
    split at h
    · split at h <;> cases h
    · exact Or.inl h
  | applyChange added =>
    simp only [EventLoop.step] at h
    split at h
    · rename_i rest hphase
      exact Or.inr (invoked_applyChange hphase h)
    · exact Or.inl h

/-- Unless a change is applied, a step keeps the map and only adds to what is queued. -/
theorem knows_step {s : EventLoop H} {a : Action H} {fd : Fd} (h : s.Knows fd)
    (ha : ∀ rest added, s.phase = .changing rest → a ≠ .applyChange added) :
    (s.step a).Knows fd := by
  have hkind := s.step_kind a
  generalize s.step a = s' at hkind ⊢
  generalize s.pushes a = pushed at hkind
  cases hkind with
  | push change phase _ =>
    refine h.imp id fun hqueued => ?_
    obtain ⟨queued, hmem, hfd⟩ := hqueued
    exact ⟨queued, List.mem_append_left _ hmem, hfd⟩
  | apply rest item changeList added hphase haction _ => exact absurd haction (ha rest added hphase)
  | close => exact h
  | read => exact h
  | move => exact h

/-- A handler that is called when it is added is in the map then. -/
theorem knows_applyChange {c : Caller H} {added : Bool} {fd : Fd}
    (h : c.invoked (.applyChange added) = some fd) :
    (c.loop.step (.applyChange added)).Knows fd := by
  simp only [invoked] at h
  split at h
  · rename_i rest item changeList hphase hlist
    obtain ⟨eventHandler, hhandler, rfl⟩ := Option.map_eq_some_iff.mp h
    refine Or.inl ?_
    simp only [EventLoop.step, hphase]
    rw [EventLoop.applyChange_cons hlist, hhandler]
    simp
  · cases h

/-! ## Runs of careful steps -/

/-- **What holds of what is erased**: it is neither queued to be added nor in the batch. Who is called is
in the map, or something is queued for it. -/
structure Heeds (c : Caller H) : Prop where
  follows : c.Follows
  unqueued : ∀ fd, registration c.calls fd = none → c.loop.adds fd = false
  unawaited : ∀ fd, registration c.calls fd = none → c.loop.awaits fd = false
  called : c.loop.phase.calling = true → ∀ fd ∈ c.calledFd, c.loop.Knows fd

theorem heeds_create (changeFd stopFd : Fd) : (create H changeFd stopFd).Heeds where
  follows := Registry.follows_create changeFd stopFd
  unqueued _ _ := rfl
  unawaited _ _ := rfl
  called h := by cases h

/-- A careful step calls no handler that was erased. -/
theorem Heeds.registered_of_invoked {c : Caller H} {a : Action H} {fd : Fd} (h : c.Heeds)
    (hcareful : c.Careful a) (hinvoked : c.invoked a = some fd) : registration c.calls fd ≠ none := by
  rcases invoked_cases hinvoked with ⟨result, rfl, hcalling, hresult, hfd⟩ | ⟨-, hawaits⟩ | hadds
  · -- it is called again: it is known to the loop, and its removal is not the last thing queued
    exact (registration_iff h.follows fd).mpr
      (wanted_iff.mpr ⟨hcareful.2 hcalling hresult fd hfd, h.called hcalling fd hfd⟩)
  · exact fun hnone => absurd ((h.unawaited fd hnone).symm.trans hawaits) (by simp)
  · exact fun hnone => absurd ((h.unqueued fd hnone).symm.trans hadds) (by simp)

/-- What was erased before is still erased, or it is erased by this step. -/
theorem erased_cases {c : Caller H} {a : Action H} {fd : Fd}
    (h : registration (c.step a).calls fd = none) :
    (∃ change ∈ c.loop.pushes a, change.fd = fd ∧ change.eventHandler.isNone = true) ∨
      (registration c.calls fd = none ∧ ∀ change ∈ c.loop.pushes a, change.fd ≠ fd) := by
  have hcalls : (c.step a).calls = c.calls ++ (c.loop.pushes a).toList := rfl
  rw [hcalls] at h
  cases hpushes : c.loop.pushes a with
  | none =>
    rw [hpushes, Option.toList_none, List.append_nil] at h
    exact Or.inr ⟨h, fun change hchange => absurd hchange (by simp)⟩
  | some change =>
    rw [hpushes, Option.toList_some, registration_concat, Function.update_apply] at h
    split at h
    · rename_i heq
      exact Or.inl ⟨change, rfl, heq.symm, by rw [h]; rfl⟩
    · rename_i hne
      refine Or.inr ⟨h, fun change' hchange' => ?_⟩
      obtain rfl := Option.some.inj hchange'
      exact Ne.symm hne

/-- A step adds to what is queued what it pushes. -/
theorem mem_changeList_step {s : EventLoop H} (hsound : s.Sound) {a : Action H} {change : Change H}
    (h : change ∈ (s.step a).changeList) : change ∈ s.changeList ∨ change ∈ s.pushes a := by
  have hkind := s.step_kind a
  generalize s.step a = s' at hkind h
  generalize s.pushes a = pushed at hkind ⊢
  cases hkind with
  | push change' phase _ =>
    rcases List.mem_append.mp h with hold | hnew
    · exact Or.inl hold
    · exact Or.inr (Option.mem_some.mpr (List.mem_singleton.mp hnew).symm)
  | apply rest item changeList added _ _ hlist =>
    rw [(hsound.applied hlist rest added).1] at h
    exact Or.inl (hlist ▸ List.mem_cons_of_mem item h)
  | close => exact Or.inl h
  | read => exact Or.inl h
  | move => exact Or.inl h

theorem Heeds.unqueued_step {c : Caller H} {a : Action H} (h : c.Heeds) (hcareful : c.Careful a)
    (fd : Fd) (herased : registration (c.step a).calls fd = none) :
    (c.step a).loop.adds fd = false := by
  rw [EventLoop.adds, List.any_eq_false]
  intro change hchange
  have hloop : (c.step a).loop = c.loop.step a := rfl
  rw [hloop] at hchange
  rcases mem_changeList_step h.follows.sound hchange with hold | hnew
  · -- what was queued before is no addition, neither if it was erased then nor if it is erased now
    have hadds : c.loop.adds fd = false := by
      rcases erased_cases herased with ⟨removal, hpushes, rfl, hnone⟩ | ⟨hold, -⟩
      · exact (hcareful.1 removal hpushes hnone).1
      · exact h.unqueued fd hold
    exact List.any_eq_false.mp hadds change hold
  · -- what this step queues is the removal, or for another descriptor
    rcases erased_cases herased with ⟨removal, hpushes, -, hnone⟩ | ⟨-, hother⟩
    · rw [hpushes] at hnew
      obtain rfl := Option.some.inj hnew
      simp [Option.isNone_iff_eq_none.mp hnone]
    · simp [hother change hnew]

theorem Heeds.unawaited_step {c : Caller H} {a : Action H} (h : c.Heeds) (hcareful : c.Careful a)
    (fd : Fd) (herased : registration (c.step a).calls fd = none) :
    (c.step a).loop.awaits fd = false := by
  have hawaits : c.loop.awaits fd = false := by
    rcases erased_cases herased with ⟨removal, hpushes, rfl, hnone⟩ | ⟨hold, -⟩
    · exact (hcareful.1 removal hpushes hnone).2
    · exact h.unawaited fd hold
  by_cases hreport : ∃ batch, a = .report batch
  · obtain ⟨batch, rfl⟩ := hreport
    have hold : registration c.calls fd = none :=
      (erased_cases herased).elim (fun ⟨removal, hpushes, _⟩ => absurd hpushes (by
        simp [EventLoop.pushes])) And.left
    show (c.loop.step (.report batch)).awaits fd = false
    simp only [EventLoop.step]
    split
    · rename_i hmay
      rw [EventLoop.awaits, List.any_eq_false]
      intro e he hboth
      obtain ⟨hfd, hcalls⟩ := Bool.and_eq_true_iff.mp hboth
      obtain rfl := of_decide_eq_true hfd
      clear hboth
      -- it is in the map, and its removal is not the last thing queued
      refine (registration_iff h.follows e.fd).mpr (wanted_iff.mpr ?_) hold
      refine ⟨hcareful.2 hmay e he hcalls, Or.inl fun hnone => ?_⟩
      have hinterest := hmay.2.2.2.2 e (mem_ahead he)
      obtain ⟨fd, ptr, hupOrErr, input⟩ := e
      cases ptr with
      | node addr =>
        exact absurd ((h.follows.sound.interest _ _ hinterest).symm.trans hnone) (by simp)
      | stop => cases hcalls
      | change => cases hcalls
    · exact hawaits
  · exact awaits_step (fun batch hbatch => hreport ⟨batch, hbatch⟩) hawaits

theorem Heeds.called_step {c : Caller H} {a : Action H} (h : c.Heeds) (hcareful : c.Careful a)
    (hcalling : (c.step a).loop.phase.calling = true) :
    ∀ fd ∈ (c.step a).calledFd, (c.step a).loop.Knows fd := by
  intro fd hfd
  have hcalled : (c.invoked a).or c.calledFd = some fd := hfd
  cases hinvoked : c.invoked a with
  | none =>
    -- nobody is called now, so that the loop was in the call before
    rw [hinvoked, Option.none_or] at hcalled
    have hbefore : c.loop.phase.calling = true :=
      (calling_step hcalling).resolve_right fun hsome => by simp [hinvoked] at hsome
    refine knows_step (h.called hbefore fd hcalled) fun rest _ hphase => ?_
    rw [hphase] at hbefore
    cases hbefore
  | some fd' =>
    rw [hinvoked, Option.some_or] at hcalled
    obtain rfl := Option.some.inj hcalled
    by_cases happly : ∃ added, a = .applyChange added
    · obtain ⟨added, rfl⟩ := happly
      exact knows_applyChange hinvoked
    · have hwanted := (registration_iff h.follows fd').mp (h.registered_of_invoked hcareful hinvoked)
      exact knows_step (wanted_iff.mp hwanted).2 fun _ added _ ha => happly ⟨added, ha⟩

theorem heeds_step (c : Caller H) (a : Action H) (h : c.Heeds) (hcareful : c.Careful a) :
    (c.step a).Heeds where
  follows := Registry.follows_step c.toRegistry a h.follows
  unqueued := h.unqueued_step hcareful
  unawaited := h.unawaited_step hcareful
  called := h.called_step hcareful

/-- **No erased handler is called**, in a run of careful steps. -/
theorem erased_not_called (H : Type) (changeFd stopFd : Fd) (actions : List (Action H))
    (hcareful : ∀ p ∈ transitions step (create H changeFd stopFd) actions, p.1.Careful p.2) :
    ∀ p ∈ transitions step (create H changeFd stopFd) actions, ∀ fd, p.1.invoked p.2 = some fd →
      registration p.1.calls fd ≠ none := by
  intro p hp fd hinvoked
  have hheeds : p.1.Heeds :=
    Lib.transitions_invariant step heeds_step (heeds_create changeFd stopFd) hcareful p hp
  exact hheeds.registered_of_invoked (hcareful p hp) hinvoked

/-- The handler of a descriptor is called twice for one event, erases the descriptor and returns 0.
While the removal is queued the event of another one is reported, and handled. -/
def sampleCareful : List (Action Unit) :=
  [.request ⟨5, some ()⟩, .request ⟨6, some ()⟩, .enter, .report [⟨3, .change, false, true⟩], .next,
    .readChange, .applyChange true, .handlerReturns 0, .applyChange true, .handlerReturns 0,
    .applyChange true, .readChange, .next, .report [⟨5, .node 0, false, true⟩], .next,
    .handlerReturns 1, .request ⟨5, none⟩, .handlerReturns 0, .next,
    .report [⟨3, .change, false, true⟩, ⟨6, .node 1, false, true⟩], .next, .readChange,
    .applyChange true, .applyChange true, .readChange, .next, .handlerReturns 0, .close 5]

theorem erased_not_called_sampleCareful :
    (transitions step (create Unit 3 4) sampleCareful).filterMap (fun p => p.1.invoked p.2) =
        [5, 6, 5, 5, 6] ∧
      ∀ p ∈ transitions step (create Unit 3 4) sampleCareful, ∀ fd, p.1.invoked p.2 = some fd →
        registration p.1.calls fd ≠ none :=
  ⟨by decide, erased_not_called Unit 3 4 sampleCareful (by decide)⟩

/-- A timer that is created and destroyed before the loop is run. -/
def sampleScope : List (Action Unit) :=
  [.request ⟨5, some ()⟩, .request ⟨5, none⟩, .close 5, .enter,
    .report [⟨3, .change, false, true⟩], .next, .readChange]

/-- **Erased handlers are called in general**: `changeHandler` calls the handler it has added,
with the removal behind it in the list. -/
theorem called_sampleScope :
    ¬∀ p ∈ transitions step (create Unit 3 4) (sampleScope ++ [.applyChange false]), ∀ fd,
      p.1.invoked p.2 = some fd → registration p.1.calls fd ≠ none := by
  intro h
  refine h (run step (create Unit 3 4) sampleScope, .applyChange false) ?_ 5 rfl rfl
  exact (Lib.mem_transitions_iff step).mpr ⟨sampleScope, [], rfl, rfl⟩

end Caller
end DevScan.Sys
