import DevScan.Lib.Replica
import DevScan.Sys.LiveReferences

/-!
# `Sys/Registrations.lean` — what is registered is what was asked for

`addEvent` and `eraseEvent` only queue what they ask for; `changeHandler` works the queue off,
and the handlers it calls meanwhile queue more. Beside the loop a record is kept of all these
calls, in the order in which they were made (`Registry`). The map of the loop is then a replica
of that record: it is behind by exactly the changes that are still queued (`Follows`), and the
change notifier is written whenever there are any and nobody is working on them (`Signalled`).

When `changeHandler` is through there are none, so the map is what the calls come to; and so is
the epoll set, for descriptors that are open as long as they are registered (`Watched`).
-/

set_option autoImplicit false

namespace DevScan.Sys

open Lib (run transitions)
open Lib.Replica (Message follow follow_cons follow_nil follow_append)

variable {H : Type}

/-- The handler of the last `addEvent` for a descriptor, if no `eraseEvent` for it came later. -/
def registration (calls : List (Change H)) (fd : Fd) : Option H :=
  match (calls.filter fun call => call.fd = fd).getLast? with
  | some call => call.eventHandler
  | none => none

def Change.message (change : Change H) : Message Fd H := ⟨change.fd, change.eventHandler⟩

theorem registration_eq_follow (calls : List (Change H)) :
    registration calls = follow (fun _ => none) (calls.map Change.message) := by
  funext fd
  have hfilter : (calls.map Change.message).filter (fun msg => msg.key = fd) =
      (calls.filter fun call => call.fd = fd).map Change.message := List.filter_map
  rw [Lib.Replica.follow_eq_last, hfilter, List.getLast?_map, registration]
  cases (calls.filter fun call => call.fd = fd).getLast? with
  | none => rfl
  | some call => rfl

/-- A call replaces whatever was registered for its descriptor. -/
theorem registration_concat (calls : List (Change H)) (call : Change H) :
    registration (calls ++ [call]) =
      Function.update (registration calls) call.fd call.eventHandler := by
  rw [registration_eq_follow, registration_eq_follow, List.map_append, follow_append]
  rfl

namespace EventLoop

/-- Changes that nobody is working on are signalled by the notifier. -/
def Signalled (s : EventLoop H) : Prop :=
  ¬s.phase.applying → s.changeList ≠ [] → s.changeCount = true

/-- The handlers in `m_eventInfos`. -/
def handlers (s : EventLoop H) (fd : Fd) : Option H :=
  (s.eventInfos fd).bind fun addr => (s.nodes addr).map EventInfo.eventHandler

end EventLoop

/-- The loop, with all calls of `addEvent` and `eraseEvent` that were made. -/
structure Registry (H : Type) where
  loop : EventLoop H
  calls : List (Change H) := []

namespace Registry

def create (H : Type) (changeFd stopFd : Fd) : Registry H := ⟨.create H changeFd stopFd, []⟩

def step (r : Registry H) (a : Action H) : Registry H :=
  ⟨r.loop.step a, r.calls ++ (r.loop.pushes a).toList⟩

end Registry

namespace EventLoop

variable {s : EventLoop H}

/-! ## The map of handlers -/

theorem Sound.handlers_eq_none_iff (h : s.Sound) (fd : Fd) :
    s.handlers fd = none ↔ s.eventInfos fd = none := by
  unfold handlers
  cases hfd : s.eventInfos fd with
  | none => simp
  | some addr =>
    obtain ⟨info, hinfo, -⟩ := h.nodes fd addr hfd
    simp [hinfo]

theorem Sound.handlers_erase (h : s.Sound) (fd : Fd) :
    (s.erase fd).handlers = Function.update s.handlers fd none := by
  funext fd'
  rw [Function.update_apply, handlers, eventInfos_erase]
  split
  · rfl
  · rename_i hne
    rw [handlers]
    cases hfd' : s.eventInfos fd' with
    | none => rfl
    | some addr =>
      have hkept : s.eventInfos fd ≠ some addr := fun hfd => hne (h.fd_unique hfd' hfd)
      rw [Option.bind_some, Option.bind_some, nodes_erase, if_neg hkept]

theorem Sound.handlers_insert (h : s.Sound) (fd : Fd) (eventHandler : H) (added : Bool) :
    (s.insert fd eventHandler added).handlers =
      Function.update s.handlers fd (some eventHandler) := by
  funext fd'
  rw [Function.update_apply, handlers, eventInfos_insert]
  split
  · rw [Option.bind_some, nodes_insert, if_pos rfl]
    rfl
  · rw [handlers]
    cases hfd' : s.eventInfos fd' with
    | none => rfl
    | some addr =>
      obtain ⟨info, hinfo, -⟩ := h.nodes fd' addr hfd'
      have hold : addr ≠ s.nextAddr := Nat.ne_of_lt (h.fresh addr info hinfo)
      rw [Option.bind_some, Option.bind_some, nodes_insert, if_neg hold]

/-- Applying a change takes it off the list and makes it in the map. -/
theorem Sound.applied (h : s.Sound) {item : Change H} {changeList : List (Change H)}
    (hlist : s.changeList = item :: changeList) (rest : List EpollEvent) (added : Bool) :
    (s.applyChange rest added).changeList = changeList ∧
      (s.applyChange rest added).handlers = Function.update s.handlers item.fd item.eventHandler ∧
      ((s.phase = .changing rest) → (s.applyChange rest added).phase.applying) := by
  have hpopped : ({ s with changeList := changeList } : EventLoop H).Sound := h.pop changeList
  rw [applyChange_cons hlist]
  cases heh : item.eventHandler with
  | none =>
    refine ⟨rfl, hpopped.handlers_erase item.fd, fun hphase => ?_⟩
    exact (congrArg Phase.applying hphase).trans rfl
  | some eventHandler =>
    refine ⟨rfl, ?_, fun _ => rfl⟩
    have herased := hpopped.erase item.fd
    have hinserted := herased.handlers_insert item.fd eventHandler added
    rw [hpopped.handlers_erase, Function.update_idem] at hinserted
    exact hinserted

/-! ## The epoll set -/

/-- The epoll set refers to the notifiers where they are, and to every node of the map that no
change is pending for. -/
structure Watched (changeFd stopFd : Fd) (s : EventLoop H) : Prop where
  stop : ∀ fd, s.interest fd = some .stop → fd = stopFd
  change : ∀ fd, s.interest fd = some .change → fd = changeFd
  nodes : ∀ fd addr, s.eventInfos fd = some addr → (∀ change ∈ s.changeList, change.fd ≠ fd) →
    s.interest fd = some (.node addr)

namespace Watched

variable {changeFd stopFd fd : Fd}

theorem create : Watched changeFd stopFd (create H changeFd stopFd) := by
  refine ⟨fun fd hfd => ?_, fun fd hfd => ?_, fun fd addr hfd => by cases hfd⟩
  · simp only [EventLoop.create, Function.update_apply] at hfd
    split at hfd
    · cases hfd
    · split at hfd
      · assumption
      · cases hfd
  · simp only [EventLoop.create, Function.update_apply] at hfd
    split at hfd
    · assumption
    · split at hfd <;> cases hfd

/-- The notifiers stay where they are if only references to nodes are added. -/
theorem of_interest {s' : EventLoop H} (h : Watched changeFd stopFd s)
    (hinterest : ∀ fd ptr, s'.interest fd = some ptr →
      s.interest fd = some ptr ∨ ∃ addr, ptr = .node addr)
    (hnodes : ∀ fd addr, s'.eventInfos fd = some addr →
      (∀ change ∈ s'.changeList, change.fd ≠ fd) → s'.interest fd = some (.node addr)) :
    Watched changeFd stopFd s' := by
  refine ⟨fun fd hstop => ?_, fun fd hchange => ?_, hnodes⟩
  · rcases hinterest fd .stop hstop with hold | ⟨addr, hnode⟩
    · exact h.stop fd hold
    · cases hnode
  · rcases hinterest fd .change hchange with hold | ⟨addr, hnode⟩
    · exact h.change fd hold
    · cases hnode

/-- A descriptor may be closed that is not in the map, or has a change pending. -/
theorem close (h : Watched changeFd stopFd s)
    (hfd : (∀ change ∈ s.changeList, change.fd ≠ fd) → s.eventInfos fd = none) :
    Watched changeFd stopFd (s.close fd) := by
  apply h.of_interest
  · intro fd' ptr hptr
    rw [interest_close] at hptr
    split at hptr
    · cases hptr
    · exact Or.inl hptr
  · intro fd' addr haddr hpending
    have hne : fd' ≠ fd := by
      rintro rfl
      exact absurd ((hfd hpending).symm.trans haddr) (by simp)
    rw [interest_close, if_neg hne]
    exact h.nodes fd' addr haddr hpending

/-- The first change of the list is taken off it and its descriptor is erased. -/
theorem erase (h : Watched changeFd stopFd s) {item : Change H} {changeList : List (Change H)}
    (hlist : s.changeList = item :: changeList) :
    Watched changeFd stopFd ({ s with changeList := changeList }.erase item.fd) := by
  apply h.of_interest
  · intro fd ptr hptr
    rw [interest_erase] at hptr
    split at hptr
    · cases hptr
    · exact Or.inl hptr
  · intro fd addr haddr hpending
    rw [eventInfos_erase] at haddr
    split at haddr
    · cases haddr
    · rename_i hne
      rw [interest_erase, if_neg hne]
      refine h.nodes fd addr haddr fun change hmem => ?_
      rw [hlist] at hmem
      rcases List.mem_cons.mp hmem with rfl | hmem
      · exact Ne.symm hne
      · exact hpending change hmem

/-- A descriptor is inserted; the epoll set may miss it only if a change is pending for it. -/
theorem insert (h : Watched changeFd stopFd s) (eventHandler : H) {added : Bool}
    (hadded : (∀ change ∈ s.changeList, change.fd ≠ fd) → added = true) :
    Watched changeFd stopFd (s.insert fd eventHandler added) := by
  apply h.of_interest
  · intro fd' ptr hptr
    rw [interest_insert] at hptr
    split at hptr
    · exact Or.inr ⟨s.nextAddr, (Option.some.inj hptr).symm⟩
    · exact Or.inl hptr
  · intro fd' addr haddr hpending
    rw [eventInfos_insert] at haddr
    rw [interest_insert]
    split at haddr
    · rename_i heq
      subst heq
      cases haddr
      rw [if_pos ⟨hadded hpending, rfl⟩]
    · rename_i hne
      rw [if_neg fun hc => hne hc.2]
      exact h.nodes fd' addr haddr hpending

theorem applyChange (h : Watched changeFd stopFd s) {item : Change H}
    {changeList : List (Change H)} (hlist : s.changeList = item :: changeList)
    (rest : List EpollEvent) {added : Bool}
    (hadded : item.eventHandler ≠ none → (∀ change ∈ changeList, change.fd ≠ item.fd) →
      added = true) : Watched changeFd stopFd (s.applyChange rest added) := by
  have herased := h.erase hlist
  rw [applyChange_cons hlist]
  cases heh : item.eventHandler with
  | none => exact herased
  | some eventHandler =>
    have hinserted := herased.insert eventHandler (hadded (by rw [heh]; simp))
    exact ⟨hinserted.stop, hinserted.change, hinserted.nodes⟩

/-- With nothing pending, the epoll set is the keys of the map and the notifiers. -/
theorem interest_eq (h : Watched changeFd stopFd s) (hsound : s.Sound) (hlist : s.changeList = [])
    (hstop : fd ≠ stopFd) (hchange : fd ≠ changeFd) :
    s.interest fd = (s.eventInfos fd).map Ptr.node := by
  cases haddr : s.eventInfos fd with
  | some addr => exact h.nodes fd addr haddr fun change hmem => absurd hmem (by simp [hlist])
  | none =>
    cases hinterest : s.interest fd with
    | none => rfl
    | some ptr =>
      cases ptr with
      | stop => exact absurd (h.stop fd hinterest) hstop
      | change => exact absurd (h.change fd hinterest) hchange
      | node addr => exact absurd (haddr.symm.trans (hsound.interest fd addr hinterest)) (by simp)

end Watched

end EventLoop

namespace Registry

variable {r : Registry H}

/-! ## What is queued, and what is registered -/

/-- The map is behind the calls by what is queued, and the notifier says so. -/
structure Follows (r : Registry H) : Prop where
  sound : r.loop.Sound
  follows : registration r.calls = follow r.loop.handlers (r.loop.changeList.map Change.message)
  signalled : r.loop.Signalled

theorem follows_create (changeFd stopFd : Fd) : (create H changeFd stopFd).Follows := by
  refine ⟨EventLoop.sound_create changeFd stopFd, ?_, fun _ hne => absurd rfl hne⟩
  rw [registration_eq_follow]
  rfl

theorem follows_step (r : Registry H) (a : Action H) (h : r.Follows) : (r.step a).Follows := by
  have hsound := EventLoop.sound_step h.sound a
  have hkind := r.loop.step_kind a
  unfold step
  generalize r.loop.step a = loop at hkind hsound ⊢
  generalize r.loop.pushes a = pushed at hkind ⊢
  cases hkind with
  | push change phase happlying =>
    refine ⟨hsound, ?_, fun _ _ => rfl⟩
    rw [Option.toList_some, registration_concat, h.follows]
    simp only [EventLoop.push, List.map_append, follow_append]
    rfl
  | apply rest item changeList added hphase haction hlist =>
    obtain ⟨hlist', hhandlers, happlying⟩ := h.sound.applied hlist rest added
    refine ⟨hsound, ?_, fun hnot => absurd (happlying hphase) hnot⟩
    rw [Option.toList_none, List.append_nil, h.follows, hlist', hhandlers, hlist, List.map_cons,
      follow_cons]
    rfl
  | close fd haction =>
    rw [Option.toList_none, List.append_nil]
    exact ⟨hsound, h.follows, h.signalled⟩
  | read rest =>
    rw [Option.toList_none, List.append_nil]
    exact ⟨hsound, h.follows, fun hnot => absurd rfl hnot⟩
  | move phase hinto hout =>
    rw [Option.toList_none, List.append_nil]
    refine ⟨hsound, h.follows, fun hnot hne => ?_⟩
    by_cases happlying : r.loop.phase.applying = true
    · exact absurd (hout happlying hnot) hne
    · exact h.signalled happlying hne

/-- What is registered, and has no change pending, is what the calls come to. -/
theorem Follows.registration_eq (h : r.Follows) {fd : Fd}
    (hfd : ∀ change ∈ r.loop.changeList, change.fd ≠ fd) :
    registration r.calls fd = r.loop.handlers fd := by
  rw [h.follows]
  apply Lib.Replica.follow_of_not_mem
  intro msg hmsg
  obtain ⟨change, hchange, rfl⟩ := List.mem_map.mp hmsg
  exact hfd change hchange

/-! ## What the calls come to -/

/-- Descriptors stay open as long as they are registered, and `epoll_ctl` adds open ones. -/
def KeepsOpen (r : Registry H) : Action H → Prop
  | .close fd => registration r.calls fd = none
  | .applyChange added =>
    ∀ item ∈ r.loop.changeList.head?, registration r.calls item.fd ≠ none → added = true
  | _ => True

instance (r : Registry H) (a : Action H) : Decidable (r.KeepsOpen a) :=
  match a with
  | .close fd => inferInstanceAs (Decidable (registration r.calls fd = none))
  | .applyChange added => inferInstanceAs (Decidable (∀ item ∈ r.loop.changeList.head?,
      registration r.calls item.fd ≠ none → added = true))
  | .request _ => .isTrue trivial
  | .enter => .isTrue trivial
  | .report _ => .isTrue trivial
  | .leave => .isTrue trivial
  | .next => .isTrue trivial
  | .handlerReturns _ => .isTrue trivial
  | .readChange => .isTrue trivial

variable {changeFd stopFd : Fd}

/-- The invariant of runs whose descriptors stay open. -/
structure Keeps (changeFd stopFd : Fd) (r : Registry H) : Prop where
  follows : r.Follows
  watched : r.loop.Watched changeFd stopFd

theorem keeps_step (r : Registry H) (a : Action H) (h : r.Keeps changeFd stopFd)
    (hopen : r.KeepsOpen a) : (r.step a).Keeps changeFd stopFd := by
  refine ⟨follows_step r a h.follows, ?_⟩
  have hkind := r.loop.step_kind a
  unfold step
  generalize r.loop.step a = loop at hkind ⊢
  generalize r.loop.pushes a = pushed at hkind ⊢
  cases hkind with
  | push change phase happlying =>
    refine ⟨h.watched.stop, h.watched.change, fun fd addr haddr hpending => ?_⟩
    exact h.watched.nodes fd addr haddr fun c hc => hpending c (List.mem_append_left _ hc)
  | apply rest item changeList added hphase haction hlist =>
    subst haction
    refine h.watched.applyChange hlist rest fun hadd hlast => ?_
    have hitem : registration r.calls item.fd = item.eventHandler := by
      rw [h.follows.follows, hlist, List.map_cons, follow_cons,
        Lib.Replica.follow_of_not_mem, Change.message, Function.update_self]
      intro msg hmsg
      obtain ⟨change, hchange, rfl⟩ := List.mem_map.mp hmsg
      exact hlast change hchange
    exact hopen item (by rw [hlist]; rfl) (hitem ▸ hadd)
  | close fd haction =>
    subst haction
    refine h.watched.close fun hpending => ?_
    rw [← h.follows.sound.handlers_eq_none_iff, ← h.follows.registration_eq hpending]
    exact hopen
  | read rest => exact ⟨h.watched.stop, h.watched.change, h.watched.nodes⟩
  | move phase hinto hout => exact ⟨h.watched.stop, h.watched.change, h.watched.nodes⟩

/-- **Everything that was asked for is done**: nothing is queued, the map holds the handlers of
the last calls and nothing else, and the epoll set refers to the nodes of the map and nothing
else. -/
structure Settled (changeFd stopFd : Fd) (r : Registry H) : Prop where
  drained : r.loop.changeList = []
  handlers : ∀ fd, r.loop.handlers fd = registration r.calls fd
  keys : ∀ fd, r.loop.eventInfos fd = none ↔ registration r.calls fd = none
  interest : ∀ fd, fd ≠ stopFd → fd ≠ changeFd →
    r.loop.interest fd = (r.loop.eventInfos fd).map Ptr.node

/-- The change a step makes `changeHandler` return with: the list is empty. -/
theorem drained_of_returns {r : Registry H} {a : Action H} (hbefore : r.loop.phase.applying)
    (hafter : ¬(r.step a).loop.phase.applying) (hsound : r.loop.Sound) :
    (r.step a).loop.changeList = [] := by
  have hkind := r.loop.step_kind a
  unfold step at hafter ⊢
  generalize r.loop.step a = loop at hkind hafter ⊢
  generalize r.loop.pushes a = pushed at hkind
  cases hkind with
  | push change phase happlying => exact absurd (happlying.trans hbefore) hafter
  | apply rest item changeList added hphase haction hlist =>
    exact absurd ((hsound.applied hlist rest added).2.2 hphase) hafter
  | close fd haction => exact absurd hbefore hafter
  | read rest => exact absurd rfl hafter
  | move phase hinto hout => exact hout hbefore hafter

theorem Keeps.settled (h : r.Keeps changeFd stopFd) (hlist : r.loop.changeList = []) :
    r.Settled changeFd stopFd := by
  have hregistration : ∀ fd, r.loop.handlers fd = registration r.calls fd := by
    intro fd
    rw [h.follows.registration_eq fun change hmem => absurd hmem (by simp [hlist])]
  refine ⟨hlist, hregistration, fun fd => ?_, fun fd hstop hchange => ?_⟩
  · rw [← hregistration fd, h.follows.sound.handlers_eq_none_iff]
  · exact h.watched.interest_eq h.follows.sound hlist hstop hchange

/-- **Registrations are what the calls come to.** In every state of a run, changes that are queued
while `changeHandler` is not at work are signalled. When it returns, in a run whose descriptors
stay open, nothing is queued, and the map and the epoll set are what all the calls up to then come
to. -/
theorem registered (H : Type) (changeFd stopFd : Fd) (actions : List (Action H)) :
    (run step (create H changeFd stopFd) actions).loop.Signalled ∧
      ((∀ p ∈ transitions step (create H changeFd stopFd) actions, p.1.KeepsOpen p.2) →
        ∀ p ∈ transitions step (create H changeFd stopFd) actions, p.1.loop.phase.applying →
          ¬(step p.1 p.2).loop.phase.applying → (step p.1 p.2).Settled changeFd stopFd) := by
  constructor
  · exact (Lib.run_invariant step (C := fun _ _ => True) (fun r a h _ => follows_step r a h)
      (follows_create changeFd stopFd) fun _ _ => trivial).signalled
  · intro hopen p hp hbefore hafter
    have hcreate : (create H changeFd stopFd).Keeps changeFd stopFd :=
      ⟨follows_create changeFd stopFd, .create⟩
    have hkeeps := Lib.transitions_invariant step keeps_step hcreate hopen p hp
    have hstep := keeps_step p.1 p.2 hkeeps (hopen p hp)
    exact hstep.settled (drained_of_returns hbefore hafter hkeeps.follows.sound)

/-- Descriptor 5, once added, is erased and closed before the loop gets to that. -/
def sampleClosed : List (Action Unit) :=
  EventLoop.sampleAdded ++ [.request ⟨5, none⟩, .close 5, .report [⟨3, .change, false, true⟩], .next,
    .readChange, .applyChange true, .applyChange true]

theorem registered_sampleClosed :
    (run step (create Unit 3 4) sampleClosed).loop.Signalled ∧
      (run step (create Unit 3 4) sampleClosed).Settled 3 4 := by
  obtain ⟨hsignalled, hreturns⟩ := registered Unit 3 4 sampleClosed
  refine ⟨hsignalled, hreturns (by decide) (_, .applyChange true) ?_ rfl (by decide)⟩
  exact (Lib.mem_transitions_iff step).mpr ⟨sampleClosed.take 20, [], rfl, rfl⟩

end Registry
end DevScan.Sys
