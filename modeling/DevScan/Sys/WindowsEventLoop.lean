import DevScan.Sys.Registrations
import Mathlib.Data.List.AList
import Mathlib.Data.Set.Card

/-!
# `Sys/WindowsEventLoop.lean` — the event loop on Windows

`hbm/sys/windows/eventloop.cpp`, which keeps the same lists as the one on Linux but waits for any of
an array of handles to be signaled. What other threads do may come between any two of its steps: they
push changes and set the change event, which is not one step, and they signal and close handles.

An object that is signaled stays so until a wait returns for it, if it resets itself, and in any case
until `WSAResetEvent`, which comes before the handler is called. The wait returns for the first handle
of the array that is signaled, fails if the array is longer than `MAXIMUM_WAIT_OBJECTS` or has a handle
in it that was closed, and blocks otherwise.

**Whenever the loop blocks there is nothing left to do** (`blocked_done`): every change that was asked
for is made, every handle that is registered is waited for, and none of them was signaled since its
handler was called.
-/

set_option autoImplicit false

namespace DevScan.Sys.Windows

open Lib (run transitions)
open Lib.Replica (follow follow_append follow_cons follow_nil)

variable {H : Type}

def maximumWaitObjects : Nat := 64

/-- `eventInfo_t::eventHandler` in `m_eventInfos`. -/
inductive Handler (H : Type) where
  /-- There is none: this is the event `stop` sets. -/
  | null
  | changeHandler
  | user (eventHandler : H)

def Handler.user? : Handler H → Option H
  | user eventHandler => some eventHandler
  | _ => none

abbrev EventInfos (H : Type) := AList fun _ : Fd => Handler H

/-- An order in which the keys of `std::unordered_map` may be walked. -/
structure KeyOrder where
  visit : List Fd → List Fd
  perm : ∀ keys, (visit keys).Perm keys

/-- Where the loop is. -/
inductive Phase (H : Type) where
  /-- Not in `execute` or `execute_for`. -/
  | outside
  /-- Before `WaitForMultipleObjects`, or in it. -/
  | waiting
  /-- Before `WSAResetEvent`. -/
  | resetting (fd : Fd) (evi : Handler H)
  /-- In `changeHandler`. -/
  | changing
  /-- In the loop that calls a handler. -/
  | handling (eventHandler : H)

structure EventLoop (H : Type) where
  changeFd : Fd
  stopFd : Fd
  changeList : List (Change H) := []
  eventInfos : EventInfos H
  handles : List Fd
  phase : Phase H := .outside
  /-- What `execute` or `execute_for` returned last. -/
  result : Option Int := none
  /-- The objects that are signaled, and the handles that are open. -/
  signaled : Fd → Bool := fun _ => false
  opened : Fd → Bool
  /-- How many threads have pushed a change and are about to set the change event. -/
  signalling : Nat := 0

/-- What happens next. -/
inductive Action (H : Type) where
  /-- The locked part of `addEvent` or `eraseEvent`. -/
  | push (change : Change H)
  /-- The rest of it: `SetEvent(m_changeFd)`. -/
  | setChangeEvent
  /-- `stop`, `notify`, a timer, a socket. -/
  | signal (fd : Fd)
  | create (fd : Fd)
  | close (fd : Fd)
  | enter
  /-- `WaitForMultipleObjects` and the look-up; the object resets itself or does not. -/
  | wait (autoReset : Bool)
  | timeout
  | reset
  | applyChanges (order : KeyOrder)
  | handlerReturns (nbytes : Int)

/-- One round of the loop over `m_changeList`. -/
def applyChange (eventInfos : EventInfos H) (item : Change H) : EventInfos H :=
  match item.eventHandler with
  | some eventHandler => eventInfos.insert item.fd (.user eventHandler)
  | none => eventInfos.erase item.fd

namespace EventLoop

/-- The constructor. -/
def create (H : Type) (changeFd stopFd : Fd) : EventLoop H where
  changeFd := changeFd
  stopFd := stopFd
  eventInfos := ((∅ : EventInfos H).insert stopFd .null).insert changeFd .changeHandler
  handles := [stopFd, changeFd]
  opened := fun fd => fd = changeFd || fd = stopFd

/-- `m_eventInfos[fd]`, which puts an empty one there if there is none. -/
def infoAt (s : EventLoop H) (fd : Fd) : Handler H × EventInfos H :=
  match s.eventInfos.lookup fd with
  | some evi => (evi, s.eventInfos)
  | none => (.null, s.eventInfos.insert fd .null)

/-- `WaitForMultipleObjects` can wait for what is in the array. -/
def Waitable (s : EventLoop H) : Prop :=
  s.handles.length ≤ maximumWaitObjects ∧ ∀ fd ∈ s.handles, s.opened fd = true

instance (s : EventLoop H) : Decidable s.Waitable := inferInstanceAs (Decidable (_ ∧ _))

def wait (s : EventLoop H) (autoReset : Bool) : EventLoop H :=
  if maximumWaitObjects < s.handles.length then { s with phase := .outside, result := some (-1) }
  else if ∀ fd ∈ s.handles, s.opened fd = true then
    match s.handles.find? s.signaled with
    | none => s
    | some fd =>
      { s with
        signaled := if autoReset then Function.update s.signaled fd false else s.signaled
        eventInfos := (s.infoAt fd).2
        phase := .resetting fd (s.infoAt fd).1 }
  else { s with phase := .changing }

/-- `WSAResetEvent(fd)`, and on to what the handler is. -/
def reset (s : EventLoop H) (fd : Fd) (evi : Handler H) : EventLoop H :=
  let s := { s with signaled := Function.update s.signaled fd false }
  match evi with
  | .null => { s with phase := .outside, result := some 0 }
  | .changeHandler => { s with phase := .changing }
  | .user eventHandler => { s with phase := .handling eventHandler }

def changeHandler (s : EventLoop H) (order : KeyOrder) : EventLoop H :=
  let eventInfos := s.changeList.foldl applyChange s.eventInfos
  { s with
    eventInfos := eventInfos
    changeList := []
    handles := order.visit eventInfos.keys
    phase := .waiting }

/-- One step. An action that is not possible where the loop is leaves everything as it is. -/
def step (s : EventLoop H) : Action H → EventLoop H
  | .push change =>
    { s with changeList := s.changeList ++ [change], signalling := s.signalling + 1 }
  | .setChangeEvent =>
    if 0 < s.signalling then
      { s with
        signaled := Function.update s.signaled s.changeFd true
        signalling := s.signalling - 1 }
    else s
  | .signal fd =>
    if s.opened fd then { s with signaled := Function.update s.signaled fd true } else s
  | .create fd => { s with opened := Function.update s.opened fd true }
  | .close fd =>
    { s with
      opened := Function.update s.opened fd false
      signaled := Function.update s.signaled fd false }
  | .enter =>
    match s.phase with
    | .outside => { s with phase := .waiting }
    | _ => s
  | .wait autoReset =>
    match s.phase with
    | .waiting => s.wait autoReset
    | _ => s
  | .timeout =>
    match s.phase with
    | .waiting =>
      if s.Waitable ∧ s.handles.find? s.signaled = none then
        { s with phase := .outside, result := some 0 }
      else s
    | _ => s
  | .reset =>
    match s.phase with
    | .resetting fd evi => s.reset fd evi
    | _ => s
  | .applyChanges order =>
    match s.phase with
    | .changing => s.changeHandler order
    | _ => s
  | .handlerReturns nbytes =>
    match s.phase with
    | .handling _ => if 0 < nbytes then s else { s with phase := .waiting }
    | _ => s

/-- The loop waits, and the wait does not return by itself. -/
def Blocked (s : EventLoop H) : Prop :=
  s.phase = .waiting ∧ s.Waitable ∧ s.handles.find? s.signaled = none

end EventLoop

/-! ## Keeping a record -/

/-- The loop, with all calls of `addEvent` and `eraseEvent` that were made, and what was signaled since
its handler was last called or the loop last returned for it. -/
structure Record (H : Type) where
  loop : EventLoop H
  calls : List (Change H) := []
  owed : Fd → Bool := fun _ => false

namespace Record

def create (H : Type) (changeFd stopFd : Fd) : Record H := ⟨.create H changeFd stopFd, [], fun _ => false⟩

def step (r : Record H) (a : Action H) : Record H where
  loop := r.loop.step a
  calls :=
    match a with
    | .push change => r.calls ++ [change]
    | _ => r.calls
  owed :=
    match a with
    | .signal fd => if r.loop.opened fd then Function.update r.owed fd true else r.owed
    | .close fd => Function.update r.owed fd false
    | .reset =>
      match r.loop.phase with
      | .resetting fd _ => Function.update r.owed fd false
      | _ => r.owed
    | _ => r.owed

end Record

/-! ## The map -/

theorem lookup_applyChange (eventInfos : EventInfos H) (item : Change H) (fd : Fd) :
    (applyChange eventInfos item).lookup fd =
      if fd = item.fd then item.eventHandler.map .user else eventInfos.lookup fd := by
  rw [applyChange]
  split
  · rename_i eventHandler heh
    rw [heh]
    split
    · rename_i heq
      rw [heq, AList.lookup_insert]
      rfl
    · rename_i hne
      exact AList.lookup_insert_ne hne
  · rename_i heh
    rw [heh]
    split
    · rename_i heq
      rw [heq, AList.lookup_erase]
      rfl
    · rename_i hne
      exact AList.lookup_erase_ne hne

/-- What is no business of the changes stays. -/
theorem lookup_changes {changes : List (Change H)} {fd : Fd} (h : ∀ c ∈ changes, c.fd ≠ fd)
    (eventInfos : EventInfos H) :
    (changes.foldl applyChange eventInfos).lookup fd = eventInfos.lookup fd := by
  induction changes generalizing eventInfos with
  | nil => rfl
  | cons c changes ih =>
    obtain ⟨hc, hchanges⟩ := List.forall_mem_cons.mp h
    rw [List.foldl_cons, ih hchanges, lookup_applyChange, if_neg (Ne.symm hc)]

/-- What is in the map afterwards was there before or came with a change. -/
theorem lookup_changes_cases {changes : List (Change H)} {eventInfos : EventInfos H} {fd : Fd}
    {evi : Handler H} (h : (changes.foldl applyChange eventInfos).lookup fd = some evi) :
    eventInfos.lookup fd = some evi ∨ ∃ eventHandler, evi = .user eventHandler := by
  induction changes generalizing eventInfos with
  | nil => exact Or.inl h
  | cons c changes ih =>
    rcases ih h with hlookup | huser
    · rw [lookup_applyChange] at hlookup
      split at hlookup
      · obtain ⟨eventHandler, -, rfl⟩ := Option.map_eq_some_iff.mp hlookup
        exact Or.inr ⟨eventHandler, rfl⟩
      · exact Or.inl hlookup
    · exact Or.inr huser

def handlersOf (eventInfos : EventInfos H) (fd : Fd) : Option H :=
  (eventInfos.lookup fd).bind Handler.user?

theorem handlersOf_applyChange (eventInfos : EventInfos H) (item : Change H) :
    handlersOf (applyChange eventInfos item) =
      Function.update (handlersOf eventInfos) item.fd item.eventHandler := by
  funext fd
  rw [handlersOf, lookup_applyChange, Function.update_apply]
  split
  · cases item.eventHandler with
    | none => rfl
    | some eventHandler => rfl
  · rfl

theorem handlersOf_changes (changes : List (Change H)) (eventInfos : EventInfos H) :
    handlersOf (changes.foldl applyChange eventInfos) =
      follow (handlersOf eventInfos) (changes.map Change.message) := by
  induction changes generalizing eventInfos with
  | nil => rfl
  | cons c changes ih =>
    rw [List.foldl_cons, ih, handlersOf_applyChange]
    rfl

/-! ## The invariant -/

/-- Neither in `changeHandler` nor on the way from a wait to what it returned for. -/
def Phase.Idle (phase : Phase H) : Prop := phase ≠ .changing ∧ ∀ fd evi, phase ≠ .resetting fd evi

structure Sound (r : Record H) : Prop where
  distinct : r.loop.changeFd ≠ r.loop.stopFd
  foreign : ∀ c ∈ r.loop.changeList, c.fd ≠ r.loop.changeFd ∧ c.fd ≠ r.loop.stopFd
  change : r.loop.eventInfos.lookup r.loop.changeFd = some .changeHandler
  stop : r.loop.eventInfos.lookup r.loop.stopFd = some .null
  others : ∀ fd evi, r.loop.eventInfos.lookup fd = some evi →
    fd = r.loop.changeFd ∨ fd = r.loop.stopFd ∨ ∃ eventHandler, evi = .user eventHandler
  handles : r.loop.handles.Perm r.loop.eventInfos.keys
  /-- The map is behind by the changes that are still in the list. -/
  followed : follow (handlersOf r.loop.eventInfos) (r.loop.changeList.map Change.message) =
    registration r.calls
  /-- A list that is not empty will be looked at. -/
  asked : r.loop.changeList ≠ [] → r.loop.signaled r.loop.changeFd = true ∨ 0 < r.loop.signalling ∨
    r.loop.phase = .changing ∨ ∃ evi, r.loop.phase = .resetting r.loop.changeFd evi
  resetting : ∀ fd evi, r.loop.phase = .resetting fd evi → r.loop.eventInfos.lookup fd = some evi
  /-- What is owed is still signaled, or the loop is about to call its handler. -/
  owed : ∀ fd, r.owed fd = true →
    r.loop.signaled fd = true ∨ ∃ evi, r.loop.phase = .resetting fd evi

/-- The handles of the loop are left alone. -/
def Proper (r : Record H) : Action H → Prop
  | .push change => change.fd ≠ r.loop.changeFd ∧ change.fd ≠ r.loop.stopFd
  | .close fd => fd ≠ r.loop.changeFd ∧ fd ≠ r.loop.stopFd
  | _ => True

theorem handlersOf_create (changeFd stopFd : Fd) :
    handlersOf (EventLoop.create H changeFd stopFd).eventInfos = fun _ => none := by
  funext fd
  rw [handlersOf, EventLoop.create]
  by_cases hchange : fd = changeFd
  · rw [hchange, AList.lookup_insert]
    rfl
  · rw [AList.lookup_insert_ne hchange]
    by_cases hstop : fd = stopFd
    · rw [hstop, AList.lookup_insert]
      rfl
    · rw [AList.lookup_insert_ne hstop]
      rfl

theorem sound_create {changeFd stopFd : Fd} (hdistinct : changeFd ≠ stopFd) :
    Sound (Record.create H changeFd stopFd) where
  distinct := hdistinct
  foreign := List.forall_mem_nil _
  change := AList.lookup_insert _
  stop := (AList.lookup_insert_ne (Ne.symm hdistinct)).trans (AList.lookup_insert _)
  others := fun fd evi hlookup => by
    by_cases hchange : fd = changeFd
    · exact Or.inl hchange
    · by_cases hstop : fd = stopFd
      · exact Or.inr (Or.inl hstop)
      · have hnone : (EventLoop.create H changeFd stopFd).eventInfos.lookup fd = none :=
          (AList.lookup_insert_ne hchange).trans (AList.lookup_insert_ne hstop)
        exact absurd (hnone.symm.trans hlookup) nofun
  handles := by
    have hkeys : (EventLoop.create H changeFd stopFd).eventInfos.keys = [changeFd, stopFd] := by
      simp [EventLoop.create, AList.keys_insert, Ne.symm hdistinct]
    show [stopFd, changeFd].Perm (EventLoop.create H changeFd stopFd).eventInfos.keys
    rw [hkeys]
    exact List.Perm.swap _ _ _
  followed := handlersOf_create changeFd stopFd
  asked := fun h => absurd rfl h
  resetting := fun _ _ h => nomatch h
  owed := fun _ h => absurd h Bool.false_ne_true

variable {r : Record H}

/-- The loop goes on, or to the end. -/
theorem Sound.move (h : Sound r) (hidle : r.loop.phase.Idle) {phase : Phase H} (result : Option Int)
    (hphase : ∀ fd evi, phase ≠ .resetting fd evi) :
    Sound { r with loop := { r.loop with phase := phase, result := result } } :=
  { h with
    asked := fun hlist => by
      rcases h.asked hlist with hsignaled | hsignalling | hchanging | ⟨evi, hresetting⟩
      · exact Or.inl hsignaled
      · exact Or.inr (Or.inl hsignalling)
      · exact absurd hchanging hidle.1
      · exact absurd hresetting (hidle.2 _ _)
    resetting := fun fd evi hresetting => absurd hresetting (hphase fd evi)
    owed := fun fd howed => by
      rcases h.owed fd howed with hsignaled | ⟨evi, hresetting⟩
      · exact Or.inl hsignaled
      · exact absurd hresetting (hidle.2 _ _) }

theorem Sound.push (h : Sound r) {change : Change H} (hproper : Proper r (.push change)) :
    Sound (r.step (.push change)) :=
  { h with
    foreign := List.forall_mem_append.mpr ⟨h.foreign, List.forall_mem_singleton.mpr hproper⟩
    followed := by
      show follow (handlersOf r.loop.eventInfos) ((r.loop.changeList ++ [change]).map Change.message) =
        registration (r.calls ++ [change])
      rw [List.map_append, follow_append, h.followed, registration_concat]
      rfl
    asked := fun _ => Or.inr (Or.inl (Nat.succ_pos _)) }

theorem Sound.setChangeEvent (h : Sound r) : Sound (r.step .setChangeEvent) := by
  simp only [Record.step, EventLoop.step]
  split
  · exact
      { h with
        asked := fun _ => Or.inl (Function.update_self ..)
        owed := fun fd howed => by
          by_cases hfd : fd = r.loop.changeFd
          · exact Or.inl (hfd ▸ Function.update_self ..)
          · exact (h.owed fd howed).imp_left (Function.update_of_ne hfd ..).trans }
  · exact h

theorem Sound.signal (h : Sound r) (fd : Fd) : Sound (r.step (.signal fd)) := by
  simp only [Record.step, EventLoop.step]
  split
  · exact
      { h with
        asked := fun hlist => by
          refine (h.asked hlist).imp_left fun hsignaled => ?_
          show Function.update r.loop.signaled fd true r.loop.changeFd = true
          rw [Function.update_apply]
          split
          · rfl
          · exact hsignaled
        owed := fun fd' howed => by
          by_cases hfd : fd' = fd
          · exact Or.inl (hfd ▸ Function.update_self ..)
          · have howed' : r.owed fd' = true := (Function.update_of_ne hfd ..).symm.trans howed
            exact (h.owed fd' howed').imp_left (Function.update_of_ne hfd ..).trans }
  · exact h

theorem Sound.close (h : Sound r) {fd : Fd} (hproper : Proper r (.close fd)) :
    Sound (r.step (.close fd)) :=
  { h with
    asked := fun hlist => (h.asked hlist).imp_left (Function.update_of_ne (Ne.symm hproper.1) ..).trans
    owed := fun fd' howed => by
      by_cases hfd : fd' = fd
      · have hnot : (r.step (.close fd)).owed fd' = false := hfd ▸ Function.update_self ..
        exact absurd (hnot.symm.trans howed) Bool.false_ne_true
      · have howed' : r.owed fd' = true := (Function.update_of_ne hfd ..).symm.trans howed
        exact (h.owed fd' howed').imp_left (Function.update_of_ne hfd ..).trans }

/-- What a wait returns for is in the map. -/
theorem Sound.lookup_of_mem (h : Sound r) {fd : Fd} (hmem : fd ∈ r.loop.handles) :
    ∃ evi, r.loop.eventInfos.lookup fd = some evi ∧ r.loop.infoAt fd = (evi, r.loop.eventInfos) := by
  have hkey : fd ∈ r.loop.eventInfos := AList.mem_keys.mpr (h.handles.mem_iff.mp hmem)
  obtain ⟨evi, hevi⟩ := Option.isSome_iff_exists.mp (AList.lookup_isSome.mpr hkey)
  exact ⟨evi, hevi, by rw [EventLoop.infoAt, hevi]⟩

theorem Sound.wait (h : Sound r) (autoReset : Bool) : Sound (r.step (.wait autoReset)) := by
  simp only [Record.step, EventLoop.step]
  cases hphase : r.loop.phase with
  | waiting =>
    have hidle : r.loop.phase.Idle := by
      rw [hphase]
      exact ⟨nofun, nofun⟩
    simp only [EventLoop.wait]
    split
    · exact h.move hidle (some (-1)) nofun
    · split
      · split
        · exact h
        · rename_i fd hfound
          obtain ⟨evi, hevi, hinfo⟩ := h.lookup_of_mem (List.mem_of_find?_eq_some hfound)
          rw [hinfo]
          have hkept : ∀ fd', fd' ≠ fd → r.loop.signaled fd' = true →
              (if autoReset then Function.update r.loop.signaled fd false else r.loop.signaled) fd' =
                true := by
            intro fd' hne hsignaled
            split
            · exact (Function.update_of_ne hne ..).trans hsignaled
            · exact hsignaled
          exact
            { h with
              asked := fun hlist => by
                rcases h.asked hlist with hsignaled | hsignalling | hchanging | ⟨evi', hresetting⟩
                · by_cases hfd : r.loop.changeFd = fd
                  · exact Or.inr (Or.inr (Or.inr ⟨evi, hfd ▸ rfl⟩))
                  · exact Or.inl (hkept _ hfd hsignaled)
                · exact Or.inr (Or.inl hsignalling)
                · exact absurd hchanging hidle.1
                · exact absurd hresetting (hidle.2 _ _)
              resetting := fun fd' evi' hresetting => by
                obtain ⟨rfl, rfl⟩ := Phase.resetting.inj hresetting
                exact hevi
              owed := fun fd' howed => by
                by_cases hfd : fd' = fd
                · exact Or.inr ⟨evi, hfd ▸ rfl⟩
                · rcases h.owed fd' howed with hsignaled | ⟨evi', hresetting⟩
                  · exact Or.inl (hkept _ hfd hsignaled)
                  · exact absurd hresetting (hidle.2 _ _) }
      · exact h.move hidle r.loop.result nofun
  | _ => exact h

/-- The handler that is called is that of the handle the wait returned for. -/
theorem Sound.reset (h : Sound r) : Sound (r.step .reset) := by
  simp only [Record.step, EventLoop.step]
  cases hphase : r.loop.phase with
  | resetting fd evi =>
    have hevi := h.resetting fd evi hphase
    have hchanging : r.loop.phase ≠ .changing := by
      rw [hphase]
      exact nofun
    have howed : ∀ fd', Function.update r.owed fd false fd' = true →
        Function.update r.loop.signaled fd false fd' = true := by
      intro fd' howed
      by_cases hfd : fd' = fd
      · have hnot : Function.update r.owed fd false fd' = false := hfd ▸ Function.update_self ..
        exact absurd (hnot.symm.trans howed) Bool.false_ne_true
      · have howed' : r.owed fd' = true := (Function.update_of_ne hfd ..).symm.trans howed
        rcases h.owed fd' howed' with hsignaled | ⟨evi', hresetting⟩
        · exact (Function.update_of_ne hfd ..).trans hsignaled
        · rw [hphase] at hresetting
          exact absurd (Phase.resetting.inj hresetting).1.symm hfd
    -- if it was the change event that was reset, the list is looked at next
    have hasked : r.loop.changeList ≠ [] → evi ≠ .changeHandler →
        Function.update r.loop.signaled fd false r.loop.changeFd = true ∨ 0 < r.loop.signalling := by
      intro hlist hother
      have hfd : r.loop.changeFd ≠ fd := fun heq => by
        rw [← heq, h.change] at hevi
        exact hother (Option.some.inj hevi).symm
      rcases h.asked hlist with hsignaled | hsignalling | hin | ⟨evi', hresetting⟩
      · exact Or.inl ((Function.update_of_ne hfd ..).trans hsignaled)
      · exact Or.inr hsignalling
      · exact absurd hin hchanging
      · rw [hphase] at hresetting
        exact absurd (Phase.resetting.inj hresetting).1.symm hfd
    cases evi with
    | null =>
      exact
        { h with
          asked := fun hlist => (hasked hlist nofun).imp_right Or.inl
          resetting := nofun
          owed := fun fd' hfd' => Or.inl (howed fd' hfd') }
    | changeHandler =>
      exact
        { h with
          asked := fun _ => Or.inr (Or.inr (Or.inl rfl))
          resetting := nofun
          owed := fun fd' hfd' => Or.inl (howed fd' hfd') }
    | user eventHandler =>
      exact
        { h with
          asked := fun hlist => (hasked hlist nofun).imp_right Or.inl
          resetting := nofun
          owed := fun fd' hfd' => Or.inl (howed fd' hfd') }
  | _ => exact h

theorem Sound.applyChanges (h : Sound r) (order : KeyOrder) : Sound (r.step (.applyChanges order)) := by
  simp only [Record.step, EventLoop.step]
  cases hphase : r.loop.phase with
  | changing =>
    exact
      { h with
        foreign := List.forall_mem_nil _
        change := (lookup_changes (fun c hc => (h.foreign c hc).1) _).trans h.change
        stop := (lookup_changes (fun c hc => (h.foreign c hc).2) _).trans h.stop
        others := fun fd evi hlookup => by
          rcases lookup_changes_cases hlookup with hbefore | huser
          · exact h.others fd evi hbefore
          · exact Or.inr (Or.inr huser)
        handles := order.perm _
        followed := (handlersOf_changes _ _).trans h.followed
        asked := fun hlist => absurd rfl hlist
        resetting := nofun
        owed := fun fd howed => by
          rcases h.owed fd howed with hsignaled | ⟨evi, hresetting⟩
          · exact Or.inl hsignaled
          · rw [hphase] at hresetting
            exact absurd hresetting nofun }
  | _ => exact h

theorem Sound.step (h : Sound r) (a : Action H) (hproper : Proper r a) : Sound (r.step a) := by
  cases a with
  | push change => exact h.push hproper
  | setChangeEvent => exact h.setChangeEvent
  | signal fd => exact h.signal fd
  | create fd => exact { h with }
  | close fd => exact h.close hproper
  | enter =>
    simp only [Record.step, EventLoop.step]
    cases hphase : r.loop.phase with
    | outside => exact h.move (by rw [hphase]; exact ⟨nofun, nofun⟩) r.loop.result nofun
    | _ => exact h
  | wait autoReset => exact h.wait autoReset
  | timeout =>
    simp only [Record.step, EventLoop.step]
    cases hphase : r.loop.phase with
    | waiting =>
      dsimp only
      split
      · exact h.move (by rw [hphase]; exact ⟨nofun, nofun⟩) (some 0) nofun
      · exact h
    | _ => exact h
  | reset => exact h.reset
  | applyChanges order => exact h.applyChanges order
  | handlerReturns nbytes =>
    simp only [Record.step, EventLoop.step]
    cases hphase : r.loop.phase with
    | handling eventHandler =>
      dsimp only
      split
      · exact h
      · exact h.move (by rw [hphase]; exact ⟨nofun, nofun⟩) r.loop.result nofun
    | _ => exact h

/-- The states a loop can come to. -/
def Reached (r : Record H) : Prop :=
  ∃ changeFd stopFd actions, changeFd ≠ stopFd ∧ r = run Record.step (.create H changeFd stopFd) actions ∧
    ∀ p ∈ transitions Record.step (.create H changeFd stopFd) actions, Proper p.1 p.2

theorem Reached.sound (h : Reached r) : Sound r := by
  obtain ⟨changeFd, stopFd, actions, hdistinct, rfl, hproper⟩ := h
  exact Lib.run_invariant (P := Sound) (C := Proper) _ (fun _ a hs hp => hs.step a hp)
    (sound_create hdistinct) hproper

/-! ## What the loop owes -/

/-- There is nothing left to do. -/
structure Done (r : Record H) : Prop where
  applied : r.loop.changeList = []
  handlers : handlersOf r.loop.eventInfos = registration r.calls
  /-- What is waited for are the handles that are registered, and those of the loop. -/
  waited : ∀ fd, fd ∈ r.loop.handles ↔
    fd = r.loop.changeFd ∨ fd = r.loop.stopFd ∨ (registration r.calls fd).isSome
  answered : ∀ fd ∈ r.loop.handles, r.owed fd = false

theorem Sound.mem_handles_iff (h : Sound r) (fd : Fd) :
    fd ∈ r.loop.handles ↔
      fd = r.loop.changeFd ∨ fd = r.loop.stopFd ∨ (handlersOf r.loop.eventInfos fd).isSome := by
  rw [h.handles.mem_iff, ← AList.mem_keys, ← AList.lookup_isSome, handlersOf]
  constructor
  · intro hsome
    obtain ⟨evi, hevi⟩ := Option.isSome_iff_exists.mp hsome
    refine (h.others fd evi hevi).imp_right (Or.imp_right ?_)
    rintro ⟨eventHandler, rfl⟩
    rw [hevi]
    rfl
  · rintro (rfl | rfl | hsome)
    · rw [h.change]
      rfl
    · rw [h.stop]
      rfl
    · cases hlookup : r.loop.eventInfos.lookup fd with
      | none =>
        rw [hlookup] at hsome
        exact hsome
      | some evi => rfl

theorem Sound.handlers_eq (h : Sound r) (hlist : r.loop.changeList = []) :
    handlersOf r.loop.eventInfos = registration r.calls := by
  have hfollowed := h.followed
  rwa [hlist] at hfollowed

/-- **Whenever the loop blocks there is nothing left to do**, unless a thread is about to set the
change event: every change that was asked for is made, every handle that is registered is waited for,
and none of them was signaled since its handler was called. -/
theorem blocked_done (h : Reached r) (hblocked : r.loop.Blocked) (hsignalling : r.loop.signalling = 0) :
    Done r := by
  have hsound := h.sound
  obtain ⟨hphase, -, hnone⟩ := hblocked
  have hquiet : ∀ fd ∈ r.loop.handles, r.loop.signaled fd = false := fun fd hfd =>
    eq_false_of_ne_true (List.find?_eq_none.mp hnone fd hfd)
  have hresetting : ∀ fd evi, r.loop.phase ≠ .resetting fd evi := by
    rw [hphase]
    exact nofun
  have hlist : r.loop.changeList = [] := by
    by_contra hne
    have hchange := hquiet _ ((hsound.mem_handles_iff _).mpr (Or.inl rfl))
    rcases hsound.asked hne with hsignaled | hpending | hchanging | ⟨evi, hin⟩
    · exact Bool.false_ne_true (hchange.symm.trans hsignaled)
    · omega
    · rw [hphase] at hchanging
      cases hchanging
    · exact hresetting _ _ hin
  refine ⟨hlist, hsound.handlers_eq hlist, fun fd => ?_, fun fd hfd => ?_⟩
  · rw [hsound.mem_handles_iff, hsound.handlers_eq hlist]
  · refine eq_false_of_ne_true fun howed => ?_
    rcases hsound.owed fd howed with hsignaled | ⟨evi, hin⟩
    · exact Bool.false_ne_true ((hquiet fd hfd).symm.trans hsignaled)
    · exact hresetting _ _ hin

/-! ## What is called -/

/-- **The handler that is called is the one that is registered**, unless a change for its handle is
still in the list. -/
theorem called_registered (h : Reached r) {fd : Fd} {eventHandler : H}
    (hphase : r.loop.phase = .resetting fd (.user eventHandler)) :
    registration r.calls fd = some eventHandler ∨ ∃ c ∈ r.loop.changeList, c.fd = fd := by
  have hsound := h.sound
  by_cases hpending : ∃ c ∈ r.loop.changeList, c.fd = fd
  · exact Or.inr hpending
  · refine Or.inl ?_
    have hfilter : (r.loop.changeList.map Change.message).filter (fun msg => msg.key = fd) = [] := by
      refine List.filter_eq_nil_iff.mpr fun msg hmsg hkey => hpending ?_
      obtain ⟨c, hc, rfl⟩ := List.mem_map.mp hmsg
      exact ⟨c, hc, of_decide_eq_true hkey⟩
    have hhandler : handlersOf r.loop.eventInfos fd = some eventHandler := by
      rw [handlersOf, hsound.resetting fd _ hphase]
      rfl
    rw [← hsound.followed, Lib.Replica.follow_eq_last, hfilter, hhandler]
    rfl

/-! ## How much the loop can wait for -/

/-- The handles in the array, counted. -/
theorem Sound.length_handles (h : Sound r) :
    r.loop.handles.length =
      Set.ncard {fd | (handlersOf r.loop.eventInfos fd).isSome} + 2 := by
  have hset : {fd | fd ∈ r.loop.handles} = insert r.loop.changeFd (insert r.loop.stopFd
      {fd | (handlersOf r.loop.eventInfos fd).isSome}) := by
    ext fd
    exact h.mem_handles_iff fd
  have hnodup : r.loop.handles.Nodup := h.handles.nodup_iff.mpr (AList.keys_nodup _)
  have hfinite : {fd | (handlersOf r.loop.eventInfos fd).isSome}.Finite :=
    r.loop.handles.finite_toSet.subset fun fd hfd => (h.mem_handles_iff fd).mpr (Or.inr (Or.inr hfd))
  have hstop : r.loop.stopFd ∉ {fd | (handlersOf r.loop.eventInfos fd).isSome} := by
    rw [Set.mem_ofPred_eq, handlersOf, h.stop]
    exact Bool.false_ne_true
  have hchange : r.loop.changeFd ∉ insert r.loop.stopFd
      {fd | (handlersOf r.loop.eventInfos fd).isSome} := by
    rw [Set.mem_insert_iff, Set.mem_ofPred_eq, handlersOf, h.change]
    exact not_or.mpr ⟨h.distinct, Bool.false_ne_true⟩
  calc r.loop.handles.length
      = Set.ncard {fd | fd ∈ r.loop.handles} := by
        rw [← List.toFinset_card_of_nodup hnodup, ← Set.ncard_coe_finset, List.coe_toFinset]
    _ = Set.ncard {fd | (handlersOf r.loop.eventInfos fd).isSome} + 2 := by
        rw [hset, Set.ncard_insert_of_notMem hchange (hfinite.insert _),
          Set.ncard_insert_of_notMem hstop hfinite]

/-- **With more than 62 handles registered `execute` returns at once**, and what it returns is the
error; with no more than that it does not. -/
theorem wait_fails_iff (h : Reached r) (hphase : r.loop.phase = .waiting)
    (hlist : r.loop.changeList = []) (autoReset : Bool) :
    ((r.step (.wait autoReset)).loop.phase = .outside ↔
        62 < Set.ncard {fd | (registration r.calls fd).isSome}) ∧
      ((r.step (.wait autoReset)).loop.phase = .outside →
        (r.step (.wait autoReset)).loop.result = some (-1)) := by
  have hlength := h.sound.length_handles
  rw [h.sound.handlers_eq hlist] at hlength
  have hcount : maximumWaitObjects < r.loop.handles.length ↔
      62 < Set.ncard {fd | (registration r.calls fd).isSome} := by
    rw [hlength, maximumWaitObjects]
    omega
  rw [← hcount]
  simp only [Record.step, EventLoop.step, hphase, EventLoop.wait]
  split
  · rename_i htoo
    exact ⟨iff_of_true rfl htoo, fun _ => rfl⟩
  · rename_i hfits
    refine (and_iff_left_of_imp fun h houtside => absurd (h.mp houtside) hfits).mpr ?_
    refine iff_of_false ?_ hfits
    split
    · split
      · rw [hphase]
        exact nofun
      · exact nofun
    · exact nofun

/-! ## A loop with one event -/

def KeyOrder.stored : KeyOrder := ⟨id, fun _ => .refl _⟩

/-- An event is registered. -/
def registeredActions : List (Action Unit) :=
  [.create 7, .push ⟨7, some ()⟩, .setChangeEvent, .enter, .wait true, .reset, .applyChanges .stored]

/-- It is signaled, and its handler called. -/
def handledActions : List (Action Unit) := [.signal 7, .wait true, .reset, .handlerReturns 0]

theorem reached_actions {actions more : List (Action Unit)}
    (h : actions ++ more = registeredActions ++ handledActions) :
    Reached (run Record.step (.create Unit 3 4) actions) := by
  refine ⟨3, 4, actions, by decide, rfl, fun p hp => ?_⟩
  have hproper : ∀ p ∈ transitions Record.step (.create Unit 3 4) (registeredActions ++ handledActions),
      Proper p.1 p.2 := by
    simp only [registeredActions, handledActions, List.cons_append, List.nil_append, transitions,
      List.forall_mem_cons]
    exact ⟨trivial, ⟨by decide, by decide⟩, trivial, trivial, trivial, trivial, trivial, trivial,
      trivial, trivial, trivial, List.forall_mem_nil _⟩
  obtain ⟨pre, post, hsplit, hstate⟩ := (Lib.mem_transitions_iff _).mp hp
  refine hproper p ((Lib.mem_transitions_iff _).mpr ⟨pre, post ++ more, ?_, hstate⟩)
  rw [← h, hsplit, List.append_assoc, List.cons_append]

theorem blocked_done_handled :
    Done (run Record.step (.create Unit 3 4) (registeredActions ++ handledActions)) :=
  blocked_done (reached_actions (List.append_nil _)) ⟨rfl, by decide, by decide⟩ rfl

theorem called_registered_handled :
    registration (run Record.step (.create Unit 3 4)
        (registeredActions ++ [.signal 7, .wait true])).calls 7 = some () ∨
      ∃ c ∈ (run Record.step (.create Unit 3 4)
        (registeredActions ++ [.signal 7, .wait true])).loop.changeList, c.fd = 7 :=
  called_registered (@reached_actions _ [.reset, .handlerReturns 0] rfl) rfl

theorem wait_fails_iff_registered :
    (((run Record.step (.create Unit 3 4) registeredActions).step (.wait true)).loop.phase =
          .outside ↔
        62 < Set.ncard
          {fd | (registration (run Record.step (.create Unit 3 4) registeredActions).calls fd).isSome}) ∧
      (((run Record.step (.create Unit 3 4) registeredActions).step (.wait true)).loop.phase =
          .outside →
        ((run Record.step (.create Unit 3 4) registeredActions).step (.wait true)).loop.result =
          some (-1)) :=
  wait_fails_iff (reached_actions rfl) rfl rfl true

end DevScan.Sys.Windows
