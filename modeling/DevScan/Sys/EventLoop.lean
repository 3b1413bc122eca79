import DevScan.Lib.Runs
import Mathlib.Logic.Function.Basic

/-!
# `Sys/EventLoop.lean` — the epoll event loop, step by step

`hbm/sys/linux/eventloop.cpp` as a machine of small steps, so that anything may happen between
two of them that happens between two statements of the source: requests by other threads or by
the handlers themselves, descriptors being closed.

`epoll_event.data.ptr` is a reference. The null pointer stands for the stop notifier and
`&m_changeEvent` for the change notifier; every other reference is the **address of a node** of
`m_eventInfos`. A node that is erased is gone, and a node that is added gets an address of its
own, also if it is for the same descriptor. Following the address of a node that is gone is
undefined behaviour, and the machine stops there (`Phase.undefined`).

What the handlers do is not modelled beyond what they return and request. Descriptors are not
duplicated: closing one removes it from the epoll set. `stop` writes the stop notifier and
nothing else; that its event may be reported at any time is all there is to it.
-/

set_option autoImplicit false

namespace DevScan.Sys

/-- A file descriptor (`event` on Linux). -/
abbrev Fd := Int

/-- The address of an `eventInfo_t` in `m_eventInfos`. -/
abbrev Addr := Nat

/-- `epoll_event.data.ptr`. -/
inductive Ptr where
  | stop
  | change
  | node (addr : Addr)
deriving DecidableEq, Repr

/-- An element of the array `epoll_wait` fills. -/
structure EpollEvent where
  /-- The descriptor that is reported; the loop gets to see `ptr` only. -/
  fd : Fd
  ptr : Ptr
  /-- `events & (EPOLLHUP | EPOLLERR)` -/
  hupOrErr : Bool
  /-- `events & EPOLLIN` -/
  input : Bool
deriving DecidableEq, Repr

def maxEvents : Nat := 16

variable {H : Type}

/-- `eventInfo_t` in `m_eventInfos`; `H` are the handlers. -/
structure EventInfo (H : Type) where
  fd : Fd
  eventHandler : H

/-- `eventInfo_t` in `m_changeList`; without a handler it asks for removal. -/
structure Change (H : Type) where
  fd : Fd
  eventHandler : Option H

/-- Where the loop is. `rest` are the events of the batch that are still to be looked at. -/
inductive Phase where
  /-- Not in `execute` or `execute_for`. -/
  | outside
  | waiting
  /-- At the head of the loop over the batch. -/
  | dispatching (rest : List EpollEvent)
  /-- In the loop that calls the handler of a node. -/
  | handling (addr : Addr) (rest : List EpollEvent)
  /-- In the loop that calls `changeHandler`, before it reads the notifier. -/
  | changeRead (rest : List EpollEvent)
  /-- In the loop over `m_changeList`, which is locked. -/
  | changing (rest : List EpollEvent)
  /-- In the loop that calls a handler that has just been added. -/
  | priming (rest : List EpollEvent)
  | undefined
deriving DecidableEq, Repr

structure EventLoop (H : Type) where
  changeFd : Fd
  /-- The counter of the change notifier is not zero. -/
  changeCount : Bool := false
  changeList : List (Change H) := []
  eventInfos : Fd → Option Addr := fun _ => none
  /-- The nodes of `m_eventInfos`, by address. -/
  nodes : Addr → Option (EventInfo H) := fun _ => none
  nextAddr : Addr := 0
  /-- The epoll set. -/
  interest : Fd → Option Ptr
  phase : Phase := .outside

/-- The constructor: both notifiers are in the epoll set. -/
def EventLoop.create (H : Type) (changeFd stopFd : Fd) : EventLoop H where
  changeFd := changeFd
  interest := Function.update (Function.update (fun _ => none) stopFd (some .stop)) changeFd
    (some .change)

/-- What happens next. -/
inductive Action (H : Type) where
  /-- `addEvent` or `eraseEvent`, by a handler or another thread. -/
  | request (change : Change H)
  /-- A descriptor is closed; epoll forgets it. -/
  | close (fd : Fd)
  /-- `execute` or `execute_for` is called. -/
  | enter
  | report (batch : List EpollEvent)
  /-- `epoll_wait` reports none, fails, or is not called for lack of time. -/
  | leave
  | next
  | handlerReturns (result : Int)
  | readChange
  /-- The next round of the loop over `m_changeList`; `added` is whether `epoll_ctl` succeeds. -/
  | applyChange (added : Bool)

namespace EventLoop

/-- What `epoll_wait` may report: at most `MAXEVENTS` descriptors of the epoll set, each once. -/
def MayReport (s : EventLoop H) (batch : List EpollEvent) : Prop :=
  batch ≠ [] ∧ batch.length ≤ maxEvents ∧ (batch.map EpollEvent.fd).Nodup ∧
    ∀ e ∈ batch, s.interest e.fd = some e.ptr

instance (s : EventLoop H) (batch : List EpollEvent) : Decidable (s.MayReport batch) :=
  inferInstanceAs (Decidable (_ ∧ _ ∧ _ ∧ _))

/-- Push onto `m_changeList` and write the notifier. -/
def push (s : EventLoop H) (change : Change H) : EventLoop H :=
  { s with changeList := s.changeList ++ [change], changeCount := true }

def close (s : EventLoop H) (fd : Fd) : EventLoop H :=
  { s with interest := Function.update s.interest fd none }

/-- `epoll_ctl(EPOLL_CTL_DEL)` and `m_eventInfos.erase`. -/
def erase (s : EventLoop H) (fd : Fd) : EventLoop H :=
  { s with
    interest := Function.update s.interest fd none
    eventInfos := Function.update s.eventInfos fd none
    nodes := match s.eventInfos fd with
      | some addr => Function.update s.nodes addr none
      | none => s.nodes }

/-- `m_eventInfos[fd] = item` and, unless it fails, `epoll_ctl(EPOLL_CTL_ADD)`. -/
def insert (s : EventLoop H) (fd : Fd) (eventHandler : H) (added : Bool) : EventLoop H :=
  { s with
    eventInfos := Function.update s.eventInfos fd (some s.nextAddr)
    nodes := Function.update s.nodes s.nextAddr (some ⟨fd, eventHandler⟩)
    nextAddr := s.nextAddr + 1
    interest := if added then Function.update s.interest fd (some (.node s.nextAddr))
      else s.interest }

@[simp] theorem interest_close (s : EventLoop H) (fd fd' : Fd) :
    (s.close fd).interest fd' = if fd' = fd then none else s.interest fd' :=
  Function.update_apply ..

@[simp] theorem interest_erase (s : EventLoop H) (fd fd' : Fd) :
    (s.erase fd).interest fd' = if fd' = fd then none else s.interest fd' :=
  Function.update_apply ..

@[simp] theorem eventInfos_erase (s : EventLoop H) (fd fd' : Fd) :
    (s.erase fd).eventInfos fd' = if fd' = fd then none else s.eventInfos fd' :=
  Function.update_apply ..

@[simp] theorem nodes_erase (s : EventLoop H) (fd : Fd) (addr : Addr) :
    (s.erase fd).nodes addr = if s.eventInfos fd = some addr then none else s.nodes addr := by
  unfold erase
  cases s.eventInfos fd with
  | none => rfl
  | some gone => simp [Function.update_apply, eq_comm]

@[simp] theorem interest_insert (s : EventLoop H) (fd : Fd) (eventHandler : H) (added : Bool)
    (fd' : Fd) : (s.insert fd eventHandler added).interest fd' =
      if added ∧ fd' = fd then some (.node s.nextAddr) else s.interest fd' := by
  cases added with
  | true => simp [insert, Function.update_apply]
  | false => simp [insert]

@[simp] theorem eventInfos_insert (s : EventLoop H) (fd : Fd) (eventHandler : H) (added : Bool)
    (fd' : Fd) : (s.insert fd eventHandler added).eventInfos fd' =
      if fd' = fd then some s.nextAddr else s.eventInfos fd' :=
  Function.update_apply ..

@[simp] theorem nodes_insert (s : EventLoop H) (fd : Fd) (eventHandler : H) (added : Bool)
    (addr : Addr) : (s.insert fd eventHandler added).nodes addr =
      if addr = s.nextAddr then some ⟨fd, eventHandler⟩ else s.nodes addr :=
  Function.update_apply ..

/-- The body of the loop over the batch. -/
def dispatch (s : EventLoop H) (e : EpollEvent) (rest : List EpollEvent) : EventLoop H :=
  if e.hupOrErr then
    match e.ptr with
    | .stop => { s with phase := .dispatching rest }
    | .change => { s.push ⟨s.changeFd, none⟩ with phase := .dispatching rest }
    | .node addr =>
      match s.nodes addr with
      | some pEventInfo => { s.push ⟨pEventInfo.fd, none⟩ with phase := .dispatching rest }
      | none => { s with phase := .undefined }
  else if e.input then
    match e.ptr with
    | .stop => { s with phase := .outside }
    | .change => { s with phase := .changeRead rest }
    | .node addr => { s with phase := .handling addr rest }
  else { s with phase := .dispatching rest }

/-- One round of the loop over `m_changeList`; at its end the list is empty. -/
def applyChange (s : EventLoop H) (rest : List EpollEvent) (added : Bool) : EventLoop H :=
  match s.changeList with
  | [] => { s with phase := .changeRead rest }
  | item :: changeList =>
    let s := { s with changeList := changeList }.erase item.fd
    match item.eventHandler with
    | some eventHandler => { s.insert item.fd eventHandler added with phase := .priming rest }
    | none => s

theorem applyChange_nil {s : EventLoop H} (h : s.changeList = []) (rest : List EpollEvent)
    (added : Bool) : s.applyChange rest added = { s with phase := .changeRead rest } := by
  unfold applyChange
  rw [h]

theorem applyChange_cons {s : EventLoop H} {item : Change H} {changeList : List (Change H)}
    (h : s.changeList = item :: changeList) (rest : List EpollEvent) (added : Bool) :
    s.applyChange rest added =
      match item.eventHandler with
      | some eventHandler =>
        { ({ s with changeList := changeList }.erase item.fd).insert item.fd eventHandler added with
          phase := .priming rest }
      | none => { s with changeList := changeList }.erase item.fd := by
  unfold applyChange
  rw [h]

/-- One step. An action that is not possible where the loop is leaves everything as it is. -/
def step (s : EventLoop H) : Action H → EventLoop H
  | .request change =>
    match s.phase with
    | .changing _ => s
    | .undefined => s
    | _ => s.push change
  | .close fd => s.close fd
  | .enter => if s.phase = .outside then { s with phase := .waiting } else s
  | .report batch =>
    if s.phase = .waiting ∧ s.MayReport batch then { s with phase := .dispatching batch } else s
  | .leave => if s.phase = .waiting then { s with phase := .outside } else s
  | .next =>
    match s.phase with
    | .dispatching [] => { s with phase := .waiting }
    | .dispatching (e :: rest) => s.dispatch e rest
    | _ => s
  | .handlerReturns result =>
    match s.phase with
    | .handling addr rest =>
      match s.nodes addr with
      | some _ => if 0 < result then s else { s with phase := .dispatching rest }
      | none => { s with phase := .undefined }
    | .priming rest => if 0 < result then s else { s with phase := .changing rest }
    | _ => s
  | .readChange =>
    match s.phase with
    | .changeRead rest =>
      if s.changeCount then { s with changeCount := false, phase := .changing rest }
      else { s with phase := .dispatching rest }
    | _ => s
  | .applyChange added =>
    match s.phase with
    | .changing rest => s.applyChange rest added
    | _ => s

end EventLoop
end DevScan.Sys
