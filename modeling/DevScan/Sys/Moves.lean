import DevScan.Sys.Registrations

/-!
# `Sys/Moves.lean` — timers and notifiers that are moved

A `Timer` and a `Notifier` own a descriptor: the constructor makes it, the destructor takes it out
of the loop and closes it. The move constructors copy the number and register the new object for
it, and leave the number where it was, so that the object that was moved from closes it all the
same.

The machine has any number of objects on one loop, and the descriptors of the process: a number that
was closed may be given out again. An object is what the loop is given as the handler, that is, the
loop calls its `process`. The loop itself takes every step it has, but epoll reports neither
`EPOLLHUP` nor `EPOLLERR` of these descriptors.
-/

set_option autoImplicit false

namespace DevScan.Sys

open Lib (run transitions)

abbrev ObjectId := Nat

inductive ObjectKind where
  | timer
  | notifier
deriving DecidableEq, Repr

structure LoopObject where
  kind : ObjectKind
  /-- `m_fd` -/
  fd : Fd
  /-- `m_eventHandler` is set. -/
  hasHandler : Bool := false
  /-- Not in the source. -/
  movedFrom : Bool := false
deriving DecidableEq, Repr

/-- The loop was asked to call `process` of the object: a timer from the start, a notifier while it
has a callback. -/
def LoopObject.registers (object : LoopObject) : Bool :=
  object.kind = .timer || object.hasHandler

structure LoopObjects where
  registry : Registry ObjectId
  /-- The descriptors that are open. -/
  opened : Fd → Bool
  /-- The objects that live. -/
  objects : ObjectId → Option LoopObject := fun _ => none
  nextId : ObjectId := 0

inductive ObjectAction where
  /-- `timerfd_create` or `eventfd` returns the descriptor. -/
  | construct (kind : ObjectKind) (fd : Fd)
  | move (source : ObjectId)
  | set (object : ObjectId) (hasHandler : Bool)
  | destroy (object : ObjectId)
  | loop (action : Action ObjectId)

namespace LoopObjects

/-- Nothing but the loop's own descriptors and some others is open. -/
def create (changeFd stopFd : Fd) (others : Fd → Bool) : LoopObjects where
  registry := .create ObjectId changeFd stopFd
  opened fd := fd = changeFd || fd = stopFd || others fd

/-- The change list is locked, or the loop is gone. -/
def Waits (s : LoopObjects) : Prop := s.registry.loop.pushes (.request ⟨0, none⟩) = none

instance (s : LoopObjects) : Decidable s.Waits :=
  decidable_of_iff ((s.registry.loop.pushes (.request ⟨0, none⟩)).isNone = true)
    Option.isNone_iff_eq_none

def addEvent (r : Registry ObjectId) (fd : Fd) (object : ObjectId) : Registry ObjectId :=
  r.step (.request ⟨fd, some object⟩)

def eraseEvent (r : Registry ObjectId) (fd : Fd) : Registry ObjectId := r.step (.request ⟨fd, none⟩)

/-- The constructors; they throw if there is no descriptor. -/
def construct (s : LoopObjects) (kind : ObjectKind) (fd : Fd) : LoopObjects :=
  if fd < 0 ∨ s.opened fd then s
  else
    match kind with
    | .timer =>
      if s.Waits then s
      else
        { s with
          registry := addEvent s.registry fd s.nextId
          opened := Function.update s.opened fd true
          objects := Function.update s.objects s.nextId (some ⟨.timer, fd, false, false⟩)
          nextId := s.nextId + 1 }
    | .notifier =>
      { s with
        opened := Function.update s.opened fd true
        objects := Function.update s.objects s.nextId (some ⟨.notifier, fd, false, false⟩)
        nextId := s.nextId + 1 }

/-- The move constructors. -/
def move (s : LoopObjects) (id : ObjectId) : LoopObjects :=
  match s.objects id with
  | none => s
  | some source =>
    if s.Waits then s
    else
      { s with
        registry := addEvent s.registry source.fd s.nextId
        objects := Function.update
          (Function.update s.objects id (some { source with movedFrom := true }))
          s.nextId (some { source with movedFrom := false })
        nextId := s.nextId + 1 }

/-- Both `set`; that of a timer has nothing to do with the loop. -/
def set (s : LoopObjects) (id : ObjectId) (hasHandler : Bool) : LoopObjects :=
  match s.objects id with
  | none => s
  | some object =>
    let objects := Function.update s.objects id (some { object with hasHandler := hasHandler })
    match object.kind with
    | .timer => { s with objects := objects }
    | .notifier =>
      if s.Waits then s
      else if hasHandler then
        { s with registry := addEvent s.registry object.fd id, objects := objects }
      else { s with registry := eraseEvent s.registry object.fd, objects := objects }

/-- The destructors. -/
def destroy (s : LoopObjects) (id : ObjectId) : LoopObjects :=
  match s.objects id with
  | none => s
  | some object =>
    if s.Waits then s
    else
      { s with
        registry := (eraseEvent s.registry object.fd).step (.close object.fd)
        opened := Function.update s.opened object.fd false
        objects := Function.update s.objects id none }

/-- `epoll_ctl` adds the descriptors that are open. -/
def epollCtl (s : LoopObjects) : Bool :=
  match s.registry.loop.changeList with
  | item :: _ => s.opened item.fd
  | [] => false

/-- A step of the loop itself, which closes nothing and asks for nothing. -/
def loopStep (s : LoopObjects) (a : Action ObjectId) : Registry ObjectId :=
  match a with
  | .close _ => s.registry
  | .applyChange _ => s.registry.step (.applyChange s.epollCtl)
  | a => if (s.registry.loop.pushes a).isNone then s.registry.step a else s.registry

def step (s : LoopObjects) : ObjectAction → LoopObjects
  | .construct kind fd => s.construct kind fd
  | .move source => s.move source
  | .set object hasHandler => s.set object hasHandler
  | .destroy object => s.destroy object
  | .loop action => { s with registry := s.loopStep action }

end LoopObjects

/-- Input on the descriptor makes the loop call the handler. -/
def EventLoop.Calls {H : Type} (s : EventLoop H) (fd : Fd) (h : H) : Prop :=
  ∃ addr, s.interest fd = some (.node addr) ∧
    (s.nodes addr).map EventInfo.eventHandler = some h

namespace LoopObjects

/-- **Every object that was not moved from has its descriptor**: it is open, no other object will
close it, and with no change queued the loop calls the object for it. -/
structure HaveOwn (s : LoopObjects) : Prop where
  opened : ∀ id object, s.objects id = some object → object.movedFrom = false →
    s.opened object.fd = true
  sole : ∀ id object, s.objects id = some object → object.movedFrom = false →
    ∀ id' object', s.objects id' = some object' → object'.fd = object.fd → id' = id
  called : ∀ id object, s.objects id = some object → object.movedFrom = false →
    s.registry.loop.changeList = [] → object.registers = true →
      s.registry.loop.Calls object.fd id

/-- No object is moved: there is none, or the step has to wait for the list. -/
def MovesNone (s : LoopObjects) : ObjectAction → Prop
  | .move source => s.objects source = none ∨ s.Waits
  | _ => True

/-! ## Who is registered -/

/-- What is registered for a descriptor is the object that has it, if it has asked for that. -/
def Registered (registered : Fd → Option ObjectId)
    (objects : ObjectId → Option LoopObject) : Prop :=
  ∀ fd id, registered fd = some id ↔
    ∃ object, objects id = some object ∧ object.fd = fd ∧ object.registers = true

/-- What an object, or none, has asked for. -/
def asked (id : ObjectId) (object : Option LoopObject) : Option ObjectId :=
  if object.any LoopObject.registers then some id else none

variable {registered : Fd → Option ObjectId} {objects : ObjectId → Option LoopObject}

/-- The object of a descriptor is replaced, and asks anew. -/
theorem Registered.put (h : Registered registered objects) {fd : Fd} {id : ObjectId}
    {new : Option LoopObject} (hnew : ∀ object, new = some object → object.fd = fd)
    (hold : ∀ object, objects id = some object → object.fd = fd)
    (hsole : ∀ id' object, objects id' = some object → object.fd = fd → id' = id) :
    Registered (Function.update registered fd (asked id new)) (Function.update objects id new) := by
  intro fd' id'
  rw [Function.update_apply, Function.update_apply]
  by_cases hid : id' = id
  · subst hid
    rw [if_pos rfl]
    split
    · rename_i hfd
      subst hfd
      cases new with
      | none => simp [asked]
      | some object => simp [asked, hnew object rfl]
    · rename_i hfd
      constructor
      · intro hreg
        obtain ⟨object, hobject, heq, -⟩ := (h fd' id').mp hreg
        exact absurd (heq.symm.trans (hold object hobject)) hfd
      · rintro ⟨object, hobject, heq, -⟩
        exact absurd (heq.symm.trans (hnew object hobject)) hfd
  · rw [if_neg hid]
    split
    · rename_i hfd
      subst hfd
      constructor
      · intro hreg
        rw [asked] at hreg
        split at hreg
        · exact absurd (Option.some.inj hreg).symm hid
        · cases hreg
      · rintro ⟨object, hobject, heq, -⟩
        exact absurd (hsole id' object hobject heq) hid
    · exact h fd' id'

/-! ## Objects that are not moved -/

/-- What holds as long as no object is moved. -/
structure Owns (changeFd stopFd : Fd) (s : LoopObjects) : Prop where
  keeps : s.registry.Keeps changeFd stopFd
  notifiers : s.opened changeFd = true ∧ s.opened stopFd = true
  fresh : ∀ id, s.nextId ≤ id → s.objects id = none
  opened : ∀ id object, s.objects id = some object → s.opened object.fd = true
  own : ∀ id object, s.objects id = some object → object.fd ≠ changeFd ∧ object.fd ≠ stopFd
  sole : ∀ id object, s.objects id = some object →
    ∀ id' object', s.objects id' = some object' → object'.fd = object.fd → id' = id
  registered : Registered (registration s.registry.calls) s.objects

variable {changeFd stopFd : Fd} {s : LoopObjects}

theorem owns_create (changeFd stopFd : Fd) (others : Fd → Bool) :
    (create changeFd stopFd others).Owns changeFd stopFd where
  keeps := ⟨Registry.follows_create changeFd stopFd, .create⟩
  notifiers := by simp [create]
  fresh _ _ := rfl
  opened _ _ h := by cases h
  own _ _ h := by cases h
  sole _ _ h := by cases h
  registered fd id := by
    constructor
    · intro h
      cases h
    · rintro ⟨object, h, -⟩
      cases h

/-- **What the objects have shows in the loop.** -/
theorem Owns.haveOwn (h : s.Owns changeFd stopFd) : s.HaveOwn where
  opened id object hobject _ := h.opened id object hobject
  sole id object hobject _ := h.sole id object hobject
  called id object hobject _ hlist hregisters := by
    obtain ⟨hchange, hstop⟩ := h.own id object hobject
    have hsettled := h.keeps.settled hlist
    have hhandler : s.registry.loop.handlers object.fd = some id := by
      rw [hsettled.handlers]
      exact (h.registered object.fd id).mpr ⟨object, hobject, rfl, hregisters⟩
    obtain ⟨addr, haddr, hnode⟩ := Option.bind_eq_some_iff.mp hhandler
    refine ⟨addr, ?_, hnode⟩
    rw [hsettled.interest _ hstop hchange, haddr]
    rfl

/-- Whose object is whose, when one is put in the place of the one that had the descriptor. -/
theorem object_of_put {fd : Fd} {id : ObjectId} {new : Option LoopObject}
    (hnew : ∀ object, new = some object → object.fd = fd)
    (hsole : ∀ id' object, objects id' = some object → object.fd = fd → id' = id) {id' : ObjectId}
    {object : LoopObject} (hobject : Function.update objects id new id' = some object) :
    (id' = id ∧ object.fd = fd ∧ new ≠ none) ∨
      (id' ≠ id ∧ object.fd ≠ fd ∧ objects id' = some object) := by
  rw [Function.update_apply] at hobject
  split at hobject
  · rename_i heq
    exact Or.inl ⟨heq, hnew object hobject, by simp [hobject]⟩
  · rename_i hne
    exact Or.inr ⟨hne, fun heq => hne (hsole id' object hobject heq), hobject⟩

/-- An object with its descriptor comes, changes or goes, and asks for what it wants. -/
theorem Owns.put (h : s.Owns changeFd stopFd) {registry : Registry ObjectId} {opened : Fd → Bool}
    {nextId : ObjectId} {fd : Fd} {id : ObjectId} {new : Option LoopObject}
    (hkeeps : registry.Keeps changeFd stopFd)
    (hcalls : registration registry.calls =
      Function.update (registration s.registry.calls) fd (asked id new))
    (hnew : ∀ object, new = some object → object.fd = fd)
    (hold : ∀ object, s.objects id = some object → object.fd = fd)
    (hsole : ∀ id' object, s.objects id' = some object → object.fd = fd → id' = id)
    (hfd : fd ≠ changeFd ∧ fd ≠ stopFd) (hopened : ∀ fd', fd' ≠ fd → opened fd' = s.opened fd')
    (hopen : new ≠ none → opened fd = true) (hid : id < nextId) (hnext : s.nextId ≤ nextId) :
    Owns changeFd stopFd ⟨registry, opened, Function.update s.objects id new, nextId⟩ := by
  refine ⟨hkeeps, ⟨?_, ?_⟩, fun id' hle => ?_, fun id' object hobject => ?_,
    fun id' object hobject => ?_, fun id' object hobject id'' object' hobject' heq => ?_, ?_⟩
  · exact (hopened changeFd (Ne.symm hfd.1)).trans h.notifiers.1
  · exact (hopened stopFd (Ne.symm hfd.2)).trans h.notifiers.2
  · have hne : id' ≠ id := Nat.ne_of_gt (Nat.lt_of_lt_of_le hid hle)
    exact (Function.update_of_ne hne new s.objects).trans (h.fresh id' (Nat.le_trans hnext hle))
  · rcases object_of_put hnew hsole hobject with ⟨-, hobjectFd, hsome⟩ | ⟨-, hne, hobject⟩
    · show opened object.fd = true
      rw [hobjectFd]
      exact hopen hsome
    · exact (hopened object.fd hne).trans (h.opened id' object hobject)
  · rcases object_of_put hnew hsole hobject with ⟨-, hobjectFd, -⟩ | ⟨-, -, hobject⟩
    · rw [hobjectFd]
      exact hfd
    · exact h.own id' object hobject
  · rcases object_of_put hnew hsole hobject with ⟨hid', hobjectFd, -⟩ | ⟨-, hne, hobject⟩
    · rcases object_of_put hnew hsole hobject' with ⟨hid'', -, -⟩ | ⟨-, hne', -⟩
      · exact hid''.trans hid'.symm
      · exact absurd (heq.trans hobjectFd) hne'
    · rcases object_of_put hnew hsole hobject' with ⟨-, hobjectFd', -⟩ | ⟨-, -, hobject'⟩
      · exact absurd (heq.symm.trans hobjectFd') hne
      · exact h.sole id' object hobject id'' object' hobject' heq
  · show Registered (registration registry.calls) _
    rw [hcalls]
    exact h.registered.put hnew hold hsole

/-- What is asked for while the list is not locked is queued. -/
theorem Owns.request (h : s.Owns changeFd stopFd) (hready : ¬s.Waits) (change : Change ObjectId) :
    (s.registry.step (.request change)).Keeps changeFd stopFd ∧
      registration (s.registry.step (.request change)).calls =
        Function.update (registration s.registry.calls) change.fd change.eventHandler := by
  refine ⟨Registry.keeps_step _ _ h.keeps trivial, ?_⟩
  have hpushes : s.registry.loop.pushes (.request change) = some change := by
    simp only [Waits, EventLoop.pushes] at hready ⊢
    split
    · rename_i hphase
      exact absurd (by simp only [hphase]) hready
    · rename_i hphase
      exact absurd (by simp only [hphase]) hready
    · rfl
  rw [Registry.step, hpushes, Option.toList_some, registration_concat]

/-- No object has a descriptor that is not open. -/
theorem Owns.ne_of_closed (h : s.Owns changeFd stopFd) {fd : Fd} (hclosed : s.opened fd ≠ true)
    (id : ObjectId) (object : LoopObject) (hobject : s.objects id = some object) :
    object.fd ≠ fd := by
  rintro rfl
  exact hclosed (h.opened id object hobject)

theorem Owns.construct (h : s.Owns changeFd stopFd) (kind : ObjectKind) (fd : Fd) :
    (s.construct kind fd).Owns changeFd stopFd := by
  unfold LoopObjects.construct
  split
  · exact h
  · rename_i hfree
    have hclosed : s.opened fd ≠ true := fun hopen => hfree (Or.inr hopen)
    have hfd : fd ≠ changeFd ∧ fd ≠ stopFd :=
      ⟨fun heq => hclosed (heq ▸ h.notifiers.1), fun heq => hclosed (heq ▸ h.notifiers.2)⟩
    have hold : ∀ object, s.objects s.nextId = some object → object.fd = fd := fun object hobject =>
      absurd (hobject.symm.trans (h.fresh _ (Nat.le_refl _))) (by simp)
    have hsole : ∀ id object, s.objects id = some object → object.fd = fd → id = s.nextId :=
      fun id object hobject heq => absurd heq (h.ne_of_closed hclosed id object hobject)
    have hopened : ∀ fd', fd' ≠ fd → Function.update s.opened fd true fd' = s.opened fd' :=
      fun fd' hne => Function.update_of_ne hne ..
    cases kind with
    | timer =>
      dsimp only
      split
      · exact h
      · rename_i hready
        obtain ⟨hkeeps, hcalls⟩ := h.request hready ⟨fd, some s.nextId⟩
        refine h.put hkeeps hcalls ?_ hold hsole hfd hopened (fun _ => Function.update_self ..)
          (Nat.lt_succ_self _) (Nat.le_succ _)
        rintro _ ⟨⟩
        rfl
    | notifier =>
      have hnone : registration s.registry.calls fd = none := by
        cases hreg : registration s.registry.calls fd with
        | none => rfl
        | some id =>
          obtain ⟨object, hobject, heq, -⟩ := (h.registered fd id).mp hreg
          exact absurd heq (h.ne_of_closed hclosed id object hobject)
      refine h.put h.keeps ?_ ?_ hold hsole hfd hopened (fun _ => Function.update_self ..)
        (Nat.lt_succ_self _) (Nat.le_succ _)
      · exact (Function.update_eq_self_iff.mpr hnone.symm).symm
      · rintro _ ⟨⟩
        rfl

theorem Owns.lt_nextId (h : s.Owns changeFd stopFd) {id : ObjectId} {object : LoopObject}
    (hobject : s.objects id = some object) : id < s.nextId :=
  Nat.lt_of_not_le fun hle => absurd (hobject.symm.trans (h.fresh id hle)) (by simp)

/-- An object that has its descriptor takes the place of one that has it. -/
theorem Owns.replace (h : s.Owns changeFd stopFd) {id : ObjectId} {object : LoopObject}
    (hobject : s.objects id = some object) (new : LoopObject) (hnew : new.fd = object.fd)
    {registry : Registry ObjectId} (hkeeps : registry.Keeps changeFd stopFd)
    (hcalls : registration registry.calls =
      Function.update (registration s.registry.calls) object.fd (asked id (some new))) :
    Owns changeFd stopFd
      { s with registry := registry, objects := Function.update s.objects id (some new) } := by
  refine h.put hkeeps hcalls ?_ ?_ ?_ (h.own id object hobject) (fun _ _ => rfl)
    (fun _ => h.opened id object hobject) (h.lt_nextId hobject) (Nat.le_refl _)
  · rintro _ ⟨⟩
    exact hnew
  · intro object' hobject'
    rw [Option.some.inj (hobject.symm.trans hobject')]
  · exact fun id' object' hobject' heq => h.sole id object hobject id' object' hobject' heq

theorem Owns.set (h : s.Owns changeFd stopFd) (id : ObjectId) (hasHandler : Bool) :
    (s.set id hasHandler).Owns changeFd stopFd := by
  unfold LoopObjects.set
  cases hobject : s.objects id with
  | none => exact h
  | some object =>
    dsimp only
    split
    · rename_i hkind
      refine h.replace hobject { object with hasHandler := hasHandler } rfl h.keeps ?_
      have hregisters : object.registers = true := by simp [LoopObject.registers, hkind]
      have hreg : registration s.registry.calls object.fd = some id :=
        (h.registered object.fd id).mpr ⟨object, hobject, rfl, hregisters⟩
      refine (Function.update_eq_self_iff.mpr ?_).symm
      simp [hreg, asked, LoopObject.registers, hkind]
    · rename_i hkind
      split
      · exact h
      · rename_i hready
        cases hasHandler with
        | true =>
          obtain ⟨hkeeps, hcalls⟩ := h.request hready ⟨object.fd, some id⟩
          refine h.replace hobject { object with hasHandler := true } rfl hkeeps (hcalls.trans ?_)
          simp [asked, LoopObject.registers]
        | false =>
          obtain ⟨hkeeps, hcalls⟩ := h.request hready ⟨object.fd, none⟩
          refine h.replace hobject { object with hasHandler := false } rfl hkeeps (hcalls.trans ?_)
          simp [asked, LoopObject.registers, hkind]

theorem Owns.destroy (h : s.Owns changeFd stopFd) (id : ObjectId) :
    (s.destroy id).Owns changeFd stopFd := by
  unfold LoopObjects.destroy
  cases hobject : s.objects id with
  | none => exact h
  | some object =>
    dsimp only
    split
    · exact h
    · rename_i hready
      obtain ⟨hkeeps, hcalls⟩ := h.request hready ⟨object.fd, none⟩
      have hclosed : ((eraseEvent s.registry object.fd).step (.close object.fd)).Keeps changeFd
          stopFd := by
        refine Registry.keeps_step _ _ hkeeps ?_
        show registration (s.registry.step (.request ⟨object.fd, none⟩)).calls object.fd = none
        rw [hcalls]
        exact Function.update_self ..
      refine h.put hclosed ?_ nofun ?_ ?_ (h.own id object hobject)
        (fun fd' hne => Function.update_of_ne hne ..) (fun hne => absurd rfl hne)
        (h.lt_nextId hobject) (Nat.le_refl _)
      · show registration ((eraseEvent s.registry object.fd).calls ++ []) = _
        rw [List.append_nil]
        exact hcalls
      · intro object' hobject'
        rw [Option.some.inj (hobject.symm.trans hobject')]
      · exact fun id' object' hobject' heq => h.sole id object hobject id' object' hobject' heq

/-- A step of the loop that asks for nothing changes no registration. -/
theorem Owns.registry_step (h : s.Owns changeFd stopFd) (a : Action ObjectId)
    (hopen : s.registry.KeepsOpen a) (hpushes : s.registry.loop.pushes a = none) :
    Owns changeFd stopFd { s with registry := s.registry.step a } := by
  have hcalls : (s.registry.step a).calls = s.registry.calls := by
    rw [Registry.step, hpushes, Option.toList_none, List.append_nil]
  refine ⟨Registry.keeps_step _ _ h.keeps hopen, h.notifiers, h.fresh, h.opened, h.own, h.sole, ?_⟩
  show Registered (registration (s.registry.step a).calls) s.objects
  rw [hcalls]
  exact h.registered

/-- What is registered is open, so `epoll_ctl` adds it. -/
theorem Owns.epollCtl (h : s.Owns changeFd stopFd) :
    s.registry.KeepsOpen (.applyChange s.epollCtl) := by
  intro item hitem hreg
  obtain ⟨id, hid⟩ := Option.ne_none_iff_exists'.mp hreg
  obtain ⟨object, hobject, heq, -⟩ := (h.registered item.fd id).mp hid
  rw [LoopObjects.epollCtl]
  cases hlist : s.registry.loop.changeList with
  | nil => rw [hlist] at hitem; cases hitem
  | cons first rest =>
    rw [hlist] at hitem
    cases hitem
    show s.opened item.fd = true
    rw [← heq]
    exact h.opened id object hobject

theorem Owns.loopStep (h : s.Owns changeFd stopFd) (a : Action ObjectId) :
    Owns changeFd stopFd { s with registry := s.loopStep a } := by
  have hasks : ∀ a, s.registry.KeepsOpen a →
      Owns changeFd stopFd { s with
        registry := if (s.registry.loop.pushes a).isNone then s.registry.step a
          else s.registry } := by
    intro a hopen
    split
    · rename_i hnone
      exact h.registry_step a hopen (Option.isNone_iff_eq_none.mp hnone)
    · exact h
  cases a with
  | close fd => exact h
  | applyChange added => exact h.registry_step (.applyChange s.epollCtl) h.epollCtl rfl
  | request change => exact hasks (.request change) trivial
  | enter => exact hasks .enter trivial
  | report batch => exact hasks (.report batch) trivial
  | leave => exact hasks .leave trivial
  | next => exact hasks .next trivial
  | handlerReturns result => exact hasks (.handlerReturns result) trivial
  | readChange => exact hasks .readChange trivial

theorem owns_step (s : LoopObjects) (a : ObjectAction) (h : s.Owns changeFd stopFd)
    (hmoves : s.MovesNone a) : (s.step a).Owns changeFd stopFd := by
  cases a with
  | construct kind fd => exact h.construct kind fd
  | move source =>
    have hstays : s.move source = s := by
      unfold LoopObjects.move
      rcases hmoves with hnone | hwaits
      · rw [hnone]
      · split
        · rfl
        · rw [if_pos hwaits]
    show (s.move source).Owns changeFd stopFd
    rw [hstays]
    exact h
  | set object hasHandler => exact h.set object hasHandler
  | destroy object => exact h.destroy object
  | loop action => exact h.loopStep action

/-! ## Objects that are -/

/-- **The object that was moved from closes the descriptor of the new one.** -/
theorem not_haveOwn_move (s : LoopObjects) (a : ObjectAction) (h : s.Owns changeFd stopFd)
    (hmoves : ¬s.MovesNone a) : ¬(s.step a).HaveOwn := by
  cases a with
  | move id =>
    obtain ⟨hsome, hready⟩ := not_or.mp hmoves
    obtain ⟨source, hsource⟩ := Option.ne_none_iff_exists'.mp hsome
    have hne : id ≠ s.nextId := fun heq => hsome (heq ▸ h.fresh _ (Nat.le_refl _))
    intro hown
    have hstep : (s.step (.move id)).objects =
        Function.update (Function.update s.objects id (some { source with movedFrom := true }))
          s.nextId (some { source with movedFrom := false }) := by
      simp only [step, LoopObjects.move, hsource, if_neg hready]
    refine hne (hown.sole s.nextId { source with movedFrom := false } ?_ rfl id
      { source with movedFrom := true } ?_ rfl)
    · rw [hstep, Function.update_self]
    · rw [hstep, Function.update_of_ne hne, Function.update_self]
  | construct kind fd => exact absurd trivial hmoves
  | set object hasHandler => exact absurd trivial hmoves
  | destroy object => exact absurd trivial hmoves
  | loop action => exact absurd trivial hmoves

/-- **When every object has its own descriptor**: in every state of a run in which none is moved,
and in no run in which one is. -/
theorem haveOwn_iff (changeFd stopFd : Fd) (others : Fd → Bool) (actions : List ObjectAction) :
    (∀ pre, pre <+: actions → (run step (create changeFd stopFd others) pre).HaveOwn) ↔
      ∀ p ∈ transitions step (create changeFd stopFd others) actions, p.1.MovesNone p.2 :=
  Lib.run_exact step (fun _ h => Owns.haveOwn h) owns_step not_haveOwn_move
    (owns_create changeFd stopFd others)

/-- The change notifier is reported, and `changeHandler` works off a list of so many changes whose
handlers return -1. -/
def changeHandler (changes : Nat) : List ObjectAction :=
  [.loop (.report [⟨3, .change, false, true⟩]), .loop .next, .loop .readChange] ++
    (List.replicate changes [.loop (.applyChange true), .loop (.handlerReturns (-1))]).flatten ++
    [.loop (.applyChange true), .loop .readChange, .loop .next]

/-- A timer is made, moved, and the object that was moved from is destroyed. -/
def movedTimer : List ObjectAction :=
  [.loop .enter, .construct .timer 5] ++ changeHandler 1 ++ [.move 0] ++ changeHandler 1 ++
    [.destroy 0] ++ changeHandler 1

/-- **The new timer is left without**: its descriptor is closed, and the loop has nothing for it. -/
theorem not_haveOwn_movedTimer :
    ¬(run step (create 3 4 fun _ => false) movedTimer).HaveOwn ∧
      (run step (create 3 4 fun _ => false) movedTimer).objects 1 = some ⟨.timer, 5, false, false⟩ ∧
      (run step (create 3 4 fun _ => false) movedTimer).opened 5 = false ∧
      (run step (create 3 4 fun _ => false) movedTimer).registry.loop.changeList.length = 0 ∧
      (run step (create 3 4 fun _ => false) movedTimer).registry.loop.interest 5 = none := by
  have hobject : (run step (create 3 4 fun _ => false) movedTimer).objects 1 =
      some ⟨.timer, 5, false, false⟩ := by decide
  have hclosed : (run step (create 3 4 fun _ => false) movedTimer).opened 5 = false := by decide
  refine ⟨fun hown => ?_, hobject, hclosed, by decide, by decide⟩
  exact absurd ((hown.opened 1 _ hobject rfl).symm.trans hclosed) (by decide)

end LoopObjects
end DevScan.Sys
