import DevScan.Lib.Runs
import DevScan.Net.Descriptors

/-!
# `Net/Ownership.lean` — does every component keep to its own descriptors

As long as `stop` is not called, each component has its descriptors open and registered
(`Owning`), also after a `start_for` that ran out of time and was followed by another one. `stop`
leaves the netlink socket closed and its number in `m_fd`. From then on nobody has a netlink
socket, whoever may get that number: the next `start` registers it all the same, and the next
`stop` or the destructor closes it once more. So every call after a `stop` goes wrong
(`descriptorsOwned_iff`), and for a receiver that is stopped there is always one.
-/

set_option autoImplicit false

namespace DevScan.Net

open Lib (run transitions)
open Lib.Holdings (take release EmptyHanded Sole take_self take_of_held release_of_held
  release_of_ne ne_of_holders)
open Sys (Fd registration registration_concat)

/-- A call on the receiver. -/
def ProcessAction.isCall : ProcessAction → Bool
  | .start _ _ => true
  | .stop => true
  | .destruct => true
  | _ => false

/-- The call goes on to the event loop. -/
def ProcessAction.entersLoop : ProcessAction → Bool
  | .start _ _ => true
  | _ => false

namespace Process

/-- A component has the descriptor open, and is registered with it. -/
def Holds (p : Process) (component : Component) (fd : Fd) : Prop :=
  p.table fd = some component ∧ registration p.calls fd = some component

/-- **What the event loop relies on**: the three components are registered under descriptors of
their own. -/
structure Registered (p : Process) : Prop where
  scanner : p.Holds .scanner p.receiveSocket
  timer : p.Holds .timer p.timerFd
  netlink : p.Holds .netlink p.netlinkFd
  distinct : [p.receiveSocket, p.timerFd, p.netlinkFd].Nodup

/-- Whatever the last step has closed was open, and by the component that closed it. -/
def Clean (p : Process) : Prop := ∀ c ∈ p.closings, c.openedBy = some c.component

/-- The scanner has the sockets open that it knows of. -/
structure ScannerOwns (p : Process) : Prop where
  send : p.sendSocket ≠ noSocket → p.table p.sendSocket = some .scanner
  receive : p.receiveSocket ≠ noSocket → p.table p.receiveSocket = some .scanner
  apart : p.sendSocket ≠ noSocket → p.sendSocket ≠ p.receiveSocket

/-- All components have their descriptors open. -/
structure Owning (p : Process) : Prop extends p.ScannerOwns where
  timer : p.Holds .timer p.timerFd
  netlink : p.table p.netlinkFd = some .netlink

/-- **The invariant.** A receiver that was not stopped owns its descriptors, and one that was
stopped has no netlink socket. -/
structure Accounted (p : Process) : Prop where
  absent : p.life = .absent → p.stopped = false ∧ p.sendSocket = noSocket ∧
    p.receiveSocket = noSocket ∧ EmptyHanded p.table .netlink
  owning : p.life = .alive → p.stopped = false → p.Owning
  sole : Sole p.table .netlink p.netlinkFd
  stopped : p.stopped = true → EmptyHanded p.table .netlink

/-! ## Closing -/

variable {p : Process}

theorem clean_close_iff (component : Component) (fd : Fd) :
    (p.close component fd).Clean ↔ p.Clean ∧ p.table fd = some component := by
  constructor
  · intro h
    exact ⟨fun c hc => h c (List.mem_append_left _ hc),
      h ⟨component, fd, p.table fd⟩ (List.mem_append_right _ List.mem_cons_self)⟩
  · intro h c hc
    rcases List.mem_append.mp hc with hc | hc
    · exact h.1 c hc
    · rw [List.mem_singleton.mp hc]
      exact h.2

theorem clean_of_scannerStop (h : p.scannerStop.Clean) : p.Clean := by
  have hsend : (p.eraseEvent p.receiveSocket).scannerCloseSend.Clean := by
    unfold scannerStop scannerCloseReceive at h
    split at h
    · exact ((clean_close_iff _ _).mp h).1
    · exact h
  unfold scannerCloseSend at hsend
  split at hsend
  · exact ((clean_close_iff _ _).mp hsend).1
  · exact hsend

/-- A scanner that owns its sockets closes its own. -/
theorem ScannerOwns.clean (h : p.ScannerOwns) (hclean : p.Clean) : p.scannerStop.Clean := by
  have hsend : (p.eraseEvent p.receiveSocket).scannerCloseSend.Clean ∧
      (p.receiveSocket ≠ noSocket →
        (p.eraseEvent p.receiveSocket).scannerCloseSend.table p.receiveSocket = some .scanner) := by
    unfold scannerCloseSend
    split
    · rename_i hopen
      refine ⟨(clean_close_iff _ _).mpr ⟨hclean, h.send hopen⟩, fun hreceive => ?_⟩
      exact (release_of_ne (h.apart hopen).symm).trans (h.receive hreceive)
    · exact ⟨hclean, h.receive⟩
  have hsame : (p.eraseEvent p.receiveSocket).scannerCloseSend.receiveSocket = p.receiveSocket := by
    unfold scannerCloseSend
    split <;> rfl
  unfold scannerStop scannerCloseReceive
  split
  · rename_i hopen
    rw [hsame] at hopen ⊢
    exact (clean_close_iff _ _).mpr ⟨hsend.1, hsend.2 hopen⟩
  · exact hsend.1

/-- Closing what another component has open does not disturb the scanner. -/
theorem ScannerOwns.close (h : p.ScannerOwns) {component : Component} {fd : Fd}
    (hfd : p.table fd = some component) (hne : component ≠ .scanner) :
    ((p.eraseEvent fd).close component fd).ScannerOwns := by
  have hother : p.table fd ≠ some .scanner := by
    rw [hfd]
    simpa using hne
  exact ⟨fun hopen => release_of_held hother (h.send hopen),
    fun hopen => release_of_held hother (h.receive hopen), h.apart⟩

theorem life_scannerStop (p : Process) : p.scannerStop.life = p.life := by
  have hsend : (p.eraseEvent p.receiveSocket).scannerCloseSend.life = p.life := by
    unfold scannerCloseSend
    split <;> rfl
  unfold scannerStop scannerCloseReceive
  split
  · exact hsend
  · exact hsend

theorem emptyHanded_scannerStop (h : EmptyHanded p.table .netlink) :
    EmptyHanded p.scannerStop.table .netlink := by
  have hsend : EmptyHanded (p.eraseEvent p.receiveSocket).scannerCloseSend.table .netlink := by
    unfold scannerCloseSend
    split
    · exact h.release
    · exact h
  unfold scannerStop scannerCloseReceive
  split
  · exact hsend.release
  · exact hsend

/-! ## A receiver that owns its descriptors -/

/-- The table when the scanner has opened its two sockets. -/
theorem held_start {sendSocket receiveSocket n : Fd} {component : Component}
    (hsend : p.Free sendSocket) (hreceive : p.Free receiveSocket)
    (hne : sendSocket ≠ receiveSocket) (hn : p.table n = some component) :
    (p.start sendSocket receiveSocket).table n = some component := by
  have hfree : take p.table sendSocket .scanner receiveSocket = none :=
    (Function.update_of_ne hne.symm _ _).trans hreceive.2
  exact take_of_held hfree (take_of_held hsend.2 hn)

/-- **A start finds every component registered under its own descriptor**, if the receiver owned
what it had before. -/
theorem Owning.registered_start {sendSocket receiveSocket : Fd} (h : p.Owning)
    (hsend : p.Free sendSocket) (hreceive : p.Free receiveSocket)
    (hne : sendSocket ≠ receiveSocket) : (p.start sendSocket receiveSocket).Registered := by
  have htimer := held_start hsend hreceive hne h.timer.1
  have hnetlink := held_start hsend hreceive hne h.netlink
  have hscanner : (p.start sendSocket receiveSocket).table receiveSocket = some .scanner := take_self
  have hcalls : registration (p.start sendSocket receiveSocket).calls =
      Function.update (Function.update (registration p.calls) receiveSocket (some .scanner))
        p.netlinkFd (some .netlink) := by
    rw [← registration_concat p.calls ⟨receiveSocket, some .scanner⟩]
    exact registration_concat (p.calls ++ [⟨receiveSocket, some .scanner⟩])
      ⟨p.netlinkFd, some .netlink⟩
  have hscannerNetlink : receiveSocket ≠ p.netlinkFd := ne_of_holders hscanner hnetlink (by simp)
  have hscannerTimer : receiveSocket ≠ p.timerFd := ne_of_holders hscanner htimer (by simp)
  have htimerNetlink : p.timerFd ≠ p.netlinkFd := ne_of_holders htimer hnetlink (by simp)
  refine ⟨⟨hscanner, ?_⟩, ⟨htimer, ?_⟩, ⟨hnetlink, ?_⟩, ?_⟩
  · rw [hcalls]
    exact (Function.update_of_ne hscannerNetlink _ _).trans (Function.update_self ..)
  · rw [hcalls]
    exact (Function.update_of_ne htimerNetlink _ _).trans
      ((Function.update_of_ne hscannerTimer.symm _ _).trans h.timer.2)
  · rw [hcalls]
    exact Function.update_self ..
  · show [receiveSocket, p.timerFd, p.netlinkFd].Nodup
    simp [hscannerNetlink, hscannerTimer, htimerNetlink]

theorem Owning.clean_stop (h : p.Owning) (hclean : p.Clean) : p.stop.Clean := by
  have hnetlink : p.netlinkStop.Clean := (clean_close_iff _ _).mpr ⟨hclean, h.netlink⟩
  have hscanner : p.netlinkStop.ScannerOwns := h.toScannerOwns.close h.netlink (by simp)
  exact hscanner.clean hnetlink

theorem Owning.clean_destruct (h : p.Owning) (hclean : p.Clean) : p.destruct.Clean := by
  have hnetlink : p.netlinkStop.Clean := (clean_close_iff _ _).mpr ⟨hclean, h.netlink⟩
  have hother : p.table p.netlinkFd ≠ some .timer := by
    rw [h.netlink]
    simp
  have htimer : p.netlinkStop.table p.timerFd = some .timer := release_of_held hother h.timer.1
  have hscanner : p.netlinkStop.ScannerOwns := h.toScannerOwns.close h.netlink (by simp)
  have hdestructed : p.netlinkStop.timerDestruct.ScannerOwns := hscanner.close htimer (by simp)
  exact hdestructed.clean ((clean_close_iff _ _).mpr ⟨hnetlink, htimer⟩)

/-! ## The invariant -/

theorem accounted_empty : ({} : Process).Accounted := by
  refine ⟨fun _ => ⟨rfl, rfl, rfl, ?_⟩, fun hlife => ?_, ?_, fun hstopped => ?_⟩
  · intro m hm
    cases hm
  · cases hlife
  · intro m hm
    cases hm
  · cases hstopped

namespace Accounted

/-- What the rest of the process does leaves the numbers of the components alone. -/
theorem other (h : p.Accounted) {table : Fd → Option Component}
    (hkept : ∀ n component, component ≠ .other → p.table n = some component →
      table n = some component)
    (hnone : EmptyHanded p.table .netlink → EmptyHanded table .netlink)
    (hsole : Sole table .netlink p.netlinkFd) : Accounted { p with table := table } := by
  refine ⟨fun hlife => ?_, fun hlife hstopped => ?_, hsole, fun hstopped => hnone (h.stopped hstopped)⟩
  · obtain ⟨hstopped, hsend, hreceive, hempty⟩ := h.absent hlife
    exact ⟨hstopped, hsend, hreceive, hnone hempty⟩
  · have howning := h.owning hlife hstopped
    exact {
      send := fun hopen => hkept _ _ (by simp) (howning.send hopen)
      receive := fun hopen => hkept _ _ (by simp) (howning.receive hopen)
      apart := howning.apart
      timer := ⟨hkept _ _ (by simp) howning.timer.1, howning.timer.2⟩
      netlink := hkept _ _ (by simp) howning.netlink }

theorem construct (h : p.Accounted) {timerFd netlinkFd : Fd}
    (hpossible : p.Possible (.construct timerFd netlinkFd)) :
    (p.construct timerFd netlinkFd).Accounted := by
  obtain ⟨hlife, htimer, hnetlink, hne⟩ := hpossible
  obtain ⟨hstopped, hsend, hreceive, hempty⟩ := h.absent hlife
  have hfree : take p.table timerFd .timer netlinkFd = none :=
    (Function.update_of_ne hne.symm _ _).trans hnetlink.2
  refine ⟨fun habsent => ?_, fun _ _ => ?_, (hempty.take (by simp)).take_sole, fun htrue => ?_⟩
  · cases habsent
  · exact {
      send := fun hopen => absurd hsend hopen
      receive := fun hopen => absurd hreceive hopen
      apart := fun hopen => absurd hsend hopen
      timer := ⟨take_of_held hfree take_self, by
        rw [Process.construct]
        exact (congrFun (registration_concat p.calls ⟨timerFd, some .timer⟩) timerFd).trans
          (Function.update_self ..)⟩
      netlink := take_self }
  · exact absurd (hstopped.symm.trans htrue) (by simp)

theorem start (h : p.Accounted) {sendSocket receiveSocket : Fd}
    (hpossible : p.Possible (.start sendSocket receiveSocket)) :
    (p.start sendSocket receiveSocket).Accounted := by
  obtain ⟨hlife, hsend, hreceive, hne⟩ := hpossible
  refine ⟨fun habsent => ?_, fun _ hstopped => ?_, (h.sole.take (by simp)).take (by simp),
    fun hstopped => ((h.stopped hstopped).take (by simp)).take (by simp)⟩
  · exact absurd (hlife.symm.trans habsent) (by simp)
  · have howning := h.owning hlife hstopped
    have hregistered := howning.registered_start hsend hreceive hne
    have hfree : take p.table sendSocket .scanner receiveSocket = none :=
      (Function.update_of_ne hne.symm _ _).trans hreceive.2
    exact {
      send := fun _ => take_of_held hfree take_self
      receive := fun _ => take_self
      apart := fun _ => hne
      timer := hregistered.timer
      netlink := hregistered.netlink.1 }

/-- Once the netlink socket is closed there is none. -/
theorem emptyHanded_netlinkStop (h : p.Accounted) : EmptyHanded p.netlinkStop.table .netlink :=
  h.sole.release

theorem stop (h : p.Accounted) (hlife : p.life = .alive) : p.stop.Accounted := by
  have hnone : EmptyHanded p.stop.table .netlink :=
    emptyHanded_scannerStop h.emptyHanded_netlinkStop
  refine ⟨fun habsent => ?_, fun _ hstopped => ?_, hnone.sole, fun _ => hnone⟩
  · have hstays : p.stop.life = p.life := life_scannerStop p.netlinkStop
    rw [hstays, hlife] at habsent
    cases habsent
  · cases hstopped

theorem destruct (h : p.Accounted) : p.destruct.Accounted := by
  have hnone : EmptyHanded p.destruct.table .netlink :=
    emptyHanded_scannerStop h.emptyHanded_netlinkStop.release
  refine ⟨fun habsent => ?_, fun hlife => ?_, hnone.sole, fun _ => hnone⟩
  · cases habsent
  · cases hlife

theorem begin (h : p.Accounted) : p.begin.Accounted := by
  refine ⟨h.absent, fun hlife hstopped => ?_, h.sole, h.stopped⟩
  have howning := h.owning hlife hstopped
  exact ⟨⟨howning.send, howning.receive, howning.apart⟩, howning.timer, howning.netlink⟩

theorem step (h : p.Accounted) (a : ProcessAction) : (p.step a).Accounted := by
  have hbegin := h.begin
  unfold Process.step
  split
  · rename_i hpossible
    cases a with
    | otherOpens fd =>
      exact hbegin.other (fun n component _ hn => take_of_held hpossible.2 hn)
        (fun hempty => hempty.take (by simp)) (h.sole.take (by simp))
    | otherCloses fd =>
      refine hbegin.other (fun n component hne hn => release_of_held ?_ hn)
        (fun hempty => hempty.release) h.sole.release_other
      intro hc
      exact hne (Option.some.inj (hc.symm.trans hpossible))
    | construct timerFd netlinkFd => exact hbegin.construct hpossible
    | start sendSocket receiveSocket => exact hbegin.start hpossible
    | stop => exact hbegin.stop hpossible
    | destruct => exact hbegin.destruct
  · exact hbegin

/-! ### A call on a receiver that was stopped -/

theorem registered_start_iff (h : p.Accounted) {sendSocket receiveSocket : Fd}
    (hpossible : p.Possible (.start sendSocket receiveSocket)) :
    (p.start sendSocket receiveSocket).Registered ↔ p.stopped = false := by
  constructor
  · intro hregistered
    by_contra hstopped
    -- nobody has a netlink socket
    have hnone := (h.start hpossible).stopped (Bool.not_eq_false _ ▸ hstopped)
    exact hnone _ hregistered.netlink.1
  · intro hrunning
    obtain ⟨hlife, hsend, hreceive, hne⟩ := hpossible
    exact (h.owning hlife hrunning).registered_start hsend hreceive hne

/-- `Netlink::stop` closes a number the netlink socket has not got. -/
theorem not_clean_netlinkStop (h : p.Accounted) (hstopped : p.stopped = true) :
    ¬p.netlinkStop.Clean := by
  intro hclean
  exact h.stopped hstopped _ ((clean_close_iff _ _).mp hclean).2

theorem clean_stop_iff (h : p.Accounted) (hclean : p.Clean) (hlife : p.life = .alive) :
    p.stop.Clean ↔ p.stopped = false := by
  constructor
  · intro hstop
    by_contra hstopped
    have hnetlink : p.netlinkStop.Clean := clean_of_scannerStop hstop
    exact h.not_clean_netlinkStop (Bool.not_eq_false _ ▸ hstopped) hnetlink
  · intro hrunning
    exact (h.owning hlife hrunning).clean_stop hclean

theorem clean_destruct_iff (h : p.Accounted) (hclean : p.Clean) (hlife : p.life = .alive) :
    p.destruct.Clean ↔ p.stopped = false := by
  constructor
  · intro hdestruct
    by_contra hstopped
    have htimer : p.netlinkStop.timerDestruct.Clean := clean_of_scannerStop hdestruct
    have hnetlink : p.netlinkStop.Clean := ((clean_close_iff _ _).mp htimer).1
    exact h.not_clean_netlinkStop (Bool.not_eq_false _ ▸ hstopped) hnetlink
  · intro hrunning
    exact (h.owning hlife hrunning).clean_destruct hclean

end Accounted

/-! ## One step -/

/-- The step closes nothing that is not its component's, and enters the event loop only with
every component registered under a descriptor of its own. -/
def Fine (p : Process) (a : ProcessAction) : Prop :=
  (p.step a).Clean ∧ (p.Possible a → a.entersLoop → (p.step a).Registered)

/-- **A step goes wrong if it is a call on a receiver that was stopped, and only then.** -/
theorem fine_iff (h : p.Accounted) (a : ProcessAction) :
    p.Fine a ↔ (p.Possible a → a.isCall → p.stopped = false) := by
  have hclean : p.begin.Clean := fun c hc => absurd hc (by simp [begin])
  by_cases hpossible : p.Possible a
  · have hstep : p.step a = p.begin.act a := if_pos hpossible
    rw [Fine, hstep]
    cases a with
    | otherOpens | otherCloses | construct =>
      refine iff_of_true ⟨hclean, fun _ henters => ?_⟩ fun _ hcall => ?_
      · cases henters
      · cases hcall
    | start sendSocket receiveSocket =>
      have hstart := h.begin.registered_start_iff hpossible
      constructor
      · intro hfine _ _
        exact hstart.mp (hfine.2 hpossible rfl)
      · intro hrunning
        exact ⟨hclean, fun _ _ => hstart.mpr (hrunning hpossible rfl)⟩
    | stop =>
      have hstop := h.begin.clean_stop_iff hclean hpossible
      constructor
      · intro hfine _ _
        exact hstop.mp hfine.1
      · intro hrunning
        refine ⟨hstop.mpr (hrunning hpossible rfl), fun _ henters => ?_⟩
        cases henters
    | destruct =>
      have hdestruct := h.begin.clean_destruct_iff hclean hpossible
      constructor
      · intro hfine _ _
        exact hdestruct.mp hfine.1
      · intro hrunning
        refine ⟨hdestruct.mpr (hrunning hpossible rfl), fun _ henters => ?_⟩
        cases henters
  · have hstep : p.step a = p.begin := if_neg hpossible
    rw [Fine, hstep]
    exact iff_of_true ⟨hclean, fun hc => absurd hc hpossible⟩ fun hc => absurd hc hpossible

/-! ## Runs -/

/-- **Descriptors are owned** in a run: the event loop is entered only with the three components
registered under descriptors of their own, and nobody closes a descriptor of somebody else. -/
structure DescriptorsOwned (actions : List ProcessAction) : Prop where
  registered : ∀ s ∈ transitions step {} actions, s.1.Possible s.2 → s.2.entersLoop →
    (s.1.step s.2).Registered
  closed : ∀ s ∈ transitions step {} actions, (s.1.step s.2).Clean

/-- **Descriptors are owned, exactly if** no call is made on a receiver that was stopped. -/
theorem descriptorsOwned_iff (actions : List ProcessAction) :
    DescriptorsOwned actions ↔
      ∀ s ∈ transitions step {} actions, s.1.Possible s.2 → s.2.isCall → s.1.stopped = false := by
  have haccounted : ∀ s ∈ transitions step {} actions, s.1.Accounted :=
    Lib.transitions_invariant step (C := fun _ _ => True) (fun p a h _ => h.step a)
      accounted_empty fun _ _ => trivial
  constructor
  · intro h s hs
    exact (fine_iff (haccounted s hs) s.2).mp ⟨h.closed s hs, h.registered s hs⟩
  · intro h
    have hfine : ∀ s ∈ transitions step {} actions, s.1.Fine s.2 := fun s hs =>
      (fine_iff (haccounted s hs) s.2).mpr (h s hs)
    exact ⟨fun s hs => (hfine s hs).2, fun s hs => (hfine s hs).1⟩

/-- The receiver is started, stopped and started again; the kernel gives out the lowest number
that is not open. -/
def sampleRestart : List ProcessAction :=
  [.construct 3 4, .start 5 6, .stop]

/-- The number of the netlink socket goes to the send socket of the scanner, and the netlink
socket is registered under it. -/
theorem not_descriptorsOwned_sampleRestart :
    ¬DescriptorsOwned (sampleRestart ++ [.start 4 5]) := by
  intro h
  have hregistered := h.registered (run step {} sampleRestart, .start 4 5)
    ((Lib.mem_transitions_iff step).mpr ⟨sampleRestart, [], rfl, rfl⟩) (by decide) rfl
  exact absurd hregistered.netlink.1 (by decide)

end Process
end DevScan.Net
