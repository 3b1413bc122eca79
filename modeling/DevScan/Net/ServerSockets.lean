import DevScan.Lib.Runs
import DevScan.Net.MulticastServer

/-!
# `Net/ServerSockets.lean` — does a multicast server own its sockets

`stop` closes what the two members record, so a server is as good as what it records. A `start`
that fails leaves the sockets it has opened recorded, whichever call it was that failed, and a
`stop` afterwards gets rid of them. But `start` records the sockets it opens without looking at
what was recorded before: started twice without a `stop` in between — as `Receiver::start_for`
does when the time is over and it is called again — the server loses the sockets of the first
`start`. `socketsOwned_iff` says that this is the only way to lose any.
-/

set_option autoImplicit false

namespace DevScan.Net.MulticastServer

open Lib (run transitions)
open Lib.Custody (Pool)
open Lib.Custody.Pool (owns_takeOwn owns_of_takeOwn owns_of_giveBack owns_otherTakes_iff
  owns_otherGivesBack_iff)
open Sys (Fd registration registration_concat)

variable {s : MulticastServer}

/-- The number of an open socket of the server. -/
def Open (s : MulticastServer) (fd : Fd) : Prop := s.descriptors.Owns fd

/-- No sockets are open but those recorded. -/
def Recorded (s : MulticastServer) : Prop :=
  ∀ fd, s.Open fd → fd = s.sendSocket ∨ fd = s.receiveSocket

/-- **Everything is given back**: each socket that was ever opened has been closed exactly once,
and the event loop knows of none. -/
def Released (s : MulticastServer) : Prop :=
  (∀ n < s.descriptors.taken, s.descriptors.returned.count (some (.own n)) = 1) ∧
    ∀ fd, registration s.calls fd = none

/-- **The invariant.** What is recorded is open, and nothing else is; there is no receive socket
without a send socket. -/
structure Owning (s : MulticastServer) : Prop where
  sound : s.descriptors.Sound
  recorded : s.Recorded
  nonneg : ∀ fd, s.Open fd → 0 ≤ fd
  send : s.sendSocket ≠ noSocket → s.Open s.sendSocket
  receive : s.receiveSocket ≠ noSocket → s.Open s.receiveSocket
  apart : s.sendSocket ≠ noSocket → s.sendSocket ≠ s.receiveSocket
  paired : s.sendSocket = noSocket → s.receiveSocket = noSocket
  registered : ∀ fd, registration s.calls fd ≠ none → fd = s.receiveSocket ∧ fd ≠ noSocket

theorem owning_empty : Owning {} where
  sound := Pool.sound_empty
  recorded fd hopen := absurd hopen fun ⟨n, hn⟩ => absurd hn (by simp)
  nonneg fd hopen := absurd hopen fun ⟨n, hn⟩ => absurd hn (by simp)
  send h := absurd rfl h
  receive h := absurd rfl h
  apart h := absurd rfl h
  paired _ := rfl
  registered fd h := absurd rfl h

theorem ne_noSocket_of_nonneg {fd : Fd} (h : 0 ≤ fd) : fd ≠ noSocket := by
  rintro rfl
  exact absurd h (by decide)

/-- A number that is free is not one of an open socket. -/
theorem ne_of_free {fd m : Fd} (hfree : s.Free fd) (hopen : s.Open m) : m ≠ fd := by
  rintro rfl
  obtain ⟨n, hn⟩ := hopen
  exact absurd (hfree.2.symm.trans hn) (by simp)

/-! ## The first half of `start` -/

theorem setupSendSocket_snd (s : MulticastServer) (answers : StartAnswers) :
    (answers.sendSocket = none ∧
        s.setupSendSocket answers = (-1, { s with sendSocket := noSocket })) ∨
      ∃ fd, answers.sendSocket = some fd ∧
        (s.setupSendSocket answers).2 = { s.openSocket fd with sendSocket := fd } := by
  unfold setupSendSocket
  cases hsend : answers.sendSocket with
  | none => exact Or.inl ⟨rfl, rfl⟩
  | some fd =>
    refine Or.inr ⟨fd, rfl, ?_⟩
    simp only
    split
    · rfl
    · rfl

/-- A server without sockets that opens its send socket. -/
theorem Owning.openSend (h : s.Owning) (hnone : s.sendSocket = noSocket) {fd : Fd}
    (hfree : s.Free fd) : Owning { s.openSocket fd with sendSocket := fd } := by
  have hreceive := h.paired hnone
  have hfd := ne_noSocket_of_nonneg hfree.1
  refine
    { sound := h.sound.takeOwn hfree.2
      recorded := fun m hm => ?_
      nonneg := fun m hm => ?_
      send := fun _ => owns_takeOwn
      receive := fun hne => absurd hreceive hne
      apart := fun _ => hreceive.symm ▸ hfd
      paired := fun hno => absurd hno hfd
      registered := h.registered }
  · rcases owns_of_takeOwn hm with rfl | hm
    · exact Or.inl rfl
    · rcases h.recorded m hm with rfl | rfl
      · exact absurd hnone (ne_noSocket_of_nonneg (h.nonneg _ hm))
      · exact Or.inr rfl
  · rcases owns_of_takeOwn hm with rfl | hm
    · exact hfree.1
    · exact h.nonneg m hm

theorem Owning.setupSendSocket (h : s.Owning) (hnone : s.sendSocket = noSocket)
    {answers : StartAnswers} (hpossible : s.Possible (.start answers)) :
    (s.setupSendSocket answers).2.Owning := by
  rcases s.setupSendSocket_snd answers with ⟨-, hsetup⟩ | ⟨fd, hfd, hsetup⟩
  · rw [hsetup]
    have hsame : { s with sendSocket := noSocket } = s := by rw [← hnone]
    rwa [hsame]
  · rw [hsetup]
    exact h.openSend hnone (hpossible.1 fd hfd)

/-- **A server with a send socket loses it.** -/
theorem Owning.not_recorded_setupSendSocket (h : s.Owning) (hsend : s.sendSocket ≠ noSocket)
    {answers : StartAnswers} (hpossible : s.Possible (.start answers)) :
    ¬(s.setupSendSocket answers).2.Recorded := by
  intro hrecorded
  rcases s.setupSendSocket_snd answers with ⟨-, hsetup⟩ | ⟨fd, hfd, hsetup⟩
  · rw [hsetup] at hrecorded
    rcases hrecorded s.sendSocket (h.send hsend) with heq | heq
    · exact hsend heq
    · exact h.apart hsend heq
  · rw [hsetup] at hrecorded
    have hfree := hpossible.1 fd hfd
    rcases hrecorded s.sendSocket ((h.send hsend).takeOwn hfree.2) with heq | heq
    · exact ne_of_free hfree (h.send hsend) heq
    · exact h.apart hsend heq

/-! ## The second half -/

theorem setupReceiveSocket_snd (s : MulticastServer) (answers : StartAnswers) :
    s.setupReceiveSocket answers = (-1, s) ∨
      s.setupReceiveSocket answers = (-1, { s with receiveSocket := noSocket }) ∨
      ∃ fd, answers.receiveSocket = some fd ∧
        (s.setupReceiveSocket answers).2 = { s.openSocket fd with receiveSocket := fd } := by
  unfold setupReceiveSocket
  split
  · exact Or.inl rfl
  · cases hreceive : answers.receiveSocket with
    | none => exact Or.inr (Or.inl rfl)
    | some fd =>
      refine Or.inr (Or.inr ⟨fd, rfl, ?_⟩)
      simp only
      -- each of the four calls may be the one that fails
      split_ifs <;> rfl

/-- A server that has only its send socket opens its receive socket. -/
theorem Owning.openReceive (h : s.Owning) (hsend : s.sendSocket ≠ noSocket)
    (hnone : s.receiveSocket = noSocket) {fd : Fd} (hfree : s.Free fd) :
    Owning { s.openSocket fd with receiveSocket := fd } := by
  refine
    { sound := h.sound.takeOwn hfree.2
      recorded := fun m hm => ?_
      nonneg := fun m hm => ?_
      send := fun _ => (h.send hsend).takeOwn hfree.2
      receive := fun _ => owns_takeOwn
      apart := fun _ => ne_of_free hfree (h.send hsend)
      paired := fun hno => absurd hno hsend
      registered := fun m hm => ?_ }
  · rcases owns_of_takeOwn hm with rfl | hm
    · exact Or.inr rfl
    · rcases h.recorded m hm with rfl | rfl
      · exact Or.inl rfl
      · exact absurd hnone (ne_noSocket_of_nonneg (h.nonneg _ hm))
  · rcases owns_of_takeOwn hm with rfl | hm
    · exact hfree.1
    · exact h.nonneg m hm
  · obtain ⟨rfl, hne⟩ := h.registered m hm
    exact absurd hnone hne

theorem Owning.setupReceiveSocket (h : s.Owning) (hsend : s.sendSocket ≠ noSocket)
    (hnone : s.receiveSocket = noSocket) {answers : StartAnswers}
    (hfree : ∀ fd ∈ answers.receiveSocket, s.Free fd) :
    (s.setupReceiveSocket answers).2.Owning := by
  rcases s.setupReceiveSocket_snd answers with hsetup | hsetup | ⟨fd, hfd, hsetup⟩
  · rw [hsetup]
    exact h
  · rw [hsetup]
    have hsame : { s with receiveSocket := noSocket } = s := by rw [← hnone]
    rwa [hsame]
  · rw [hsetup]
    exact h.openReceive hsend hnone (hfree fd hfd)

/-- Registering the receive socket. -/
theorem Owning.addEvent (h : s.Owning) (hreceive : s.receiveSocket ≠ noSocket) :
    (s.addEvent s.receiveSocket).Owning := by
  refine
    { sound := h.sound
      recorded := h.recorded
      nonneg := h.nonneg
      send := h.send
      receive := h.receive
      apart := h.apart
      paired := h.paired
      registered := fun m hm => ?_ }
  have hcalls : registration (s.addEvent s.receiveSocket).calls =
      Function.update (registration s.calls) s.receiveSocket (some ()) :=
    registration_concat s.calls ⟨s.receiveSocket, some ()⟩
  by_cases heq : m = s.receiveSocket
  · exact ⟨heq, heq ▸ hreceive⟩
  · rw [hcalls, Function.update_of_ne heq] at hm
    exact h.registered m hm

/-! ## The whole `start` -/

theorem start_mem_startPasses (s : MulticastServer) (answers : StartAnswers) :
    (s.start answers).2 ∈ s.startPasses answers := by
  by_cases herr : (s.setupSendSocket answers).1 < 0
  · have hstart : s.start answers = s.setupSendSocket answers := if_pos herr
    rw [startPasses, if_pos herr, hstart]
    exact List.mem_cons_self
  · rw [startPasses, if_neg herr]
    simp

/-- The send socket comes first. -/
theorem setupSendSocket_mem_startPasses (s : MulticastServer) (answers : StartAnswers) :
    (s.setupSendSocket answers).2 ∈ s.startPasses answers := by
  unfold startPasses
  simp only
  split
  · exact List.mem_cons_self
  · exact List.mem_cons_self

/-- The end of a `start` that got as far as the receive socket. -/
theorem owning_start {answers : StartAnswers} (herr : ¬(s.setupSendSocket answers).1 < 0)
    (howning : ((s.setupSendSocket answers).2.setupReceiveSocket answers).2.Owning)
    (hsocket : ¬((s.setupSendSocket answers).2.setupReceiveSocket answers).1 < 0 →
      ((s.setupSendSocket answers).2.setupReceiveSocket answers).2.receiveSocket ≠ noSocket) :
    (s.start answers).2.Owning := by
  unfold MulticastServer.start
  simp only
  rw [if_neg herr]
  split_ifs with hfail hhandler
  · exact howning
  · exact howning.addEvent (hsocket hfail)
  · exact howning

/-- **A server without sockets owns whatever a `start` leaves behind**, at each of its exits and
all the way there. -/
theorem Owning.start (h : s.Owning) (hnone : s.sendSocket = noSocket) {answers : StartAnswers}
    (hpossible : s.Possible (.start answers)) : ∀ s' ∈ s.startPasses answers, s'.Owning := by
  have hsetup := h.setupSendSocket hnone hpossible
  unfold startPasses
  simp only
  split
  · simpa using hsetup
  · rename_i herr
    rcases s.setupSendSocket_snd answers with ⟨-, hfail⟩ | ⟨fd, hfd, hopened⟩
    · rw [hfail] at herr
      exact absurd (Int.negSucc_lt_zero 0) herr
    · have hreceive : (s.setupSendSocket answers).2.receiveSocket = noSocket := by
        rw [hopened]
        exact h.paired hnone
      have hsend : (s.setupSendSocket answers).2.sendSocket ≠ noSocket := by
        rw [hopened]
        exact ne_noSocket_of_nonneg (hpossible.1 fd hfd).1
      have hfree : ∀ m ∈ answers.receiveSocket, (s.setupSendSocket answers).2.Free m := by
        intro m hm
        obtain ⟨hfree, hne⟩ := hpossible.2 m hm
        rw [hopened]
        refine ⟨hfree.1, (Function.update_of_ne ?_ _ _).trans hfree.2⟩
        rintro rfl
        exact hne hfd
      have hboth := hsetup.setupReceiveSocket hsend hreceive hfree
      have hstarted := owning_start herr hboth fun hok => ?_
      · simpa using ⟨hsetup, hboth, hstarted⟩
      · rcases (s.setupSendSocket answers).2.setupReceiveSocket_snd answers with
          hfail | hfail | ⟨m, hm, hopened⟩
        · rw [hfail] at hok
          exact absurd (Int.negSucc_lt_zero 0) hok
        · rw [hfail] at hok
          exact absurd (Int.negSucc_lt_zero 0) hok
        · rw [hopened]
          exact ne_noSocket_of_nonneg (hfree m hm).1

/-! ## `stop` -/

theorem registration_stop (h : s.Owning) (fd : Fd) :
    registration (s.eraseEvent s.receiveSocket).calls fd = none := by
  have hcalls : registration (s.eraseEvent s.receiveSocket).calls =
      Function.update (registration s.calls) s.receiveSocket none :=
    registration_concat s.calls ⟨s.receiveSocket, none⟩
  rw [hcalls]
  by_cases heq : fd = s.receiveSocket
  · rw [heq, Function.update_self]
  · rw [Function.update_of_ne heq]
    exact Classical.byContradiction fun hsome => heq (h.registered fd hsome).1

/-- What `stop` goes through: first the send socket is gone. -/
structure SendClosed (s s' : MulticastServer) : Prop where
  sound : s'.descriptors.Sound
  opened : ∀ fd, s'.Open fd → fd = s.receiveSocket ∧ fd ≠ noSocket
  receive : s.receiveSocket ≠ noSocket → s'.Open s.receiveSocket
  sendSocket : s'.sendSocket = noSocket
  receiveSocket : s'.receiveSocket = s.receiveSocket
  calls : s'.calls = (s.eraseEvent s.receiveSocket).calls

theorem Owning.closeSend (h : s.Owning) :
    SendClosed s (s.eraseEvent s.receiveSocket).closeSend := by
  have hkept : ∀ fd, s.Open fd → fd ≠ s.sendSocket → fd = s.receiveSocket ∧ fd ≠ noSocket :=
    fun fd hopen hne =>
      ⟨(h.recorded fd hopen).resolve_left hne, ne_noSocket_of_nonneg (h.nonneg fd hopen)⟩
  unfold MulticastServer.closeSend
  split
  · rename_i hsend
    refine ⟨h.sound.giveBack (h.send hsend), fun fd hopen => ?_, fun hne => ?_, rfl, rfl, rfl⟩
    · obtain ⟨hne, hopen⟩ := owns_of_giveBack hopen
      exact hkept fd hopen hne
    · exact (h.receive hne).giveBack (h.apart hsend).symm
  · rename_i hsend
    have hno : s.sendSocket = noSocket := Classical.not_not.mp hsend
    refine ⟨h.sound, fun fd hopen => hkept fd hopen fun heq => ?_, h.receive, hno, rfl, rfl⟩
    exact ne_noSocket_of_nonneg (h.nonneg fd hopen) (heq.trans hno)

theorem SendClosed.recorded {s' : MulticastServer} (h : SendClosed s s') : s'.Recorded :=
  fun fd hopen => Or.inr ((h.opened fd hopen).1.trans h.receiveSocket.symm)

/-- **After `stop` there is nothing left.** -/
theorem Owning.stop (h : s.Owning) :
    s.stop.Owning ∧ s.stop.Released ∧ s.stop.sendSocket = noSocket := by
  have hclosed := h.closeSend
  have hregistered := registration_stop h
  have hempty : ∀ {s' : MulticastServer}, s'.descriptors.Sound → (∀ fd, ¬s'.Open fd) →
      s'.sendSocket = noSocket → s'.receiveSocket = noSocket →
      s'.calls = (s.eraseEvent s.receiveSocket).calls →
      s'.Owning ∧ s'.Released ∧ s'.sendSocket = noSocket := by
    intro s' hsound hnone hsend hreceive hcalls
    have hregistered' : ∀ fd, registration s'.calls fd = none := hcalls ▸ hregistered
    refine ⟨?_, ⟨fun n hn => hsound.returned_once hnone hn, hregistered'⟩, hsend⟩
    exact
      { sound := hsound
        recorded := fun fd hopen => absurd hopen (hnone fd)
        nonneg := fun fd hopen => absurd hopen (hnone fd)
        send := fun hne => absurd hsend hne
        receive := fun hne => absurd hreceive hne
        apart := fun hne => absurd hsend hne
        paired := fun _ => hreceive
        registered := fun fd hne => absurd (hregistered' fd) hne }
  unfold MulticastServer.stop closeReceive
  split
  · rename_i hreceive
    have hown : (s.eraseEvent s.receiveSocket).closeSend.Open
        (s.eraseEvent s.receiveSocket).closeSend.receiveSocket := by
      rw [hclosed.receiveSocket] at hreceive ⊢
      exact hclosed.receive hreceive
    refine hempty (hclosed.sound.giveBack hown) (fun fd hopen => ?_) hclosed.sendSocket rfl
      hclosed.calls
    obtain ⟨hne, hopen⟩ := owns_of_giveBack hopen
    exact hne ((hclosed.opened fd hopen).1.trans hclosed.receiveSocket.symm)
  · rename_i hreceive
    have hno := Classical.not_not.mp hreceive
    refine hempty hclosed.sound (fun fd hopen => ?_) hclosed.sendSocket hno hclosed.calls
    obtain ⟨heq, hne⟩ := hclosed.opened fd hopen
    exact hne (heq.trans (hclosed.receiveSocket.symm.trans hno))

/-! ## One step -/

def ServerAction.isStart : ServerAction → Bool
  | .start _ => true
  | _ => false

/-- All the way only recorded sockets are open, and after a `stop` none is. -/
def Fine (s : MulticastServer) (a : ServerAction) : Prop :=
  (∀ s' ∈ s.passes a, s'.Recorded) ∧ (a = .stop → (s.step a).Released)

/-- A `start` finds no send socket recorded. -/
def FindsNone (s : MulticastServer) (a : ServerAction) : Prop :=
  s.Possible a → ServerAction.isStart a → s.sendSocket = noSocket

theorem Owning.other (h : s.Owning) {descriptors : Pool Fd} (hsound : descriptors.Sound)
    (hsame : ∀ fd, descriptors.Owns fd ↔ s.Open fd) :
    Owning { s with descriptors := descriptors } where
  sound := hsound
  recorded fd hopen := h.recorded fd ((hsame fd).mp hopen)
  nonneg fd hopen := h.nonneg fd ((hsame fd).mp hopen)
  send hne := (hsame _).mpr (h.send hne)
  receive hne := (hsame _).mpr (h.receive hne)
  apart := h.apart
  paired := h.paired
  registered := h.registered

theorem Owning.step (h : s.Owning) {a : ServerAction} (hnone : s.FindsNone a) :
    (s.step a).Owning := by
  unfold MulticastServer.step
  split
  · rename_i hpossible
    cases a with
    | start answers =>
      exact h.start (hnone hpossible rfl) hpossible _ (s.start_mem_startPasses answers)
    | stop => exact h.stop.1
    | otherOpens fd =>
      exact h.other (h.sound.otherTakes hpossible.2) fun m => owns_otherTakes_iff hpossible.2
    | otherCloses fd =>
      exact h.other (h.sound.otherGivesBack hpossible) fun m => owns_otherGivesBack_iff hpossible
  · exact h

/-- **A step goes wrong if it is a `start` that finds a send socket, and only then.** -/
theorem fine_iff (h : s.Owning) (a : ServerAction) : s.Fine a ↔ s.FindsNone a := by
  by_cases hpossible : s.Possible a
  · have hstep : s.step a = s.act a := if_pos hpossible
    have hkept : ServerAction.isStart a = false → (s.act a).Recorded := by
      intro hno
      rw [← hstep]
      exact (h.step fun _ hstart => absurd (hno.symm.trans hstart) (by simp)).recorded
    cases a with
    | start answers =>
      constructor
      · intro hfine _ _
        refine Classical.byContradiction fun hsend => ?_
        refine h.not_recorded_setupSendSocket hsend hpossible (hfine.1 _ ?_)
        rw [passes, if_pos hpossible]
        exact s.setupSendSocket_mem_startPasses answers
      · intro hnone
        refine ⟨fun s' hs' => ?_, fun heq => by cases heq⟩
        rw [passes, if_pos hpossible] at hs'
        exact (h.start (hnone hpossible rfl) hpossible s' hs').recorded
    | stop =>
      refine iff_of_true ⟨fun s' hs' => ?_, fun _ => ?_⟩ fun _ hstart => ?_
      · rw [passes, if_pos hpossible] at hs'
        rcases List.mem_cons.mp hs' with rfl | hs'
        · exact h.closeSend.recorded
        · obtain rfl := List.mem_singleton.mp hs'
          exact h.stop.1.recorded
      · rw [hstep]
        exact h.stop.2.1
      · cases hstart
    | otherOpens fd | otherCloses fd =>
      refine iff_of_true ⟨fun s' hs' => ?_, fun heq => by cases heq⟩ fun _ hstart => by cases hstart
      unfold passes at hs'
      rw [if_pos hpossible] at hs'
      obtain rfl := List.mem_singleton.mp hs'
      exact hkept rfl
  · refine iff_of_true ⟨fun s' hs' => ?_, fun heq => ?_⟩ fun hc => absurd hc hpossible
    · unfold passes at hs'
      rw [if_neg hpossible] at hs'
      cases hs'
    · subst heq
      exact absurd trivial hpossible

/-! ## Runs -/

/-- **Sockets are owned** in a run: at any time at most those recorded are open, and when `stop`
returns everything has been given back. -/
structure SocketsOwned (actions : List ServerAction) : Prop where
  recorded : ∀ p ∈ transitions step {} actions, ∀ s' ∈ p.1.passes p.2, s'.Recorded
  released : ∀ p ∈ transitions step {} actions, p.2 = .stop → (p.1.step p.2).Released

/-- **Sockets are owned, exactly if** every `start` finds none recorded. -/
theorem socketsOwned_iff (actions : List ServerAction) :
    SocketsOwned actions ↔ ∀ p ∈ transitions step {} actions, p.1.FindsNone p.2 := by
  have hexact := @Lib.transitions_exact _ _ step Owning Fine FindsNone (fun s a h => fine_iff h a)
    (fun s a h hnone => h.step hnone) {} actions owning_empty
  rw [← hexact]
  constructor
  · exact fun h p hp => ⟨h.recorded p hp, h.released p hp⟩
  · exact fun h => ⟨fun p hp => (h p hp).1, fun p hp => (h p hp).2⟩

/-- All system calls succeed. -/
def working (sendSocket receiveSocket : Fd) : StartAnswers :=
  ⟨some sendSocket, true, true, some receiveSocket, true, true, true, true, true⟩

/-- A second `start` records other sockets; those of the first are still open. -/
theorem not_socketsOwned_startedTwice :
    ¬SocketsOwned [.start (working 5 6), .start (working 7 8)] := by
  intro h
  have hpossible : (step {} (.start (working 5 6))).Possible (.start (working 7 8)) := by decide
  have hrecorded := h.recorded (step {} (.start (working 5 6)), .start (working 7 8))
    (List.mem_cons_of_mem _ List.mem_cons_self)
  rw [passes, if_pos hpossible] at hrecorded
  have hfirst := hrecorded _ (setupSendSocket_mem_startPasses _ _) 5 ⟨0, by decide⟩
  exact absurd hfirst (by decide)

end DevScan.Net.MulticastServer
