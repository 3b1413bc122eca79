import DevScan.Stream.ReceiveComplete

/-!
# `Stream/Connections.lean` — whose bytes a caller gets

A socket object lives through several connections: `connect` puts a new descriptor in place and
`disconnect` takes it away, while the read-ahead buffer stays as it is. What the object has yet
to hand out is therefore the unread part of the buffer *followed by* what is in flight
(`pending`), and every call that receives hands out a part of that from the front
(`receive_gives`, `receiveLoop_gives`). Whether all of it comes from one peer is decided when a
connection is made.
-/

set_option autoImplicit false

namespace DevScan.Stream

open Lib (Intact)

/-! ## `connect`

It succeeds by what the system calls do; the buffer is left as it is in any case. -/

def ConnectAnswers.Succeeds (a : ConnectAnswers) : Prop :=
  a.resolved ∧ a.created ∧ a.optionsSet ∧
    (a.connectErrno = none ∨
      a.connectErrno = some eInProgress ∧ (pollLoop a.polls).1 = some 1 ∧ a.value = 0)

instance (a : ConnectAnswers) : Decidable a.Succeeds :=
  inferInstanceAs (Decidable (_ ∧ _ ∧ _ ∧ (_ ∨ _ ∧ _ ∧ _)))

namespace SocketNonblocking

theorem bufferedReader_connect (a : ConnectAnswers) (s : SocketNonblocking) :
    (s.connect a).2.bufferedReader = s.bufferedReader := by
  unfold connect
  repeat' split
  all_goals rfl

theorem connect_succeeds {a : ConnectAnswers} {s : SocketNonblocking}
    (hret : (s.connect a).1 = some 0) :
    a.Succeeds ∧ (s.connect a).2.endpoint = some a.sent := by
  unfold connect at hret ⊢
  unfold ConnectAnswers.Succeeds
  by_cases hresolved : a.resolved
  · by_cases hcreated : a.created
    · by_cases hoptions : a.optionsSet
      · simp only [hresolved, hcreated, hoptions, not_true_eq_false, if_false, true_and] at hret ⊢
        cases herrno : a.connectErrno with
        | none => exact ⟨Or.inl rfl, rfl⟩
        | some errno =>
          simp only [herrno] at hret ⊢
          by_cases hprogress : errno = eInProgress
          · cases hpoll : (pollLoop a.polls).1 with
            | none => simp [hprogress, hpoll] at hret
            | some err =>
              by_cases hready : err = 1
              · by_cases hvalue : a.value = 0
                · simp [hprogress, hready, hvalue]
                · simp [hprogress, hpoll, hready, hvalue] at hret
              · simp [hprogress, hpoll, hready] at hret
          · simp [hprogress] at hret
      · simp [hresolved, hcreated, hoptions] at hret
    · simp [hresolved, hcreated] at hret
  · simp [hresolved] at hret

end SocketNonblocking

/-! ## Any sequence of calls -/

inductive Call where
  | connect (answers : ConnectAnswers)
  | receive (size : Nat) (answer : RecvAnswer)
  | receiveComplete (size : Nat) (answers : RecvAnswers)
  | disconnect

/-- A socket with what its callers have seen since the last `connect`. -/
structure Connection where
  socket : SocketNonblocking
  /-- What the peer sends over the connection, if the last `connect` was successful. -/
  sent : Option (List UInt8)
  /-- The bytes stored in the blocks of the callers. -/
  stored : List UInt8
  /-- The bytes the return values of the calls have reported. -/
  returned : List UInt8
  /-- A call has not returned; until it does no other is made. -/
  waiting : Bool

namespace Connection

def start (memory : List UInt8) : Connection := ⟨.construct memory, none, [], [], false⟩

/-- A call has stored `block` and returns `retVal`. -/
def note (c : Connection) (socket : SocketNonblocking) (block : List UInt8) :
    Option Int → Connection
  | some retVal =>
    { c with
      socket := socket
      stored := c.stored ++ block
      returned := c.returned ++ block.take retVal.toNat }
  | none => { c with socket := socket, stored := c.stored ++ block, waiting := true }

def step (c : Connection) (call : Call) : Connection :=
  if c.waiting then c
  else
    match call with
    | .connect answers =>
      match c.socket.connect answers with
      | (some 0, socket) => ⟨socket, some answers.sent, [], [], false⟩
      | (some _, socket) => ⟨socket, none, [], [], false⟩
      | (none, socket) => ⟨socket, none, [], [], true⟩
    | .receive size answer =>
      c.note (c.socket.receive size answer).2 (c.socket.receive size answer).1.block
        (some (c.socket.receive size answer).1.retVal)
    | .receiveComplete size answers =>
      c.note (c.socket.receiveComplete size answers).socket
        (c.socket.receiveComplete size answers).block
        (c.socket.receiveComplete size answers).retVal
    | .disconnect => { c with socket := c.socket.disconnect }

/-- **Nothing is left over**: when a connection is made, the buffer has been read to its end. -/
def Drained (c : Connection) : Call → Prop
  | .connect answers => answers.Succeeds → c.socket.bufferedReader.unread = []
  | _ => True

instance (c : Connection) (call : Call) : Decidable (c.Drained call) :=
  match call with
  | .connect answers =>
    inferInstanceAs (Decidable (answers.Succeeds → c.socket.bufferedReader.unread = []))
  | .receive .. => inferInstanceAs (Decidable True)
  | .receiveComplete .. => inferInstanceAs (Decidable True)
  | .disconnect => inferInstanceAs (Decidable True)

/-- A `receiveComplete` that does not fail with bytes in hand: either it is not going to fail, or
there are no bytes. -/
def Counts (c : Connection) : Call → Prop
  | .receiveComplete size answers =>
    (size < Lib.SizeT.signedBound ∧ c.socket.endpoint.isSome ∧
        (∀ errno, .failed errno ∈ answers.recvs → errno = eWouldBlock ∨ errno = eAgain) ∧
        ∀ p ∈ answers.polls, p = .fds 1 ∨ p = .failed eIntr) ∨
      c.socket.bufferedReader.unread = [] ∧ ∀ count, .data count ∉ answers.recvs
  | _ => True

/-! ### The bytes that are stored -/

/-- What has been stored, and what is yet to be handed out, comes from the present peer. -/
structure Own (c : Connection) : Prop where
  wellFormed : c.socket.bufferedReader.WellFormed
  own : ∀ sent, c.sent = some sent → c.stored ++ c.socket.pending <+: sent
  sublist : c.returned.Sublist c.stored

theorem own_start (memory : List UInt8) : (start memory).Own :=
  ⟨BufferedReader.wellFormed_construct memory, fun sent h => absurd h (by simp [start]), .slnil⟩

theorem own_note {c : Connection} (h : c.Own) {socket : SocketNonblocking} {block : List UInt8}
    (hgives : c.socket.Gives block socket) (retVal : Option Int) :
    (c.note socket block retVal).Own := by
  have hown : ∀ sent, c.sent = some sent → (c.stored ++ block) ++ socket.pending <+: sent := by
    intro sent hsent
    have hfront := h.own sent hsent
    rwa [← hgives.intact, ← List.append_assoc] at hfront
  cases retVal with
  | none => exact ⟨hgives.wellFormed, hown, h.sublist.trans (List.sublist_append_left _ _)⟩
  | some retVal =>
    exact ⟨hgives.wellFormed, hown, h.sublist.append (List.take_sublist _ _)⟩

theorem own_step (c : Connection) (call : Call) (h : c.Own) (hdrained : c.Drained call) :
    (c.step call).Own := by
  unfold step
  split
  · exact h
  · cases call with
    | connect answers =>
      have hreader := SocketNonblocking.bufferedReader_connect answers c.socket
      have hwf := h.wellFormed
      rw [← hreader] at hwf
      simp only
      split
      · -- the new connection: nothing unread, all that is in flight is the peer's
        rename_i socket hzero
        obtain ⟨hsucceeds, hendpoint⟩ := SocketNonblocking.connect_succeeds (congrArg Prod.fst hzero)
        rw [hzero] at hwf hreader hendpoint
        refine ⟨hwf, fun sent hsent => ?_, .slnil⟩
        simp only at hreader hendpoint
        rw [SocketNonblocking.pending, hreader, hdrained hsucceeds, hendpoint,
          Option.some.inj hsent]
        exact List.prefix_rfl
      · rename_i hfail
        rw [hfail] at hwf
        exact ⟨hwf, fun sent hsent => absurd hsent (by simp), .slnil⟩
      · rename_i hwaiting
        rw [hwaiting] at hwf
        exact ⟨hwf, fun sent hsent => absurd hsent (by simp), .slnil⟩
    | receive size answer =>
      exact own_note h (SocketNonblocking.receive_round h.wellFormed size answer).toGives _
    | receiveComplete size answers =>
      exact own_note h (SocketNonblocking.receiveLoop_completes h.wellFormed (Nat.le_refl size)).toGives _
    | disconnect =>
      refine ⟨h.wellFormed, fun sent hsent => ?_, h.sublist⟩
      -- what was in flight is lost
      have hfront := h.own sent hsent
      refine List.IsPrefix.trans ((List.prefix_append_right_inj _).mpr ?_) hfront
      rw [SocketNonblocking.pending, SocketNonblocking.pending]
      exact (List.prefix_append_right_inj _).mpr List.nil_prefix

/-! ### The bytes that are reported -/

/-- What has been stored has been reported, up to a call that has not returned. -/
structure Reported (c : Connection) : Prop where
  isPrefix : c.returned <+: c.stored
  all : c.waiting = false → c.returned = c.stored

theorem reported_note {c : Connection} (h : c.returned = c.stored) {socket : SocketNonblocking}
    {block : List UInt8} {retVal : Option Int}
    (hcount : ∀ v, retVal = some v → v = block.length ∨ block = []) :
    (c.note socket block retVal).Reported := by
  cases retVal with
  | none =>
    exact ⟨h ▸ List.prefix_append _ _, fun hw => absurd hw (by simp [note])⟩
  | some v =>
    have hall : block.take v.toNat = block := by
      rcases hcount v rfl with hlength | hnil
      · rw [hlength, Int.toNat_natCast, List.take_length]
      · rw [hnil, List.take_nil]
    have heq : (c.note socket block (some v)).returned = (c.note socket block (some v)).stored := by
      simp only [note, hall, h]
    exact ⟨heq ▸ List.prefix_rfl, fun _ => heq⟩

theorem reported_step (c : Connection) (call : Call) (h : c.Reported)
    (hwf : c.socket.bufferedReader.WellFormed) (hcounts : c.Counts call) :
    (c.step call).Reported := by
  unfold step
  split
  · exact h
  · rename_i hwaiting
    have hwaiting : c.waiting = false := by simpa using hwaiting
    have hall := h.all hwaiting
    cases call with
    | connect answers =>
      simp only
      split
      · exact ⟨List.prefix_rfl, fun _ => rfl⟩
      · exact ⟨List.prefix_rfl, fun _ => rfl⟩
      · exact ⟨List.prefix_rfl, fun _ => rfl⟩
    | receive size answer =>
      refine reported_note hall fun v hv => ?_
      obtain rfl := Option.some.inj hv
      exact (SocketNonblocking.receive_round hwf size answer).retVal_eq.imp_right And.right
    | receiveComplete size answers =>
      refine reported_note hall fun v hv => ?_
      rcases hcounts with ⟨hsize, he, hrecvs, hpolls⟩ | ⟨hdrained, hnodata⟩
      · exact Or.inl (SocketNonblocking.retVal_receiveComplete hwf hsize ⟨he, hrecvs, hpolls⟩ v hv)
      · exact Or.inr (SocketNonblocking.block_receiveLoop hwf hdrained hnodata)
    | disconnect => exact ⟨h.isPrefix, h.all⟩

/-! ## The connections are kept apart -/

/-- **The property.** After a successful `connect`, what the calls return is a prefix of what
this one peer sends. -/
def Apart (c : Connection) : Prop := ∀ sent, c.sent = some sent → c.returned <+: sent

/-- **If every connection starts with the buffer read to its end, the connections are kept
apart**: the bytes stored for the callers form a prefix of what the present peer sends, so that
every byte reported is one of that peer's; and the bytes reported form a prefix too, provided
that no `receiveComplete` fails with bytes in hand, whose number it then does not report. -/
theorem connections_apart {memory : List UInt8} {calls : List Call}
    (hdrained : ∀ p ∈ Lib.transitions step (start memory) calls, p.1.Drained p.2) :
    (∀ sent, (Lib.run step (start memory) calls).sent = some sent →
        (Lib.run step (start memory) calls).stored <+: sent ∧
          (Lib.run step (start memory) calls).returned.Sublist sent) ∧
      ((∀ p ∈ Lib.transitions step (start memory) calls, p.1.Counts p.2) →
        (Lib.run step (start memory) calls).Apart) := by
  have hown := Lib.run_invariant step own_step (own_start memory) hdrained
  have hstored : ∀ sent, (Lib.run step (start memory) calls).sent = some sent →
      (Lib.run step (start memory) calls).stored <+: sent := fun sent hsent =>
    (List.prefix_append _ _).trans (hown.own sent hsent)
  constructor
  · intro sent hsent
    exact ⟨hstored sent hsent, hown.sublist.trans (hstored sent hsent).sublist⟩
  · intro hcounts sent hsent
    have hstep : ∀ c call, Connection.Own c ∧ Reported c → Drained c call ∧ Counts c call →
        (step c call).Own ∧ (step c call).Reported := by
      intro c call h hcond
      exact ⟨own_step c call h.1 hcond.1, reported_step c call h.2 h.1.wellFormed hcond.2⟩
    have hstart : (start memory).Own ∧ (start memory).Reported :=
      ⟨own_start memory, List.prefix_rfl, fun _ => rfl⟩
    have hreported := (Lib.run_invariant step hstep hstart
      fun p hp => ⟨hdrained p hp, hcounts p hp⟩).2
    exact hreported.isPrefix.trans (hstored sent hsent)

/-! A connection that is made twice; of the first peer's two bytes, `size` are asked for. -/

def accepting (sent : List UInt8) : ConnectAnswers := ⟨true, true, true, none, [], 0, sent⟩

def reconnecting (size : Nat) : List Call :=
  [.connect (accepting [1, 2]), .receive size (.data 2), .disconnect, .connect (accepting [3]),
    .receive 1 (.data 1)]

theorem connections_apart_drained : (Lib.run step (start []) (reconnecting 2)).Apart := by
  refine (@connections_apart [] (reconnecting 2) ?_).2 ?_
  · decide
  · intro p hp
    simp only [reconnecting, Lib.transitions, List.mem_cons, List.not_mem_nil, or_false] at hp
    rcases hp with rfl | rfl | rfl | rfl | rfl <;> exact trivial

/-- The second byte of the first peer is returned as the first of the second. -/
theorem not_apart_reconnecting : ¬(Lib.run step (start []) (reconnecting 1)).Apart := by
  intro hapart
  have hsent : (Lib.run step (start []) (reconnecting 1)).sent = some [3] := by decide
  exact absurd (hapart [3] hsent) (by decide)

end Connection
end DevScan.Stream
