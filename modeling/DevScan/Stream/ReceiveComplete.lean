import DevScan.Stream.SocketNonblocking

/-!
# `Stream/ReceiveComplete.lean` — the next bytes of the stream

What a socket has yet to hand out is the unread part of its buffer *followed by* what is in flight
(`pending`), and every call that receives hands out a part of that from the front
(`receive_round`, `receiveLoop_completes`). `receiveComplete` goes on until it has what was asked
for: it returns with less only at the end of the stream, or with -1.
-/

set_option autoImplicit false

namespace DevScan.Stream

open Lib (Intact)

/-- The kernel reports the end of the stream behind its last byte. -/
def EndsLast : Endpoint → List RecvAnswer → Prop
  | _, [] => True
  | e, answer :: recvs =>
    (answer = .closed → e.getD [] = []) ∧ EndsLast (e.recv answer).2 recvs

/-- The kernel does not fail: the descriptor is connected, a `recv` may find nothing yet, and every
wait is successful in the end. -/
structure Sound (e : Endpoint) (recvs : List RecvAnswer) (polls : List PollResult) : Prop where
  connected : e.isSome
  recvs : ∀ errno, .failed errno ∈ recvs → errno = eWouldBlock ∨ errno = eAgain
  polls : ∀ p ∈ polls, p = .fds 1 ∨ p = .failed eIntr

namespace SocketNonblocking

/-- What is yet to be handed out: the unread part of the buffer, then what is in flight. -/
def pending (s : SocketNonblocking) : List UInt8 := s.bufferedReader.unread ++ s.endpoint.getD []

/-! ## One call -/

theorem endpoint_recv_intact (e : Endpoint) (answer : RecvAnswer) :
    Intact (e.getD []) (e.recv answer).1.bytes ((e.recv answer).2.getD []) := by
  cases e with
  | none => cases answer <;> rfl
  | some inFlight =>
    cases answer with
    | data count =>
      by_cases hnil : inFlight = []
      · simp only [Endpoint.recv, dif_pos hnil]
        rfl
      · simp only [Endpoint.recv, dif_neg hnil, Received.bytes, Option.getD_some, nextChunk]
        rw [List.length_take, ← List.drop_eq_drop_min]
        exact .split ..
    | closed => rfl
    | failed errno => rfl

/-- What a call has handed out is the front of what was pending. -/
structure Gives (s : SocketNonblocking) (block : List UInt8) (s' : SocketNonblocking) : Prop where
  wellFormed : s'.bufferedReader.WellFormed
  intact : Intact s.pending block s'.pending

theorem Gives.refl {s : SocketNonblocking} (h : s.bufferedReader.WellFormed) : s.Gives [] s :=
  ⟨h, rfl⟩

theorem Gives.trans {s s' s'' : SocketNonblocking} {block more : List UInt8} (h : s.Gives block s')
    (h' : s'.Gives more s'') : s.Gives (block ++ more) s'' :=
  ⟨h'.wellFormed, h.intact.next h'.intact⟩

/-- What one `BufferedReader::recv` under the socket comes to. -/
structure Round (s : SocketNonblocking) (size : Nat) (reply : Reply) (s' : SocketNonblocking) :
    Prop extends s.Gives reply.block s' where
  retVal_eq : reply.retVal = reply.block.length ∨ reply.retVal = -1 ∧ reply.block = []
  block_le : reply.block.length ≤ size

/-- A round that brings nothing leaves everything pending. -/
theorem Round.gives_nil {s s' : SocketNonblocking} {size : Nat} {reply : Reply}
    (h : s.Round size reply s') (hpos : ¬0 < reply.retVal) : s.Gives [] s' := by
  have hnil : reply.block = [] := by
    rcases h.retVal_eq with hlength | hfail
    · exact List.eq_nil_of_length_eq_zero (by omega)
    · exact hfail.2
  exact hnil ▸ h.toGives

/-- A round in which the buffer has something, or nothing is wanted. -/
theorem round_of_fromBuffer {s : SocketNonblocking} (h : s.bufferedReader.WellFormed) {size : Nat}
    {reply : Reply} {reader : BufferedReader}
    (hfrom : s.bufferedReader.fromBuffer size = some (reply, reader)) :
    s.Round size reply { s with bufferedReader := reader } := by
  have hserves := h.recv_serves size .closed
  rw [BufferedReader.recv, hfrom] at hserves
  have hintact := hserves.intact
  rw [BufferedReader.fetched, hfrom, List.append_nil] at hintact
  exact ⟨⟨hserves.wellFormed, hintact.feed _⟩, hserves.retVal_eq, hserves.block_le⟩

/-- A round in which the kernel is asked. -/
theorem round_of_refill {s : SocketNonblocking} (h : s.bufferedReader.WellFormed) {size : Nat}
    (hfrom : s.bufferedReader.fromBuffer size = none) {answer : RecvAnswer} {received : Received}
    {endpoint : Endpoint} (hanswer : s.endpoint.recv answer = (received, endpoint)) {reply : Reply}
    {reader : BufferedReader}
    (hrefill : s.bufferedReader.refill size received = (reply, reader)) :
    s.Round size reply ⟨endpoint, reader⟩ := by
  have hserves := h.recv_serves size received
  rw [BufferedReader.recv, hfrom] at hserves
  simp only [hrefill] at hserves
  have hintact := hserves.intact
  rw [BufferedReader.fetched, hfrom] at hintact
  have hdelivered := endpoint_recv_intact s.endpoint answer
  rw [hanswer] at hdelivered
  refine ⟨⟨hserves.wellFormed, ?_⟩, hserves.retVal_eq, hserves.block_le⟩
  -- what the kernel has handed over came first of what was in flight
  rw [pending, pending, ← hdelivered, ← List.append_assoc]
  exact hintact.feed _

theorem receive_round {s : SocketNonblocking} (h : s.bufferedReader.WellFormed) (size : Nat)
    (answer : RecvAnswer) :
    s.Round size (s.receive size answer).1 (s.receive size answer).2 := by
  unfold receive
  cases hfrom : s.bufferedReader.fromBuffer size with
  | some result => exact round_of_fromBuffer h hfrom
  | none => exact round_of_refill h hfrom rfl rfl

/-! ## `receiveComplete` -/

/-- What has come of `receiveComplete` with `sizeLeft` of `size` bytes still to be received: the
front of what was pending, counted, and less than was asked for only at the end of the stream;
unless the kernel has failed. -/
structure Completes (size sizeLeft : Nat) (recvs : List RecvAnswer) (polls : List PollResult)
    (s : SocketNonblocking) (c : Completion) : Prop extends s.Gives c.block c.socket where
  block_le : c.block.length ≤ sizeLeft
  counts : size < Lib.SizeT.modulus → ∀ retVal, c.retVal = some retVal →
    retVal = -1 ∧ ¬Sound s.endpoint recvs polls ∨
      retVal = Lib.SizeT.toSigned (size - sizeLeft + c.block.length)
  short : EndsLast s.endpoint recvs → ∀ retVal, c.retVal = some retVal →
    retVal = -1 ∧ ¬Sound s.endpoint recvs polls ∨ c.block.length = sizeLeft ∨
      c.socket.pending = [] ∧ .closed ∈ recvs

/-- What is left of the answers after a round, and of the endpoint. -/
structure Leaves (e : Endpoint) (recvs : List RecvAnswer) (polls : List PollResult) (e' : Endpoint)
    (recvs' : List RecvAnswer) (polls' : List PollResult) : Prop where
  sound : Sound e recvs polls → Sound e' recvs' polls'
  endsLast : EndsLast e recvs → EndsLast e' recvs'
  mem : ∀ answer ∈ recvs', answer ∈ recvs

namespace Completes

variable {size sizeLeft : Nat} {recvs recvs' : List RecvAnswer} {polls polls' : List PollResult}
  {s s' : SocketNonblocking} {c : Completion}

/-- It has not returned. -/
theorem waits (h : s.Gives [] s') : Completes size sizeLeft recvs polls s ⟨none, [], s'⟩ :=
  ⟨h, Nat.zero_le _, fun _ _ hv => absurd hv (by simp), fun _ _ hv => absurd hv (by simp)⟩

/-- It has failed, because the kernel has. -/
theorem fails (h : s.Gives [] s') (hsound : ¬Sound s.endpoint recvs polls) :
    Completes size sizeLeft recvs polls s ⟨some (-1), [], s'⟩ :=
  ⟨h, Nat.zero_le _, fun _ _ hv => Or.inl ⟨(Option.some.inj hv).symm, hsound⟩,
    fun _ _ hv => Or.inl ⟨(Option.some.inj hv).symm, hsound⟩⟩

/-- A round has left everything pending. -/
theorem idle (h : s.Gives [] s') (hleaves : Leaves s.endpoint recvs polls s'.endpoint recvs' polls')
    (hc : Completes size sizeLeft recvs' polls' s' c) : Completes size sizeLeft recvs polls s c := by
  have hfail : ¬Sound s'.endpoint recvs' polls' → ¬Sound s.endpoint recvs polls := mt hleaves.sound
  refine ⟨h.trans hc.toGives, hc.block_le, fun hsize v hv => ?_, fun hlast v hv => ?_⟩
  · exact (hc.counts hsize v hv).imp_left (And.imp_right hfail)
  · exact (hc.short (hleaves.endsLast hlast) v hv).imp (And.imp_right hfail)
      (Or.imp_right (And.imp_right (hleaves.mem _)))

/-- A round has brought bytes. -/
theorem more {reply : Reply} (h : s.Round sizeLeft reply s') (hpos : 0 < reply.retVal)
    (hle : sizeLeft ≤ size) (hleaves : Leaves s.endpoint recvs polls s'.endpoint recvs' polls')
    (hc : Completes size (sizeLeft - reply.retVal.toNat) recvs' polls' s' c) :
    Completes size sizeLeft recvs polls s (c.after reply.block) := by
  have hfail : ¬Sound s'.endpoint recvs' polls' → ¬Sound s.endpoint recvs polls := mt hleaves.sound
  have hblock := h.block_le
  have hlength : reply.retVal.toNat = reply.block.length := by
    rcases h.retVal_eq with hlength | hfail
    · omega
    · omega
  rw [hlength] at hc
  have hrest := hc.block_le
  refine ⟨h.toGives.trans hc.toGives, ?_, fun hsize v hv => ?_, fun hlast v hv => ?_⟩
  · rw [Completion.after, List.length_append]
    omega
  · refine (hc.counts hsize v hv).imp (And.imp_right hfail) fun hcount => ?_
    rw [hcount, Completion.after, List.length_append]
    congr 1
    omega
  · refine (hc.short (hleaves.endsLast hlast) v hv).imp (And.imp_right hfail)
      (Or.imp (fun hall => ?_) (And.imp_right (hleaves.mem _)))
    rw [Completion.after, List.length_append]
    omega

end Completes

/-- The buffer hands out something, if it has something and something is wanted. -/
theorem fromBuffer_pos {r r' : BufferedReader} (h : r.WellFormed) {size : Nat} (hsize : ¬size = 0)
    {reply : Reply} (hfrom : r.fromBuffer size = some (reply, r')) : 0 < reply.retVal := by
  rw [h.fromBuffer_eq] at hfrom
  split at hfrom
  · exact absurd hfrom (by simp)
  · rename_i hheld
    obtain ⟨rfl, -⟩ := Prod.mk.inj (Option.some.inj hfrom)
    have hunread : r.unread ≠ [] := fun hnil => hheld ⟨hnil, Nat.pos_of_ne_zero hsize⟩
    have hlength := List.length_pos_iff.mpr hunread
    simp only [List.length_take]
    omega

/-- A refill that returns 0 is one at the end of the stream. -/
theorem closed_of_refill {r r' : BufferedReader} {size : Nat} (hsize : ¬size = 0)
    {received : Received} {reply : Reply} (hrefill : r.refill size received = (reply, r'))
    (hzero : reply.retVal = 0) : received = .closed ∧ r' = r := by
  cases received with
  | failed errno =>
    obtain ⟨rfl, -⟩ := Prod.mk.inj hrefill
    exact absurd hzero (by decide)
  | closed =>
    obtain ⟨-, rfl⟩ := Prod.mk.inj hrefill
    exact ⟨rfl, rfl⟩
  | data chunk =>
    obtain ⟨r'', heq, -⟩ := r.refill_data size chunk
    rw [heq] at hrefill
    obtain ⟨rfl, -⟩ := Prod.mk.inj hrefill
    have hlength := List.length_pos_iff.mpr chunk.ne
    simp only [List.length_take] at hzero
    omega

theorem unread_of_asked {r : BufferedReader} (h : r.WellFormed) {size : Nat}
    (hfrom : r.fromBuffer size = none) : r.unread = [] := by
  rw [h.fromBuffer_eq] at hfrom
  split at hfrom
  · rename_i hasks
    exact hasks.1
  · exact absurd hfrom (by simp)

theorem endpoint_recv_closed {e e' : Endpoint} {answer : RecvAnswer}
    (hanswer : e.recv answer = (.closed, e')) : answer = .closed ∧ e' = e := by
  cases e with
  | none => cases answer <;> exact absurd (Prod.mk.inj hanswer).1 (by simp)
  | some inFlight =>
    cases answer with
    | data count =>
      simp only [Endpoint.recv] at hanswer
      split at hanswer <;> exact absurd (Prod.mk.inj hanswer).1 (by simp)
    | closed => exact ⟨rfl, (Prod.mk.inj hanswer).2.symm⟩
    | failed errno => exact absurd (Prod.mk.inj hanswer).1 (by simp)


theorem pollLoop_ready {polls : List PollResult}
    (hpolls : ∀ p ∈ polls, p = .fds 1 ∨ p = .failed eIntr) {nfds : Int} {rest : List PollResult}
    (hpoll : pollLoop polls = (some nfds, rest)) :
    nfds = 1 ∧ ∀ p ∈ rest, p = .fds 1 ∨ p = .failed eIntr := by
  induction polls with
  | nil => exact absurd hpoll (by simp [pollLoop])
  | cons p polls ih =>
    have htail := fun p hp => hpolls p (List.mem_cons_of_mem _ hp)
    rcases hpolls p List.mem_cons_self with rfl | rfl
    · obtain ⟨hnfds, rfl⟩ := Prod.mk.inj hpoll
      exact ⟨(Option.some.inj hnfds).symm, htail⟩
    · simp only [pollLoop, if_true] at hpoll
      exact ih htail hpoll

/-- A connected descriptor fails only if the kernel says so, or has nothing yet. -/
theorem endpoint_recv_failed {e e' : Endpoint} {answer : RecvAnswer} {errno : Errno}
    (he : e.isSome) (hanswer : e.recv answer = (.failed errno, e')) :
    errno = eAgain ∨ answer = .failed errno := by
  cases e with
  | none => exact absurd he (by simp)
  | some inFlight =>
    cases answer with
    | data count =>
      simp only [Endpoint.recv] at hanswer
      split at hanswer
      · exact Or.inl (Received.failed.inj (Prod.mk.inj hanswer).1).symm
      · exact absurd (Prod.mk.inj hanswer).1 (by simp)
    | closed => exact absurd (Prod.mk.inj hanswer).1 (by simp)
    | failed errno' =>
      exact Or.inr (congrArg RecvAnswer.failed (Received.failed.inj (Prod.mk.inj hanswer).1))

theorem endpoint_recv_isSome (e : Endpoint) (answer : RecvAnswer) :
    (e.recv answer).2.isSome = e.isSome := by
  cases e with
  | none => cases answer <;> rfl
  | some inFlight =>
    cases answer with
    | data count =>
      simp only [Endpoint.recv]
      split <;> rfl
    | closed => rfl
    | failed errno => rfl

theorem endpoint_recv_data {e e' : Endpoint} {answer : RecvAnswer} {chunk : Chunk}
    (hanswer : e.recv answer = (.data chunk, e')) : ∃ count, answer = .data count := by
  cases answer with
  | data count => exact ⟨count, rfl⟩
  | closed => cases e <;> exact absurd (Prod.mk.inj hanswer).1 (by simp)
  | failed errno => cases e <;> exact absurd (Prod.mk.inj hanswer).1 (by simp)

/-- A refill that returns neither a count nor 0 is a failure of the kernel's. -/
theorem failed_of_refill {r r' : BufferedReader} {size : Nat} {received : Received} {reply : Reply}
    (hrefill : r.refill size received = (reply, r')) (hpos : ¬0 < reply.retVal)
    (hzero : ¬reply.retVal = 0) : ∃ errno, received = .failed errno := by
  cases received with
  | failed errno => exact ⟨errno, rfl⟩
  | closed =>
    obtain ⟨rfl, -⟩ := Prod.mk.inj hrefill
    exact absurd rfl hzero
  | data chunk =>
    obtain ⟨r'', heq, -⟩ := r.refill_data size chunk
    rw [heq] at hrefill
    obtain ⟨rfl, -⟩ := Prod.mk.inj hrefill
    simp only at hpos hzero
    omega

/-- A `recv` uses up one answer. -/
theorem leaves_recv {e e' : Endpoint} {answer : RecvAnswer} {recvs : List RecvAnswer}
    {polls polls' : List PollResult} {received : Received} (hanswer : e.recv answer = (received, e'))
    (hpolls : (∀ p ∈ polls, p = .fds 1 ∨ p = .failed eIntr) →
      ∀ p ∈ polls', p = .fds 1 ∨ p = .failed eIntr) :
    Leaves e (answer :: recvs) polls e' recvs polls' := by
  have he' : e' = (e.recv answer).2 := by rw [hanswer]
  refine ⟨fun h => ⟨?_, fun errno hmem => ?_, hpolls h.polls⟩, fun h => ?_, fun _ =>
    List.mem_cons_of_mem _⟩
  · rw [he', endpoint_recv_isSome]
    exact h.connected
  · exact h.recvs errno (List.mem_cons_of_mem _ hmem)
  · rw [he']
    exact h.2

/-- **The loop completes what was asked for**, by rounds that bring bytes, rounds that wait, and
the ends there are. -/
theorem receiveLoop_completes {size sizeLeft : Nat} {recvs : List RecvAnswer}
    {polls : List PollResult} {s : SocketNonblocking} (h : s.bufferedReader.WellFormed)
    (hle : sizeLeft ≤ size) :
    Completes size sizeLeft recvs polls s (receiveLoop size sizeLeft recvs polls s) := by
  fun_induction receiveLoop size sizeLeft recvs polls s with
  | case1 recvs polls s =>
    refine ⟨.refl h, Nat.le_refl 0, fun _ v hv => Or.inr ?_, fun _ v _ => Or.inr (Or.inl rfl)⟩
    exact (Option.some.inj hv).symm
  | case2 sizeLeft recvs polls s hleft reply reader hfrom hpos ih =>
    have hround := round_of_fromBuffer h hfrom
    exact .more hround hpos hle ⟨id, id, fun _ => id⟩ (ih hround.wellFormed (by omega))
  | case3 sizeLeft recvs polls s hleft reply reader hfrom hpos =>
    exact absurd (fromBuffer_pos h hleft hfrom) hpos
  | case4 sizeLeft polls s hleft hfrom => exact .waits (.refl h)
  | case5 sizeLeft polls s hleft hfrom answer recvs received endpoint hanswer reply reader hrefill
      hpos ih =>
    have hround := round_of_refill h hfrom hanswer hrefill
    exact .more hround hpos hle (leaves_recv hanswer id) (ih hround.wellFormed (by omega))
  | case6 sizeLeft polls s hleft hfrom answer recvs received endpoint hanswer reply reader hrefill
      hpos hzero =>
    obtain ⟨rfl, rfl⟩ := closed_of_refill hleft hrefill hzero
    obtain ⟨rfl, rfl⟩ := endpoint_recv_closed hanswer
    have hgives := (round_of_refill h hfrom hanswer hrefill).gives_nil hpos
    refine ⟨hgives, Nat.zero_le _, fun hsize v hv => Or.inr ?_, fun hlast v hv => ?_⟩
    · rw [← Option.some.inj hv, Lib.SizeT.sub_of_le hle hsize]
      rfl
    · refine Or.inr (Or.inr ⟨?_, List.mem_cons_self⟩)
      rw [pending, unread_of_asked h hfrom, hlast.1 rfl]
      rfl
  | case7 sizeLeft polls s hleft hfrom answer recvs received endpoint hanswer reply reader hrefill
      hpos =>
    exact .waits ((round_of_refill h hfrom hanswer hrefill).gives_nil hpos)
  | case8 sizeLeft polls s hleft hfrom answer recvs received endpoint hanswer reply reader hrefill
      hpos hzero hagain nfds polls' hpoll hready =>
    refine .fails ((round_of_refill h hfrom hanswer hrefill).gives_nil hpos) fun hsound => ?_
    exact hready (pollLoop_ready hsound.polls hpoll).1
  | case9 sizeLeft polls s hleft hfrom answer recvs received endpoint hanswer reply reader hrefill
      hpos hzero hagain nfds polls' hpoll hready ih =>
    have hidle := (round_of_refill h hfrom hanswer hrefill).gives_nil hpos
    exact .idle hidle (leaves_recv hanswer fun hpolls => (pollLoop_ready hpolls hpoll).2)
      (ih hidle.wellFormed hle)
  | case10 sizeLeft polls s hleft hfrom answer recvs received endpoint hanswer reply reader hrefill
      hpos hzero hagain =>
    refine .fails ((round_of_refill h hfrom hanswer hrefill).gives_nil hpos) fun hsound => ?_
    obtain ⟨errno, rfl⟩ := failed_of_refill hrefill hpos hzero
    rcases endpoint_recv_failed hsound.connected hanswer with rfl | rfl
    · exact hagain (Or.inr rfl)
    · exact hagain (hsound.recvs errno List.mem_cons_self)

/-- What a `receiveComplete` counts is what it has stored, unless it fails. -/
theorem retVal_receiveComplete {size : Nat} {answers : RecvAnswers} {s : SocketNonblocking}
    (h : s.bufferedReader.WellFormed) (hsize : size < Lib.SizeT.signedBound)
    (hsound : Sound s.endpoint answers.recvs answers.polls) :
    ∀ retVal, (s.receiveComplete size answers).retVal = some retVal →
      retVal = (s.receiveComplete size answers).block.length := by
  intro retVal hret
  have hmodulus := Lib.SizeT.signedBound_lt_modulus
  have hcompletes : Completes size size answers.recvs answers.polls s
      (s.receiveComplete size answers) :=
    receiveLoop_completes h (Nat.le_refl size)
  have hblock := hcompletes.block_le
  rcases hcompletes.counts (by omega) retVal hret with ⟨-, hfail⟩ | hcount
  · exact absurd hsound hfail
  · rw [hcount, Nat.sub_self, Nat.zero_add, Lib.SizeT.toSigned_of_lt (by omega)]

/-- Nothing unread and no data: nothing is stored. -/
theorem block_receiveLoop {size sizeLeft : Nat} {recvs : List RecvAnswer} {polls : List PollResult}
    {s : SocketNonblocking} (h : s.bufferedReader.WellFormed)
    (hdrained : s.bufferedReader.unread = []) (hrecvs : ∀ count, .data count ∉ recvs) :
    (receiveLoop size sizeLeft recvs polls s).block = [] := by
  have hasks : ∀ {sizeLeft : Nat} {r : BufferedReader}, r.WellFormed → r.unread = [] →
      ¬sizeLeft = 0 → r.fromBuffer sizeLeft = none := by
    intro sizeLeft r h hdrained hleft
    rw [h.fromBuffer_eq, if_pos ⟨hdrained, Nat.pos_of_ne_zero hleft⟩]
  fun_induction receiveLoop size sizeLeft recvs polls s with
  | case2 sizeLeft recvs polls s hleft reply reader hfrom =>
    rw [hasks h hdrained hleft] at hfrom
    exact absurd hfrom (by simp)
  | case5 sizeLeft polls s hleft hfrom answer recvs received endpoint hanswer reply reader hrefill
      hpos =>
    cases received with
    | failed errno =>
      obtain ⟨rfl, -⟩ := Prod.mk.inj hrefill
      exact absurd hpos (by decide)
    | closed =>
      obtain ⟨rfl, -⟩ := Prod.mk.inj hrefill
      exact absurd hpos (by decide)
    | data chunk =>
      obtain ⟨count, rfl⟩ := endpoint_recv_data hanswer
      exact absurd List.mem_cons_self (hrecvs count)
  | case9 sizeLeft polls s hleft hfrom answer recvs received endpoint hanswer reply reader hrefill
      hpos hzero hagain nfds polls' hpoll hready ih =>
    obtain ⟨errno, rfl⟩ := failed_of_refill hrefill hpos hzero
    obtain ⟨-, rfl⟩ := Prod.mk.inj hrefill
    exact ih h hdrained fun count hmem => hrecvs count (List.mem_cons_of_mem _ hmem)
  | _ => rfl

/-- **`receiveComplete` delivers the next bytes of the stream.** If it returns `n ≥ 0` it has stored
the first `n` bytes of what was pending and left the others pending; `n` is less than the size
asked for only if the peer has closed the stream and nothing is left of it. -/
theorem receiveComplete_next {s : SocketNonblocking} (h : s.bufferedReader.WellFormed) {size : Nat}
    (hsize : size < Lib.SizeT.modulus) {answers : RecvAnswers}
    (hends : EndsLast s.endpoint answers.recvs) {n : Int}
    (hret : (s.receiveComplete size answers).retVal = some n) (hn : 0 ≤ n) :
    (s.receiveComplete size answers).block = s.pending.take n.toNat ∧
      (s.receiveComplete size answers).socket.pending = s.pending.drop n.toNat ∧
      n ≤ s.pending.length ∧ n ≤ size ∧
      (n < size → (s.receiveComplete size answers).socket.pending = [] ∧
        .closed ∈ answers.recvs) := by
  have hcompletes : Completes size size answers.recvs answers.polls s
      (s.receiveComplete size answers) :=
    receiveLoop_completes h (Nat.le_refl size)
  have hblock := hcompletes.block_le
  have hlength : n = (s.receiveComplete size answers).block.length := by
    rcases hcompletes.counts hsize n hret with hfail | hcount
    · omega
    · rw [Nat.sub_self, Nat.zero_add] at hcount
      exact Lib.SizeT.eq_of_toSigned (by omega) hcount hn
  have hintact := hcompletes.intact
  rw [Intact] at hintact
  have htoNat : n.toNat = (s.receiveComplete size answers).block.length := by
    rw [hlength, Int.toNat_natCast]
  refine ⟨?_, ?_, ?_, ?_, fun hlt => ?_⟩
  · rw [htoNat, ← hintact, List.take_left]
  · rw [htoNat, ← hintact, List.drop_left]
  · rw [hlength, ← hintact, List.length_append]
    omega
  · omega
  · rcases hcompletes.short hends n hret with hfail | hall | hclosed
    · omega
    · omega
    · exact hclosed

/-- Two of three bytes are in the buffer when the peer closes the stream. -/
theorem receiveComplete_next_closed :
    (receiveComplete ⟨some [], ⟨[1, 2], 2, 0⟩⟩ 3 ⟨[.closed], []⟩).block = [1, 2] ∧
      RecvAnswer.closed ∈ [RecvAnswer.closed] := by
  have hwf : BufferedReader.WellFormed ⟨[1, 2], 2, 0⟩ := ⟨by decide, by decide, by decide⟩
  have hends : EndsLast (some []) [.closed] := ⟨fun _ => rfl, trivial⟩
  have hret : (receiveComplete ⟨some [], ⟨[1, 2], 2, 0⟩⟩ 3 ⟨[.closed], []⟩).retVal = some 2 := by
    have hheld : BufferedReader.fromBuffer ⟨[1, 2], 2, 0⟩ 3 =
        some (⟨2, [1, 2]⟩, ⟨[1, 2], 2, 2⟩) := by decide
    rw [receiveComplete, receiveLoop]
    simp only [hheld]
    rw [receiveLoop]
    rfl
  obtain ⟨hblock, -, -, -, hclosed⟩ := @receiveComplete_next ⟨some [], ⟨[1, 2], 2, 0⟩⟩ hwf 3
    (by decide) ⟨[.closed], []⟩ hends 2 hret (by decide)
  exact ⟨hblock, (hclosed (by decide)).2⟩

end SocketNonblocking
end DevScan.Stream
