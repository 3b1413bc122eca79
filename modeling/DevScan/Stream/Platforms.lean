import DevScan.Stream.ReceiveComplete
import DevScan.Stream.WindowsSocket

/-!
# `Stream/Platforms.lean` — the two `receiveComplete`s

Both loop over the same buffer. They agree as long as there is something to receive and an `int`
can count it: then each round asks for the same and gets the same (`receiveLoop_eq`). At the end
of the stream they part. Linux returns what has been received by then, as the header says;
Windows returns -1. And a length of 2³¹ or more is none that the Windows version can return.
-/

set_option autoImplicit false

namespace DevScan.Stream.Platforms

open Lib.Int32 (toInt)

/-- What a `::recv` comes to on either platform. -/
inductive Arrival where
  | data (count : Nat)
  | closed
  | wouldBlock
deriving DecidableEq, Repr

def Arrival.linux : Arrival → RecvAnswer
  | .data count => .data count
  | .closed => .closed
  | .wouldBlock => .failed eWouldBlock

def Arrival.windows : Arrival → RecvAnswer
  | .data count => .data count
  | .closed => .closed
  | .wouldBlock => .failed Windows.wsaEWouldBlock

/-- The arrivals, with `waits` waits that are successful. -/
def linuxAnswers (arrivals : List Arrival) (waits : Nat) : RecvAnswers :=
  ⟨arrivals.map Arrival.linux, List.replicate waits (.fds 1)⟩

def windowsAnswers (arrivals : List Arrival) (waits : Nat) : Windows.ReceiveAnswers :=
  ⟨arrivals.map Arrival.windows, List.replicate waits (.fds 1 true)⟩

/-- The two return the same value and write the same bytes. -/
def Agree (s : SocketNonblocking) (size : Nat) (arrivals : List Arrival) (waits : Nat) : Prop :=
  (s.receiveComplete size (linuxAnswers arrivals waits)).retVal =
      (Windows.receiveComplete s size (windowsAnswers arrivals waits)).retVal ∧
    (s.receiveComplete size (linuxAnswers arrivals waits)).block =
      (Windows.receiveComplete s size (windowsAnswers arrivals waits)).block

/-! ## As long as there is something to receive -/

/-- A connected descriptor brings the same on both, up to the code for nothing yet. -/
theorem recv_windows {e e' : Endpoint} (he : e.isSome) {a : Arrival} {received : Received}
    (hanswer : e.recv a.linux = (received, e')) :
    (∀ errno, received ≠ .failed errno) ∧ Windows.recv e a.windows = (received, e') ∨
      received = .failed eWouldBlock ∧ e' = e ∧
        Windows.recv e a.windows = (.failed Windows.wsaEWouldBlock, e) := by
  obtain ⟨inFlight, rfl⟩ := Option.isSome_iff_exists.mp he
  cases a with
  | data count =>
    by_cases hnil : inFlight = []
    · subst hnil
      obtain ⟨rfl, rfl⟩ := Prod.mk.inj hanswer
      exact Or.inr ⟨rfl, rfl, rfl⟩
    · simp only [Arrival.linux, Endpoint.recv, dif_neg hnil] at hanswer
      obtain ⟨rfl, rfl⟩ := Prod.mk.inj hanswer
      refine Or.inl ⟨by simp, ?_⟩
      simp only [Arrival.windows, Windows.recv, dif_neg hnil]
  | closed =>
    obtain ⟨rfl, rfl⟩ := Prod.mk.inj hanswer
    exact Or.inl ⟨by simp, rfl⟩
  | wouldBlock =>
    obtain ⟨rfl, rfl⟩ := Prod.mk.inj hanswer
    exact Or.inr ⟨rfl, rfl, rfl⟩

/-- A successful wait is one on both. -/
theorem pollLoop_replicate {waits : Nat} {err : Option Int} {polls : List PollResult}
    (hpoll : pollLoop (List.replicate waits (.fds 1)) = (err, polls)) :
    waits = 0 ∧ err = none ∨ ∃ waits', waits = waits' + 1 ∧ err = some 1 ∧
      polls = List.replicate waits' (.fds 1) := by
  cases waits with
  | zero => exact Or.inl ⟨rfl, (Prod.mk.inj hpoll).1.symm⟩
  | succ waits =>
    obtain ⟨rfl, rfl⟩ := Prod.mk.inj hpoll
    exact Or.inr ⟨waits, rfl, rfl, rfl⟩

theorem desired_of_lt {dataToGet : Nat} (h : dataToGet < Lib.Int32.bound) :
    Windows.desired dataToGet = dataToGet := by
  have hbound : Lib.Int32.bound < Lib.SizeT.modulus := by decide
  rw [Windows.desired, Lib.Int32.toInt_of_lt h, Lib.SizeT.ofSigned_natCast (by omega)]

open SocketNonblocking (pending)

/-- What a round brings is not pending any more. -/
theorem le_pending_of_round {s s' : SocketNonblocking} {sizeLeft : Nat} {reply : Reply}
    (hround : s.Round sizeLeft reply s') (hpos : 0 < reply.retVal)
    (hpending : sizeLeft ≤ s.pending.length) :
    sizeLeft - reply.retVal.toNat ≤ s'.pending.length := by
  have hlength := congrArg List.length hround.intact
  rw [List.length_append] at hlength
  rcases hround.retVal_eq with hcount | hfail
  · omega
  · omega

/-- The end stays the last thing there is. -/
theorem endsLast_of_recv {e e' : Endpoint} {answer : RecvAnswer} {recvs : List RecvAnswer}
    {received : Received} (hanswer : e.recv answer = (received, e'))
    (h : EndsLast e (answer :: recvs)) : EndsLast e' recvs := by
  have htail := h.2
  rwa [hanswer] at htail

/-- A connected descriptor fails for want of data only, and leaves everything as it is. -/
theorem would_of_refill {e e' : Endpoint} (he : e.isSome) {a : Arrival} {received : Received}
    (hanswer : e.recv a.linux = (received, e')) {r r' : BufferedReader} {size : Nat} {reply : Reply}
    (hrefill : r.refill size received = (reply, r')) (hpos : ¬0 < reply.retVal)
    (hzero : ¬reply.retVal = 0) :
    received.errno = eWouldBlock ∧ e' = e ∧ r' = r ∧
      Windows.recv e a.windows = (.failed Windows.wsaEWouldBlock, e) := by
  obtain ⟨errno, rfl⟩ := SocketNonblocking.failed_of_refill hrefill hpos hzero
  rcases recv_windows he hanswer with ⟨hnot, -⟩ | ⟨hwould, hsame, hwindows⟩
  · exact absurd rfl (hnot errno)
  · obtain rfl := Received.failed.inj hwould
    exact ⟨rfl, hsame, (Prod.mk.inj hrefill).2.symm, hwindows⟩

/-! The rounds on Windows that the ones on Linux are compared with. -/

section WindowsRounds

variable {size sizeLeft : Nat} {a : Arrival} {arrivals : List Arrival}
  {selects : List Windows.SelectResult} {s : SocketNonblocking}

theorem windowsLoop_held {recvs : List RecvAnswer} {reply : Reply} {reader : BufferedReader}
    (hleft : ¬sizeLeft = 0) (hlt : sizeLeft < Lib.Int32.bound)
    (hfrom : s.bufferedReader.fromBuffer sizeLeft = some (reply, reader)) (hpos : 0 < reply.retVal) :
    Windows.receiveLoop size sizeLeft recvs selects s =
      (Windows.receiveLoop size (sizeLeft - reply.retVal.toNat) recvs selects
        { s with bufferedReader := reader }).after reply.block := by
  rw [Windows.receiveLoop.eq_def, dif_neg hleft, desired_of_lt hlt, hfrom]
  exact if_pos hpos

theorem windowsLoop_received {received : Received} {endpoint : Endpoint} {reply : Reply}
    {reader : BufferedReader} (hleft : ¬sizeLeft = 0) (hlt : sizeLeft < Lib.Int32.bound)
    (hfrom : s.bufferedReader.fromBuffer sizeLeft = none)
    (hanswer : Windows.recv s.endpoint a.windows = (received, endpoint))
    (hrefill : s.bufferedReader.refill sizeLeft received = (reply, reader))
    (hpos : 0 < reply.retVal) :
    Windows.receiveLoop size sizeLeft ((a :: arrivals).map Arrival.windows) selects s =
      (Windows.receiveLoop size (sizeLeft - reply.retVal.toNat) (arrivals.map Arrival.windows)
        selects ⟨endpoint, reader⟩).after reply.block := by
  rw [Windows.receiveLoop.eq_def, dif_neg hleft, desired_of_lt hlt, hfrom]
  simp only [List.map_cons, hanswer, hrefill]
  exact if_pos hpos

theorem windowsLoop_would (hleft : ¬sizeLeft = 0) (hlt : sizeLeft < Lib.Int32.bound)
    (hfrom : s.bufferedReader.fromBuffer sizeLeft = none)
    (hanswer : Windows.recv s.endpoint a.windows = (.failed Windows.wsaEWouldBlock, s.endpoint)) :
    Windows.receiveLoop size sizeLeft ((a :: arrivals).map Arrival.windows)
        (.fds 1 true :: selects) s =
      Windows.receiveLoop size sizeLeft (arrivals.map Arrival.windows) selects s := by
  rw [Windows.receiveLoop.eq_def, dif_neg hleft, desired_of_lt hlt, hfrom]
  simp only [List.map_cons, hanswer]
  rfl

/-- No wait is left. -/
theorem windowsLoop_would_nil (hleft : ¬sizeLeft = 0) (hlt : sizeLeft < Lib.Int32.bound)
    (hfrom : s.bufferedReader.fromBuffer sizeLeft = none)
    (hanswer : Windows.recv s.endpoint a.windows = (.failed Windows.wsaEWouldBlock, s.endpoint)) :
    Windows.receiveLoop size sizeLeft ((a :: arrivals).map Arrival.windows) [] s =
      ⟨none, [], s⟩ := by
  rw [Windows.receiveLoop.eq_def, dif_neg hleft, desired_of_lt hlt, hfrom]
  simp only [List.map_cons, hanswer]
  rfl

theorem windowsLoop_nil (hleft : ¬sizeLeft = 0) (hlt : sizeLeft < Lib.Int32.bound)
    (hfrom : s.bufferedReader.fromBuffer sizeLeft = none) :
    Windows.receiveLoop size sizeLeft [] selects s = ⟨none, [], s⟩ := by
  rw [Windows.receiveLoop.eq_def, dif_neg hleft, desired_of_lt hlt, hfrom]

end WindowsRounds

/-- **Round by round the same**, while at least as much is pending as is asked for. -/
theorem receiveLoop_eq {size sizeLeft : Nat} (hsize : size < Lib.Int32.bound)
    (hle : sizeLeft ≤ size) {arrivals : List Arrival} {waits : Nat} {s : SocketNonblocking}
    (h : s.bufferedReader.WellFormed) (he : s.endpoint.isSome)
    (hends : EndsLast s.endpoint (arrivals.map Arrival.linux))
    (hpending : sizeLeft ≤ s.pending.length) :
    Windows.receiveLoop size sizeLeft (arrivals.map Arrival.windows)
        (List.replicate waits (.fds 1 true)) s =
      SocketNonblocking.receiveLoop size sizeLeft (arrivals.map Arrival.linux)
        (List.replicate waits (.fds 1)) s := by
  have hbound : Lib.Int32.bound < Lib.SizeT.signedBound := by decide
  have hlt : ∀ {sizeLeft}, sizeLeft ≤ size → sizeLeft < Lib.Int32.bound := fun hle =>
    Nat.lt_of_le_of_lt hle hsize
  generalize hrecvs : arrivals.map Arrival.linux = recvs at hends ⊢
  generalize hpolls : List.replicate waits (PollResult.fds 1) = polls
  fun_induction SocketNonblocking.receiveLoop size sizeLeft recvs polls s
    generalizing arrivals waits with
  | case1 recvs polls s =>
    rw [Windows.receiveLoop.eq_def, dif_pos rfl, Lib.Int32.toInt_of_lt hsize,
      Lib.SizeT.toSigned_of_lt (by omega)]
  | case2 sizeLeft recvs polls s hleft reply reader hfrom hpos ih =>
    have hround := SocketNonblocking.round_of_fromBuffer h hfrom
    have hrest := ih (by omega) hround.wellFormed he
      (le_pending_of_round hround hpos hpending) hrecvs hends hpolls
    rw [windowsLoop_held hleft (hlt hle) hfrom hpos, hrest]
  | case3 sizeLeft recvs polls s hleft reply reader hfrom hpos =>
    exact absurd (SocketNonblocking.fromBuffer_pos h hleft hfrom) hpos
  | case4 sizeLeft polls s hleft hfrom =>
    obtain rfl := List.map_eq_nil_iff.mp hrecvs
    exact windowsLoop_nil hleft (hlt hle) hfrom
  | case5 sizeLeft polls s hleft hfrom answer recvs received endpoint hanswer reply reader hrefill
      hpos ih =>
    obtain ⟨a, arrivals, rfl, rfl, rfl⟩ := List.map_eq_cons_iff.mp hrecvs
    rcases recv_windows he hanswer with ⟨-, hsame⟩ | ⟨rfl, -, -⟩
    · have hround := SocketNonblocking.round_of_refill h hfrom hanswer hrefill
      have he' : endpoint.isSome := by
        have hconnected := SocketNonblocking.endpoint_recv_isSome s.endpoint a.linux
        rwa [hanswer, he] at hconnected
      have hrest := ih (by omega) hround.wellFormed he' (le_pending_of_round hround hpos hpending)
        rfl (endsLast_of_recv hanswer hends) hpolls
      rw [windowsLoop_received hleft (hlt hle) hfrom hsame hrefill hpos, hrest]
    · obtain ⟨rfl, -⟩ := Prod.mk.inj hrefill
      exact absurd hpos (by decide)
  | case6 sizeLeft polls s hleft hfrom answer recvs received endpoint hanswer reply reader hrefill
      hpos hzero =>
    -- the end of the stream: nothing is pending
    obtain ⟨rfl, rfl⟩ := SocketNonblocking.closed_of_refill hleft hrefill hzero
    obtain ⟨rfl, rfl⟩ := SocketNonblocking.endpoint_recv_closed hanswer
    have hnone : s.pending = [] := by
      rw [pending, SocketNonblocking.unread_of_asked h hfrom, hends.1 rfl]
      rfl
    rw [hnone] at hpending
    exact absurd (Nat.le_zero.mp hpending) hleft
  | case7 sizeLeft polls s hleft hfrom answer recvs received endpoint hanswer reply reader hrefill
      hpos hzero hagain polls' hpoll =>
    obtain ⟨a, arrivals, rfl, rfl, rfl⟩ := List.map_eq_cons_iff.mp hrecvs
    obtain ⟨-, rfl, rfl, hwould⟩ := would_of_refill he hanswer hrefill hpos hzero
    rw [← hpolls] at hpoll
    rcases pollLoop_replicate hpoll with ⟨rfl, -⟩ | ⟨waits', -, hone, -⟩
    · exact windowsLoop_would_nil hleft (hlt hle) hfrom hwould
    · exact absurd hone (by simp)
  | case8 sizeLeft polls s hleft hfrom answer recvs received endpoint hanswer reply reader hrefill
      hpos hzero hagain nfds polls' hpoll hready =>
    rw [← hpolls] at hpoll
    rcases pollLoop_replicate hpoll with ⟨-, hnone⟩ | ⟨waits', -, hone, -⟩
    · exact absurd hnone (by simp)
    · exact absurd (Option.some.inj hone) hready
  | case9 sizeLeft polls s hleft hfrom answer recvs received endpoint hanswer reply reader hrefill
      hpos hzero hagain nfds polls' hpoll hready ih =>
    obtain ⟨a, arrivals, rfl, rfl, rfl⟩ := List.map_eq_cons_iff.mp hrecvs
    obtain ⟨-, rfl, rfl, hwould⟩ := would_of_refill he hanswer hrefill hpos hzero
    rw [← hpolls] at hpoll
    rcases pollLoop_replicate hpoll with ⟨-, hnone⟩ | ⟨waits', rfl, -, rfl⟩
    · exact absurd hnone (by simp)
    · have hrest := ih hle h he hpending rfl (endsLast_of_recv hanswer hends) rfl
      rw [List.replicate_succ, windowsLoop_would hleft (hlt hle) hfrom hwould, hrest]
  | case10 sizeLeft polls s hleft hfrom answer recvs received endpoint hanswer reply reader hrefill
      hpos hzero hagain =>
    obtain ⟨a, arrivals, rfl, rfl, rfl⟩ := List.map_eq_cons_iff.mp hrecvs
    obtain ⟨hwould, -, -, -⟩ := would_of_refill he hanswer hrefill hpos hzero
    exact absurd (Or.inl hwould) hagain

/-! ## Where they part -/

/-- What a call on Windows comes to: it has stored what was asked for and returns that length as
an `int`, or it returns -1 with less. The length is below 2³² then. -/
structure Ends (len dataToGet : Nat) (c : Completion) : Prop where
  ends : ∀ retVal, c.retVal = some retVal →
    retVal = -1 ∧ c.block.length < dataToGet ∨
      retVal = toInt len ∧ c.block.length = dataToGet ∧ dataToGet < Lib.Int32.modulus

/-- What a round brings is not more than the residue of what is left to get. -/
theorem le_mod_of_desired {dataToGet k : Nat} (hk : k ≤ Windows.desired dataToGet)
    (hbuffer : k ≤ bufferSize) : k ≤ dataToGet % Lib.Int32.modulus := by
  have hmodulus : Lib.Int32.modulus < Lib.SizeT.modulus := by decide
  have hmod : dataToGet % Lib.Int32.modulus < Lib.Int32.modulus := Nat.mod_lt _ (by decide)
  have hsmall : bufferSize < Lib.Int32.bound := by decide
  rw [Windows.desired, toInt] at hk
  split at hk
  · rwa [Lib.SizeT.ofSigned_natCast (by omega)] at hk
  · omega

theorem lt_of_sub_lt {dataToGet k : Nat} (hk : k ≤ dataToGet % Lib.Int32.modulus)
    (hlt : dataToGet - k < Lib.Int32.modulus) : dataToGet < Lib.Int32.modulus := by
  refine Nat.lt_of_not_le fun hle => ?_
  have hdiv := Nat.div_add_mod dataToGet Lib.Int32.modulus
  have hpos : 0 < dataToGet / Lib.Int32.modulus := Nat.div_pos hle (by decide)
  have hmul := Nat.le_mul_of_pos_right Lib.Int32.modulus hpos
  omega

namespace Ends

variable {len dataToGet : Nat} {c : Completion}

theorem failed (hleft : ¬dataToGet = 0) {retVal : Option Int} (hret : retVal = none ∨ retVal = some (-1))
    (s : SocketNonblocking) : Ends len dataToGet ⟨retVal, [], s⟩ := by
  refine ⟨fun v hv => Or.inl ⟨?_, Nat.pos_of_ne_zero hleft⟩⟩
  rcases hret with rfl | rfl
  · exact absurd hv (by simp)
  · exact (Option.some.inj hv).symm

/-- A round has brought bytes. -/
theorem more {reply : Reply} (hcount : reply.retVal = reply.block.length)
    (hdesired : reply.block.length ≤ Windows.desired dataToGet)
    (hbuffer : reply.block.length ≤ bufferSize)
    (h : Ends len (dataToGet - reply.retVal.toNat) c) : Ends len dataToGet (c.after reply.block) := by
  have hmod := le_mod_of_desired hdesired hbuffer
  have hle := Nat.mod_le dataToGet Lib.Int32.modulus
  rw [hcount, Int.toNat_natCast] at h
  refine ⟨fun v hv => ?_⟩
  rw [Completion.after, List.length_append]
  rcases h.ends v hv with ⟨hfail, hlt⟩ | ⟨hlen, hall, hlt⟩
  · exact Or.inl ⟨hfail, by omega⟩
  · exact Or.inr ⟨hlen, by omega, lt_of_sub_lt hmod hlt⟩

end Ends

theorem fromBuffer_block {r r' : BufferedReader} (h : r.WellFormed) {size : Nat} {reply : Reply}
    (hfrom : r.fromBuffer size = some (reply, r')) :
    reply.retVal = reply.block.length ∧ reply.block.length ≤ size ∧
      reply.block.length ≤ bufferSize := by
  have hunread := h.length_unread
  have hfill := h.fillLevel_le
  rw [h.fromBuffer_eq] at hfrom
  split at hfrom
  · exact absurd hfrom (by simp)
  · obtain ⟨rfl, -⟩ := Prod.mk.inj (Option.some.inj hfrom)
    refine ⟨rfl, ?_, ?_⟩
    · rw [List.length_take]
      omega
    · rw [List.length_take]
      omega

theorem refill_block {r r' : BufferedReader} {size : Nat} {received : Received} {reply : Reply}
    (hrefill : r.refill size received = (reply, r')) (hpos : 0 < reply.retVal) :
    reply.retVal = reply.block.length ∧ reply.block.length ≤ size ∧
      reply.block.length ≤ bufferSize ∧ r'.WellFormed := by
  cases received with
  | failed errno =>
    obtain ⟨rfl, -⟩ := Prod.mk.inj hrefill
    exact absurd hpos (by decide)
  | closed =>
    obtain ⟨rfl, -⟩ := Prod.mk.inj hrefill
    exact absurd hpos (by decide)
  | data chunk =>
    obtain ⟨r'', heq, hwf, -⟩ := r.refill_data size chunk
    rw [heq] at hrefill
    obtain ⟨rfl, rfl⟩ := Prod.mk.inj hrefill
    have hfits := chunk.fits
    refine ⟨rfl, ?_, ?_, hwf⟩
    · rw [List.length_take]
      omega
    · rw [List.length_take]
      omega

theorem windows_ends {len dataToGet : Nat} {recvs : List RecvAnswer}
    {selects : List Windows.SelectResult} {s : SocketNonblocking} (h : s.bufferedReader.WellFormed) :
    Ends len dataToGet (Windows.receiveLoop len dataToGet recvs selects s) := by
  fun_induction Windows.receiveLoop len dataToGet recvs selects s with
  | case1 recvs selects s =>
    exact ⟨fun v hv => Or.inr ⟨(Option.some.inj hv).symm, rfl, by decide⟩⟩
  | case2 dataToGet recvs selects s hleft reply reader hfrom hpos ih =>
    obtain ⟨hcount, hdesired, hbuffer⟩ := fromBuffer_block h hfrom
    exact .more hcount hdesired hbuffer (ih (SocketNonblocking.round_of_fromBuffer h hfrom).wellFormed)
  | case5 dataToGet selects s hleft hfrom answer recvs received endpoint hanswer reply reader hrefill
      hpos ih =>
    obtain ⟨hcount, hdesired, hbuffer, hwf⟩ := refill_block hrefill hpos
    exact .more hcount hdesired hbuffer (ih hwf)
  | case9 dataToGet selects s hleft hfrom answer recvs received endpoint hanswer reply reader hrefill
      hpos hzero hagain err selects' hselect hready ih =>
    obtain ⟨errno, rfl⟩ := SocketNonblocking.failed_of_refill hrefill hpos hzero
    obtain ⟨-, rfl⟩ := Prod.mk.inj hrefill
    exact ih h
  | case4 dataToGet selects s hleft hfrom => exact .failed hleft (Or.inl rfl) _
  | case7 dataToGet selects s hleft => exact .failed hleft (Or.inl rfl) _
  | case3 dataToGet recvs selects s hleft => exact .failed hleft (Or.inr rfl) _
  | case6 dataToGet selects s hleft => exact .failed hleft (Or.inr rfl) _
  | case8 dataToGet selects s hleft => exact .failed hleft (Or.inr rfl) _
  | case10 dataToGet selects s hleft => exact .failed hleft (Or.inr rfl) _

/-- What is in flight arrives byte by byte, and then the peer closes the stream. -/
def byteByByte : List UInt8 → List Arrival
  | [] => [.closed]
  | _ :: inFlight => .data 1 :: byteByByte inFlight

theorem recv_one (byte : UInt8) (inFlight : List UInt8) :
    ∃ chunk, Endpoint.recv (some (byte :: inFlight)) (.data 1) = (.data chunk, some inFlight) := by
  refine ⟨nextChunk (byte :: inFlight) 1 (List.cons_ne_nil _ _), ?_⟩
  simp only [Endpoint.recv, dif_neg (List.cons_ne_nil byte inFlight)]
  rfl

theorem endsLast_byteByByte (inFlight : List UInt8) :
    EndsLast (some inFlight) ((byteByByte inFlight).map Arrival.linux) := by
  induction inFlight with
  | nil => exact ⟨fun _ => rfl, trivial⟩
  | cons byte inFlight ih =>
    obtain ⟨chunk, hchunk⟩ := recv_one byte inFlight
    refine ⟨fun h => absurd h (by simp [Arrival.linux]), ?_⟩
    show EndsLast (Endpoint.recv (some (byte :: inFlight)) (.data 1)).2 _
    rw [hchunk]
    exact ih

theorem sound_byteByByte (inFlight : List UInt8) :
    Sound (some inFlight) ((byteByByte inFlight).map Arrival.linux) [] := by
  refine ⟨rfl, fun errno hmem => ?_, fun p hp => absurd hp (by simp)⟩
  induction inFlight with
  | nil => exact absurd hmem (by simp [byteByByte, Arrival.linux])
  | cons byte inFlight ih => exact ih (by simpa [byteByByte, Arrival.linux] using hmem)

theorem recv_byteByByte {inFlight : List UInt8} {answer : RecvAnswer} {recvs : List RecvAnswer}
    (h : (byteByByte inFlight).map Arrival.linux = answer :: recvs) :
    Endpoint.recv (some inFlight) answer = (.closed, some inFlight) ∨
      ∃ chunk inFlight', Endpoint.recv (some inFlight) answer = (.data chunk, some inFlight') ∧
        (byteByByte inFlight').map Arrival.linux = recvs := by
  cases inFlight with
  | nil =>
    obtain ⟨rfl, -⟩ := List.cons.inj h
    exact Or.inl rfl
  | cons byte inFlight =>
    obtain ⟨rfl, hrecvs⟩ := List.cons.inj h
    obtain ⟨chunk, hchunk⟩ := recv_one byte inFlight
    exact Or.inr ⟨chunk, inFlight, hchunk, hrecvs⟩

/-- Then Linux returns. -/
theorem receiveLoop_returns {size sizeLeft : Nat} {polls : List PollResult} {inFlight : List UInt8}
    {s : SocketNonblocking} (he : s.endpoint = some inFlight) :
    (SocketNonblocking.receiveLoop size sizeLeft ((byteByByte inFlight).map Arrival.linux) polls
      s).retVal ≠ none := by
  generalize hrecvs : (byteByByte inFlight).map Arrival.linux = recvs
  have hreceived : ∀ {r r' : BufferedReader} {size : Nat} {inFlight : List UInt8}
      {answer : RecvAnswer} {recvs : List RecvAnswer} {received : Received} {endpoint : Endpoint}
      {reply : Reply}, (byteByByte inFlight).map Arrival.linux = answer :: recvs →
      Endpoint.recv (some inFlight) answer = (received, endpoint) →
      r.refill size received = (reply, r') → ¬0 < reply.retVal → reply.retVal = 0 := by
    intro r r' size inFlight answer recvs received endpoint reply hrecvs hanswer hrefill hpos
    refine Classical.byContradiction fun hzero => ?_
    obtain ⟨errno, rfl⟩ := SocketNonblocking.failed_of_refill hrefill hpos hzero
    rcases recv_byteByByte hrecvs with hclosed | ⟨chunk, inFlight', hdata, -⟩
    · exact absurd (hanswer.symm.trans hclosed) (by simp)
    · exact absurd (hanswer.symm.trans hdata) (by simp)
  fun_induction SocketNonblocking.receiveLoop size sizeLeft recvs polls s generalizing inFlight with
  | case2 sizeLeft recvs polls s hleft reply reader hfrom hpos ih => exact ih he hrecvs
  | case4 sizeLeft polls s hleft hfrom =>
    cases inFlight <;> exact absurd hrecvs (by simp [byteByByte])
  | case5 sizeLeft polls s hleft hfrom answer recvs received endpoint hanswer reply reader hrefill
      hpos ih =>
    rw [he] at hanswer
    rcases recv_byteByByte hrecvs with hclosed | ⟨chunk, inFlight', hdata, hrest⟩
    · obtain ⟨rfl, -⟩ := Prod.mk.inj (hanswer.symm.trans hclosed)
      obtain ⟨rfl, -⟩ := Prod.mk.inj hrefill
      exact absurd hpos (by decide)
    · obtain ⟨-, rfl⟩ := Prod.mk.inj (hanswer.symm.trans hdata)
      exact ih rfl hrest
  | case7 sizeLeft polls s hleft hfrom answer recvs received endpoint hanswer reply reader hrefill
      hpos hzero =>
    exact absurd (hreceived hrecvs (he ▸ hanswer) hrefill hpos) hzero
  | case9 sizeLeft polls s hleft hfrom answer recvs received endpoint hanswer reply reader hrefill
      hpos hzero =>
    exact absurd (hreceived hrecvs (he ▸ hanswer) hrefill hpos) hzero
  | _ => simp

/-- **When the two agree.** For a stream the peer closes at some point, whatever it is cut into
and however often there is nothing yet: exactly if the bytes asked for come before that, and an
`int` can count them. -/
theorem receiveComplete_agree_iff {s : SocketNonblocking} (h : s.bufferedReader.WellFormed)
    {inFlight : List UInt8} (he : s.endpoint = some inFlight) {size : Nat}
    (hsize : size < Lib.SizeT.modulus) :
    (∀ arrivals waits, EndsLast (some inFlight) (arrivals.map Arrival.linux) →
      Agree s size arrivals waits) ↔ size ≤ s.pending.length ∧ size < Lib.Int32.bound := by
  constructor
  · intro hagree
    -- the stream byte by byte, and then its end
    obtain ⟨hvalue, hblock⟩ := hagree (byteByByte inFlight) 0 (endsLast_byteByByte inFlight)
    have hcompletes : SocketNonblocking.Completes size size
        ((byteByByte inFlight).map Arrival.linux) [] s
        (s.receiveComplete size (linuxAnswers (byteByByte inFlight) 0)) :=
      SocketNonblocking.receiveLoop_completes h (Nat.le_refl size)
    have hwindows : Ends size size
        (Windows.receiveComplete s size (windowsAnswers (byteByByte inFlight) 0)) := windows_ends h
    have hsound := sound_byteByByte inFlight
    rw [← he] at hsound
    have hlength := congrArg List.length hcompletes.intact
    rw [List.length_append] at hlength
    have hle := hcompletes.block_le
    have hmodulus : Lib.Int32.modulus < Lib.SizeT.signedBound := by decide
    have hint := Lib.Int32.toInt_lt size
    cases hret : (s.receiveComplete size (linuxAnswers (byteByByte inFlight) 0)).retVal with
    | none => exact absurd hret (receiveLoop_returns he)
    | some retVal =>
      have hlinux := (hcompletes.counts hsize retVal hret).resolve_left fun hfail => hfail.2 hsound
      rw [Nat.sub_self, Nat.zero_add] at hlinux
      rcases hwindows.ends retVal (hvalue ▸ hret) with ⟨hfail, hlt⟩ | ⟨hlen, hall, hlt⟩
      · -- -1 is no number of bytes below the size
        rw [← hblock] at hlt
        exact absurd (hfail.symm.trans hlinux) (Lib.SizeT.toSigned_ne_neg_one (by omega))
      · rw [← hblock] at hall
        rw [hall, Lib.SizeT.toSigned_of_lt (by omega)] at hlinux
        exact ⟨by omega, by omega⟩
  · rintro ⟨hpending, hlt⟩ arrivals waits hends
    rw [← he] at hends
    have heq := @receiveLoop_eq size size hlt (Nat.le_refl size) arrivals waits s h (by rw [he]; rfl)
      hends hpending
    exact ⟨congrArg Completion.retVal heq.symm, congrArg Completion.block heq.symm⟩

/-- Four bytes, two of them in the buffer, and four asked for. -/
theorem receiveComplete_agree_four :
    Agree ⟨some [3, 4], ⟨[1, 2], 2, 0⟩⟩ 4 [.data 1, .wouldBlock, .data 1] 1 := by
  have hwf : BufferedReader.WellFormed ⟨[1, 2], 2, 0⟩ := ⟨by decide, by decide, by decide⟩
  have hends : EndsLast (some [3, 4])
      ([.data 1, .wouldBlock, .data 1].map Arrival.linux) := by
    refine ⟨fun h => absurd h ?_, fun h => absurd h ?_, fun h => absurd h ?_, trivial⟩ <;> decide
  exact (@receiveComplete_agree_iff ⟨some [3, 4], ⟨[1, 2], 2, 0⟩⟩ hwf [3, 4] rfl 4
    (by decide)).mpr (by decide) _ _ hends

/-- The peer closes the stream after one of two bytes: Linux returns 1 and Windows -1. -/
theorem receiveComplete_differs :
    EndsLast (some []) ([Arrival.closed].map Arrival.linux) ∧
      ¬Agree ⟨some [], ⟨[1], 1, 0⟩⟩ 2 [.closed] 0 := by
  refine ⟨⟨fun _ => rfl, trivial⟩, fun hagree => ?_⟩
  have hheld : BufferedReader.fromBuffer ⟨[1], 1, 0⟩ 2 = some (⟨1, [1]⟩, ⟨[1], 1, 1⟩) := by decide
  have hasked : BufferedReader.fromBuffer ⟨[1], 1, 1⟩ 1 = none := by decide
  have hlinux : (SocketNonblocking.receiveComplete ⟨some [], ⟨[1], 1, 0⟩⟩ 2
      (linuxAnswers [.closed] 0)).retVal = some 1 := by
    rw [SocketNonblocking.receiveComplete, SocketNonblocking.receiveLoop.eq_def]
    simp only [hheld]
    rw [SocketNonblocking.receiveLoop.eq_def]
    simp [hasked, linuxAnswers, Arrival.linux, Endpoint.recv, BufferedReader.refill,
      Completion.after]
    rfl
  have hwindows : (Windows.receiveComplete ⟨some [], ⟨[1], 1, 0⟩⟩ 2
      (windowsAnswers [.closed] 0)).retVal = some (-1) := by
    rw [Windows.receiveComplete, windowsLoop_held (by decide) (by decide) hheld (by decide),
      Windows.receiveLoop.eq_def]
    simp [hasked, desired_of_lt (show 1 < Lib.Int32.bound by decide), windowsAnswers,
      Arrival.windows, Windows.recv, BufferedReader.refill, Completion.after]
  exact absurd (hlinux.symm.trans (hagree.1.trans hwindows)) (by decide)

end DevScan.Stream.Platforms
