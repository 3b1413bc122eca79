import DevScan.Lib.Flow
import DevScan.Lib.Runs
import DevScan.Lib.SizeT

/-!
# `Stream/BufferedReader.lean` — the read-ahead buffer

`hbm/communication/bufferedreader.cpp`. A reader asks the kernel for as much as its buffer takes,
hands out what was asked for and keeps the rest for the next call.

The kernel's answer is an argument of `recv`; whether the kernel is asked at all is the branch
`fromBuffer` decides. The two indices are `size_t`, and their difference is taken modulo 2⁶⁴ as
the code takes it; that it never wraps is part of the invariant (`WellFormed`).
-/

set_option autoImplicit false

namespace DevScan.Stream

open Lib (Intact)

/-- `errno` -/
abbrev Errno := Nat

/-- `sizeof(m_buffer)` -/
def bufferSize : Nat := 65536 * 4

/-- What a successful `::recv` of a non-empty buffer brings: at least a byte, at most what fits. -/
structure Chunk where
  bytes : List UInt8
  ne : bytes ≠ []
  fits : bytes.length ≤ bufferSize

/-- The result of `::recv(sockfd, m_buffer, sizeof(m_buffer), flags)`. -/
inductive Received where
  | data (chunk : Chunk)
  | closed
  | failed (errno : Errno)

namespace Received

def bytes : Received → List UInt8
  | .data chunk => chunk.bytes
  | _ => []

/-- What `::recv` itself returns. -/
def retVal : Received → Int
  | .data chunk => chunk.bytes.length
  | .closed => 0
  | .failed _ => -1

/-- The `errno` of a failure; otherwise it is not looked at. -/
def errno : Received → Errno
  | .failed errno => errno
  | _ => 0

end Received

/-- What `BufferedReader::recv` returns, and what it has copied to `buf`. -/
structure Reply where
  retVal : Int
  block : List UInt8
deriving DecidableEq, Repr

structure BufferedReader where
  buffer : List UInt8
  fillLevel : Nat
  alreadyRead : Nat
deriving DecidableEq, Repr

namespace BufferedReader

/-- The constructor leaves `m_buffer` as the memory was. -/
def construct (memory : List UInt8) : BufferedReader := ⟨memory, 0, 0⟩

def bytesLeft (r : BufferedReader) : Nat := Lib.SizeT.sub r.fillLevel r.alreadyRead

/-- `m_buffer[m_alreadyRead, m_fillLevel)` -/
def unread (r : BufferedReader) : List UInt8 :=
  (r.buffer.drop r.alreadyRead).take (r.fillLevel - r.alreadyRead)

/-- The part of `recv` before the kernel is asked; `none` if it has to be. -/
def fromBuffer (r : BufferedReader) (desiredLen : Nat) : Option (Reply × BufferedReader) :=
  if desiredLen ≤ r.bytesLeft then
    some (⟨Lib.SizeT.toSigned desiredLen, (r.buffer.drop r.alreadyRead).take desiredLen⟩,
      { r with alreadyRead := Lib.SizeT.add r.alreadyRead desiredLen })
  else if 0 < r.bytesLeft then
    some (⟨Lib.SizeT.toSigned r.bytesLeft, (r.buffer.drop r.alreadyRead).take r.bytesLeft⟩,
      { r with alreadyRead := r.fillLevel })
  else none

/-- The rest of `recv`, with what the kernel answered. -/
def refill (r : BufferedReader) (desiredLen : Nat) : Received → Reply × BufferedReader
  | .failed _ => (⟨-1, []⟩, r)
  | .closed => (⟨0, []⟩, r)
  | .data chunk =>
    let buffer := chunk.bytes ++ r.buffer.drop chunk.bytes.length
    let fillLevel := chunk.bytes.length
    let alreadyRead := if desiredLen ≤ fillLevel then desiredLen else fillLevel
    (⟨Lib.SizeT.toSigned alreadyRead, buffer.take alreadyRead⟩, ⟨buffer, fillLevel, alreadyRead⟩)

def recv (r : BufferedReader) (desiredLen : Nat) (received : Received) : Reply × BufferedReader :=
  match r.fromBuffer desiredLen with
  | some result => result
  | none => r.refill desiredLen received

/-- The bytes the kernel delivers in a call: none if it is not asked. -/
def fetched (r : BufferedReader) (desiredLen : Nat) (received : Received) : List UInt8 :=
  match r.fromBuffer desiredLen with
  | some _ => []
  | none => received.bytes

/-! ## The invariant

The indices bound a part of the buffer that the kernel has filled. -/

structure WellFormed (r : BufferedReader) : Prop where
  alreadyRead_le : r.alreadyRead ≤ r.fillLevel
  fillLevel_le : r.fillLevel ≤ bufferSize
  filled : r.fillLevel ≤ r.buffer.length

theorem wellFormed_construct (memory : List UInt8) : (construct memory).WellFormed :=
  ⟨Nat.le_refl 0, Nat.zero_le _, Nat.zero_le _⟩

namespace WellFormed

variable {r : BufferedReader}

theorem fillLevel_lt (h : r.WellFormed) : r.fillLevel < Lib.SizeT.signedBound :=
  Nat.lt_of_le_of_lt h.fillLevel_le (by decide)

theorem fillLevel_lt_modulus (h : r.WellFormed) : r.fillLevel < Lib.SizeT.modulus :=
  Nat.lt_trans h.fillLevel_lt Lib.SizeT.signedBound_lt_modulus

theorem length_unread (h : r.WellFormed) : r.unread.length = r.fillLevel - r.alreadyRead := by
  have := h.filled
  rw [unread, List.length_take, List.length_drop]
  omega

/-- The difference of the indices does not wrap. -/
theorem bytesLeft_eq (h : r.WellFormed) : r.bytesLeft = r.unread.length := by
  rw [h.length_unread]
  exact Lib.SizeT.sub_of_le h.alreadyRead_le h.fillLevel_lt_modulus

theorem drop_take (h : r.WellFormed) {n : Nat} (hn : n ≤ r.unread.length) :
    (r.buffer.drop r.alreadyRead).take n = r.unread.take n := by
  rw [h.length_unread] at hn
  rw [unread, List.take_take, Nat.min_eq_left hn]

/-- Reading on: the first `n` unread bytes become read ones. -/
theorem advance (h : r.WellFormed) {n : Nat} (hn : n ≤ r.unread.length) :
    WellFormed { r with alreadyRead := r.alreadyRead + n } ∧
      unread { r with alreadyRead := r.alreadyRead + n } = r.unread.drop n := by
  rw [h.length_unread] at hn
  have hle := h.alreadyRead_le
  refine ⟨⟨?_, h.fillLevel_le, h.filled⟩, ?_⟩
  · simp only
    omega
  · simp only [unread, List.drop_take, List.drop_drop]
    congr 1
    omega

end WellFormed

/-! ## What one call does -/

/-- What is held is handed out without the kernel. -/
theorem WellFormed.fromBuffer_eq {r : BufferedReader} (h : r.WellFormed) (desiredLen : Nat) :
    r.fromBuffer desiredLen =
      if r.unread = [] ∧ 0 < desiredLen then none
      else some (⟨(r.unread.take desiredLen).length, r.unread.take desiredLen⟩,
        { r with alreadyRead := r.alreadyRead + min desiredLen r.unread.length }) := by
  have hlen := h.length_unread
  have hsigned := h.fillLevel_lt
  have hmodulus := h.fillLevel_lt_modulus
  have hle := h.alreadyRead_le
  unfold fromBuffer
  rw [h.bytesLeft_eq]
  by_cases hall : desiredLen ≤ r.unread.length
  · have hnot : ¬(r.unread = [] ∧ 0 < desiredLen) := by
      intro hasks
      rw [hasks.1] at hall
      exact absurd hall (Nat.not_le.mpr hasks.2)
    have hadd : Lib.SizeT.add r.alreadyRead desiredLen = r.alreadyRead + desiredLen :=
      Lib.SizeT.add_of_lt (by omega)
    rw [if_pos hall, if_neg hnot, h.drop_take hall, hadd, Nat.min_eq_left hall, List.length_take,
      Nat.min_eq_left hall, Lib.SizeT.toSigned_of_lt (by omega)]
  · rw [if_neg hall]
    have hall := Nat.lt_of_not_le hall
    by_cases hsome : 0 < r.unread.length
    · have hnot : ¬(r.unread = [] ∧ 0 < desiredLen) := fun hasks =>
        absurd hasks.1 (List.ne_nil_of_length_pos hsome)
      have hend : r.alreadyRead + min desiredLen r.unread.length = r.fillLevel := by omega
      rw [if_pos hsome, if_neg hnot, h.drop_take (Nat.le_refl _), hend,
        List.take_of_length_le (Nat.le_refl _), List.take_of_length_le (Nat.le_of_lt hall),
        Lib.SizeT.toSigned_of_lt (by omega)]
    · have hnil : r.unread = [] := List.eq_nil_of_length_eq_zero (by omega)
      rw [if_neg hsome, if_pos ⟨hnil, by omega⟩]

/-- A call that finds something held, or wants nothing. -/
theorem WellFormed.recv_held {r : BufferedReader} (h : r.WellFormed) {desiredLen : Nat}
    (hheld : ¬(r.unread = [] ∧ 0 < desiredLen)) (received : Received) :
    ∃ r', r.recv desiredLen received =
        (⟨(r.unread.take desiredLen).length, r.unread.take desiredLen⟩, r') ∧
      r'.WellFormed ∧ r'.unread = r.unread.drop desiredLen ∧ (desiredLen = 0 → r' = r) := by
  obtain ⟨hwf, hunread⟩ := h.advance (Nat.min_le_right desiredLen r.unread.length)
  refine ⟨_, by rw [recv, h.fromBuffer_eq, if_neg hheld], hwf, ?_, ?_⟩
  · rw [hunread, ← List.drop_eq_drop_min]
  · intro hzero
    rw [hzero, Nat.zero_min, Nat.add_zero]

theorem WellFormed.recv_drained {r : BufferedReader} (h : r.WellFormed) {desiredLen : Nat}
    (hasks : r.unread = [] ∧ 0 < desiredLen) (received : Received) :
    r.recv desiredLen received = r.refill desiredLen received := by
  rw [recv, h.fromBuffer_eq, if_pos hasks]

/-- A chunk replaces what was in the buffer. -/
theorem refill_data (r : BufferedReader) (desiredLen : Nat) (chunk : Chunk) :
    ∃ r', r.refill desiredLen (.data chunk) =
        (⟨(chunk.bytes.take desiredLen).length, chunk.bytes.take desiredLen⟩, r') ∧
      r'.WellFormed ∧ r'.unread = chunk.bytes.drop desiredLen := by
  have hmin : (if desiredLen ≤ chunk.bytes.length then desiredLen else chunk.bytes.length) =
      min desiredLen chunk.bytes.length := by
    rw [Nat.min_def]
  have hle : min desiredLen chunk.bytes.length ≤ chunk.bytes.length := Nat.min_le_right _ _
  have hlt : min desiredLen chunk.bytes.length < Lib.SizeT.signedBound :=
    Nat.lt_of_le_of_lt (Nat.le_trans hle chunk.fits) (by decide)
  refine ⟨⟨chunk.bytes ++ r.buffer.drop chunk.bytes.length, chunk.bytes.length,
    min desiredLen chunk.bytes.length⟩, ?_, ⟨hle, chunk.fits, ?_⟩, ?_⟩
  · simp only [refill, hmin]
    rw [Lib.SizeT.toSigned_of_lt hlt, List.take_append_of_le_length hle, ← List.take_eq_take_min,
      List.length_take]
  · rw [List.length_append]
    exact Nat.le_add_right _ _
  · simp only [unread]
    rw [← List.drop_take, List.take_left, ← List.drop_eq_drop_min]

/-- What one call owes its caller. -/
structure Serves (r : BufferedReader) (desiredLen : Nat) (received : Received) (reply : Reply)
    (r' : BufferedReader) : Prop where
  wellFormed : r'.WellFormed
  intact : Intact (r.unread ++ r.fetched desiredLen received) reply.block r'.unread
  block_le : reply.block.length ≤ desiredLen
  retVal_eq : reply.retVal = reply.block.length ∨ reply.retVal = -1 ∧ reply.block = []
  unchanged : reply.retVal ≤ 0 →
    r' = r ∧ (desiredLen = 0 ∨ r.unread = [] ∧ received.retVal = reply.retVal)

theorem Serves.retVal_le {r r' : BufferedReader} {desiredLen : Nat} {received : Received}
    {reply : Reply} (h : r.Serves desiredLen received reply r') : reply.retVal ≤ desiredLen := by
  have hle := h.block_le
  rcases h.retVal_eq with heq | ⟨heq, -⟩
  · rw [heq]
    exact Int.ofNat_le.mpr hle
  · rw [heq]
    omega

/-- Handing out the first of the bytes there are serves the caller. -/
theorem serves_take {r r' : BufferedReader} {desiredLen : Nat} {received : Received}
    {held : List UInt8} (hheld : r.unread ++ r.fetched desiredLen received = held)
    (hwf : r'.WellFormed) (hunread : r'.unread = held.drop desiredLen)
    (hnone : held.take desiredLen = [] →
      r' = r ∧ (desiredLen = 0 ∨ r.unread = [] ∧ received.retVal = 0)) :
    r.Serves desiredLen received ⟨(held.take desiredLen).length, held.take desiredLen⟩ r' := by
  refine ⟨hwf, ?_, ?_, Or.inl rfl, ?_⟩
  · rw [hheld, hunread]
    exact .split held desiredLen
  · rw [List.length_take]
    exact Nat.min_le_left _ _
  · intro hle
    have hzero : (held.take desiredLen).length = 0 := Nat.le_zero.mp (Int.ofNat_le.mp hle)
    obtain ⟨heq, hcase⟩ := hnone (List.eq_nil_of_length_eq_zero hzero)
    refine ⟨heq, hcase.imp_right fun hasked => ⟨hasked.1, ?_⟩⟩
    rw [hasked.2]
    exact (congrArg Nat.cast hzero).symm

/-- **One call.** -/
theorem WellFormed.recv_serves {r : BufferedReader} (h : r.WellFormed) (desiredLen : Nat)
    (received : Received) :
    r.Serves desiredLen received (r.recv desiredLen received).1 (r.recv desiredLen received).2 := by
  by_cases hasks : r.unread = [] ∧ 0 < desiredLen
  · have hfetched : r.unread ++ r.fetched desiredLen received = received.bytes := by
      rw [fetched, h.fromBuffer_eq, if_pos hasks, hasks.1, List.nil_append]
    rw [h.recv_drained hasks]
    cases received with
    | failed errno =>
      refine ⟨h, ?_, Nat.zero_le _, Or.inr ⟨rfl, rfl⟩, fun _ => ⟨rfl, Or.inr ⟨hasks.1, rfl⟩⟩⟩
      rw [hfetched]
      exact hasks.1
    | closed =>
      refine ⟨h, ?_, Nat.zero_le _, Or.inl rfl, fun _ => ⟨rfl, Or.inr ⟨hasks.1, rfl⟩⟩⟩
      rw [hfetched]
      exact hasks.1
    | data chunk =>
      obtain ⟨r', heq, hwf, hunread⟩ := r.refill_data desiredLen chunk
      rw [heq]
      refine serves_take hfetched hwf hunread fun hnil => ?_
      rcases List.take_eq_nil_iff.mp hnil with hzero | hempty
      · exact absurd hzero (Nat.pos_iff_ne_zero.mp hasks.2)
      · exact absurd hempty chunk.ne
  · have hfetched : r.unread ++ r.fetched desiredLen received = r.unread := by
      rw [fetched, h.fromBuffer_eq, if_neg hasks, List.append_nil]
    obtain ⟨r', heq, hwf, hunread, hsame⟩ := h.recv_held hasks received
    rw [heq]
    refine serves_take hfetched hwf hunread fun hnil => ?_
    have hzero : desiredLen = 0 := by
      rcases List.take_eq_nil_iff.mp hnil with hzero | hempty
      · exact hzero
      · exact Nat.eq_zero_of_not_pos fun hpos => hasks ⟨hempty, hpos⟩
    exact ⟨hsame hzero, Or.inl hzero⟩

end BufferedReader

/-! ## Any sequence of calls -/

/-- A call, with the answer the kernel has for it if it is asked. -/
structure Recv where
  desiredLen : Nat
  received : Received

/-- A reader, with what the kernel has delivered to it and what it has returned. -/
structure Session where
  reader : BufferedReader
  delivered : List UInt8
  returned : List UInt8

namespace Session

def start (memory : List UInt8) : Session := ⟨.construct memory, [], []⟩

def reply (s : Session) (c : Recv) : Reply := (s.reader.recv c.desiredLen c.received).1

def step (s : Session) (c : Recv) : Session where
  reader := (s.reader.recv c.desiredLen c.received).2
  delivered := s.delivered ++ s.reader.fetched c.desiredLen c.received
  returned := s.returned ++ (s.reply c).block

/-- The indices are in order, and what was returned, followed by what is unread, is what the
kernel has delivered. -/
structure Faithful (s : Session) : Prop where
  wellFormed : s.reader.WellFormed
  intact : Intact s.delivered s.returned s.reader.unread

theorem Faithful.serves {s : Session} (h : s.Faithful) (c : Recv) :
    s.reader.Serves c.desiredLen c.received (s.reply c) (s.step c).reader :=
  h.wellFormed.recv_serves c.desiredLen c.received

theorem faithful_step (s : Session) (c : Recv) (h : s.Faithful) : (s.step c).Faithful :=
  ⟨(h.serves c).wellFormed, h.intact.round (h.serves c).intact⟩

/-- **The reader is a faithful stream**, whatever the lengths asked for and the answers of the
kernel; and no call returns more than was asked for, nor nothing unless nothing was asked for or
the kernel, asked with nothing unread, said so. -/
theorem recv_faithful (memory : List UInt8) (calls : List Recv) :
    (Lib.run step (start memory) calls).Faithful ∧
      ∀ p ∈ Lib.transitions step (start memory) calls,
        (p.1.reply p.2).retVal ≤ p.2.desiredLen ∧
          ((p.1.reply p.2).retVal = (p.1.reply p.2).block.length ∨
            (p.1.reply p.2).retVal = -1 ∧ (p.1.reply p.2).block = []) ∧
          ((p.1.reply p.2).retVal ≤ 0 → (p.1.step p.2).reader = p.1.reader ∧
            (p.2.desiredLen = 0 ∨
              p.1.reader.unread = [] ∧ p.2.received.retVal = (p.1.reply p.2).retVal)) := by
  have hstart : (start memory).Faithful := ⟨BufferedReader.wellFormed_construct memory, rfl⟩
  have hstep : ∀ s c, Faithful s → True → Faithful (step s c) := fun s c h _ => faithful_step s c h
  constructor
  · exact Lib.run_invariant step hstep hstart fun p _ => trivial
  · intro p hp
    have hfaithful := Lib.transitions_invariant step hstep hstart (fun p _ => trivial) p hp
    have hserves := hfaithful.serves p.2
    exact ⟨hserves.retVal_le, hserves.retVal_eq, hserves.unchanged⟩

end Session
end DevScan.Stream
