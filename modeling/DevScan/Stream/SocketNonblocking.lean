import DevScan.Stream.BufferedReader

/-!
# `Stream/SocketNonblocking.lean` — the stream socket

`hbm/communication/linux/socketnonblocking.cpp`. The functions here loop around system calls, and
what these return is the kernel's choice: each function takes the answers it will get, in order,
and uses them up. Answers that run out mean that the call has not returned yet (its return value
is `none`); what it has done by then is still there to be looked at.

Two things are behind a descriptor: what the peer sends and nobody has received yet
(`Endpoint`), and the bytes the kernel has accepted for sending, which a call returns as part of
its result. `m_fd` itself is only ever passed to system calls and is left out.
-/

set_option autoImplicit false

namespace DevScan.Stream

def eIntr : Errno := 4
def eBadf : Errno := 9
def eAgain : Errno := 11
/-- On Linux the same number as `EAGAIN`. -/
def eWouldBlock : Errno := 11
def eInProgress : Errno := 115

inductive PollResult where
  | fds (count : Nat)
  | failed (errno : Errno)
deriving DecidableEq, Repr

/-- `do { err = poll(&pfd, 1, timeout); } while ((err==-1) && (errno==EINTR));` -/
def pollLoop : List PollResult → Option Int × List PollResult
  | [] => (none, [])
  | .fds count :: polls => (some count, polls)
  | .failed errno :: polls => if errno = eIntr then pollLoop polls else (some (-1), polls)

/-! ## Sending -/

/-- The result of `send` or `writev`: the kernel takes the first `count` bytes, all of them if
there are fewer. -/
inductive SendResult where
  | accepted (count : Nat)
  | failed (errno : Errno)
deriving DecidableEq, Repr

structure SendAnswers where
  sends : List SendResult
  polls : List PollResult
deriving DecidableEq, Repr

/-- What has come of a call: its return value, the bytes the kernel has accepted, and the answers
that are left. -/
structure Sent where
  retVal : Option Int
  accepted : List UInt8
  answers : SendAnswers
deriving DecidableEq, Repr

/-- The call as seen by a caller who has had other bytes accepted before. -/
def Sent.after (sent : Sent) (before : List UInt8) : Sent :=
  { sent with accepted := before ++ sent.accepted }

/-- The loop of `sendBlock`; `pDat` are the bytes from `pDat` on, `BytesLeft` of them. -/
def sendLoop (size : Nat) : List SendResult → List PollResult → List UInt8 → Sent
  | sends, polls, [] => ⟨some (Lib.SizeT.toSigned size), [], ⟨sends, polls⟩⟩
  | [], polls, _ :: _ => ⟨none, [], ⟨[], polls⟩⟩
  | .accepted count :: sends, polls, pDat =>
    if 0 < (pDat.take count).length then
      (sendLoop size sends polls (pDat.drop count)).after (pDat.take count)
    else
      -- connection lost
      ⟨some (-1), [], ⟨sends, polls⟩⟩
  | .failed errno :: sends, polls, pDat =>
    if errno = eWouldBlock ∨ errno = eAgain then
      match pollLoop polls with
      | (none, polls) => ⟨none, [], ⟨sends, polls⟩⟩
      | (some err, polls) =>
        if err ≠ 1 then ⟨some (-1), [], ⟨sends, polls⟩⟩ else sendLoop size sends polls pDat
    else if errno ≠ eIntr then ⟨some (-1), [], ⟨sends, polls⟩⟩
    else sendLoop size sends polls pDat

def sendBlock (answers : SendAnswers) (pBlock : List UInt8) : Sent :=
  sendLoop pBlock.length answers.sends answers.polls pBlock

/-- The loop of `sendBlocks` over the `iovec`s, from where `writev` left off. -/
def resumeLoop (answers : SendAnswers) (bytesWritten blockSum : Nat) : List (List UInt8) → Sent
  | [] => ⟨some (Lib.SizeT.toSigned bytesWritten), [], answers⟩
  | iov :: iovs =>
    let blockSum := Lib.SizeT.add blockSum iov.length
    if bytesWritten < blockSum then
      -- this block was not sent completely
      let bytesRemaining := Lib.SizeT.sub blockSum bytesWritten
      let start := Lib.SizeT.sub iov.length bytesRemaining
      let sent := sendBlock answers ((iov.drop start).take bytesRemaining)
      match sent.retVal with
      | none => sent
      | some retVal =>
        if 0 < retVal then
          (resumeLoop sent.answers (Lib.SizeT.add bytesWritten (Lib.SizeT.ofSigned retVal)) blockSum
            iovs).after sent.accepted
        else { sent with retVal := some (-1) }
    else resumeLoop answers bytesWritten blockSum iovs

/-- `std::vector < iovec > iovs(6)`, and the blocks pushed to its back. -/
def iovecs (blocks : List (List UInt8)) : List (List UInt8) := List.replicate 6 [] ++ blocks

def completeLength (blocks : List (List UInt8)) : Nat :=
  blocks.foldl (fun length item => Lib.SizeT.add length item.length) 0

def sendBlocks (writev : SendResult) (answers : SendAnswers) (blocks : List (List UInt8)) : Sent :=
  match writev with
  | .failed errno =>
    if errno ≠ eWouldBlock ∧ errno ≠ eAgain ∧ errno ≠ eIntr then ⟨some (-1), [], answers⟩
    else
      let bytesWritten := Lib.SizeT.ofSigned (-1)
      if bytesWritten = completeLength blocks then
        ⟨some (Lib.SizeT.toSigned bytesWritten), [], answers⟩
      else resumeLoop answers bytesWritten 0 (iovecs blocks)
  | .accepted count =>
    let written := (iovecs blocks).flatten.take count
    if written.length = 0 then ⟨some 0, [], answers⟩
    else if written.length = completeLength blocks then
      ⟨some (Lib.SizeT.toSigned written.length), written, answers⟩
    else (resumeLoop answers written.length 0 (iovecs blocks)).after written

/-! ## Receiving -/

/-- What the kernel does about a `::recv`: deliver up to `count` bytes, report the end of the
stream, or fail. -/
inductive RecvAnswer where
  | data (count : Nat)
  | closed
  | failed (errno : Errno)
deriving DecidableEq, Repr

/-- A chunk of what is in flight: at least a byte of it, and not more than fits. -/
def nextChunk (inFlight : List UInt8) (count : Nat) (h : inFlight ≠ []) : Chunk where
  bytes := inFlight.take (max 1 (min count bufferSize))
  ne := by
    intro hnil
    rcases List.take_eq_nil_iff.mp hnil with hzero | hempty
    · omega
    · exact h hempty
  fits := by
    have hle := List.length_take_le (max 1 (min count bufferSize)) inFlight
    have hsize : 1 ≤ bufferSize := by decide
    omega

/-- What the peer sends over the connection and nobody has received yet; `none` for a descriptor
that is not connected. -/
abbrev Endpoint := Option (List UInt8)

/-- `::recv(m_fd, m_buffer, sizeof(m_buffer), 0)` -/
def Endpoint.recv : Endpoint → RecvAnswer → Received × Endpoint
  | some inFlight, .data count =>
    if h : inFlight = [] then (.failed eAgain, some inFlight)
    else
      (.data (nextChunk inFlight count h),
        some (inFlight.drop (nextChunk inFlight count h).bytes.length))
  | some inFlight, .closed => (.closed, some inFlight)
  | some inFlight, .failed errno => (.failed errno, some inFlight)
  | none, .failed errno => (.failed errno, none)
  | none, _ => (.failed eBadf, none)

/-- What the system calls under `connect` do. -/
structure ConnectAnswers where
  /-- `getaddrinfo` finds the address. -/
  resolved : Bool
  /-- `socket` and `setSocketOptions` succeed. -/
  created : Bool
  optionsSet : Bool
  /-- The `errno` of `::connect`, if it fails. -/
  connectErrno : Option Errno
  polls : List PollResult
  /-- `SO_ERROR` -/
  value : Nat
  /-- What the peer sends, if there comes to be a connection. -/
  sent : List UInt8
deriving DecidableEq, Repr

structure RecvAnswers where
  recvs : List RecvAnswer
  polls : List PollResult
deriving DecidableEq, Repr

structure SocketNonblocking where
  endpoint : Endpoint
  bufferedReader : BufferedReader
deriving DecidableEq, Repr

/-- What has come of a `receiveComplete`: its return value and the bytes it has stored. -/
structure Completion where
  retVal : Option Int
  block : List UInt8
  socket : SocketNonblocking
deriving DecidableEq, Repr

def Completion.after (c : Completion) (before : List UInt8) : Completion :=
  { c with block := before ++ c.block }

namespace SocketNonblocking

def construct (memory : List UInt8) : SocketNonblocking := ⟨none, .construct memory⟩

def connect (a : ConnectAnswers) (s : SocketNonblocking) : Option Int × SocketNonblocking :=
  if ¬a.resolved then (some (-1), s)
  else if ¬a.created then (some (-1), { s with endpoint := none })
  else if ¬a.optionsSet then (some (-1), { s with endpoint := none })
  else
    match a.connectErrno with
    | none => (some 0, { s with endpoint := some a.sent })
    | some errno =>
      if errno ≠ eInProgress then (some (-1), { s with endpoint := none })
      else
        match (pollLoop a.polls).1 with
        | none => (none, { s with endpoint := some a.sent })
        | some err =>
          -- given up after a time-out, the connection may still be established later on
          if err ≠ 1 then (some (-1), { s with endpoint := some a.sent })
          else if a.value ≠ 0 then (some (-1), { s with endpoint := none })
          else (some 0, { s with endpoint := some a.sent })

def disconnect (s : SocketNonblocking) : SocketNonblocking := { s with endpoint := none }

def receive (s : SocketNonblocking) (size : Nat) (answer : RecvAnswer) :
    Reply × SocketNonblocking :=
  match s.bufferedReader.fromBuffer size with
  | some (reply, reader) => (reply, { s with bufferedReader := reader })
  | none =>
    let (received, endpoint) := s.endpoint.recv answer
    let (reply, reader) := s.bufferedReader.refill size received
    (reply, ⟨endpoint, reader⟩)

/-- The loop of `receiveComplete`. -/
def receiveLoop (size sizeLeft : Nat) (recvs : List RecvAnswer) (polls : List PollResult)
    (s : SocketNonblocking) : Completion :=
  if _hleft : sizeLeft = 0 then ⟨some (Lib.SizeT.toSigned size), [], s⟩
  else
    match s.bufferedReader.fromBuffer sizeLeft with
    | some (reply, reader) =>
      if 0 < reply.retVal then
        (receiveLoop size (sizeLeft - reply.retVal.toNat) recvs polls
          { s with bufferedReader := reader }).after reply.block
      else ⟨some (Lib.SizeT.toSigned (Lib.SizeT.sub size sizeLeft)), [],
        { s with bufferedReader := reader }⟩
    | none =>
      match recvs with
      | [] => ⟨none, [], s⟩
      | answer :: recvs =>
        let (received, endpoint) := s.endpoint.recv answer
        let (reply, reader) := s.bufferedReader.refill sizeLeft received
        if 0 < reply.retVal then
          (receiveLoop size (sizeLeft - reply.retVal.toNat) recvs polls ⟨endpoint, reader⟩).after
            reply.block
        else if reply.retVal = 0 then
          ⟨some (Lib.SizeT.toSigned (Lib.SizeT.sub size sizeLeft)), [], ⟨endpoint, reader⟩⟩
        else if received.errno = eWouldBlock ∨ received.errno = eAgain then
          match pollLoop polls with
          | (none, _) => ⟨none, [], ⟨endpoint, reader⟩⟩
          | (some nfds, polls) =>
            if nfds ≠ 1 then ⟨some (-1), [], ⟨endpoint, reader⟩⟩
            else receiveLoop size sizeLeft recvs polls ⟨endpoint, reader⟩
        else ⟨some (-1), [], ⟨endpoint, reader⟩⟩
termination_by recvs.length + sizeLeft
decreasing_by
  · omega
  · simp only [List.length_cons]
    omega
  · simp only [List.length_cons]
    omega

def receiveComplete (s : SocketNonblocking) (size : Nat) (answers : RecvAnswers) : Completion :=
  receiveLoop size size answers.recvs answers.polls s

end SocketNonblocking
end DevScan.Stream
