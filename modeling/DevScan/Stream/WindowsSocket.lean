import DevScan.Lib.Int32
import DevScan.Stream.SocketNonblocking

/-!
# `Stream/WindowsSocket.lean` — the stream socket on Windows

`hbm/communication/windows/socketnonblocking.cpp`, behind the header of the Linux one. The model
is built in the same way: each function takes the answers of the system calls it makes and uses
them up. What differs is the source's: `ssize_t` is an `int` here, `send` is asked for with an
`int`, `WSASend` counts in a `DWORD`, and a `WSABUF` holds a length of 32 bits.
-/

set_option autoImplicit false

namespace DevScan.Stream.Windows

def wsaEIntr : Errno := 10004
def wsaEWouldBlock : Errno := 10035
def wsaEInProgress : Errno := 10036
def wsaENotSock : Errno := 10038

/-- `select` on the one descriptor: how many are ready and whether this one is in the set, or the
error. -/
inductive SelectResult where
  | fds (count : Nat) (isSet : Bool)
  | failed (errno : Errno)
deriving DecidableEq, Repr

/-! ## Sending -/

/-- A round of the loop of `sendBlock`: what `select` says, and what `send` does if it is called. -/
structure Round where
  select : SelectResult
  send : SendResult
deriving DecidableEq, Repr

/-- What has come of a call: its return value, the bytes accepted for sending, and the rounds that
are left. -/
structure Sent where
  retVal : Option Int
  accepted : List UInt8
  rounds : List Round
deriving DecidableEq, Repr

/-- The call as seen by a caller who has had other bytes accepted before. -/
def Sent.after (sent : Sent) (before : List UInt8) : Sent :=
  { sent with accepted := before ++ sent.accepted }

/-- The bytes `send(m_fd, pDat, static_cast < int >(BytesLeft), 0)` takes: the first `count`, and
not more than it is asked for. -/
def taken (pDat : List UInt8) (count : Nat) : List UInt8 :=
  pDat.take (min count (Lib.Int32.toInt pDat.length).toNat)

/-- The loop of `sendBlock`; `retVal` is the variable declared in front of it. -/
def sendLoop (retVal : Int) : List Round → List UInt8 → Sent
  | rounds, [] => ⟨some retVal, [], rounds⟩
  | [], _ :: _ => ⟨none, [], []⟩
  | ⟨.fds nfds isSet, result⟩ :: rounds, pDat =>
    if nfds = 1 then
      if isSet then
        match result with
        | .accepted count =>
          if 0 < (taken pDat count).length then
            (sendLoop retVal rounds (pDat.drop (taken pDat count).length)).after (taken pDat count)
          else ⟨some (-1), [], rounds⟩
        | .failed errno =>
          if errno ≠ wsaEWouldBlock ∧ errno ≠ wsaEIntr ∧ errno ≠ wsaEInProgress then
            -- the `retVal` that is set to -1 here is another one, declared in this branch
            ⟨some retVal, [], rounds⟩
          else sendLoop retVal rounds pDat
      else sendLoop retVal rounds pDat
    else ⟨some (-1), [], rounds⟩
  | ⟨.failed errno, _⟩ :: rounds, pDat =>
    if errno ≠ wsaEIntr then ⟨some (-1), [], rounds⟩ else sendLoop retVal rounds pDat

def sendBlock (rounds : List Round) (pBlock : List UInt8) : Sent :=
  sendLoop (Lib.Int32.toInt pBlock.length) rounds pBlock

/-- `std::vector < WSABUF > buffers(blocks.size())`, and the blocks pushed to its back. -/
def wsaBufs (blocks : List (List UInt8)) : List (List UInt8) :=
  List.replicate blocks.length [] ++
    blocks.map fun item => item.take (item.length % Lib.Int32.modulus)

/-- The loop of `sendBlocks` over the buffers, from where `WSASend` left off. `none`: when
`bytesWritten` has wrapped around, `buf + start` lies in front of the buffer. -/
def resumeLoop (rounds : List Round) (bytesWritten blockSum : Nat) :
    List (List UInt8) → Option Sent
  | [] => some ⟨some (Lib.Int32.toInt bytesWritten), [], rounds⟩
  | buffer :: buffers =>
    let blockSum := Lib.SizeT.add blockSum buffer.length
    if bytesWritten < blockSum then
      -- this block was not sent completely
      let bytesRemaining := Lib.SizeT.sub blockSum bytesWritten
      let start := Lib.SizeT.sub buffer.length bytesRemaining
      if buffer.length < start then none
      else
        let sent := sendBlock rounds ((buffer.drop start).take bytesRemaining)
        match sent.retVal with
        | none => some sent
        | some retVal =>
          if 0 < retVal then
            (resumeLoop sent.rounds (Lib.Int32.add bytesWritten (Lib.Int32.toDword retVal)) blockSum
              buffers).map fun rest => rest.after sent.accepted
          else some { sent with retVal := some (-1) }
    else resumeLoop rounds bytesWritten blockSum buffers

def sendBlocks (wsaSend : SendResult) (rounds : List Round) (blocks : List (List UInt8)) :
    Option Sent :=
  match wsaSend with
  | .failed errno =>
    if errno ≠ wsaEWouldBlock ∧ errno ≠ wsaEIntr ∧ errno ≠ wsaEInProgress then
      some ⟨some errno, [], rounds⟩
    else if 0 = completeLength blocks then some ⟨some (Lib.Int32.toInt 0), [], rounds⟩
    else resumeLoop rounds 0 0 (wsaBufs blocks)
  | .accepted count =>
    let written := (wsaBufs blocks).flatten.take count
    let bytesWritten := written.length % Lib.Int32.modulus
    if bytesWritten = completeLength blocks then
      some ⟨some (Lib.Int32.toInt bytesWritten), written, rounds⟩
    else (resumeLoop rounds bytesWritten 0 (wsaBufs blocks)).map fun rest => rest.after written

/-! ## Receiving -/

/-- `::recv(m_fd, (char*)m_buffer, sizeof(m_buffer), 0)` -/
def recv : Endpoint → RecvAnswer → Received × Endpoint
  | some inFlight, .data count =>
    if h : inFlight = [] then (.failed wsaEWouldBlock, some inFlight)
    else
      (.data (nextChunk inFlight count h),
        some (inFlight.drop (nextChunk inFlight count h).bytes.length))
  | some inFlight, .closed => (.closed, some inFlight)
  | some inFlight, .failed errno => (.failed errno, some inFlight)
  | none, .failed errno => (.failed errno, none)
  | none, _ => (.failed wsaENotSock, none)

/-- `do { err = select(...); } while((err==-1) && (WSAGetLastError()!=WSAEINTR));` -/
def selectLoop : List SelectResult → Option Int × List SelectResult
  | [] => (none, [])
  | .fds count _ :: selects => (some count, selects)
  | .failed errno :: selects => if errno ≠ wsaEIntr then selectLoop selects else (some (-1), selects)

/-- What is asked of the buffer: `DataToGet` as an `int`, and that as a `size_t` again. -/
def desired (dataToGet : Nat) : Nat := Lib.SizeT.ofSigned (Lib.Int32.toInt dataToGet)

/-- The loop of `receiveComplete`. The buffer counts in an `int` as well; it holds less than that
takes. -/
def receiveLoop (len dataToGet : Nat) (recvs : List RecvAnswer) (selects : List SelectResult)
    (s : SocketNonblocking) : Completion :=
  if _hleft : dataToGet = 0 then ⟨some (Lib.Int32.toInt len), [], s⟩
  else
    match s.bufferedReader.fromBuffer (desired dataToGet) with
    | some (reply, reader) =>
      if 0 < reply.retVal then
        (receiveLoop len (dataToGet - reply.retVal.toNat) recvs selects
          { s with bufferedReader := reader }).after reply.block
      else ⟨some (-1), [], { s with bufferedReader := reader }⟩
    | none =>
      match recvs with
      | [] => ⟨none, [], s⟩
      | answer :: recvs =>
        let (received, endpoint) := recv s.endpoint answer
        let (reply, reader) := s.bufferedReader.refill (desired dataToGet) received
        if 0 < reply.retVal then
          (receiveLoop len (dataToGet - reply.retVal.toNat) recvs selects
            ⟨endpoint, reader⟩).after reply.block
        else if reply.retVal = 0 then ⟨some (-1), [], ⟨endpoint, reader⟩⟩
        else if received.errno = wsaEWouldBlock then
          match selectLoop selects with
          | (none, _) => ⟨none, [], ⟨endpoint, reader⟩⟩
          | (some err, selects) =>
            if err ≠ 1 then ⟨some (-1), [], ⟨endpoint, reader⟩⟩
            else receiveLoop len dataToGet recvs selects ⟨endpoint, reader⟩
        else ⟨some (-1), [], ⟨endpoint, reader⟩⟩
termination_by recvs.length + dataToGet
decreasing_by
  · omega
  · simp only [List.length_cons]
    omega
  · simp only [List.length_cons]
    omega

structure ReceiveAnswers where
  recvs : List RecvAnswer
  selects : List SelectResult
deriving DecidableEq, Repr

def receiveComplete (s : SocketNonblocking) (len : Nat) (answers : ReceiveAnswers) : Completion :=
  receiveLoop len len answers.recvs answers.selects s

end DevScan.Stream.Windows
