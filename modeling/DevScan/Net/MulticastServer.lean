import DevScan.Lib.Custody
import DevScan.Sys.Registrations

/-!
# `Net/MulticastServer.lean` — the sockets of a multicast server

`MulticastServer::start` and `stop` with every system call that may fail, over the descriptors of
the process: which sockets are open, which ones the two members record, and what the event loop is
told about them. The sockets a server has opened are told apart by the order it opened them in,
because the kernel gives out the number of a closed one again.

`stop` also leaves the multicast groups (`dropAllInterfaces`), which opens and closes nothing.
Whatever else is in the process opens descriptors and closes its own at any time.
-/

set_option autoImplicit false

namespace DevScan.Net

open Sys (Fd Change registration)
open Lib.Custody (Pool Holder)

/-- `NO_SOCKET` -/
def MulticastServer.noSocket : Fd := -1

structure MulticastServer where
  descriptors : Pool Fd := {}
  /-- The calls of `addEvent` and `eraseEvent`; the handler is always `process`. -/
  calls : List (Change Unit) := []
  sendSocket : Fd := MulticastServer.noSocket
  receiveSocket : Fd := MulticastServer.noSocket

/-- How the system calls of a `start` go, in their order; a socket comes with its number. -/
structure StartAnswers where
  sendSocket : Option Fd
  multicastLoop : Bool
  getaddrinfo : Bool
  receiveSocket : Option Fd
  rcvBuf : Bool
  reuseAddr : Bool
  pktInfo : Bool
  bind : Bool
  /-- `start` is given a data handler. -/
  hasDataHandler : Bool
deriving DecidableEq, Repr

inductive ServerAction where
  | start (answers : StartAnswers)
  /-- Also what the destructor does. -/
  | stop
  | otherOpens (fd : Fd)
  | otherCloses (fd : Fd)
deriving DecidableEq, Repr

namespace MulticastServer

/-- `socket` -/
def openSocket (s : MulticastServer) (fd : Fd) : MulticastServer :=
  { s with descriptors := s.descriptors.takeOwn fd }

/-- `::close` -/
def close (s : MulticastServer) (fd : Fd) : MulticastServer :=
  { s with descriptors := s.descriptors.giveBack fd }

def addEvent (s : MulticastServer) (fd : Fd) : MulticastServer :=
  { s with calls := s.calls ++ [⟨fd, some ()⟩] }

def eraseEvent (s : MulticastServer) (fd : Fd) : MulticastServer :=
  { s with calls := s.calls ++ [⟨fd, none⟩] }

def setupSendSocket (s : MulticastServer) (answers : StartAnswers) : Int × MulticastServer :=
  match answers.sendSocket with
  | none => (-1, { s with sendSocket := noSocket })
  | some fd =>
    let s := { s.openSocket fd with sendSocket := fd }
    if ¬answers.multicastLoop then (-1, s)
    else (0, s)

def setupReceiveSocket (s : MulticastServer) (answers : StartAnswers) : Int × MulticastServer :=
  if ¬answers.getaddrinfo then (-1, s)
  else
    match answers.receiveSocket with
    | none => (-1, { s with receiveSocket := noSocket })
    | some fd =>
      let s := { s.openSocket fd with receiveSocket := fd }
      if ¬answers.rcvBuf then (-1, s)
      else if ¬answers.reuseAddr then (-1, s)
      else if ¬answers.pktInfo then (-1, s)
      else if ¬answers.bind then (-1, s)
      else (0, s)

def start (s : MulticastServer) (answers : StartAnswers) : Int × MulticastServer :=
  let sent := s.setupSendSocket answers
  if sent.1 < 0 then sent
  else
    let received := sent.2.setupReceiveSocket answers
    if received.1 < 0 then received
    else if answers.hasDataHandler then (0, received.2.addEvent received.2.receiveSocket)
    else (0, received.2)

/-- The end of `stop`, once for each of the sockets. -/
def closeSend (s : MulticastServer) : MulticastServer :=
  if s.sendSocket ≠ noSocket then { s.close s.sendSocket with sendSocket := noSocket } else s

def closeReceive (s : MulticastServer) : MulticastServer :=
  if s.receiveSocket ≠ noSocket then { s.close s.receiveSocket with receiveSocket := noSocket }
  else s

def stop (s : MulticastServer) : MulticastServer :=
  (s.eraseEvent s.receiveSocket).closeSend.closeReceive

/-- A number the kernel may give out. -/
def Free (s : MulticastServer) (fd : Fd) : Prop := 0 ≤ fd ∧ s.descriptors.table fd = none

instance (s : MulticastServer) (fd : Fd) : Decidable (s.Free fd) :=
  inferInstanceAs (Decidable (_ ∧ _))

/-- What may happen: the kernel gives out numbers that are not open, and nobody else closes the
sockets of the server. -/
def Possible (s : MulticastServer) : ServerAction → Prop
  | .start answers =>
    (∀ fd ∈ answers.sendSocket, s.Free fd) ∧
      ∀ fd ∈ answers.receiveSocket, s.Free fd ∧ answers.sendSocket ≠ some fd
  | .stop => True
  | .otherOpens fd => s.Free fd
  | .otherCloses fd => s.descriptors.table fd = some .other

instance (s : MulticastServer) (a : ServerAction) : Decidable (s.Possible a) :=
  match a with
  | .start _ => inferInstanceAs (Decidable (_ ∧ _))
  | .stop => inferInstanceAs (Decidable True)
  | .otherOpens fd => inferInstanceAs (Decidable (s.Free fd))
  | .otherCloses fd => inferInstanceAs (Decidable (s.descriptors.table fd = some .other))

def act (s : MulticastServer) : ServerAction → MulticastServer
  | .start answers => (s.start answers).2
  | .stop => s.stop
  | .otherOpens fd => { s with descriptors := s.descriptors.otherTakes fd }
  | .otherCloses fd => { s with descriptors := s.descriptors.otherGivesBack fd }

/-- One step. What is not possible does not happen. -/
def step (s : MulticastServer) (a : ServerAction) : MulticastServer :=
  if s.Possible a then s.act a else s

/-- The states a `start` goes through, up to the one it returns in. -/
def startPasses (s : MulticastServer) (answers : StartAnswers) : List MulticastServer :=
  let sent := s.setupSendSocket answers
  if sent.1 < 0 then [sent.2]
  else [sent.2, (sent.2.setupReceiveSocket answers).2, (s.start answers).2]

/-- The states a step goes through, up to the one it ends in. -/
def passes (s : MulticastServer) (a : ServerAction) : List MulticastServer :=
  if s.Possible a then
    match a with
    | .start answers => s.startPasses answers
    | .stop => [(s.eraseEvent s.receiveSocket).closeSend, s.stop]
    | _ => [s.act a]
  else []

end MulticastServer
end DevScan.Net
