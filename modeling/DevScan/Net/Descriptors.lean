import DevScan.Lib.Holdings
import DevScan.Sys.Registrations

/-!
# `Net/Descriptors.lean` — the descriptors of a receiver

`Receiver` with the constructors, `start`, `stop` and destructors of its scanner, timer and
netlink socket, as far as they open, register and close descriptors, over the descriptor table of
the process. Whatever else is in the process opens descriptors and closes its own at any time.

The timer and the netlink socket are opened by their constructors, the sockets of the scanner by
`start`. `stop` closes the sockets of the scanner, which remembers that, and the netlink socket,
which does not.

`start` and `start_for` are the same up to the event loop. The calls that make a socket ready for
use succeed, and the members are destroyed in the opposite order of their declaration.
-/

set_option autoImplicit false

namespace DevScan.Net

open Sys (Fd Change registration)
open Lib.Holdings (take release)

/-- Who opens descriptors. The handler of a component is known by the component. -/
inductive Component where
  | scanner
  | timer
  | netlink
  /-- Anything else in the process. -/
  | other
deriving DecidableEq, Repr

/-- A call of `close`, with who has the number open at that time. -/
structure Closing where
  component : Component
  fd : Fd
  openedBy : Option Component
deriving DecidableEq, Repr

inductive Life where
  | absent
  | alive
  | destroyed
deriving DecidableEq, Repr

def noSocket : Fd := -1

/-- The process with its receiver. -/
structure Process where
  /-- Who has opened the descriptors that are open. -/
  table : Fd → Option Component := fun _ => none
  /-- All calls of `addEvent` and `eraseEvent`. -/
  calls : List (Change Component) := []
  life : Life := .absent
  /-- `m_SendSocket` and `m_ReceiveSocket` of the scanner -/
  sendSocket : Fd := noSocket
  receiveSocket : Fd := noSocket
  /-- `m_fd` of the timer and of the netlink socket -/
  timerFd : Fd := noSocket
  netlinkFd : Fd := noSocket
  /-- `stop` has been called; not a member of the class. -/
  stopped : Bool := false
  /-- What the last step has closed. -/
  closings : List Closing := []

/-- What happens next; opening comes with the numbers the kernel chooses. -/
inductive ProcessAction where
  | otherOpens (fd : Fd)
  | otherCloses (fd : Fd)
  | construct (timerFd netlinkFd : Fd)
  | start (sendSocket receiveSocket : Fd)
  | stop
  | destruct
deriving DecidableEq, Repr

namespace Process

/-- `socket` or `timerfd_create` -/
def openFd (p : Process) (component : Component) (fd : Fd) : Process :=
  { p with table := take p.table fd component }

def close (p : Process) (component : Component) (fd : Fd) : Process :=
  { p with
    table := release p.table fd
    closings := p.closings ++ [⟨component, fd, p.table fd⟩] }

def addEvent (p : Process) (fd : Fd) (eventHandler : Component) : Process :=
  { p with calls := p.calls ++ [⟨fd, some eventHandler⟩] }

def eraseEvent (p : Process) (fd : Fd) : Process := { p with calls := p.calls ++ [⟨fd, none⟩] }

/-! ## The components -/

/-- `MulticastServer::start` -/
def scannerStart (p : Process) (sendSocket receiveSocket : Fd) : Process :=
  let p := { p.openFd .scanner sendSocket with sendSocket := sendSocket }
  let p := { p.openFd .scanner receiveSocket with receiveSocket := receiveSocket }
  p.addEvent p.receiveSocket .scanner

/-- The end of `MulticastServer::stop`, once for each of its sockets. -/
def scannerCloseSend (p : Process) : Process :=
  if p.sendSocket ≠ noSocket then { p.close .scanner p.sendSocket with sendSocket := noSocket }
  else p

def scannerCloseReceive (p : Process) : Process :=
  if p.receiveSocket ≠ noSocket then
    { p.close .scanner p.receiveSocket with receiveSocket := noSocket }
  else p

/-- `MulticastServer::stop`, which is also its destructor. -/
def scannerStop (p : Process) : Process :=
  (p.eraseEvent p.receiveSocket).scannerCloseSend.scannerCloseReceive

def timerConstruct (p : Process) (fd : Fd) : Process :=
  { p.openFd .timer fd with timerFd := fd }.addEvent fd .timer

def timerDestruct (p : Process) : Process := (p.eraseEvent p.timerFd).close .timer p.timerFd

def netlinkConstruct (p : Process) (fd : Fd) : Process :=
  { p.openFd .netlink fd with netlinkFd := fd }

def netlinkStart (p : Process) : Process := p.addEvent p.netlinkFd .netlink

/-- `Netlink::stop`, which is also its destructor. -/
def netlinkStop (p : Process) : Process := (p.eraseEvent p.netlinkFd).close .netlink p.netlinkFd

/-! ## The receiver -/

def construct (p : Process) (timerFd netlinkFd : Fd) : Process :=
  { (p.timerConstruct timerFd).netlinkConstruct netlinkFd with life := .alive }

/-- `Receiver::start` or `Receiver::start_for`, up to the event loop. -/
def start (p : Process) (sendSocket receiveSocket : Fd) : Process :=
  (p.scannerStart sendSocket receiveSocket).netlinkStart

def stop (p : Process) : Process := { p.netlinkStop.scannerStop with stopped := true }

def destruct (p : Process) : Process :=
  { p.netlinkStop.timerDestruct.scannerStop with life := .destroyed }

/-- A number that may be given out. -/
def Free (p : Process) (fd : Fd) : Prop := 0 ≤ fd ∧ p.table fd = none

instance (p : Process) (fd : Fd) : Decidable (p.Free fd) := inferInstanceAs (Decidable (_ ∧ _))

/-- What may happen: one receiver is constructed, used and destroyed, numbers that are not open
are given out, and whatever else is in the process closes what it has opened. -/
def Possible (p : Process) : ProcessAction → Prop
  | .otherOpens fd => p.Free fd
  | .otherCloses fd => p.table fd = some .other
  | .construct timerFd netlinkFd =>
    p.life = .absent ∧ p.Free timerFd ∧ p.Free netlinkFd ∧ timerFd ≠ netlinkFd
  | .start sendSocket receiveSocket =>
    p.life = .alive ∧ p.Free sendSocket ∧ p.Free receiveSocket ∧ sendSocket ≠ receiveSocket
  | .stop => p.life = .alive
  | .destruct => p.life = .alive

instance (p : Process) (a : ProcessAction) : Decidable (p.Possible a) :=
  match a with
  | .otherOpens fd => inferInstanceAs (Decidable (p.Free fd))
  | .otherCloses fd => inferInstanceAs (Decidable (p.table fd = some .other))
  | .construct _ _ => inferInstanceAs (Decidable (_ ∧ _))
  | .start _ _ => inferInstanceAs (Decidable (_ ∧ _))
  | .stop => inferInstanceAs (Decidable (p.life = .alive))
  | .destruct => inferInstanceAs (Decidable (p.life = .alive))

/-- What a possible action does. -/
def act (p : Process) : ProcessAction → Process
  | .otherOpens fd => p.openFd .other fd
  | .otherCloses fd => { p with table := release p.table fd }
  | .construct timerFd netlinkFd => p.construct timerFd netlinkFd
  | .start sendSocket receiveSocket => p.start sendSocket receiveSocket
  | .stop => p.stop
  | .destruct => p.destruct

/-- Nothing has been closed yet. -/
def begin (p : Process) : Process := { p with closings := [] }

/-- One step. An action that is not possible does nothing. -/
def step (p : Process) (a : ProcessAction) : Process :=
  if p.Possible a then p.begin.act a else p.begin

end Process
end DevScan.Net
