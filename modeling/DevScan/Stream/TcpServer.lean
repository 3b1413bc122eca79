import DevScan.Lib.Drain
import DevScan.Lib.Runs

/-!
# `Stream/TcpServer.lean` — accepting clients from the event loop

`hbm/communication/linux/tcpserver.cpp`. Connections wait in the accept queue of the listening
socket, whose event the loop reports once, when something is added to the queue; the handler is
called again as long as it returns something positive. `process` returns 0 whatever `accept`
brings, so each event is worth one connection (`handle_eq`).

Clients connect when they like: between two events, and before each `accept` of a loop
(`arrivals`). `accept` fails for no other reason than an empty queue, and the options of a socket
it has just delivered can be set.
-/

set_option autoImplicit false

namespace DevScan.Stream

/-- A client that has connected. -/
abbrev Client := Nat

structure TcpServer where
  /-- The accept queue of the listening socket. -/
  acceptQueue : List Client
  /-- Whether there is an accept callback; `start` registers the handler only if there is. -/
  acceptCb : Bool
  /-- The clients that connect before each `accept` to come. -/
  arrivals : List (List Client) := []
  /-- The connections accepted; not a member of the class. -/
  accepted : List Client := []
  /-- The connections the accept callback was called with; not a member of the class. -/
  announced : List Client := []
deriving DecidableEq, Repr

namespace TcpServer

/-- The time up to the next `accept`. -/
def connected (s : TcpServer) : TcpServer :=
  match s.arrivals with
  | [] => s
  | clients :: arrivals =>
    { s with acceptQueue := s.acceptQueue ++ clients, arrivals := arrivals }

def acceptClient (s : TcpServer) : Option Client × TcpServer :=
  match s.connected.acceptQueue with
  | [] => (none, s.connected)
  | client :: acceptQueue =>
    (some client,
      { s.connected with acceptQueue := acceptQueue, accepted := s.connected.accepted ++ [client] })

def process (s : TcpServer) : Int × TcpServer :=
  match s.acceptClient with
  | (none, s) => (0, s)
  | (some worker, s) =>
    (0, if s.acceptCb then { s with announced := s.announced ++ [worker] } else s)

theorem process_fst (s : TcpServer) : s.process.1 = 0 := by
  unfold process
  split <;> rfl

/-- The handler in the loop. -/
def processHandler : Lib.Handler TcpServer Empty where
  call s := (.ok s.process.1, s.process.2)
  size s := s.acceptQueue.length
  progress := by
    intro s n s' hcall hn
    have hresult := Except.ok.inj (Prod.mk.inj hcall).1
    rw [process_fst] at hresult
    exact absurd hn (hresult ▸ Int.lt_irrefl 0)

/-- `do { result = eventHandler(); } while (result > 0);`, in `execute` and in `changeHandler`. -/
def handle (arrivals : List (List Client)) (s : TcpServer) : TcpServer :=
  (processHandler.drain { s with arrivals := arrivals }).2

inductive Action where
  | connect (client : Client)
  | handle (arrivals : List (List Client))
deriving DecidableEq, Repr

def step (s : TcpServer) : Action → TcpServer
  | .connect client => { s with acceptQueue := s.acceptQueue ++ [client] }
  | .handle arrivals => s.handle arrivals

/-- A server that has been started with an accept callback. -/
def listening : TcpServer := { acceptQueue := [], acceptCb := true }

/-! ## What a loop does -/

/-- The connections that wait when `accept` is called. -/
def waiting (s : TcpServer) (arrivals : List (List Client)) : List Client :=
  s.acceptQueue ++ arrivals.headD []

theorem handle_eq (s : TcpServer) (arrivals : List (List Client)) :
    s.handle arrivals = ({ s with arrivals := arrivals } : TcpServer).process.2 := by
  have hlast : ∀ n, (processHandler.call { s with arrivals := arrivals }).1 = .ok n → n ≤ 0 := by
    intro n hn
    have hzero : n = 0 := (Except.ok.inj hn).symm.trans (process_fst _)
    exact Int.le_of_eq hzero
  exact congrArg Prod.snd (processHandler.drain_done hlast)

/-- One loop takes the first of the waiting connections, and no more. -/
theorem handle_cases (s : TcpServer) (arrivals : List (List Client)) :
    (s.handle arrivals).acceptCb = s.acceptCb ∧
      (s.handle arrivals).acceptQueue = (s.waiting arrivals).tail ∧
      (s.handle arrivals).accepted = s.accepted ++ (s.waiting arrivals).head?.toList ∧
      (s.acceptCb → (s.handle arrivals).announced =
        s.announced ++ (s.waiting arrivals).head?.toList) := by
  have hconnected : ∃ later, ({ s with arrivals := arrivals } : TcpServer).connected =
      { s with acceptQueue := s.waiting arrivals, arrivals := later } := by
    cases arrivals with
    | nil => exact ⟨[], by simp [connected, waiting]⟩
    | cons clients arrivals => exact ⟨arrivals, rfl⟩
  obtain ⟨later, hconnected⟩ := hconnected
  rw [handle_eq, process, acceptClient, hconnected]
  cases hwaiting : s.waiting arrivals with
  | nil => simp
  | cons client acceptQueue =>
    by_cases hcb : s.acceptCb = true
    · simp [hcb]
    · simp [hcb]

/-! ## No connection is left behind -/

/-- The accept queue is empty, and the accept callback was called once for each connection that
was accepted, in this order. -/
def Drained (s : TcpServer) : Prop := s.acceptQueue = [] ∧ s.announced = s.accepted

/-- What holds of a server that has been started with an accept callback. -/
structure Announcing (s : TcpServer) : Prop where
  acceptCb : s.acceptCb = true
  announced : s.announced = s.accepted

theorem announcing_step (s : TcpServer) (a : Action) (h : s.Announcing) : (step s a).Announcing := by
  cases a with
  | connect client => exact ⟨h.acceptCb, h.announced⟩
  | handle arrivals =>
    obtain ⟨hcb, -, haccepted, hannounced⟩ := handle_cases s arrivals
    refine ⟨hcb.trans h.acceptCb, ?_⟩
    rw [step, haccepted, hannounced h.acceptCb, h.announced]

theorem drained_handle_iff {s : TcpServer} (h : s.Announcing) (arrivals : List (List Client)) :
    (s.handle arrivals).Drained ↔ (s.waiting arrivals).length ≤ 1 := by
  have hnext : (s.handle arrivals).Announcing := announcing_step s (.handle arrivals) h
  rw [Drained, (handle_cases s arrivals).2.1, ← List.length_eq_zero_iff, List.length_tail]
  constructor
  · intro hdrained
    exact Nat.sub_eq_zero_iff_le.mp hdrained.1
  · intro hle
    exact ⟨Nat.sub_eq_zero_iff_le.mpr hle, hnext.announced⟩

/-- **No loop of a run leaves a connection behind exactly if** no more than one connection waits
when a loop calls `accept`. -/
theorem queueDrained_iff (actions : List Action) :
    (∀ p ∈ Lib.transitions step listening actions, ∀ arrivals, p.2 = .handle arrivals →
        (step p.1 p.2).Drained) ↔
      ∀ p ∈ Lib.transitions step listening actions, ∀ arrivals, p.2 = .handle arrivals →
        (p.1.waiting arrivals).length ≤ 1 := by
  have hannouncing : ∀ p ∈ Lib.transitions step listening actions, p.1.Announcing :=
    Lib.transitions_invariant step (C := fun _ _ => True) (fun s a h _ => announcing_step s a h)
      ⟨rfl, rfl⟩ fun p _ => trivial
  constructor
  · intro hdrained p hp arrivals harrivals
    have hloop := hdrained p hp arrivals harrivals
    rw [harrivals] at hloop
    exact (drained_handle_iff (hannouncing p hp) arrivals).mp hloop
  · intro hwaiting p hp arrivals harrivals
    rw [harrivals]
    exact (drained_handle_iff (hannouncing p hp) arrivals).mpr (hwaiting p hp arrivals harrivals)

/-- Two clients connect before the loop handles the first event. -/
theorem not_drained_two_clients :
    ¬(step (Lib.run step listening [.connect 1, .connect 2]) (.handle [])).Drained := by
  have hannouncing : (Lib.run step listening [.connect 1, .connect 2]).Announcing := ⟨rfl, rfl⟩
  intro hdrained
  exact absurd ((drained_handle_iff hannouncing []).mp hdrained) (by decide)

end TcpServer
end DevScan.Stream
