import DevScan.Defines
import DevScan.Lib.Drain
import DevScan.Net.Sending

/-!
# `Client/ConfigureClient.lean` — a configuration request and the loop that waits for its answer

`devscan/configureclient.cpp` with what it runs on: the receive socket of its multicast server
and `EventLoop::execute_for`. A request sets `m_id`, sends, and waits in the loop; `recvCb` reads
one telegram a call and stores the answer in `m_response`. Both members live as long as the
client does.

The loop is edge-triggered. The client's state therefore has, besides the socket's queue, two
flags for what `epoll_wait` has yet to report: that the socket became readable, and that the stop
notifier was written. The rest of the surroundings is an argument: what arrives while the loop
waits, in `Wave`s, what `time` and `rand` answer, and what the request is sent with.

`recvCb` has the reader parse a part of an array it has never written as a whole, and the reader
looks at the byte behind that part. So a reader is here a function of that byte, too
(`Char → Json.Reader`), and a telegram has it with it: whatever it will be.

Not modelled: error events of the socket.
-/

set_option autoImplicit false

namespace DevScan.Client

/-- A datagram. `receiveTelegram` with an adapter *index* returns its length and no more. -/
structure Telegram where
  text : StdString
  /-- The byte that stands behind it in `buf` when it is read. -/
  behind : Char
deriving DecidableEq, Repr

structure ConfigureClient where
  id : StdString := []
  response : StdString := []
  /-- The receive socket: what has arrived and was not read. -/
  queue : List Telegram := []
  /-- An event of the receive socket is due. It is at the start: the first entry into the loop
  registers the socket and calls `recvCb` for what may have arrived before. -/
  readable : Bool := true
  stopped : Bool := false
  /-- The telegrams `recvmsg` has handed out; not a member of the class. -/
  received : List Telegram := []
  /-- `m_SendSocket` of the multicast server. -/
  sendSocket : Net.Sending.SendSocket := {}

/-- One round of the loop, as its surroundings have it. -/
structure Wave where
  /-- What arrives from the last round on until the handler has returned. -/
  arrivals : List Telegram
  /-- Some of it arrived after `epoll_wait` returned, so that another event is due. -/
  rearmed : Bool
  /-- The stop event, if there is one, stands before that of the socket. -/
  stopFirst : Bool

/-- `stringstream << time(NULL) << ":" << rand() % 1000`. -/
def createId (time : Int) (rand : Nat) : StdString :=
  Json.valueToString time ++ ":".toList ++ Nat.toDigits 10 (rand % 1000)

/-- Is the telegram a result or an error, and does its id match? -/
def isResponse (parse : Char → Json.Reader) (id : StdString) (telegram : Telegram) :
    Except Exn Bool :=
  match parse telegram.behind telegram.text with
  | none => .ok false
  | some telegramNode => do
    let isResult ← telegramNode.isMember Jsonrpc.result
    let isResultOrError ← if isResult then pure true else telegramNode.isMember Jsonrpc.err
    if isResultOrError then
      let telegramId ← (← telegramNode.index Jsonrpc.id).asString
      return id = telegramId
    else return false

namespace ConfigureClient

/-- `recvmsg` has handed out the head of the queue. -/
def took (c : ConfigureClient) (telegram : Telegram) (queue : List Telegram) : ConfigureClient :=
  { c with queue := queue, received := c.received ++ [telegram] }

def recvCb (parse : Char → Json.Reader) (c : ConfigureClient) : Except Exn Int × ConfigureClient :=
  match c.queue with
  | [] => (.ok (-1), c)
  | telegram :: queue =>
    let c := c.took telegram queue
    let result : Int := telegram.text.length
    if 0 < result then
      match isResponse parse c.id telegram with
      | .error e => (.error e, c)
      | .ok true => (.ok result, { c with response := telegram.text, stopped := true })
      | .ok false => (.ok result, c)
    else (.ok result, c)

/-- `recvCb` in the loop: as long as it returns something positive it has shortened the queue. -/
def receiver (parse : Char → Json.Reader) : Lib.Handler ConfigureClient Exn where
  call := recvCb parse
  size c := c.queue.length
  progress := by
    intro c n c' hcall hn
    unfold recvCb at hcall
    split at hcall
    · obtain ⟨h, -⟩ := Prod.mk.inj hcall
      obtain rfl := Except.ok.inj h
      omega
    · rename_i telegram queue hqueue
      have hc' : c'.queue = queue := by
        simp only [took] at hcall
        split at hcall
        · split at hcall
          · cases hcall
          · cases hcall; rfl
          · cases hcall; rfl
        · cases hcall; rfl
      rw [hqueue, hc', List.length_cons]
      exact Nat.lt_succ_self _

/-- What a round brings before its event is handled. -/
def arrive (w : Wave) (c : ConfigureClient) : ConfigureClient :=
  { c with queue := c.queue ++ w.arrivals, readable := c.readable || !w.arrivals.isEmpty }

/-- `epoll_wait` has reported everything that was due. -/
def reported (w : Wave) (c : ConfigureClient) : ConfigureClient :=
  { c with stopped := false, readable := w.rearmed && !w.arrivals.isEmpty }

/-- `EventLoop::execute_for`; it times out when there are no more waves. An event that stands
after the stop event is not looked at. -/
def executeFor (parse : Char → Json.Reader) :
    List Wave → ConfigureClient → Except Exn Unit × ConfigureClient
  | [], c => (.ok (), c)
  | w :: waves, c =>
    let c := c.arrive w
    if c.stopped && (w.stopFirst || !c.readable) then (.ok (), c.reported w)
    else if c.readable then
      match (receiver parse).drain (c.reported w) with
      | (.error e, c') => (.error e, c')
      | (.ok _, c') => if c.stopped then (.ok (), c') else executeFor parse waves c'
    else executeFor parse waves c

/-- What a request is sent with. -/
structure Network where
  host : Net.ByteOrder
  /-- What the last of these calls with the send socket returns; `none` is -1. -/
  kernel : List Net.Sending.SocketCall → Option Nat
  /-- `m_netadapterList`, after its `update()`. -/
  adapters : Net.Enumeration.Adapters

/-- `m_MulticastServer`, as it was started. -/
def Network.multicastServer (network : Network) : Net.Sending.Server where
  host := network.host
  kernel := network.kernel
  address := configIpV4Address
  port := configUdpPort
  netadapterList := network.adapters

/-- Without an adapter; all the calls are done. -/
def Network.obliging : Network where
  host := .littleEndian
  kernel := Net.Sending.Server.obliging.kernel
  adapters := .empty

/-- What a request reads of its surroundings. -/
structure Surroundings where
  time : Int
  rand : Nat
  network : Network
  waves : List Wave

/-- The first half of `executeRequest`. What the server returns is not looked at. -/
def send (network : Network) (interfaceIp : StdString) (ttl : UInt8) (message : StdString)
    (c : ConfigureClient) : ConfigureClient :=
  let sent :=
    if interfaceIp = [] then network.multicastServer.sendString message ttl.toNat c.sendSocket
    else
      network.multicastServer.sendStringOverInterfaceByAddress interfaceIp message ttl.toNat
        c.sendSocket
  { c with sendSocket := sent.2 }

def executeRequest (parse : Char → Json.Reader) (env : Surroundings) (interfaceIp : StdString)
    (ttl : UInt8) (message : StdString) (c : ConfigureClient) :
    Except Exn StdString × ConfigureClient :=
  match (c.send env.network interfaceIp ttl message).executeFor parse env.waves with
  | (.ok (), c) => (.ok c.response, c)
  | (.error e, c) => (.error e, c)

/-- The document every request sends, with the settings it asks for. -/
def requestTree (settings : List (List StdString × StdString)) (uuid : StdString) (ttl : UInt8)
    (id : StdString) : Except Exn Json.Value := do
  let tree ← Json.Value.nullValue.assign [Jsonrpc.jsonrpc] (.stringValue "2.0".toList)
  let tree ← tree.assign [Jsonrpc.method] (.stringValue tagConfigure)
  let tree ← settings.foldlM (fun tree setting =>
    tree.assign (Jsonrpc.params :: tagNetSettings :: setting.1) (.stringValue setting.2)) tree
  let tree ← tree.assign [Jsonrpc.params, tagDevice, tagUuid] (.stringValue uuid)
  let tree ← tree.assign [Jsonrpc.params, tagTtl] (.intValue ttl.toNat)
  tree.assign [Jsonrpc.id] (.stringValue id)

/-- The body the four requests share: only the settings differ. `write` is `Json::FastWriter`. -/
def configure (parse : Char → Json.Reader) (write : Json.Value → StdString) (env : Surroundings)
    (outgoingInterfaceIp : StdString) (ttl : UInt8) (uuid : StdString)
    (settings : List (List StdString × StdString)) (c : ConfigureClient) :
    Except Exn StdString × ConfigureClient :=
  let c := { c with id := createId env.time env.rand }
  match requestTree settings uuid ttl c.id with
  | .error e => (.error e, c)
  | .ok tree => c.executeRequest parse env outgoingInterfaceIp ttl (write tree)

section Requests

variable (parse : Char → Json.Reader) (write : Json.Value → StdString) (env : Surroundings)
  (outgoingInterfaceIp : StdString) (ttl : UInt8) (uuid : StdString)

def setInterfaceConfigurationMethod (interfaceName method : StdString) :
    ConfigureClient → Except Exn StdString × ConfigureClient :=
  configure parse write env outgoingInterfaceIp ttl uuid
    [([tagInterface, tagName], interfaceName), ([tagInterface, configurationMethod], method)]

def setInterfaceConfiguration
    (interfaceName method manualAddress manualNetmask : StdString) :
    ConfigureClient → Except Exn StdString × ConfigureClient :=
  configure parse write env outgoingInterfaceIp ttl uuid
    [([tagInterface, tagName], interfaceName), ([tagInterface, configurationMethod], method),
     ([tagInterface, tagIpV4, tagManualAddress], manualAddress),
     ([tagInterface, tagIpV4, tagManualNetmask], manualNetmask)]

def setDefaultGateway (ipv4DefaultGateWay : StdString) :
    ConfigureClient → Except Exn StdString × ConfigureClient :=
  configure parse write env outgoingInterfaceIp ttl uuid
    [([tagDefaultGateway, tagIpV4Address], ipv4DefaultGateWay)]

def setInterfaceManualConfiguration (interfaceName address netmask : StdString) :
    ConfigureClient → Except Exn StdString × ConfigureClient :=
  configure parse write env outgoingInterfaceIp ttl uuid
    [([tagInterface, tagName], interfaceName),
     ([tagInterface, tagIpV4, tagManualAddress], address),
     ([tagInterface, tagIpV4, tagManualNetmask], netmask)]

end Requests
end ConfigureClient

/-- A call of one of the four requests, with what it reads of its surroundings. -/
inductive Request where
  | setInterfaceConfigurationMethod (env : ConfigureClient.Surroundings)
      (outgoingInterfaceIp : StdString) (ttl : UInt8) (uuid interfaceName method : StdString)
  | setInterfaceConfiguration (env : ConfigureClient.Surroundings)
      (outgoingInterfaceIp : StdString) (ttl : UInt8)
      (uuid interfaceName method manualAddress manualNetmask : StdString)
  | setDefaultGateway (env : ConfigureClient.Surroundings)
      (outgoingInterfaceIp : StdString) (ttl : UInt8) (uuid ipv4DefaultGateWay : StdString)
  | setInterfaceManualConfiguration (env : ConfigureClient.Surroundings)
      (outgoingInterfaceIp : StdString) (ttl : UInt8)
      (uuid interfaceName address netmask : StdString)

/-- What a request returns or throws, and the client after it. -/
def Request.call (parse : Char → Json.Reader) (write : Json.Value → StdString) (c : ConfigureClient) :
    Request → Except Exn StdString × ConfigureClient
  | setInterfaceConfigurationMethod env ip ttl uuid interfaceName method =>
    c.setInterfaceConfigurationMethod parse write env ip ttl uuid interfaceName method
  | setInterfaceConfiguration env ip ttl uuid interfaceName method address netmask =>
    c.setInterfaceConfiguration parse write env ip ttl uuid interfaceName method address netmask
  | setDefaultGateway env ip ttl uuid ipv4DefaultGateWay =>
    c.setDefaultGateway parse write env ip ttl uuid ipv4DefaultGateWay
  | setInterfaceManualConfiguration env ip ttl uuid interfaceName address netmask =>
    c.setInterfaceManualConfiguration parse write env ip ttl uuid interfaceName address netmask

def Request.env : Request → ConfigureClient.Surroundings
  | setInterfaceConfigurationMethod env .. => env
  | setInterfaceConfiguration env .. => env
  | setDefaultGateway env .. => env
  | setInterfaceManualConfiguration env .. => env

def Request.id (r : Request) : StdString := createId r.env.time r.env.rand

end DevScan.Client
