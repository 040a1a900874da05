/-
# The table of connections

The part of `src/src/network_stack.cpp` that owns the connections.  A connection
is run on its session (`Tcp/Events`), and what it hands to its callback goes
through `_send_tcp_segment`.  If that throws, the connection is left as it stood
at the call (`Tcp/FailingSend`), and the exception goes on.

The application's callbacks do not call back into the stack.
-/

import TcpIpStack.Stack.Output

namespace TcpIpStack

open Programs

/-- What is done to a connection: something happens to it, or it is opened. -/
inductive Operation
  | event (e : Event)
  | opener (o : Opener)

namespace Operation

/-- The session after it, if nothing throws. -/
def run : Operation → Session → Option Session
  | event e, x => e.run x
  | opener o, x => some (o.run x)

/-- What is left of the session when the call chosen to fail throws. -/
def outcome : Operation → Option ℕ → Session → Session → Session
  | event e, failing, x, y => Session.outcome e.argument (e.count x) failing x y
  | opener _, failing, x, y => Session.outcome [] 0 failing x y

end Operation

/-- An exception, which `catch (const std::exception&)` catches. -/
def Fault.isException : Fault → Bool
  | diverges => false
  | _ => true

/-- What `catch (const BaseException&)` catches. -/
def Fault.isBaseException : Fault → Bool
  | baseException _ => true
  | _ => false

/-- The connection was opened by a SYN. -/
def Connection.passive (c : Connection) : Bool := .synReceived ∈ c.session.entered

/-- The connection has reached `ESTABLISHED`. -/
def Connection.wasEstablished (c : Connection) : Bool := .established ∈ c.session.entered

namespace ConnectionTable

/-- The accept queue of a port. -/
def acceptQueue (t : ConnectionTable) (port : UInt16) : List ConnectionKey :=
  (t.pendingAccepts.lookup port).getD []

/-- The connections on a port that a SYN has opened and nothing has established. -/
def halfOpen (t : ConnectionTable) (port : UInt16) : ℕ :=
  t.connections.entries.countP fun e => e.1.localPort = port && e.2.passive && !e.2.wasEstablished

/-- A connection has run: every time it entered `CLOSED`, the watcher of
`_watch_for_close` noted its id. -/
def setSession (key : ConnectionKey) (c : Connection) (y : Session) (t : ConnectionTable) :
    ConnectionTable :=
  { t with
    connections := t.connections.insert key { c with session := y }
    pendingReapIds := t.pendingReapIds ++
      ((y.entered.drop c.session.entered.length).filter (· = .closed)).map fun _ => c.id }

/-- A connection takes the next id and enters the two tables. -/
def openConnection (key : ConnectionKey) (session : Session) (t : ConnectionTable) : ConnectionTable :=
  { t with
    nextConnectionId := t.nextConnectionId + 1
    connectionsById := t.connectionsById.insert t.nextConnectionId key
    connections := t.connections.insert key ⟨t.nextConnectionId, key, session⟩
    registered := t.registered ++ [⟨key, t.connections.lookup key, t.acceptQueue key.localPort,
      t.halfOpen key.localPort⟩] }

/-- A connection took the next id and was thrown away. -/
def skipId (t : ConnectionTable) : ConnectionTable :=
  { t with nextConnectionId := t.nextConnectionId + 1 }

/-- A connection is queued for `accept`. -/
def pushAccept (key : ConnectionKey) (t : ConnectionTable) : ConnectionTable :=
  { t with pendingAccepts :=
      t.pendingAccepts.insert key.localPort (t.acceptQueue key.localPort ++ [key]) }

/-- One turn of the loop of `_reap_closed_connections`. -/
def reapConnection (id : ℕ) (t : ConnectionTable) : ConnectionTable :=
  match t.connectionsById.lookup id with
  | none => t
  | some key =>
    { t with
      connections := t.connections.erase key
      connectionsById := t.connectionsById.erase id
      reaped := t.reaped ++ (t.connections.lookup key).toList }

/-- The loop of `_reap_closed_connections`: ids come off the front. -/
def reapIds : List ℕ → ConnectionTable → ConnectionTable
  | [], t => t
  | id :: ids, t => reapIds ids ({ t with pendingReapIds := ids }.reapConnection id)

/-- `_reap_closed_connections`. -/
def reapClosedConnections (t : ConnectionTable) : ConnectionTable := reapIds t.pendingReapIds t

/-- `find_connection`. -/
def findConnection (t : ConnectionTable) (id : ℕ) : Option Connection :=
  (t.connectionsById.lookup id).bind t.connections.lookup

/-- `listen`. -/
def listen (port : UInt16) (backlog : ℕ) (t : ConnectionTable) : ConnectionTable :=
  { t with listeningPorts := t.listeningPorts.insert port backlog }

/-- The loop of `accept`: keys come off the front until one is in the table. -/
def popReady (connections : Assoc ConnectionKey Connection) :
    List ConnectionKey → Option Connection × List ConnectionKey
  | [] => (none, [])
  | key :: keys =>
    match connections.lookup key with
    | some c => (some c, keys)
    | none => popReady connections keys

/-- `accept`: what it returns is recorded. -/
def accept (port : UInt16) (t : ConnectionTable) : ConnectionTable :=
  match t.pendingAccepts.lookup port with
  | none => t
  | some keys =>
    let (found, rest) := popReady t.connections keys
    { t with
      pendingAccepts := t.pendingAccepts.insert port rest
      acceptReturns := t.acceptReturns ++ found.toList.map fun c => (port, c) }

/-- `connect` returns. -/
def recordConnect (id : ℕ) (t : ConnectionTable) : ConnectionTable :=
  { t with connectReturns := t.connectReturns ++ [id] }

end ConnectionTable

namespace NetworkStack

/-- Change the table of connections. -/
def modifyTable (f : ConnectionTable → ConnectionTable) (s : NetworkStack) : NetworkStack :=
  { s with toConnectionTable := f s.toConnectionTable }

/-- `_allocate_ephemeral_port`: the port is `nextEphemeralPort`, and the counter
moves on. -/
def bumpEphemeralPort (s : NetworkStack) : NetworkStack :=
  { s with nextEphemeralPort :=
      if s.nextEphemeralPort = 65535 then firstEphemeralPort else s.nextEphemeralPort + 1 }

/-- The session of a connection that is being constructed. -/
def freshSession (key : ConnectionKey) (s : NetworkStack) : Session :=
  Session.fresh key.localPort key.remotePort (s.isn s.nextConnectionId) s.primary.config.localMss .cubic

end NetworkStack

namespace Interface

/-- A connection waits for a neighbour. -/
def queueConnect (nextHop : IPv4Address) (key : ConnectionKey) (interface : Interface) : Interface :=
  { interface with
    pendingOutboundConnects := interface.pendingOutboundConnects.insert nextHop
      ((interface.pendingOutboundConnects.lookup nextHop).getD [] ++ [key]) }

/-- No connection waits for a neighbour any more. -/
def clearConnects (nextHop : IPv4Address) (interface : Interface) : Interface :=
  { interface with pendingOutboundConnects := interface.pendingOutboundConnects.erase nextHop }

/-- A neighbour is not asked for any more. -/
def clearArpRequest (ip : IPv4Address) (interface : Interface) : Interface :=
  { interface with arpRequestsInFlight := interface.arpRequestsInFlight.erase ip }

end Interface

namespace StackM

/-! ### Running a connection -/

/-- The callback for one call after the other, up to the first that throws. -/
def sendCalls (remoteIp : IPv4Address) : ℕ → List Call → StackM (Option (ℕ × Fault))
  | _, [] => pure none
  | i, call :: calls => fun s =>
    match (sendTcpSegment remoteIp call.header call.payload).run s with
    | .ok _ s' => (sendCalls remoteIp (i + 1) calls).run s'
    | .error fault s' => .ok (some (i, fault)) s'

/-- Run an operation on a session: what is left of it, and what its callback
threw. -/
def runSession (remoteIp : IPv4Address) (operation : Operation) (x : Session) :
    StackM (Session × Option Fault) := do
  match operation.run x with
  | none => throw .diverges
  | some y =>
    let failure ← sendCalls remoteIp 0 (x.callsSince y)
    return (operation.outcome (failure.map Prod.fst) x y, failure.map Prod.snd)

/-- Change the table of connections. -/
def modifyTable (f : ConnectionTable → ConnectionTable) : StackM Unit := modify (·.modifyTable f)

/-- Throw what a callback threw. -/
def rethrow : Option Fault → StackM Unit
  | none => pure ()
  | some fault => throw fault

/-- Run an operation on the connection under a key, if there is one. -/
def runConnection (key : ConnectionKey) (operation : Operation) : StackM Unit := do
  match (← get).connections.lookup key with
  | none => pure ()
  | some c =>
    let (y, fault) ← runSession key.remoteIp operation c.session
    modifyTable (·.setSession key c y)
    rethrow fault

/-! ### `connect` -/

/-- `connect`, once the connection is in the table: the SYN goes out now or waits
for the next hop. -/
def startConnect (key : ConnectionKey) : StackM Unit := do
  match (← get).routeFor key.remoteIp with
  | none => runConnection key (.event .fail)
  | some (nextHop, egress) =>
    if (← interfaceAt egress).arpTable.contains nextHop then
      runConnection key (.opener .active)
    else
      modify (·.modifyInterface egress (Interface.queueConnect nextHop key))
      ensureArpResolution egress nextHop

/-- `connect`. -/
def connect (remoteIp : IPv4Address) (remotePort : UInt16) : StackM Unit := do
  let key : ConnectionKey := ⟨remoteIp, remotePort, (← get).nextEphemeralPort⟩
  modify NetworkStack.bumpEphemeralPort
  let id := (← get).nextConnectionId
  let session := (← get).freshSession key
  modifyTable (·.openConnection key session)
  startConnect key
  modifyTable (·.recordConnect id)

/-- `_fail_pending_outbound_connects`. -/
def failPendingOutboundConnects (index : ℕ) (ip : IPv4Address) : StackM Unit := do
  match (← interfaceAt index).pendingOutboundConnects.lookup ip with
  | none => pure ()
  | some keys =>
    keys.forM fun key => runConnection key (.event .fail)
    modify (·.modifyInterface index (Interface.clearConnects ip))

/-! ### A SYN -/

/-- What `_handle_tcp` tells `accept_incoming_syn` about a SYN. -/
def synOptions (tcp : Tcp) : Session.SynOptions where
  peerIsn := tcp.sequenceNumber
  peerMss := tcp.mssOption.getD 0
  peerSupportsWindowScaling := tcp.windowScaleOption.isSome
  peerWindowScale := tcp.windowScaleOption.getD 0

/-- The end of `_handle_tcp`: a connection for a SYN, unless its SYN-ACK cannot be
sent. -/
def acceptSyn (key : ConnectionKey) (tcp : Tcp) : StackM Unit := do
  let session := (← get).freshSession key
  match ← runSession key.remoteIp (.opener (.passive (synOptions tcp))) session with
  | (y, none) => modifyTable (·.openConnection key y)
  | (_, some fault) =>
    modifyTable (·.skipId)
    if fault.isException then pure () else throw fault

end StackM

end TcpIpStack
