/-
# The state of the stack

`src/include/network_stack.h`: the interfaces with their neighbours and what
waits for them, the table of connections, the ports that listen and the sockets
that are bound.  The first interface is the primary one; there is always one.

A channel is the list of the frames that were written to it.  The other lists
that only grow are records of what has happened: which connections were opened,
handed out and reaped, and what became of every UDP datagram.

A program on the state returns, throws, or never ends; a throw leaves the state
as it stood (`Lib/Programs`).
-/

import TcpIpStack.Lib.Programs
import TcpIpStack.Tcp.FailingSend
import TcpIpStack.Wire.Ethernet
import TcpIpStack.Stack.Reassembler

namespace TcpIpStack

def firstEphemeralPort : UInt16 := 49152
def arpMaxRetries : ℤ := 3
def arpRetryMs : ℤ := 2000
def fragmentTimeoutMs : ℤ := 15000
def arpEntryTtlMs : ℤ := 60000
def icmpErrorBurst : ℤ := 10
def icmpErrorRefillPerSecond : ℤ := 4
def msPerSecond : ℤ := 1000

/-- `NetworkStack::ConnectionKey`. -/
structure ConnectionKey where
  remoteIp : IPv4Address
  remotePort : UInt16
  localPort : UInt16
deriving DecidableEq

/-- `NetworkStack::PendingDatagram`. -/
structure PendingDatagram where
  destination : IPv4Address
  srcPort : UInt16
  destPort : UInt16
  payload : Bytes
deriving DecidableEq

/-- `Interface::ArpRequestState`. -/
structure ArpRequestState where
  retriesRemaining : ℤ
  msUntilRetry : ℤ
deriving DecidableEq

/-- A frame that was written, and the neighbour that an IP packet was handed to. -/
structure Written where
  frame : Ethernet
  nextHop : Option IPv4Address := none
deriving DecidableEq

/-- `NetworkStack::Interface`, with what was written to its channel. -/
structure Interface where
  config : InterfaceConfig
  arpTable : ArpTable
  arpRequestsInFlight : Assoc IPv4Address ArpRequestState := ∅
  pendingOutboundConnects : Assoc IPv4Address (List ConnectionKey) := ∅
  pendingOutboundDatagrams : Assoc IPv4Address (List PendingDatagram) := ∅
  written : List Written := []

/-- A connection of the table: `get_id()`, the ports and the peer it was made for,
and what it has done.  The id is a `uint64_t` of the source; that it comes round after
`2^64` connections is left out. -/
structure Connection where
  id : ℕ
  key : ConnectionKey
  session : Session

/-- A connection that is put into the table: its key, the connection that was
there, the accept queue of its port, and how many passive connections on that
port had not been established yet. -/
structure Registration where
  key : ConnectionKey
  replaced : Option Connection
  queued : List ConnectionKey
  halfOpen : ℕ

/-- A UDP datagram on its way: the interface it leaves by and the neighbour it
is handed to. -/
structure Dispatch where
  egress : ℕ
  nextHop : IPv4Address
  datagram : PendingDatagram
deriving DecidableEq

/-- The members of `NetworkStack` that are about connections: the ports that
listen, the accept queues, the connections by key, their keys by id, and the ids
of those that have closed. -/
structure ConnectionTable where
  listeningPorts : Assoc UInt16 ℕ := ∅
  pendingAccepts : Assoc UInt16 (List ConnectionKey) := ∅
  connections : Assoc ConnectionKey Connection := ∅
  connectionsById : Assoc ℕ ConnectionKey := ∅
  pendingReapIds : List ℕ := []
  nextConnectionId : ℕ := 1
  registered : List Registration := []
  /-- What `accept` has returned, by port. -/
  acceptReturns : List (UInt16 × Connection) := []
  /-- The connections that `connect` has returned. -/
  connectReturns : List ℕ := []
  reaped : List Connection := []

/-- `NetworkStack`. -/
structure NetworkStack extends ConnectionTable where
  primary : Interface
  others : List Interface := []
  routes : RouteTable := {}
  nextEphemeralPort : UInt16
  nextIpId : UInt16
  reassembler : IpReassembler
  icmpErrorTokensScaled : ℤ
  forwardingEnabled : Bool := false
  /-- Whether a callback for received datagrams is set, by bound port. -/
  udpSockets : Assoc UInt16 Bool := ∅
  /-- What the ISN generator gives the connection with an id. -/
  isn : ℕ → UInt32
  /-- The datagrams that `_send_or_queue_udp` took, those that were written, and
  those that were dropped because nobody answered. -/
  accepted : List Dispatch := []
  transmitted : List Dispatch := []
  givenUp : List Dispatch := []
  /-- The packets that were too large for their link and not to be fragmented. -/
  oversized : List (IPv4Address × Bytes) := []
  /-- What the callbacks of the sockets were called with, by port. -/
  delivered : List (UInt16 × IPv4Address × UInt16 × Bytes) := []

/-- Why a program does not return: it throws the project's exception or
`std::out_of_range`, or it never ends. -/
inductive Fault where
  | baseException (what : String)
  | outOfRange
  | diverges
deriving DecidableEq

/-- A program of the stack. -/
abbrev StackM := EStateM Fault NetworkStack

namespace NetworkStack

/-- `_interfaces`. -/
def interfaces (s : NetworkStack) : List Interface := s.primary :: s.others

/-- `_interfaces[index]`. -/
def interface? (s : NetworkStack) (index : ℕ) : Option Interface := s.interfaces[index]?

/-- Change one interface. -/
def modifyInterface (index : ℕ) (f : Interface → Interface) (s : NetworkStack) : NetworkStack :=
  match index with
  | 0 => { s with primary := f s.primary }
  | index + 1 => { s with others := s.others.modify index f }

@[simp] theorem interface?_modifyInterface (s : NetworkStack) (index j : ℕ) (f : Interface → Interface) :
    (s.modifyInterface index f).interface? j =
      if j = index then (s.interface? j).map f else s.interface? j := by
  unfold interface? modifyInterface interfaces
  cases index with
  | zero => cases j <;> simp
  | succ index =>
    cases j with
    | zero => simp
    | succ j =>
      simp only [List.getElem?_cons_succ, List.getElem?_modify, Nat.add_right_cancel_iff, eq_comm]
      split_ifs <;> simp

@[simp] theorem modifyInterface_id (s : NetworkStack) (index : ℕ) : s.modifyInterface index id = s := by
  cases index with
  | zero => rfl
  | succ index => simp only [modifyInterface, List.modify_id]

theorem modifyInterface_modifyInterface (s : NetworkStack) (index : ℕ) (f g : Interface → Interface) :
    (s.modifyInterface index f).modifyInterface index g = s.modifyInterface index (g ∘ f) := by
  cases index with
  | zero => rfl
  | succ index => simp only [modifyInterface, List.modify_modify_eq]

/-! ### Setting up -/

/-- The connected route of an interface that has an address. -/
def connectedRoute (config : InterfaceConfig) (index : ℕ) (routes : RouteTable) : RouteTable :=
  if config.hasAddress then routes.add config.ip config.prefixLength {} index else routes

/-- The routes that follow from the addressing: of the primary interface and its
gateway, and then of the others. -/
def derivedRoutes (config : InterfaceConfig) (others : List Interface) : RouteTable :=
  let routes := connectedRoute config 0 {}
  let routes := if config.hasGateway then routes.add {} 0 config.gateway 0 else routes
  others.zipIdx.foldl (fun routes i => connectedRoute i.1.config (i.2 + 1) routes) routes

/-- `configure_interface`. -/
def configureInterface (config : InterfaceConfig) (s : NetworkStack) : NetworkStack :=
  { s with
    primary := { s.primary with config := config }
    routes := derivedRoutes config s.others }

/-- An interface nothing has happened on. -/
def newInterface (config : InterfaceConfig) : Interface :=
  { config := config, arpTable := { defaultTtlMs := arpEntryTtlMs } }

/-- The constructor. -/
def new (config : InterfaceConfig) (isn : ℕ → UInt32) : NetworkStack :=
  ({ primary := newInterface config
     nextEphemeralPort := firstEphemeralPort
     nextIpId := 1
     reassembler := { timeoutMs := fragmentTimeoutMs }
     icmpErrorTokensScaled := icmpErrorBurst * msPerSecond
     isn := isn } : NetworkStack).configureInterface config

/-- `add_interface`. -/
def addInterface (config : InterfaceConfig) (s : NetworkStack) : NetworkStack :=
  { s with
    others := s.others ++ [newInterface config]
    routes := connectedRoute config (s.others.length + 1) s.routes }

/-- `add_route`. -/
def addRoute (destination : IPv4Address) (prefixLength : UInt8) (nextHop : IPv4Address) (index : ℕ)
    (s : NetworkStack) : NetworkStack :=
  { s with routes := s.routes.add destination prefixLength nextHop index }

/-- `add_static_arp_entry`: on the primary interface. -/
def addStaticArpEntry (ip : IPv4Address) (mac : MacAddress) (s : NetworkStack) : NetworkStack :=
  s.modifyInterface 0 fun interface =>
    { interface with arpTable := interface.arpTable.addStatic ip mac }

end NetworkStack

end TcpIpStack
