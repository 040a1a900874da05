/-
# What can happen to a stack

`on_time_passed` of `src/src/network_stack.cpp`, and the public calls and the
frames as the steps of a system.  `poll()` handles some frames with
`_handle_frame` and reaps at the end: it is a run of the steps `frame`, and then
`reap`.

A step that throws leaves the stack as it stood, for the caller to go on with; a
step that never ends has no result.  The maps that the source iterates over have
no order; here they are gone through in some order.
-/

import TcpIpStack.Lib.Runs
import TcpIpStack.Stack.Input

namespace TcpIpStack

open Programs
open TcpConnection (asInt)

namespace Interface

/-- `arp_table.age`. -/
def age (elapsedMs : UInt32) (interface : Interface) : Interface :=
  { interface with arpTable := interface.arpTable.age elapsedMs }

end Interface

namespace NetworkStack

/-- The neighbours of every interface grow older. -/
def ageArpTables (elapsedMs : UInt32) (s : NetworkStack) : NetworkStack :=
  { s with
    primary := s.primary.age elapsedMs
    others := s.others.map (Interface.age elapsedMs) }

/-- The budget for ICMP errors fills up with time. -/
def refillIcmpTokens (elapsedMs : UInt32) (s : NetworkStack) : NetworkStack :=
  { s with
    icmpErrorTokensScaled :=
      min (s.icmpErrorTokensScaled + asInt elapsedMs * icmpErrorRefillPerSecond)
        (icmpErrorBurst * msPerSecond) }

/-- The datagrams that wait for a neighbour are dropped. -/
def dropDatagrams (index : ℕ) (ip : IPv4Address) (pending : List PendingDatagram) (s : NetworkStack) :
    NetworkStack :=
  { s.modifyInterface index (Interface.clearDatagrams ip) with
    givenUp := s.givenUp ++ pending.map (Dispatch.mk index ip) }

end NetworkStack

namespace StackM

/-! ### `on_time_passed` -/

/-- Nobody answered: what waits for the neighbour is failed and dropped. -/
def giveUp (index : ℕ) (ip : IPv4Address) : StackM Unit := do
  modify (·.modifyInterface index (Interface.clearArpRequest ip))
  failPendingOutboundConnects index ip
  match (← interfaceAt index).pendingOutboundDatagrams.lookup ip with
  | none => pure ()
  | some pending => modify (NetworkStack.dropDatagrams index ip pending)

/-- One turn of the loop over `arp_requests_in_flight`. -/
def ageArpRequest (elapsedMs : UInt32) (index : ℕ) (ip : IPv4Address) : StackM Unit := do
  match (← interfaceAt index).arpRequestsInFlight.lookup ip with
  | none => pure ()
  | some ⟨retriesRemaining, msUntilRetry⟩ =>
    let msUntilRetry := msUntilRetry - asInt elapsedMs
    if 0 < msUntilRetry then
      modify (·.modifyInterface index (Interface.setArpRequest ip ⟨retriesRemaining, msUntilRetry⟩))
    else if retriesRemaining - 1 ≤ 0 then giveUp index ip
    else
      sendArpRequest index ip
      modify (·.modifyInterface index (Interface.setArpRequest ip ⟨retriesRemaining - 1, arpRetryMs⟩))

/-- The loop over `arp_requests_in_flight` of one interface. -/
def ageArpRequests (elapsedMs : UInt32) (index : ℕ) : StackM Unit := do
  (← interfaceAt index).arpRequestsInFlight.keys.forM (ageArpRequest elapsedMs index)

/-- The reassembler drops what is too old, and its senders are told. -/
def ageReassembler (elapsedMs : UInt32) : StackM Unit := do
  let (expired, r) := (← get).reassembler.age elapsedMs
  modify fun s => { s with reassembler := r }
  expired.forM sendIcmpFragmentReassemblyTimeExceeded

/-- `on_time_passed`, on a stack without a DHCP client and a resolver. -/
def onTimePassed (elapsedMs : UInt32) : StackM Unit := do
  (← get).connections.keys.forM fun key =>
    catching Fault.isException (runConnection key (.event (.timePassed elapsedMs)))
  modifyTable (·.reapClosedConnections)
  modify (NetworkStack.ageArpTables elapsedMs)
  modify (NetworkStack.refillIcmpTokens elapsedMs)
  ageReassembler elapsedMs
  (List.range (← get).interfaces.length).forM (ageArpRequests elapsedMs)

/-- A call on a connection that the application has found by its id. -/
def callConnection (id : ℕ) (event : Event) : StackM Unit := do
  match (← get).connectionsById.lookup id with
  | none => pure ()
  | some key => runConnection key (.event event)

/-- `bind_udp`: a port that is bound keeps its socket. -/
def bindUdp (port : UInt16) : StackM Unit :=
  modify fun s => { s with udpSockets :=
    if (s.udpSockets.lookup port).isSome then s.udpSockets else s.udpSockets.insert port false }

/-- `set_datagram_received_callback` of the socket of a port. -/
def setDatagramReceived (port : UInt16) : StackM Unit :=
  modify fun s => { s with udpSockets :=
    if (s.udpSockets.lookup port).isSome then s.udpSockets.insert port true else s.udpSockets }

end StackM

/-! ### Steps -/

/-- What can happen. -/
inductive Step
  | frame (ingress : ℕ) (bytes : Bytes)
  | reap
  | timePassed (elapsedMs : UInt32)
  | listen (port : UInt16) (backlog : ℕ)
  | accept (port : UInt16)
  | connect (remoteIp : IPv4Address) (remotePort : UInt16)
  | send (id : ℕ) (data : Bytes)
  | read (id : ℕ) (maxBytes : ℕ)
  | close (id : ℕ)
  | setKeepalive (id : ℕ) (enabled : Bool)
  | bindUdp (port : UInt16)
  | setDatagramReceived (port : UInt16)
  | unbindUdp (port : UInt16)
  | sendTo (localPort : UInt16) (destIp : IPv4Address) (destPort : UInt16) (data : Bytes)
  | sendEchoRequest (destination : IPv4Address) (identifier sequence : UInt16) (payload : Bytes)
  | setForwarding (enabled : Bool)
  | addStaticArpEntry (ip : IPv4Address) (mac : MacAddress)
  | addRoute (destination : IPv4Address) (prefixLength : UInt8) (nextHop : IPv4Address) (index : ℕ)
  | addInterface (config : InterfaceConfig)
  | configureInterface (config : InterfaceConfig)

namespace Step

open StackM NetworkStack

/-- The program of a step. -/
def program : Step → StackM Unit
  | frame ingress bytes => handleFrame ingress bytes
  | reap => modifyTable (·.reapClosedConnections)
  | timePassed elapsedMs => onTimePassed elapsedMs
  | listen port backlog => modifyTable (·.listen port backlog)
  | accept port => modifyTable (·.accept port)
  | connect remoteIp remotePort => StackM.connect remoteIp remotePort
  | send id data => callConnection id (.send data)
  | read id maxBytes => callConnection id (.read maxBytes)
  | close id => callConnection id .close
  | setKeepalive id enabled => callConnection id (.setKeepalive enabled)
  | bindUdp port => StackM.bindUdp port
  | setDatagramReceived port => StackM.setDatagramReceived port
  | unbindUdp port => modify fun s => { s with udpSockets := s.udpSockets.erase port }
  | sendTo localPort destIp destPort data => StackM.sendTo localPort destIp destPort data
  | sendEchoRequest destination identifier sequence payload =>
    StackM.sendEchoRequest destination identifier sequence payload
  | setForwarding enabled => modify fun s => { s with forwardingEnabled := enabled }
  | addStaticArpEntry ip mac => modify (NetworkStack.addStaticArpEntry ip mac)
  | addRoute destination prefixLength nextHop index =>
    modify (NetworkStack.addRoute destination prefixLength nextHop index)
  | addInterface config => modify (NetworkStack.addInterface config)
  | configureInterface config => modify (NetworkStack.configureInterface config)

/-- The stack after a step, if it ends. -/
def run (a : Step) (s : NetworkStack) : Option NetworkStack :=
  match a.program.run s with
  | .ok _ s' => some s'
  | .error fault s' => if fault = .diverges then none else some s'

theorem eq_after_of_run {a : Step} {s s' : NetworkStack} (h : a.run s = some s') : s' = after a.program s := by
  unfold run at h
  unfold after
  split at h <;> simp_all

end Step

end TcpIpStack
