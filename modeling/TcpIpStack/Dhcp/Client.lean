/-
# The DHCP client

`src/include/dhcp_client.h` and `src/src/dhcp_client.cpp`.  A function of the client
returns the client and what it did outside: the messages it sent and the callbacks it
called, in order.  The send callback is given `message.to_bytes()`, which never throws on
a message of the client (`wellformed_of_sent`); both lease callbacks are set.

A countdown is the `int` of the source.  Elapsed times go through `static_cast<int>`,
so that one of `2^31` ms or more counts backwards.
-/

import TcpIpStack.Lib.Runs
import TcpIpStack.Stack.Tables
import TcpIpStack.Tcp.Bookkeeping
import TcpIpStack.Wire.Dhcp

namespace TcpIpStack

/-- `DhcpLease` -/
structure DhcpLease where
  ip : IPv4Address := {}
  subnetMask : IPv4Address := {}
  gateway : IPv4Address := {}
  server : IPv4Address := {}
  dnsServers : List IPv4Address := []
  mtu : UInt16 := 1500
  leaseSeconds : UInt32 := 0
deriving DecidableEq

/-- `DhcpClientState` -/
inductive DhcpClientState
  | init
  | selecting
  | requesting
  | bound
  | renewing
  | rebinding
deriving DecidableEq

/-- What the client does outside. -/
inductive DhcpEffect
  | send (dest : IPv4Address) (message : Dhcp)
  | leaseAcquired (lease : DhcpLease)
  | leaseLost
deriving DecidableEq

/-- `DhcpClient` -/
structure DhcpClient where
  mac : MacAddress
  state : DhcpClientState := .init
  transactionId : UInt32
  lease : DhcpLease := {}
  offer : DhcpLease := {}
  retransmitMsRemaining : ℤ := 0
  retransmitIntervalMs : ℤ := 4000
  secondsElapsedMs : UInt32 := 0
  renewalMsRemaining : ℤ := 0
  rebindingMsRemaining : ℤ := 0
  expiryMsRemaining : ℤ := 0

namespace DhcpClient

open TcpConnection (asInt)

def retransmitBaseMs : ℤ := 4000
def retransmitMaxMs : ℤ := 64000
def msPerSecond : UInt32 := 1000
def maxLeaseSeconds : UInt32 := 0x7fffffff / msPerSecond

/-- `lease_seconds_to_ms` -/
def leaseSecondsToMs (seconds : UInt32) : ℤ := asInt (min seconds maxLeaseSeconds * msPerSecond)

/-- `has_lease` -/
def hasLease (c : DhcpClient) : Bool :=
  c.state = .bound ∨ c.state = .renewing ∨ c.state = .rebinding

/-- `_fill_message` -/
def fillMessage (c : DhcpClient) (type : UInt8) : Dhcp :=
  ((({ op := Dhcp.opBootRequest
       transactionId := c.transactionId
       clientMac := c.mac
       secondsElapsed := (min (c.secondsElapsedMs / msPerSecond) 0xffff).toUInt16 } :
      Dhcp).setMessageType type).setOption .clientIdentifier (1 :: c.mac.octets)).setOption
    .parameterRequestList
    ([.subnetMask, .router, .dnsServer, .interfaceMtu, .leaseTime, .renewalTime,
      .rebindingTime].map DhcpOption.code)

/-- `_send_discover` -/
def sendDiscover (c : DhcpClient) : List DhcpEffect :=
  [.send limitedBroadcastAddress ((c.fillMessage Dhcp.discover).setBroadcastFlag true)]

/-- The lease that a broadcast REQUEST asks for. -/
def target (c : DhcpClient) : DhcpLease := if c.state = .requesting then c.offer else c.lease

/-- The REQUEST that is broadcast: for an offer, or from any server. -/
def broadcastRequest (c : DhcpClient) : Dhcp :=
  let message := ((c.fillMessage Dhcp.request).setBroadcastFlag true).setOption .requestedIp
    c.target.ip.octets
  if c.state = .requesting then message.setOption .serverIdentifier c.target.server.octets
  else { message with clientIp := c.lease.ip }

/-- `_send_request` -/
def sendRequest (c : DhcpClient) (unicastToServer : Bool) : List DhcpEffect :=
  if unicastToServer then
    [.send c.lease.server { c.fillMessage Dhcp.request with clientIp := c.lease.ip }]
  else [.send limitedBroadcastAddress c.broadcastRequest]

/-- `_restart` -/
def restart (c : DhcpClient) : DhcpClient × List DhcpEffect :=
  let c := { c with
    state := .selecting
    transactionId := c.transactionId + 1
    secondsElapsedMs := 0
    retransmitIntervalMs := retransmitBaseMs
    retransmitMsRemaining := retransmitBaseMs
    renewalMsRemaining := 0
    rebindingMsRemaining := 0
    expiryMsRemaining := 0 }
  (c, c.sendDiscover)

/-- The client asks for something new: both retransmission fields start over. -/
def ask (c : DhcpClient) (state : DhcpClientState) (unicastToServer : Bool) :
    DhcpClient × List DhcpEffect :=
  let c := { c with
    state := state
    retransmitIntervalMs := retransmitBaseMs
    retransmitMsRemaining := retransmitBaseMs }
  (c, c.sendRequest unicastToServer)

theorem ask_snd (c : DhcpClient) (state : DhcpClientState) (unicastToServer : Bool) :
    (c.ask state unicastToServer).2 = (c.ask state unicastToServer).1.sendRequest unicastToServer :=
  rfl

/-! ### Datagrams -/

/-- The lease time that an ACK grants; none at all counts as an hour. -/
def grantedSeconds (message : Dhcp) : UInt32 :=
  if message.getOptionUInt32 .leaseTime 0 = 0 then 3600 else message.getOptionUInt32 .leaseTime 0

/-- The lease that an ACK grants. -/
def granted (c : DhcpClient) (message : Dhcp) : DhcpLease where
  ip := message.yourIp
  subnetMask := message.getOptionAddress .subnetMask
  gateway := (message.getOptionAddressList .router).headD {}
  -- a renewal without a server keeps the one that is known
  server :=
    if message.getOptionAddress .serverIdentifier = {} ∧ c.hasLease then c.lease.server
    else message.getOptionAddress .serverIdentifier
  dnsServers := message.getOptionAddressList .dnsServer
  mtu := message.getOptionUInt16 .interfaceMtu 1500
  leaseSeconds := grantedSeconds message

/-- `_apply_ack`.  The products are of `uint32_t`. -/
def applyAck (c : DhcpClient) (message : Dhcp) : DhcpClient × List DhcpEffect :=
  let seconds := grantedSeconds message
  let c := { c with
    lease := c.granted message
    state := .bound
    renewalMsRemaining :=
      leaseSecondsToMs (message.getOptionUInt32 .renewalTime (seconds * 1 / 2))
    rebindingMsRemaining :=
      leaseSecondsToMs (message.getOptionUInt32 .rebindingTime (seconds * 7 / 8))
    expiryMsRemaining := leaseSecondsToMs seconds
    retransmitMsRemaining := 0 }
  (c, [.leaseAcquired c.lease])

theorem applyAck_expiryMsRemaining (c : DhcpClient) (message : Dhcp) :
    (c.applyAck message).1.expiryMsRemaining = leaseSecondsToMs (grantedSeconds message) := by
  simp only [applyAck]

/-- An OFFER: the first one is taken. -/
def onOffer (c : DhcpClient) (message : Dhcp) : DhcpClient × List DhcpEffect :=
  if c.state = .selecting then
    { c with
      offer := { ip := message.yourIp, server := message.getOptionAddress .serverIdentifier } }.ask
      .requesting false
  else (c, [])

/-- An ACK. -/
def onAck (c : DhcpClient) (message : Dhcp) : DhcpClient × List DhcpEffect :=
  if c.state ≠ .requesting ∧ c.state ≠ .renewing ∧ c.state ≠ .rebinding then (c, [])
  else c.applyAck message

/-- The lease is given up and the client starts over. -/
def drop (c : DhcpClient) : DhcpClient × List DhcpEffect := { c with lease := {} }.restart

/-- A NAK, in whatever state. -/
def onNak (c : DhcpClient) : DhcpClient × List DhcpEffect :=
  (c.drop.1, (if c.hasLease then [.leaseLost] else []) ++ c.drop.2)

/-- Whether a message is a reply to this client's transaction. -/
def isReply (c : DhcpClient) (message : Dhcp) : Bool :=
  message.op = Dhcp.opBootReply ∧ message.transactionId = c.transactionId ∧
    message.clientMac = c.mac

/-- The `switch` on the message type. -/
def onReply (c : DhcpClient) (message : Dhcp) : DhcpClient × List DhcpEffect :=
  if message.getMessageType = Dhcp.offer then c.onOffer message
  else if message.getMessageType = Dhcp.acknowledge then c.onAck message
  else if message.getMessageType = Dhcp.nak then c.onNak
  else (c, [])

/-- `on_datagram` -/
def onDatagram (c : DhcpClient) (payload : Bytes) : DhcpClient × List DhcpEffect :=
  match Dhcp.fromBytes payload with
  | .error _ => (c, [])
  | .ok message => if c.isReply message then c.onReply message else (c, [])

/-! ### Time -/

/-- `_schedule_retransmit` -/
def scheduleRetransmit (c : DhcpClient) : DhcpClient :=
  { c with
    retransmitIntervalMs := min (c.retransmitIntervalMs * 2) retransmitMaxMs
    retransmitMsRemaining := min (c.retransmitIntervalMs * 2) retransmitMaxMs }

/-- The countdown to the next retransmission, and what is sent at its end. -/
def retransmit (c : DhcpClient) (elapsedMs : UInt32) : DhcpClient × List DhcpEffect :=
  let c := { c with retransmitMsRemaining := c.retransmitMsRemaining - asInt elapsedMs }
  if c.retransmitMsRemaining ≤ 0 then
    let c := c.scheduleRetransmit
    (c, if c.state = .selecting then c.sendDiscover else c.sendRequest (c.state = .renewing))
  else (c, [])

/-- The three deadlines of a lease run down together. -/
def age (c : DhcpClient) (elapsedMs : UInt32) : DhcpClient :=
  { c with
    renewalMsRemaining := c.renewalMsRemaining - asInt elapsedMs
    rebindingMsRemaining := c.rebindingMsRemaining - asInt elapsedMs
    expiryMsRemaining := c.expiryMsRemaining - asInt elapsedMs }

section Age

variable (c : DhcpClient) (elapsedMs : UInt32)

@[simp] theorem age_state : (c.age elapsedMs).state = c.state := rfl

@[simp] theorem age_renewalMsRemaining :
    (c.age elapsedMs).renewalMsRemaining = c.renewalMsRemaining - asInt elapsedMs := rfl

@[simp] theorem age_rebindingMsRemaining :
    (c.age elapsedMs).rebindingMsRemaining = c.rebindingMsRemaining - asInt elapsedMs := rfl

@[simp] theorem age_expiryMsRemaining :
    (c.age elapsedMs).expiryMsRemaining = c.expiryMsRemaining - asInt elapsedMs := rfl

end Age

/-- Time passes while a lease is held. -/
def onTimePassedHeld (c : DhcpClient) (elapsedMs : UInt32) : DhcpClient × List DhcpEffect :=
  let c := c.age elapsedMs
  if c.expiryMsRemaining ≤ 0 then (c.drop.1, .leaseLost :: c.drop.2)
  else if c.rebindingMsRemaining ≤ 0 ∧ c.state ≠ .rebinding then c.ask .rebinding false
  else if 0 < c.rebindingMsRemaining ∧ c.renewalMsRemaining ≤ 0 ∧ c.state = .bound then
    c.ask .renewing true
  else if c.state = .renewing ∨ c.state = .rebinding then c.retransmit elapsedMs
  else (c, [])

/-- `on_time_passed` -/
def onTimePassed (c : DhcpClient) (elapsedMs : UInt32) : DhcpClient × List DhcpEffect :=
  if c.state = .init then (c, [])
  else
    let c := { c with secondsElapsedMs := c.secondsElapsedMs + elapsedMs }
    if c.state = .selecting ∨ c.state = .requesting then c.retransmit elapsedMs
    else c.onTimePassedHeld elapsedMs

end DhcpClient

/-! ### Runs -/

/-- What happens to a client. -/
inductive DhcpStep
  | start
  | datagram (payload : Bytes)
  | timePassed (elapsedMs : UInt32)

/-- The client after a step, and what it did. -/
def DhcpStep.act : DhcpStep → DhcpClient → DhcpClient × List DhcpEffect
  | start, c => c.restart
  | datagram payload, c => c.onDatagram payload
  | timePassed elapsedMs, c => c.onTimePassed elapsedMs

end TcpIpStack
