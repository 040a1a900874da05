/-
# Sending

The sending half of `src/src/network_stack.cpp`: which link and neighbour a
destination is reached by, one IP packet or its fragments, and the TCP, UDP,
ICMP and ARP messages that go into them.

The loop that cuts a payload into fragments makes no progress when the link
carries no payload at all.  `fragments` says so with fuel: it has a result, or
the program never ends.
-/

import TcpIpStack.Stack.State

namespace TcpIpStack

open Programs

/-- `IPv4Address::to_string`. -/
def IPv4Address.toString (ip : IPv4Address) : String :=
  ".".intercalate (ip.octets.map fun octet => Nat.repr octet.toNat)

namespace NetworkStack

/-! ### Where a packet goes -/

/-- `_is_broadcast_for_any_interface`. -/
def isBroadcastForAnyInterface (s : NetworkStack) (ip : IPv4Address) : Bool :=
  s.interfaces.any fun interface => isBroadcastAddress ip interface.config

/-- `_route_for`: the next hop and the interface.  A broadcast is its own next
hop, and with one interface everything is a neighbour. -/
def routeFor (s : NetworkStack) (destination : IPv4Address) : Option (IPv4Address × ℕ) :=
  if s.isBroadcastForAnyInterface destination then some (destination, 0)
  else
    match s.routes.lookup destination with
    | some route => some route
    | none => if s.others = [] then some (destination, 0) else none

end NetworkStack

namespace Interface

/-- The MAC address of a neighbour, if it is known or the address is a
broadcast. -/
def resolve (interface : Interface) (ip : IPv4Address) : Option MacAddress :=
  if isBroadcastAddress ip interface.config then some MacAddress.broadcast
  else interface.arpTable.lookup ip

/-- A datagram waits for a neighbour. -/
def queueDatagram (nextHop : IPv4Address) (datagram : PendingDatagram) (interface : Interface) : Interface :=
  { interface with
    pendingOutboundDatagrams := interface.pendingOutboundDatagrams.insert nextHop
      ((interface.pendingOutboundDatagrams.lookup nextHop).getD [] ++ [datagram]) }

/-- Nothing waits for a neighbour any more. -/
def clearDatagrams (nextHop : IPv4Address) (interface : Interface) : Interface :=
  { interface with pendingOutboundDatagrams := interface.pendingOutboundDatagrams.erase nextHop }

/-- A neighbour is being asked for. -/
def setArpRequest (ip : IPv4Address) (request : ArpRequestState) (interface : Interface) : Interface :=
  { interface with arpRequestsInFlight := interface.arpRequestsInFlight.insert ip request }

/-- Frames are written. -/
def append (written : List Written) (interface : Interface) : Interface :=
  { interface with written := interface.written ++ written }

theorem append_nil : append [] = id := by
  funext interface
  rw [append, List.append_nil, id]

theorem append_comp_append (written written' : List Written) :
    append written' ∘ append written = append (written ++ written') := by
  funext interface
  simp [append]

end Interface

namespace StackM

/-- `_interfaces.at(index)`. -/
def interfaceAt (index : ℕ) : StackM Interface := do
  match (← get).interface? index with
  | some interface => pure interface
  | none => throw .outOfRange

/-- `_source_address_for`. -/
def sourceAddressFor (destIp : IPv4Address) : StackM IPv4Address := do
  match (← get).routeFor destIp with
  | none => return (← get).primary.config.ip
  | some (_, egress) => return (← interfaceAt egress).config.ip

/-- `_resolve_mac`. -/
def resolveMac (index : ℕ) (ip : IPv4Address) : StackM MacAddress := do
  match (← interfaceAt index).resolve ip with
  | some mac => pure mac
  | none => throw (.baseException ("No ARP entry for " ++ ip.toString))

/-- `channel->write`. -/
def write (index : ℕ) (written : Written) : StackM Unit :=
  modify (·.modifyInterface index (Interface.append [written]))

end StackM

/-! ### IP packets -/

/-- The packet that `_send_ip_packet` builds around a payload. -/
def ipPacket (src dest : IPv4Address) (protocol : UInt8) (identification : UInt16) (flags : UInt8)
    (fragmentOffset : UInt16) (payload : Bytes) : Ip :=
  Ip.build 0 identification flags fragmentOffset 64 protocol src dest payload

/-- The fragmentation loop from an offset on.  A turn advances by the payload
that one frame carries. -/
def fragments (src dest : IPv4Address) (protocol : UInt8) (identification : UInt16)
    (maxIpPayload : ℕ) (payload : Bytes) : ℕ → ℕ → Option (List Ip)
  | 0, offset => if payload.length ≤ offset then some [] else none
  | fuel + 1, offset =>
    if payload.length ≤ offset then some []
    else
      let chunk := min maxIpPayload (payload.length - offset)
      let flags := if offset + chunk < payload.length then Ip.flagMoreFragments else 0
      (fragments src dest protocol identification maxIpPayload payload fuel (offset + chunk)).map
        (ipPacket src dest protocol identification flags (UInt16.ofNat (offset / 8))
          ((payload.drop offset).take chunk) :: ·)

/-- A frame that carries an IP packet to a neighbour. -/
def ipFrame (src dest : MacAddress) (nextHop : IPv4Address) (ip : Ip) : Written :=
  ⟨⟨src, dest, Ethernet.etherTypeIPv4, .ip ip⟩, some nextHop⟩

/-- `_send_tcp_segment`'s copy of a header: the constructor takes the fields,
and two of the options are carried over. -/
def Tcp.rebuilt (header : Tcp) (payload : Bytes) : Tcp :=
  { Tcp.ofFlags header.srcPort header.destPort header.sequenceNumber header.acknowledgementNumber
      header.dataOffset header.flagsToByte header.window 0 header.urgentPtr with
    mssOption := header.mssOption
    windowScaleOption := header.windowScaleOption
    nextLayer := if payload = [] then none else some payload }

namespace StackM

/-- `_send_ip_packet`. -/
def sendIpPacket (destIp : IPv4Address) (protocol : UInt8) (payload : Bytes) (dontFragment : Bool) :
    StackM Unit := do
  match (← get).routeFor destIp with
  | none => pure ()
  | some (nextHop, egress) =>
    let interface ← interfaceAt egress
    let destMac ← resolveMac egress nextHop
    let config := interface.config
    if payload.length ≤ config.maxIpPayload then
      let flags := if dontFragment then Ip.flagDontFragment else 0
      write egress (ipFrame config.mac destMac nextHop
        (ipPacket config.ip destIp protocol 0 flags 0 payload))
    else if dontFragment then
      modify fun s => { s with oversized := s.oversized ++ [(destIp, payload)] }
    else
      let identification := (← get).nextIpId
      modify fun s => { s with nextIpId := s.nextIpId + 1 }
      match fragments config.ip destIp protocol identification config.maxIpPayload payload
          payload.length 0 with
      | none => throw .diverges
      | some packets => packets.forM fun ip => write egress (ipFrame config.mac destMac nextHop ip)

/-! ### Transport -/

/-- `_send_tcp_segment`. -/
def sendTcpSegment (destIp : IPv4Address) (header : Tcp) (payload : Bytes) : StackM Unit := do
  let segment := header.rebuilt payload
  let src ← sourceAddressFor destIp
  let checksum := transportChecksum src destIp Ip.protocolTcp segment.toBytes
  sendIpPacket destIp Ip.protocolTcp { segment with checksum := checksum }.toBytes true

/-- `_send_rst`. -/
def sendRst (ip : Ip) (tcp : Tcp) : StackM Unit :=
  if tcp.ack then
    sendTcpSegment ip.srcAddress
      (Tcp.ofFlags tcp.destPort tcp.srcPort tcp.acknowledgementNumber 0 5 flagRst 0 0 0) []
  else
    let consumed := UInt32.ofNat tcp.payload.length + (if tcp.syn then 1 else 0) +
      (if tcp.fin then 1 else 0)
    sendTcpSegment ip.srcAddress
      (Tcp.ofFlags tcp.destPort tcp.srcPort 0 (tcp.sequenceNumber + consumed) 5
        (flagRst ||| flagAck) 0 0 0) []

/-- `_send_udp_datagram`: a checksum of zero is sent as all ones. -/
def sendUdpDatagram (destIp : IPv4Address) (header : Udp) (payload : Bytes) : StackM Unit := do
  let datagram := Udp.ofData header.srcPort header.destPort header.length 0 payload
  let src ← sourceAddressFor destIp
  let checksum := transportChecksum src destIp Ip.protocolUdp datagram.toBytes
  let checksum := if checksum = 0 then 0xFFFF else checksum
  sendIpPacket destIp Ip.protocolUdp { datagram with checksum := checksum }.toBytes false
  match (← get).routeFor destIp with
  | none => pure ()
  | some (nextHop, egress) => modify fun s => { s with transmitted := s.transmitted ++
      [⟨egress, nextHop, ⟨destIp, header.srcPort, header.destPort, payload⟩⟩] }

/-! ### ARP -/

/-- `_send_arp_request`. -/
def sendArpRequest (index : ℕ) (targetIp : IPv4Address) : StackM Unit := do
  let interface ← interfaceAt index
  write index ⟨⟨interface.config.mac, MacAddress.broadcast, Ethernet.etherTypeArp,
    .arp (Arp.request interface.config.mac interface.config.ip targetIp)⟩, none⟩

/-- `_ensure_arp_resolution`. -/
def ensureArpResolution (index : ℕ) (ip : IPv4Address) : StackM Unit := do
  let interface ← interfaceAt index
  if (interface.arpRequestsInFlight.lookup ip).isSome then return
  sendArpRequest index ip
  modify (·.modifyInterface index (Interface.setArpRequest ip ⟨arpMaxRetries, arpRetryMs⟩))

/-! ### UDP with and without a neighbour -/

/-- A datagram was taken. -/
def recordAccepted (egress : ℕ) (nextHop destIp : IPv4Address) (header : Udp) (payload : Bytes) :
    StackM Unit :=
  modify fun s => { s with accepted := s.accepted ++
    [⟨egress, nextHop, ⟨destIp, header.srcPort, header.destPort, payload⟩⟩] }

/-- `_send_or_queue_udp`. -/
def sendOrQueueUdp (destIp : IPv4Address) (header : Udp) (payload : Bytes) : StackM Unit := do
  if (← get).isBroadcastForAnyInterface destIp then
    sendUdpDatagram destIp header payload
    recordAccepted 0 destIp destIp header payload
  else
    match (← get).routeFor destIp with
    | none => pure ()
    | some (nextHop, egress) =>
      if (← interfaceAt egress).arpTable.contains nextHop then
        sendUdpDatagram destIp header payload
      else
        modify (·.modifyInterface egress
          (Interface.queueDatagram nextHop ⟨destIp, header.srcPort, header.destPort, payload⟩))
        ensureArpResolution egress nextHop
      recordAccepted egress nextHop destIp header payload

/-- `_flush_pending_outbound_datagrams`: the queue is the primary interface's. -/
def flushPendingOutboundDatagrams (ip : IPv4Address) : StackM Unit := do
  match (← get).primary.pendingOutboundDatagrams.lookup ip with
  | none => pure ()
  | some pending =>
    pending.forM fun p =>
      sendUdpDatagram p.destination
        (Udp.ofData p.srcPort p.destPort (UInt16.ofNat (8 + p.payload.length)) 0 []) p.payload
    modify (·.modifyInterface 0 (Interface.clearDatagrams ip))

/-- `UdpSocket::send_to`. -/
def sendTo (localPort : UInt16) (destIp : IPv4Address) (destPort : UInt16) (data : Bytes) :
    StackM Unit :=
  sendOrQueueUdp destIp (Udp.ofData localPort destPort (UInt16.ofNat (8 + data.length)) 0 []) data

/-! ### ICMP -/

/-- `_send_icmp_message`: a message to a neighbour that is not known is dropped. -/
def sendIcmpMessage (destIp : IPv4Address) (header : Icmp) (payload : Bytes) : StackM Unit := do
  match (← get).routeFor destIp with
  | none => pure ()
  | some (nextHop, egress) =>
    let interface ← interfaceAt egress
    if isBroadcastAddress nextHop interface.config || interface.arpTable.contains nextHop then
      let message := (Icmp.ofData header.type header.code 0 header.restOfHeader payload).computeChecksum
      sendIpPacket destIp Ip.protocolIcmp message.toBytes false
    else ensureArpResolution egress nextHop

/-- `_may_send_icmp_error`. -/
def maySendIcmpError : StackM Bool := do
  if (← get).icmpErrorTokensScaled < msPerSecond then return false
  modify fun s => { s with icmpErrorTokensScaled := s.icmpErrorTokensScaled - msPerSecond }
  return true

/-- The three errors about a packet that was received: the type, the code, and
the header with eight octets of the payload. -/
def sendIcmpError (type code : UInt8) (ip : Ip) : StackM Unit := do
  if ← maySendIcmpError then
    sendIcmpMessage ip.srcAddress (Icmp.ofData type code 0 0 []) (ip.toBytes.take 28)

/-- `_send_icmp_time_exceeded`. -/
def sendIcmpTimeExceeded : Ip → StackM Unit := sendIcmpError Icmp.timeExceeded Icmp.codeTtlExceeded

/-- `_send_icmp_net_unreachable`. -/
def sendIcmpNetUnreachable : Ip → StackM Unit :=
  sendIcmpError Icmp.destinationUnreachable Icmp.codeNetUnreachable

/-- `_send_icmp_port_unreachable`. -/
def sendIcmpPortUnreachable : Ip → StackM Unit :=
  sendIcmpError Icmp.destinationUnreachable Icmp.codePortUnreachable

/-- `_send_icmp_fragment_reassembly_time_exceeded`. -/
def sendIcmpFragmentReassemblyTimeExceeded (destination : IPv4Address) : StackM Unit := do
  if ← maySendIcmpError then
    sendIcmpMessage destination
      (Icmp.ofData Icmp.timeExceeded Icmp.codeFragmentReassemblyTimeExceeded 0 0 []) []

/-- `send_echo_request`. -/
def sendEchoRequest (destination : IPv4Address) (identifier sequence : UInt16) (payload : Bytes) :
    StackM Unit :=
  sendIcmpMessage destination
    (Icmp.ofData Icmp.echoRequest Icmp.codeNone 0
      (identifier.toUInt32 <<< 16 ||| sequence.toUInt32) []) payload

end StackM

end TcpIpStack
