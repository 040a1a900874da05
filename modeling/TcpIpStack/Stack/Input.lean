/-
# A frame arrives

`_handle_frame` of `src/src/network_stack.cpp` and what it leads to: ARP, a
packet for this host, a fragment of one, a packet to be forwarded, and the three
transports.  `_handle_frame` catches the project's own exceptions, whether the
frame could not be parsed or something that was sent in answer failed.
-/

import TcpIpStack.Stack.Connections

namespace TcpIpStack

open Programs

namespace Interface

/-- `arp_table.learn`. -/
def learn (ip : IPv4Address) (mac : MacAddress) (interface : Interface) : Interface :=
  { interface with arpTable := interface.arpTable.learn ip mac }

/-- `arp_table.refresh`. -/
def refresh (ip : IPv4Address) (interface : Interface) : Interface :=
  { interface with arpTable := interface.arpTable.refresh ip }

end Interface

/-- `is_addressed_to_us`: our own address, the broadcast, or any group address. -/
def isAddressedToUs (dest localMac : MacAddress) : Bool :=
  dest = localMac || dest = MacAddress.broadcast || dest.isGroup

/-- The destination is the address of one of the interfaces. -/
def NetworkStack.isOwnAddress (s : NetworkStack) (destination : IPv4Address) : Bool :=
  s.interfaces.any fun interface => interface.config.hasAddress && destination = interface.config.ip

/-- A packet on its way through: the time to live is one less, and the header
checksum is computed again. -/
def forwardedBytes (ttl : UInt8) (ipBytes : Bytes) : Bytes :=
  let cleared := ((ipBytes.set 8 (ttl - 1)).set 10 0).set 11 0
  let checksum := internetChecksum (cleared.take 20)
  (cleared.set 10 (checksum >>> 8).toUInt8).set 11 (checksum &&& 0xff).toUInt8

/-- The connection whose packet an ICMP error quotes. -/
def keyFromIcmpQuote (icmp : Icmp) : Except String (Option ConnectionKey) :=
  match icmp.nextLayer with
  | none => .ok none
  | some embedded => do
    if embedded.length < 28 then return none
    let ihl := ((← sliceInt8 embedded 0) &&& 0x0f).toNat * 4
    if ihl < 20 ∨ embedded.length < ihl + 4 then return none
    if (← sliceInt8 embedded 9) ≠ Ip.protocolTcp then return none
    let originalDest ← sliceIp embedded 16
    let localPort ← sliceInt16 embedded ihl
    let remotePort ← sliceInt16 embedded (ihl + 2)
    return some ⟨originalDest, remotePort, localPort⟩

/-- The MSS that the MTU of a Fragmentation Needed leaves.  Old routers send zero. -/
def pathMss (restOfHeader : UInt32) : UInt16 :=
  let nextHopMtu := if restOfHeader.toUInt16 = 0 then 576 else restOfHeader.toUInt16
  if 40 < nextHopMtu then nextHopMtu - 40 else 0

namespace StackM

/-- A parser's exception is thrown. -/
def parsed {α : Type} : Except String α → StackM α
  | .ok a => pure a
  | .error what => throw (.baseException what)

/-! ### ARP -/

/-- The connections that were waiting for a neighbour send their SYN. -/
def resumeConnects (index : ℕ) (ip : IPv4Address) : StackM Unit := do
  match (← interfaceAt index).pendingOutboundConnects.lookup ip with
  | none => pure ()
  | some keys =>
    keys.forM fun key => runConnection key (.opener .active)
    modify (·.modifyInterface index (Interface.clearConnects ip))

/-- The answer to an ARP request. -/
def replyArp (index : ℕ) (config : InterfaceConfig) (arp : Arp) : StackM Unit :=
  if arp.operation = Arp.operationRequest then
    write index ⟨⟨config.mac, arp.senderHardwareAddress, Ethernet.etherTypeArp,
      .arp ⟨Arp.operationReply, config.mac, config.ip, arp.senderHardwareAddress,
        arp.senderProtocolAddress⟩⟩, none⟩
  else pure ()

/-- `_handle_arp`. -/
def handleArp (ingress : ℕ) (arp : Arp) : StackM Unit := do
  let interface ← interfaceAt ingress
  if arp.targetProtocolAddress ≠ interface.config.ip then return
  let senderIp := arp.senderProtocolAddress
  modify (·.modifyInterface ingress (Interface.learn senderIp arp.senderHardwareAddress))
  modify (·.modifyInterface ingress (Interface.clearArpRequest senderIp))
  resumeConnects ingress senderIp
  flushPendingOutboundDatagrams senderIp
  replyArp ingress interface.config arp

/-! ### The transports -/

/-- A segment for a connection.  One that completes a passive open queues it for
`accept`. -/
def deliverSegment (key : ConnectionKey) (c : Connection) (tcp : Tcp) : StackM Unit := do
  runConnection key (.event (.segment tcp))
  match (← get).connections.lookup key with
  | none => pure ()
  | some c' =>
    if c.session.conn.state = .synReceived ∧ c'.session.conn.state = .established then
      modifyTable (·.pushAccept key)

/-- `_handle_tcp`. -/
def handleTcp (ip : Ip) (tcp : Tcp) (received : Bytes) : StackM Unit := do
  if transportChecksum ip.srcAddress ip.destAddress Ip.protocolTcp received ≠ 0 then return
  let key : ConnectionKey := ⟨ip.srcAddress, tcp.srcPort, tcp.destPort⟩
  match (← get).connections.lookup key with
  | some c => deliverSegment key c tcp
  | none =>
    match (← get).listeningPorts.lookup tcp.destPort with
    | some backlog =>
      if tcp.syn then
        -- a full accept queue drops the SYN without a word
        if backlog ≤ ((← get).acceptQueue tcp.destPort).length then pure () else acceptSyn key tcp
      else if tcp.rst then pure () else sendRst ip tcp
    | none => if tcp.rst then pure () else sendRst ip tcp

/-- `_handle_udp`, with the socket's `on_datagram`. -/
def handleUdp (ip : Ip) (udp : Udp) : StackM Unit := do
  if udp.checksum ≠ 0 ∧
      transportChecksum ip.srcAddress ip.destAddress Ip.protocolUdp udp.toBytes ≠ 0 then return
  match (← get).udpSockets.lookup udp.destPort with
  | none => sendIcmpPortUnreachable ip
  | some false => pure ()
  | some true => modify fun s =>
      { s with delivered := s.delivered ++ [(udp.destPort, ip.srcAddress, udp.srcPort, udp.payload)] }

/-- `_handle_icmp_error` and `_handle_icmp_fragmentation_needed`. -/
def handleIcmpError (icmp : Icmp) : StackM Unit := do
  match ← parsed (keyFromIcmpQuote icmp) with
  | none => pure ()
  | some key =>
    if icmp.code = Icmp.codeFragmentationNeeded then
      runConnection key (.event (.reduceEffectiveMss (pathMss icmp.restOfHeader)))
    else runConnection key (.event .fail)

/-- `_handle_icmp`.  What an echo reply is passed to does not concern the stack. -/
def handleIcmp (ip : Ip) (icmp : Icmp) : StackM Unit := do
  if !icmp.verifyChecksum then return
  if icmp.type = Icmp.echoRequest then
    if (← get).isBroadcastForAnyInterface ip.destAddress then return
    sendIcmpMessage ip.srcAddress
      (Icmp.ofData Icmp.echoReply Icmp.codeNone 0 icmp.restOfHeader []) icmp.payload
  else if icmp.type = Icmp.destinationUnreachable then handleIcmpError icmp

/-- `_dispatch_transport`. -/
def dispatchTransport (ip : Ip) : StackM Unit :=
  match ip.nextLayer with
  | some (.tcp segment received) =>
    if ip.protocol = Ip.protocolTcp then handleTcp ip segment received else pure ()
  | some (.udp datagram) => if ip.protocol = Ip.protocolUdp then handleUdp ip datagram else pure ()
  | some (.icmp message) => if ip.protocol = Ip.protocolIcmp then handleIcmp ip message else pure ()
  | _ => pure ()

/-! ### IP -/

/-- `_handle_ip_fragment`. -/
def handleIpFragment (ip : Ip) : StackM Unit := do
  match ip.offerTo (← get).reassembler with
  | none => pure ()
  | some (result, r) =>
    modify fun s => { s with reassembler := r }
    match result with
    | .complete datagram =>
      catching Fault.isBaseException do
        let complete ← parsed (Ip.fromBytes (ip.reassembled datagram).toBytes)
        dispatchTransport complete
    | _ => pure ()

/-- `_forward_ip`. -/
def forwardIp (ingress : ℕ) (ip : Ip) (ipBytes : Bytes) : StackM Unit := do
  if !ip.verifyChecksum then return
  if ip.ttl ≤ 1 then sendIcmpTimeExceeded ip
  else
    match (← get).routeFor ip.destAddress with
    | none => sendIcmpNetUnreachable ip
    | some (nextHop, egress) =>
      if egress = ingress ∨ ipBytes.length < 20 then return
      let out ← interfaceAt egress
      match out.arpTable.lookup nextHop with
      | none => ensureArpResolution egress nextHop
      | some destMac => write egress ⟨⟨out.config.mac, destMac, Ethernet.etherTypeIPv4,
          .raw (forwardedBytes ip.ttl ipBytes)⟩, some nextHop⟩

/-- `_handle_ip`. -/
def handleIp (ingress : ℕ) (ip : Ip) (ipBytes : Bytes) : StackM Unit := do
  let interface ← interfaceAt ingress
  if (← get).isOwnAddress ip.destAddress || isBroadcastAddress ip.destAddress interface.config then
    modify (·.modifyInterface ingress (Interface.refresh ip.srcAddress))
    if !ip.verifyChecksum then return
    if ip.getIpFlagM || ip.fragmentOffset ≠ 0 then handleIpFragment ip
    else dispatchTransport ip
  else if (← get).forwardingEnabled then forwardIp ingress ip ipBytes

/-- `_handle_frame`. -/
def handleFrame (ingress : ℕ) (frame : Bytes) : StackM Unit :=
  catching Fault.isBaseException do
    let ethernet ← parsed (Ethernet.fromBytes frame)
    let interface ← interfaceAt ingress
    if !isAddressedToUs ethernet.dest interface.config.mac then return
    match ethernet.nextLayer with
    | .arp packet => handleArp ingress packet
    | .ip packet => handleIp ingress packet (frame.drop 14)
    | .raw _ => pure ()

end StackM

end TcpIpStack
