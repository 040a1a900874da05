/-
# What a step can do to the stack

Every step is a sequence of changes, of which there are few: a frame is written,
an ARP entry is learned or refreshed, something waits for a neighbour or stops
waiting, a connection runs, is opened, queued, handed out or reaped.  Each comes
with the guard the source puts in front of it, and `Step.run_path` says that a
step does nothing else, whether it returns or throws.

A frame comes with what it was written for (`Origin`): a packet of this host and what
it carries, a packet on its way through, or ARP.  Why an ICMP error is sent, and which
packet is passed on, is said of the state `s₀` that the step has started from.

The changes of the table of connections are relations on the table alone; all
that is sent and received around them leaves it as it is.
-/

import TcpIpStack.Tcp.Transitions
import TcpIpStack.Stack.Forwarding

namespace TcpIpStack

open Programs StackM Runs

/-! ### The changes -/

/-- Some connection waits for a neighbour. -/
def NetworkStack.Connecting (s : NetworkStack) : Prop :=
  ∃ interface ∈ s.interfaces, interface.pendingOutboundConnects ≠ ∅

namespace Step

/-- The step is the arrival of an ARP packet. -/
def Carries (a : Step) (index : ℕ) (arp : Arp) : Prop :=
  ∃ bytes src dest etherType, a = .frame index bytes ∧
    Ethernet.fromBytes bytes = .ok ⟨src, dest, etherType, .arp arp⟩

/-- The steps after which something else may be waiting for a neighbour. -/
def MovesQueues : Step → Prop
  | .connect .. | .sendTo .. | .timePassed _ => True
  | a => ∃ index arp, a.Carries index arp

/-- The step opens a connection. -/
def Connects (a : Step) : Prop := ∃ remoteIp remotePort, a = .connect remoteIp remotePort

theorem Connects.movesQueues {a : Step} (h : a.Connects) : a.MovesQueues := by
  obtain ⟨remoteIp, remotePort, rfl⟩ := h
  trivial

/-- The steps that configure the stack. -/
def Configures : Step → Prop
  | .addStaticArpEntry .. | .addRoute .. | .addInterface _ | .configureInterface _ => True
  | _ => False

/-- The steps that may change what the reassembler holds, and the budget for errors. -/
def Polls : Step → Prop
  | .frame .. | .timePassed _ => True
  | _ => False

/-- The steps that may write an ARP packet: what an open connection sends, it sends
to a known neighbour. -/
def Resolves : Step → Prop
  | .connect .. | .sendTo .. | .sendEchoRequest .. | .frame .. | .timePassed _ => True
  | _ => False

theorem MovesQueues.resolves {a : Step} (h : a.MovesQueues) : a.Resolves := by
  cases a
  all_goals first | trivial | (obtain ⟨_, _, _, _, _, _, hstep, -⟩ := h; cases hstep)

theorem Polls.resolves {a : Step} (h : a.Polls) : a.Resolves := by
  cases a
  all_goals trivial

/-- The steps that may send the SYN of an active open. -/
def Initiates : Step → NetworkStack → Prop
  | .connect .., _ => True
  | .frame .., s => s.Connecting
  | _, _ => False

end Step

/-! ### Why a frame is written -/

namespace Step

/-- The step is the arrival of an IP packet at an interface that takes its frame. -/
structure Receives (a : Step) (s₀ : NetworkStack) (ingress : ℕ) (inbound : Interface) (ip : Ip)
    (ipBytes : Bytes) : Prop where
  frame : ∃ bytes src dest etherType, a = .frame ingress bytes ∧ ipBytes = bytes.drop 14 ∧
    Ethernet.fromBytes bytes = .ok ⟨src, dest, etherType, .ip ip⟩ ∧
    isAddressedToUs dest inbound.config.mac = true
  interface : s₀.interface? ingress = some inbound

theorem Receives.polls {a : Step} {s₀ : NetworkStack} {ingress : ℕ} {inbound : Interface} {ip : Ip}
    {ipBytes : Bytes} (h : a.Receives s₀ ingress inbound ip ipBytes) : a.Polls := by
  obtain ⟨bytes, src, dest, etherType, rfl, -⟩ := h.frame
  trivial

end Step

/-- A packet that is accepted is dispatched as a datagram: itself, or the one that it
completes as a fragment. -/
def Ip.Completes (ip : Ip) (r : IpReassembler) (datagram : Ip) : Prop :=
  if ip.getIpFlagM || ip.fragmentOffset ≠ 0 then
    ∃ bytes r', ip.offerTo r = some (.complete bytes, r') ∧
      Ip.fromBytes (ip.reassembled bytes).toBytes = .ok datagram
  else datagram = ip

/-- The packet is for this host. -/
def NetworkStack.Takes (s : NetworkStack) (config : InterfaceConfig) (ip : Ip) : Prop :=
  (s.isOwnAddress ip.destAddress || isBroadcastAddress ip.destAddress config) = true

/-- A datagram is for a port that nobody has bound. -/
def NetworkStack.Unbound (s : NetworkStack) (ip : Ip) : Prop :=
  ∃ udp, ip.nextLayer = some (.udp udp) ∧ ip.protocol = Ip.protocolUdp ∧
    (udp.checksum = 0 ∨
      transportChecksum ip.srcAddress ip.destAddress Ip.protocolUdp udp.toBytes = 0) ∧
    s.udpSockets.lookup udp.destPort = none

/-- A step finds fault with a packet, for which an ICMP error of some type and code is
due. -/
inductive Step.Errs (a : Step) (s₀ : NetworkStack) : UInt8 → UInt8 → Ip → Prop
  | expired (ingress inbound ip ipBytes) : a.Receives s₀ ingress inbound ip ipBytes →
      s₀.LeavesToForwarding inbound.config ip → ip.verifyChecksum = true → ip.ttl ≤ 1 →
      Errs a s₀ Icmp.timeExceeded Icmp.codeTtlExceeded ip
  | noRoute (ingress inbound ip ipBytes) : a.Receives s₀ ingress inbound ip ipBytes →
      s₀.LeavesToForwarding inbound.config ip → ip.verifyChecksum = true → ¬ ip.ttl ≤ 1 →
      s₀.routeFor ip.destAddress = none →
      Errs a s₀ Icmp.destinationUnreachable Icmp.codeNetUnreachable ip
  | noPort (ingress inbound ip ipBytes datagram) : a.Receives s₀ ingress inbound ip ipBytes →
      s₀.Takes inbound.config ip → ip.verifyChecksum = true → ip.Completes s₀.reassembler datagram →
      s₀.Unbound datagram → Errs a s₀ Icmp.destinationUnreachable Icmp.codePortUnreachable datagram

/-- What a step may send to a destination. -/
inductive Step.Sends (a : Step) (s₀ : NetworkStack) : IPv4Address → UInt8 → Bytes → Prop
  | segment (destIp bytes) : Sends a s₀ destIp Ip.protocolTcp bytes
  | datagram (destIp bytes) : Sends a s₀ destIp Ip.protocolUdp bytes
  | echoRequest (destIp identifier sequence payload bytes) :
      a = .sendEchoRequest destIp identifier sequence payload → Sends a s₀ destIp Ip.protocolIcmp bytes
  | echoReply (destIp ingress frame code restOfHeader payload) : a = .frame ingress frame →
      payload.length < 2 ^ 16 → Sends a s₀ destIp Ip.protocolIcmp
        ((Icmp.ofData Icmp.echoReply code 0 restOfHeader []).wireBytes payload)
  | error (type code ip) : a.Errs s₀ type code ip → msPerSecond ≤ s₀.icmpErrorTokensScaled →
      s₀.CarriesMessage ip.srcAddress → Sends a s₀ ip.srcAddress Ip.protocolIcmp
        ((Icmp.ofData type code 0 0 []).wireBytes (ip.toBytes.take 28))
  | timeout (elapsedMs destIp) : a = .timePassed elapsedMs →
      destIp ∈ (s₀.reassembler.age elapsedMs).1 → Sends a s₀ destIp Ip.protocolIcmp
        ((Icmp.ofData Icmp.timeExceeded Icmp.codeFragmentReassemblyTimeExceeded 0 0 []).wireBytes [])

/-- A step brings a packet that is to be passed on to the next hop of its route. -/
structure Step.Forwards (a : Step) (s₀ : NetworkStack) (ip : Ip) (ipBytes : Bytes) (nextHop : IPv4Address)
    (egress : ℕ) (out : Interface) : Prop where
  received : ∃ ingress inbound, a.Receives s₀ ingress inbound ip ipBytes ∧
    s₀.LeavesToForwarding inbound.config ip ∧ egress ≠ ingress
  intact : ip.verifyChecksum = true
  ttl : ¬ ip.ttl ≤ 1
  route : s₀.routeFor ip.destAddress = some (nextHop, egress)
  interface : s₀.interface? egress = some out

/-- Where a frame that is written to an interface comes from. -/
inductive Origin (a : Step) (s₀ s : NetworkStack) (index : ℕ) : Written → Prop
  | packet (hop : Hop) (destIp protocol bytes dontFragment identification ip) :
      s.hopFor destIp = some hop → hop.egress = index →
      ip ∈ hop.packets identification destIp protocol bytes dontFragment →
      a.Sends s₀ destIp protocol bytes → Origin a s₀ s index (hop.frame ip)
  | arp (frame packet) : frame.nextLayer = .arp packet → a.Resolves → Origin a s₀ s index ⟨frame, none⟩
  | passedOn (ip ipBytes nextHop out mac) : s = s₀ → a.Forwards s₀ ip ipBytes nextHop index out →
      out.arpTable.lookup nextHop = some mac →
      Origin a s₀ s index (forwardedFrame out.config mac nextHop (forwardedBytes ip.ttl ipBytes))

/-- The changes outside the table of connections. -/
inductive LinkChange (a : Step) (s₀ : NetworkStack) : NetworkStack → NetworkStack → Prop
  | write (s index written) : (∀ w ∈ written, Origin a s₀ s index w) →
      LinkChange a s₀ s (s.modifyInterface index (Interface.append written))
  | learn (s index interface arp) : a.Carries index arp → s.interface? index = some interface →
      arp.targetProtocolAddress = interface.config.ip →
      LinkChange a s₀ s (s.modifyInterface index
        (Interface.learn arp.senderProtocolAddress arp.senderHardwareAddress))
  | refresh (s index ip) : a.Polls → LinkChange a s₀ s (s.modifyInterface index (Interface.refresh ip))
  | age (s elapsedMs) : a = .timePassed elapsedMs → LinkChange a s₀ s (s.ageArpTables elapsedMs)
  | request (s index ip request) :
      LinkChange a s₀ s (s.modifyInterface index (Interface.setArpRequest ip request))
  | waiting (s index f) : a.MovesQueues →
      (∀ i : Interface, (f i).config = i.config ∧ (f i).arpTable = i.arpTable ∧
        (f i).written = i.written ∧
        (i.pendingOutboundConnects = ∅ → (f i).pendingOutboundConnects = ∅ ∨ a.Connects)) →
      LinkChange a s₀ s (s.modifyInterface index f)
  | records (s accepted transmitted givenUp) : a.MovesQueues →
      LinkChange a s₀ s { s with accepted := accepted, transmitted := transmitted, givenUp := givenUp }
  | reassemble (s reassembler) : a.Polls → LinkChange a s₀ s { s with reassembler := reassembler }
  | budget (s tokens) : a.Polls → LinkChange a s₀ s { s with icmpErrorTokensScaled := tokens }
  | counters (s nextEphemeralPort nextIpId forwardingEnabled udpSockets oversized delivered) :
      LinkChange a s₀ s { s with
        nextEphemeralPort := nextEphemeralPort
        nextIpId := nextIpId
        forwardingEnabled := forwardingEnabled
        udpSockets := udpSockets
        oversized := oversized
        delivered := delivered }

/-- The changes of the table of connections. -/
inductive TableChange (a : Step) (s₀ : NetworkStack) : ConnectionTable → ConnectionTable → Prop
  /-- A connection runs. -/
  | session (t key c y) : t.connections.lookup key = some c → Continues c.session y.conn y.entered →
      TableChange a s₀ t (t.setSession key c y)
  /-- A connection sends its SYN. -/
  | initiate (t key c y) : a.Initiates s₀ → t.connections.lookup key = some c →
      Reaches c.session y.conn y.entered → TableChange a s₀ t (t.setSession key c y)
  /-- The same, with the third part of the handshake of a passive open. -/
  | establish (t key c y) : t.connections.lookup key = some c → Reaches c.session y.conn y.entered →
      (TcpState.synSent ∈ y.entered → TcpState.synSent ∈ c.session.entered) →
      c.session.conn.state = .synReceived → y.conn.state = .established →
      TableChange a s₀ t ((t.setSession key c y).pushAccept key)
  | openPassive (t key y backlog) : t.connections.lookup key = none →
      t.listeningPorts.lookup key.localPort = some backlog →
      (t.acceptQueue key.localPort).length < backlog →
      y.entered = [.synReceived] → y.conn.state = .synReceived →
      TableChange a s₀ t (t.openConnection key y)
  | openActive (t remoteIp remotePort localPort y) : a = .connect remoteIp remotePort →
      y.entered = [] → y.conn.state = .listen →
      TableChange a s₀ t (t.openConnection ⟨remoteIp, remotePort, localPort⟩ y)
  | skipId (t) : TableChange a s₀ t t.skipId
  | returned (t id key) : t.connectionsById.lookup id = some key → TableChange a s₀ t (t.recordConnect id)
  | listen (t port backlog) : a = .listen port backlog → TableChange a s₀ t (t.listen port backlog)
  | accept (t port) : a = .accept port → TableChange a s₀ t (t.accept port)
  | reap (t id ids) : t.pendingReapIds = id :: ids →
      TableChange a s₀ t ({ t with pendingReapIds := ids }.reapConnection id)

/-- The changes of a stack. -/
inductive Change (a : Step) (s₀ : NetworkStack) : NetworkStack → NetworkStack → Prop
  | link (s s') : LinkChange a s₀ s s' → Change a s₀ s s'
  | table (s f) : TableChange a s₀ s.toConnectionTable (f s.toConnectionTable) →
      Change a s₀ s (s.modifyTable f)
  | configure (s s') : a.Configures → s'.toConnectionTable = s.toConnectionTable →
      (s'.Connecting → s.Connecting) → Change a s₀ s s'

/-- A sequence of changes outside the table. -/
def LinkPath (a : Step) (s₀ : NetworkStack) : NetworkStack → NetworkStack → Prop :=
  Relation.ReflTransGen (LinkChange a s₀)

/-- A sequence of changes. -/
def Path (a : Step) (s₀ : NetworkStack) : NetworkStack → NetworkStack → Prop :=
  Relation.ReflTransGen (Change a s₀)

instance (a : Step) (s₀ : NetworkStack) : Std.Refl (LinkPath a s₀) :=
  ⟨fun _ => Relation.ReflTransGen.refl⟩
instance (a : Step) (s₀ : NetworkStack) : IsTrans NetworkStack (LinkPath a s₀) :=
  ⟨fun _ _ _ => Relation.ReflTransGen.trans⟩
instance (a : Step) (s₀ : NetworkStack) : Std.Refl (Path a s₀) := ⟨fun _ => Relation.ReflTransGen.refl⟩
instance (a : Step) (s₀ : NetworkStack) : IsTrans NetworkStack (Path a s₀) :=
  ⟨fun _ _ _ => Relation.ReflTransGen.trans⟩

section Paths

variable {a : Step} {s₀ s s' : NetworkStack}

theorem LinkChange.path (h : LinkChange a s₀ s s') : LinkPath a s₀ s s' := .single h

theorem LinkPath.path (h : LinkPath a s₀ s s') : Path a s₀ s s' :=
  Relation.ReflTransGen.mono (fun s s' hchange => Change.link s s' hchange) s s' h

theorem does_path {α : Type} {m : StackM α} (h : Does (LinkPath a s₀) m s) : Does (Path a s₀) m s :=
  LinkPath.path h

theorem TableChange.path {f : ConnectionTable → ConnectionTable}
    (h : TableChange a s₀ s.toConnectionTable (f s.toConnectionTable)) : Path a s₀ s (s.modifyTable f) :=
  .single (.table s f h)

@[simp] theorem toConnectionTable_modifyInterface (index : ℕ) (f : Interface → Interface) :
    (s.modifyInterface index f).toConnectionTable = s.toConnectionTable := by
  cases index <;> rfl

theorem toConnectionTable_sent {destIp : IPv4Address} (hop : Hop) (payload : Bytes) (dontFragment : Bool)
    (index : ℕ) (f : Interface → Interface) :
    ((s.sent hop destIp payload dontFragment).modifyInterface index f).toConnectionTable =
      s.toConnectionTable := by
  rw [toConnectionTable_modifyInterface]
  unfold NetworkStack.sent
  split_ifs <;> rfl

theorem LinkChange.table (h : LinkChange a s₀ s s') : s'.toConnectionTable = s.toConnectionTable := by
  cases h with
  | write | learn | refresh | request | waiting => exact toConnectionTable_modifyInterface ..
  | age | records | reassemble | budget | counters => rfl

theorem connecting_modifyInterface {index : ℕ} {f : Interface → Interface}
    (h : (s.modifyInterface index f).Connecting)
    (hf : ∀ i, (f i).pendingOutboundConnects ≠ ∅ → i.pendingOutboundConnects ≠ ∅) : s.Connecting := by
  obtain ⟨interface, hmem, hpending⟩ := h
  obtain ⟨j, hj⟩ := List.mem_iff_getElem?.1 hmem
  change (s.modifyInterface index f).interface? j = some interface at hj
  rw [NetworkStack.interface?_modifyInterface] at hj
  split_ifs at hj
  · obtain ⟨i, hi, rfl⟩ := Option.map_eq_some_iff.1 hj
    exact ⟨i, List.mem_of_getElem? hi, hf i hpending⟩
  · exact ⟨interface, List.mem_of_getElem? hj, hpending⟩

theorem connecting_addInterface {config : InterfaceConfig} (h : (s.addInterface config).Connecting) :
    s.Connecting := by
  obtain ⟨interface, hmem, hpending⟩ := h
  refine ⟨interface, ?_, hpending⟩
  change interface ∈ (s.primary :: s.others) ++ [NetworkStack.newInterface config] at hmem
  refine (List.mem_append.1 hmem).resolve_right fun hnew => hpending ?_
  rw [List.mem_singleton.1 hnew]
  rfl

theorem connecting_configureInterface {config : InterfaceConfig}
    (h : (s.configureInterface config).Connecting) : s.Connecting := by
  obtain ⟨interface, hmem, hpending⟩ := h
  rcases List.mem_cons.1 hmem with rfl | hmem
  · exact ⟨s.primary, List.mem_cons_self, hpending⟩
  · exact ⟨interface, List.mem_cons_of_mem _ hmem, hpending⟩

/-- Only `connect` makes a connection wait. -/
theorem LinkChange.connecting (h : LinkChange a s₀ s s') (ha : ¬ a.Connects) (hs' : s'.Connecting) :
    s.Connecting := by
  cases h with
  | write | learn | refresh | request => exact connecting_modifyInterface hs' fun _ => id
  | waiting index f _ hf =>
    refine connecting_modifyInterface hs' fun i hi hempty => ?_
    exact ((hf i).2.2.2 hempty).elim hi ha
  | age elapsedMs =>
    obtain ⟨interface, hmem, hpending⟩ := hs'
    obtain ⟨i, hi, rfl⟩ := List.mem_map.1
      (show interface ∈ s.interfaces.map (Interface.age elapsedMs) from hmem)
    exact ⟨i, hi, hpending⟩
  | records | reassemble | budget | counters => exact hs'

/-- **Nothing outside the table touches it.** -/
theorem LinkPath.table (h : LinkPath a s₀ s s') : s'.toConnectionTable = s.toConnectionTable := by
  induction h with
  | refl => rfl
  | tail _ hchange ih => rw [hchange.table, ih]

end Paths

/-! ### Sending -/

section Output

variable {a : Step} {R : NetworkStack → NetworkStack → Prop} {s₀ s : NetworkStack} {α : Type}
  {destIp : IPv4Address} {protocol : UInt8}

theorem does_interfaceAt_bind [Std.Refl R] {index : ℕ} {f : Interface → StackM α}
    (h : ∀ interface, s.interface? index = some interface → Does R (f interface) s) :
    Does R (interfaceAt index >>= f) s := by
  rw [Does, after, interfaceAt, EStateM.run_bind, run_get_bind]
  cases hinterface : s.interface? index with
  | none => exact Std.Refl.refl s
  | some interface => exact h interface hinterface

theorem does_sourceAddressFor_bind [Std.Refl R] {destIp : IPv4Address} {f : IPv4Address → StackM α}
    (h : ∀ src, Does R (f src) s) : Does R (sourceAddressFor destIp >>= f) s := by
  rw [sourceAddressFor, bind_assoc]
  refine does_get_bind ?_
  cases s.routeFor destIp with
  | none => exact h _
  | some route =>
    dsimp only
    rw [bind_assoc]
    exact does_interfaceAt_bind fun interface _ => h _

theorem path_sent (hop : Hop) (destIp : IPv4Address) (payload : Bytes) (dontFragment : Bool)
    (s : NetworkStack) : LinkPath a s₀ s (s.sent hop destIp payload dontFragment) := by
  unfold NetworkStack.sent
  split_ifs
  · exact Std.Refl.refl s
  · exact (LinkChange.counters ..).path
  · exact (LinkChange.counters ..).path

theorem does_sendIpPacket {payload : Bytes} {dontFragment : Bool}
    (hsends : ∀ hop, s.hopFor destIp = some hop → payload.length ≤ hop.config.maxIpPayload ∨
      dontFragment = true ∨ 0 < hop.config.maxIpPayload → a.Sends s₀ destIp protocol payload) :
    Does (LinkPath a s₀) (sendIpPacket destIp protocol payload dontFragment) s := by
  cases hhop : s.hopFor destIp with
  | none =>
    obtain ⟨-, hrun⟩ | ⟨-, fault, -, hrun⟩ := run_sendIpPacket_of_none hhop protocol payload dontFragment
    · rw [Does, after_ok hrun]
      exact Std.Refl.refl s
    · rw [Does, after_error hrun]
      exact Std.Refl.refl s
  | some hop =>
    by_cases hroom : payload.length ≤ hop.config.maxIpPayload ∨ dontFragment = true ∨
        0 < hop.config.maxIpPayload
    · rw [Does, after_ok (run_sendIpPacket_of_some hhop protocol payload dontFragment hroom)]
      refine (path_sent hop destIp payload dontFragment s).trans (LinkChange.write _ _ _ ?_).path
      intro w hw
      obtain ⟨ip, hip, rfl⟩ := List.mem_map.1 hw
      have hsent : (s.sent hop destIp payload dontFragment).hopFor destIp = s.hopFor destIp :=
        NetworkStack.hopFor_of_links (links_sent payload dontFragment) destIp
      exact .packet hop destIp protocol payload dontFragment _ ip (hsent.trans hhop) rfl hip
        (hsends hop hhop hroom)
    · obtain ⟨hlarge, hdont, hzero⟩ : ¬ payload.length ≤ hop.config.maxIpPayload ∧
          ¬ dontFragment = true ∧ ¬ 0 < hop.config.maxIpPayload := by
        simpa only [not_or] using hroom
      rw [Bool.not_eq_true] at hdont
      subst hdont
      rw [Does, after_error (run_sendIpPacket_of_no_room hhop protocol payload (by omega) (by omega))]
      exact (LinkChange.counters ..).path

theorem does_sendTcpSegment (destIp : IPv4Address) (header : Tcp) (payload : Bytes) (s : NetworkStack) :
    Does (LinkPath a s₀) (sendTcpSegment destIp header payload) s :=
  does_sourceAddressFor_bind fun _ => does_sendIpPacket fun _ _ _ => .segment ..

theorem does_sendRst (ip : Ip) (tcp : Tcp) (s : NetworkStack) : Does (LinkPath a s₀) (sendRst ip tcp) s := by
  unfold sendRst
  split_ifs <;> exact does_sendTcpSegment ..

theorem does_sendUdpDatagram (ha : a.MovesQueues) (destIp : IPv4Address) (header : Udp) (payload : Bytes)
    (s : NetworkStack) : Does (LinkPath a s₀) (sendUdpDatagram destIp header payload) s := by
  unfold sendUdpDatagram
  refine does_sourceAddressFor_bind fun src => does_bind (does_sendIpPacket fun _ _ _ => .datagram ..) fun _ s' _ => ?_
  refine does_get_bind ?_
  split
  · exact does_pure _ s'
  · exact does_modify (LinkChange.records s' _ _ _ ha).path

theorem does_sendArpRequest (ha : a.Resolves) (index : ℕ) (targetIp : IPv4Address) (s : NetworkStack) :
    Does (LinkPath a s₀) (sendArpRequest index targetIp) s := by
  refine does_interfaceAt_bind fun interface _ => does_modify (LinkChange.write s index [_] ?_).path
  exact List.forall_mem_singleton.2 (.arp _ _ rfl ha)

theorem does_ensureArpResolution (ha : a.Resolves) (s₀ : NetworkStack) (index : ℕ) (ip : IPv4Address)
    (s : NetworkStack) :
    Does (LinkPath a s₀) (ensureArpResolution index ip) s := by
  refine does_interfaceAt_bind fun interface _ => ?_
  split_ifs
  · exact does_pure _ s
  · exact does_bind (does_sendArpRequest ha ..) fun _ s' _ => does_modify (LinkChange.request s' ..).path

theorem does_sendOrQueueUdp (ha : a.MovesQueues) (destIp : IPv4Address) (header : Udp) (payload : Bytes)
    (s : NetworkStack) : Does (LinkPath a s₀) (sendOrQueueUdp destIp header payload) s := by
  have hrecord (egress : ℕ) (nextHop : IPv4Address) (s : NetworkStack) :
      Does (LinkPath a s₀) (recordAccepted egress nextHop destIp header payload) s :=
    does_modify (LinkChange.records s _ _ _ ha).path
  unfold sendOrQueueUdp
  refine does_get_bind ?_
  split_ifs
  · exact does_bind (does_sendUdpDatagram ha ..) fun _ s' _ => hrecord _ _ s'
  · refine does_get_bind ?_
    split
    · exact does_pure _ s
    · next nextHop egress _ =>
      refine does_interfaceAt_bind fun interface _ => ?_
      split_ifs
      · exact does_bind (does_sendUdpDatagram ha ..) fun _ s' _ => hrecord _ _ s'
      · refine does_modify_bind
          (LinkChange.waiting s egress (Interface.queueDatagram nextHop _) ha fun _ => ⟨rfl, rfl, rfl, .inl⟩).path ?_
        exact does_bind (does_ensureArpResolution ha.resolves ..) fun _ s' _ => hrecord _ _ s'

theorem does_flushPendingOutboundDatagrams (ha : a.MovesQueues) (ip : IPv4Address) (s : NetworkStack) :
    Does (LinkPath a s₀) (flushPendingOutboundDatagrams ip) s := by
  refine does_get_bind ?_
  split
  · exact does_pure _ s
  · refine does_bind (does_forM (fun _ _ s => does_sendUdpDatagram ha ..) s) fun _ s' _ => ?_
    exact does_modify
      (LinkChange.waiting s' 0 (Interface.clearDatagrams ip) ha fun _ => ⟨rfl, rfl, rfl, .inl⟩).path

theorem does_sendIcmpMessage (ha : a.Resolves) {header : Icmp} {payload : Bytes}
    (hsends : s.CarriesMessage destIp → a.Sends s₀ destIp Ip.protocolIcmp (header.wireBytes payload)) :
    Does (LinkPath a s₀) (sendIcmpMessage destIp header payload) s := by
  refine does_get_bind ?_
  split
  · exact does_pure _ s
  · refine does_interfaceAt_bind fun interface _ => ?_
    split_ifs
    · refine does_sendIpPacket fun hop hhop hroom => hsends ⟨hop, hhop, ?_⟩
      have hlength : (header.wireBytes payload).length ≤ hop.config.maxIpPayload ∨ false = true ∨
        0 < hop.config.maxIpPayload := hroom
      rw [length_wireBytes_icmp] at hlength
      rcases hlength with hfits | hdont | hpos
      · omega
      · cases hdont
      · exact hpos
    · exact does_ensureArpResolution ha ..

theorem does_sendIcmpError {type code : UInt8} {ip : Ip} (ha : a.Polls) (h : a.Errs s₀ type code ip)
    (hlinks : s.links = s₀.links) (htokens : s.icmpErrorTokensScaled = s₀.icmpErrorTokensScaled) :
    Does (LinkPath a s₀) (sendIcmpError type code ip) s := by
  rw [Does, sendIcmpError]
  by_cases hbudget : s.icmpErrorTokensScaled < msPerSecond
  · rw [after_bind_ok (run_maySendIcmpError_of_lt hbudget)]
    exact Std.Refl.refl s
  · rw [after_bind_ok (run_maySendIcmpError_of_le (not_lt.1 hbudget))]
    refine (LinkChange.budget s _ ha).path.trans (does_sendIcmpMessage ha.resolves fun hcarries => ?_)
    refine .error type code ip h (htokens ▸ not_lt.1 hbudget) ?_
    obtain ⟨hop, hhop, hroom⟩ := hcarries
    exact ⟨hop, (NetworkStack.hopFor_of_links hlinks ip.srcAddress).symm.trans hhop, hroom⟩

theorem does_sendIcmpFragmentReassemblyTimeExceeded {elapsedMs : UInt32} (ha : a = .timePassed elapsedMs)
    {destination : IPv4Address} (h : destination ∈ (s₀.reassembler.age elapsedMs).1) (s : NetworkStack) :
    Does (LinkPath a s₀) (sendIcmpFragmentReassemblyTimeExceeded destination) s := by
  have hpolls : a.Polls := by
    rw [ha]
    trivial
  rw [Does, sendIcmpFragmentReassemblyTimeExceeded]
  by_cases hbudget : s.icmpErrorTokensScaled < msPerSecond
  · rw [after_bind_ok (run_maySendIcmpError_of_lt hbudget)]
    exact Std.Refl.refl s
  · rw [after_bind_ok (run_maySendIcmpError_of_le (not_lt.1 hbudget))]
    exact (LinkChange.budget s _ hpolls).path.trans
      (does_sendIcmpMessage hpolls.resolves fun _ => .timeout elapsedMs destination ha h)

end Output

/-! ### Running connections -/

section Connections

variable {a : Step} {s₀ s s' : NetworkStack} {key : ConnectionKey} {operation : Operation}

theorem run_sendCalls_cons (remoteIp : IPv4Address) (call : Call) (calls : List Call) (i : ℕ)
    (s : NetworkStack) : (sendCalls remoteIp i (call :: calls)).run s =
      match (sendTcpSegment remoteIp call.header call.payload).run s with
      | .ok _ s' => (sendCalls remoteIp (i + 1) calls).run s'
      | .error fault s' => .ok (some (i, fault)) s' := rfl

variable {R : NetworkStack → NetworkStack → Prop}

/-- The callback may throw at one of the calls, and at no other. -/
theorem run_sendCalls [Std.Refl R] [IsTrans NetworkStack R] (remoteIp : IPv4Address) {calls : List Call}
    (hcalls : ∀ call ∈ calls, ∀ s, Does R (sendTcpSegment remoteIp call.header call.payload) s) (i : ℕ)
    (s : NetworkStack) : ∃ (failure : Option (ℕ × Fault)) (s' : NetworkStack),
      (sendCalls remoteIp i calls).run s = .ok failure s' ∧ R s s' ∧
      ∀ f ∈ failure, f.1 < i + calls.length := by
  induction calls generalizing i s with
  | nil => exact ⟨none, s, rfl, Std.Refl.refl s, by simp⟩
  | cons call calls ih =>
    obtain ⟨hfirst, hrest⟩ := List.forall_mem_cons.1 hcalls
    have hsend := hfirst s
    rw [run_sendCalls_cons, List.length_cons]
    cases hrun : (sendTcpSegment remoteIp call.header call.payload).run s with
    | ok u s' =>
      obtain ⟨failure, s'', hrun', hdone, hfailure⟩ := ih hrest (i + 1) s'
      rw [Does, after_ok hrun] at hsend
      refine ⟨failure, s'', hrun', IsTrans.trans _ _ _ hsend hdone, fun f hf => ?_⟩
      have := hfailure f hf
      omega
    | error fault s' =>
      rw [Does, after_error hrun] at hsend
      refine ⟨_, s', rfl, hsend, ?_⟩
      rintro f ⟨⟩
      show i < i + (calls.length + 1)
      omega

/-- An operation on a session ends, or nothing has happened. -/
theorem run_runSession [Std.Refl R] [IsTrans NetworkStack R]
    (remoteIp : IPv4Address) (operation : Operation) (x : Session)
    (hcalls : ∀ y, operation.run x = some y → ∀ call ∈ x.callsSince y, ∀ s,
      Does R (sendTcpSegment remoteIp call.header call.payload) s) (s : NetworkStack) :
    operation.run x = none ∧ (runSession remoteIp operation x).run s = .error .diverges s ∨
      ∃ (y : Session) (failure : Option (ℕ × Fault)) (s' : NetworkStack),
        operation.run x = some y ∧ R s s' ∧ (∀ f ∈ failure, f.1 < (x.callsSince y).length) ∧
        (runSession remoteIp operation x).run s =
          .ok (operation.outcome (failure.map Prod.fst) x y, failure.map Prod.snd) s' := by
  unfold runSession
  cases hy : operation.run x with
  | none => exact .inl ⟨rfl, rfl⟩
  | some y =>
    obtain ⟨failure, s', hrun, hdone, hfailure⟩ := run_sendCalls remoteIp (hcalls y hy) 0 s
    rw [Nat.zero_add] at hfailure
    refine .inr ⟨y, failure, s', rfl, hdone, hfailure, ?_⟩
    dsimp only
    rw [run_bind_ok hrun]
    rfl

/-- **What running a connection does**: its segments are sent, and its session is what
the operation leaves of it. -/
theorem run_runConnection [Std.Refl R] [IsTrans NetworkStack R]
    (key : ConnectionKey) (operation : Operation) (s : NetworkStack)
    (hcalls : ∀ c y, s.connections.lookup key = some c → operation.run c.session = some y →
      ∀ call ∈ c.session.callsSince y, ∀ s,
        Does R (sendTcpSegment key.remoteIp call.header call.payload) s) :
    after (runConnection key operation) s = s ∧
        (∀ c y, s.connections.lookup key = some c → operation.run c.session ≠ some y) ∨
      ∃ (c : Connection) (y : Session) (failure : Option (ℕ × Fault)) (s₁ : NetworkStack),
        s.connections.lookup key = some c ∧ operation.run c.session = some y ∧ R s s₁ ∧
        (∀ f ∈ failure, f.1 < (c.session.callsSince y).length) ∧
        (runConnection key operation).run s = (rethrow (failure.map Prod.snd)).run
          (s₁.modifyTable (·.setSession key c
            (operation.outcome (failure.map Prod.fst) c.session y))) := by
  rw [after, runConnection, run_get_bind]
  cases hc : s.connections.lookup key with
  | none => exact .inl ⟨rfl, by simp⟩
  | some c =>
    dsimp only
    obtain ⟨hnone, hrun⟩ | ⟨y, failure, s₁, hy, hdone, hfailure, hrun⟩ :=
      run_runSession key.remoteIp operation c.session (fun y => hcalls c y hc) s
    · rw [run_bind_error hrun]
      refine .inl ⟨rfl, ?_⟩
      rintro c' y ⟨⟩
      simp [hnone]
    · refine .inr ⟨c, y, failure, s₁, rfl, hy, hdone, hfailure, ?_⟩
      rw [run_bind_ok hrun, modifyTable, run_modify_bind]

@[simp] theorem after_rethrow (fault : Option Fault) (s : NetworkStack) : after (rethrow fault) s = s := by
  cases fault <;> rfl

theorem does_runConnection (h : ∀ c y failing, s.connections.lookup key = some c →
      operation.run c.session = some y → (∀ i ∈ failing, i < (c.session.callsSince y).length) →
      TableChange a s₀ s.toConnectionTable
        (s.toConnectionTable.setSession key c (operation.outcome failing c.session y))) :
    Does (Path a s₀) (runConnection key operation) s := by
  obtain ⟨heq, -⟩ | ⟨c, y, failure, s₁, hc, hy, hpath, hfailure, hrun⟩ :=
    run_runConnection (R := LinkPath a s₀) key operation s fun _ _ _ _ _ _ => does_sendTcpSegment _ _ _
  · rw [Does, heq]
    exact Std.Refl.refl s
  · rw [Does, after, hrun, ← after, after_rethrow]
    refine hpath.path.trans (TableChange.path ?_)
    rw [hpath.table]
    refine h c y _ hc hy fun i hi => ?_
    obtain ⟨f, hf, rfl⟩ := Option.mem_map.1 hi
    exact hfailure f hf

theorem does_runEvent {e : Event} (he : ∀ t, e ≠ .segment t) (s : NetworkStack) :
    Does (Path a s₀) (runConnection key (.event e)) s :=
  does_runConnection fun _ _ failing hc hy _ =>
    .session _ key _ _ hc (((Event.run_walks hy).outcome _ _ failing).continues (.inl he))

theorem does_runActive (ha : a.Initiates s₀) (s : NetworkStack) :
    Does (Path a s₀) (runConnection key (.opener .active)) s := by
  refine does_runConnection fun c y failing hc hy _ => .initiate _ key c _ ha hc ?_
  cases hy
  exact (walks_initiateConnect c.session).outcome _ _ failing

/-- The keys of the ids are as they were. -/
def SameIds (s s' : NetworkStack) : Prop := s'.connectionsById = s.connectionsById

instance : Std.Refl SameIds := ⟨fun _ => rfl⟩
instance : IsTrans NetworkStack SameIds := ⟨fun _ _ _ h h' => Eq.trans h' h⟩

theorem LinkPath.sameIds (h : LinkPath a s₀ s s') : SameIds s s' :=
  congrArg ConnectionTable.connectionsById h.table

theorem sameIds_runConnection (key : ConnectionKey) (operation : Operation) (s : NetworkStack) :
    Does SameIds (runConnection key operation) s := by
  obtain ⟨heq, -⟩ | ⟨c, y, failure, s₁, -, -, hpath, -, hrun⟩ :=
    run_runConnection (R := LinkPath .reap s) key operation s fun _ _ _ _ _ _ => does_sendTcpSegment _ _ _
  · rw [Does, heq]
    exact Std.Refl.refl s
  · rw [Does, after, hrun, ← after, after_rethrow]
    exact hpath.sameIds

theorem does_deliverSegment {c : Connection} (hc : s.connections.lookup key = some c) (tcp : Tcp) :
    Does (Path a s₀) (deliverSegment key c tcp) s := by
  unfold deliverSegment
  obtain ⟨-, hnone⟩ | ⟨c', y, failure, s₁, hc', hy, hpath, hfailure, hrun⟩ :=
    run_runConnection (R := LinkPath a s₀) key (.event (.segment tcp)) s
      fun _ _ _ _ _ _ => does_sendTcpSegment _ _ _
  · exact absurd rfl (hnone c _ hc)
  obtain rfl : c = c' := Option.some.inj (hc.symm.trans hc')
  have hproceeds := (Event.run_walks (e := .segment tcp) hy).outcome (Event.segment tcp).argument
    ((Event.segment tcp).count c.session) (failure.map Prod.fst)
  have hlookup : s₁.connections.lookup key = some c := by
    rw [hpath.table]
    exact hc
  cases hy
  cases failure with
  | some f =>
    -- the callback threw, so something was sent, which `SYN_RECEIVED` does not do
    have hstate : c.session.conn.state ≠ .synReceived := fun hstate => by
      have hcalls : c.session.callsSince (c.session.onSegment tcp) = [] :=
        Session.callsSince_eq (by rw [(onSegment_of_synReceived tcp hstate).1, List.append_nil])
      exact absurd (hcalls ▸ hfailure f rfl) (Nat.not_lt_zero _)
    rw [Does, after_bind_error hrun]
    exact hpath.path.trans (TableChange.path (.session _ key c _ hlookup (hproceeds.continues (.inr hstate))))
  | none =>
    rw [Does, after_bind_ok hrun, after, run_get_bind]
    have hset : (s₁.modifyTable (·.setSession key c ((Operation.event (.segment tcp)).outcome none
        c.session (c.session.onSegment tcp)))).connections.lookup key = some { c with
          session := (Operation.event (.segment tcp)).outcome none c.session (c.session.onSegment tcp) } :=
      AList.lookup_insert _
    rw [Option.map_none, hset]
    dsimp only
    split_ifs with hstates
    · exact hpath.path.trans (TableChange.path (f := fun t => (t.setSession key c _).pushAccept key)
        (.establish _ key c _ hlookup hproceeds.reaches hproceeds.synSent hstates.1 hstates.2))
    · refine hpath.path.trans (TableChange.path (.session _ key c _ hlookup ?_))
      by_cases hstate : c.session.conn.state = .synReceived
      · exact (onSegment_of_synReceived tcp hstate).2.resolve_left fun hafter => hstates ⟨hstate, hafter⟩
      · exact hproceeds.continues (.inr hstate)

/-! ### Opening connections -/

theorem outcome_passive {options : Session.SynOptions} {x y : Session} (hx : x.entered = [])
    (hy : (Operation.opener (.passive options)).run x = some y) :
    ((Operation.opener (.passive options)).outcome none x y).entered = [.synReceived] ∧
      ((Operation.opener (.passive options)).outcome none x y).conn.state = .synReceived := by
  cases hy
  refine ⟨?_, rfl⟩
  show x.entered ++ [.synReceived] = _
  rw [hx, List.nil_append]

theorem does_acceptSyn {backlog : ℕ} (hnone : s.connections.lookup key = none)
    (hlisten : s.listeningPorts.lookup key.localPort = some backlog)
    (hroom : (s.acceptQueue key.localPort).length < backlog) (tcp : Tcp) :
    Does (Path a s₀) (acceptSyn key tcp) s := by
  refine does_get_bind ?_
  obtain ⟨-, hrun⟩ | ⟨y, failure, s₁, hy, hpath, -, hrun⟩ := run_runSession (R := LinkPath a s₀)
    key.remoteIp (.opener (.passive (synOptions tcp))) (s.freshSession key)
    (fun _ _ _ _ => does_sendTcpSegment _ _ _) s
  · rw [Does, after_bind_error hrun]
    exact Std.Refl.refl s
  · rw [Does, after_bind_ok hrun]
    refine hpath.path.trans ?_
    cases failure with
    | none =>
      obtain ⟨hentered, hstate⟩ := outcome_passive (x := s.freshSession key) rfl hy
      refine TableChange.path (.openPassive _ key _ backlog ?_ ?_ ?_ hentered hstate)
      · rw [hpath.table]
        exact hnone
      · rw [hpath.table]
        exact hlisten
      · rw [hpath.table]
        exact hroom
    | some failure =>
      refine does_modify_bind (TableChange.path (.skipId _)) ?_
      split_ifs
      · exact does_pure _ _
      · exact does_throw _ _

theorem does_startConnect (ha : a.Connects) (hinitiates : a.Initiates s₀) (key : ConnectionKey) (s : NetworkStack) :
    Does (Path a s₀) (startConnect key) s := by
  refine does_get_bind ?_
  split
  · exact does_runEvent (by simp) s
  · next nextHop egress _ =>
    refine does_interfaceAt_bind fun interface _ => ?_
    split_ifs
    · exact does_runActive hinitiates s
    · refine does_modify_bind (LinkPath.path (LinkChange.path
        (.waiting s egress (Interface.queueConnect nextHop key) ha.movesQueues
          fun _ => ⟨rfl, rfl, rfl, fun _ => .inr ha⟩))) ?_
      exact does_path (does_ensureArpResolution ha.movesQueues.resolves ..)

theorem sameIds_startConnect (key : ConnectionKey) (s : NetworkStack) : Does SameIds (startConnect key) s := by
  refine does_get_bind ?_
  split
  · exact sameIds_runConnection ..
  · next nextHop egress _ =>
    refine does_interfaceAt_bind fun interface _ => ?_
    split_ifs
    · exact sameIds_runConnection ..
    · refine does_modify_bind (congrArg _ (toConnectionTable_modifyInterface ..)) ?_
      exact does_mono (fun _ _ => LinkPath.sameIds) (does_ensureArpResolution (a := .connect {} 0) trivial s ..)

theorem does_connect (remoteIp : IPv4Address) (remotePort : UInt16) (s : NetworkStack) :
    Does (Path (.connect remoteIp remotePort) s₀) (connect remoteIp remotePort) s := by
  refine does_get_bind (does_modify_bind (LinkPath.path (LinkChange.path (.counters ..))) ?_)
  refine does_get_bind (does_get_bind (does_modify_bind ?_ ?_))
  · exact TableChange.path (.openActive _ remoteIp remotePort _ _ rfl rfl rfl)
  refine does_bind (does_startConnect ⟨_, _, rfl⟩ trivial _ _) fun _ s' hrun => ?_
  have hids := sameIds_startConnect ⟨remoteIp, remotePort, s.nextEphemeralPort⟩
    (s.bumpEphemeralPort.modifyTable (·.openConnection ⟨remoteIp, remotePort, s.nextEphemeralPort⟩
      (s.bumpEphemeralPort.freshSession ⟨remoteIp, remotePort, s.nextEphemeralPort⟩)))
  rw [Does, after_ok hrun] at hids
  refine does_modify (TableChange.path (.returned _ _ ⟨remoteIp, remotePort, s.nextEphemeralPort⟩ ?_))
  rw [hids]
  exact AList.lookup_insert _

theorem Interface.clearConnects_of_empty {i : Interface} {ip : IPv4Address}
    (h : i.pendingOutboundConnects = ∅) : (i.clearConnects ip).pendingOutboundConnects = ∅ := by
  rw [Interface.clearConnects, h]
  rfl

theorem does_failPendingOutboundConnects (ha : a.MovesQueues) (index : ℕ) (ip : IPv4Address)
    (s : NetworkStack) : Does (Path a s₀) (failPendingOutboundConnects index ip) s := by
  refine does_interfaceAt_bind fun interface _ => ?_
  split
  · exact does_pure _ s
  · refine does_bind (does_forM (fun _ _ s => does_runEvent (by simp) s) s)
      fun _ s' _ => ?_
    exact does_modify (LinkPath.path (LinkChange.path
      (.waiting s' index (Interface.clearConnects ip) ha
        fun _ => ⟨rfl, rfl, rfl, fun h => .inl (Interface.clearConnects_of_empty h)⟩)))

end Connections

/-! ### A frame -/

section Input

variable {a : Step} {s₀ s : NetworkStack}

theorem does_resumeConnects (ha : a.MovesQueues) (index : ℕ) (ip : IPv4Address) (s : NetworkStack)
    (hs : s.Connecting → a.Initiates s₀) : Does (Path a s₀) (resumeConnects index ip) s := by
  refine does_interfaceAt_bind fun interface hinterface => ?_
  split
  · exact does_pure _ s
  · next keys hkeys =>
    have hinitiates := hs ⟨interface, List.mem_of_getElem? hinterface, fun h => by simp [h] at hkeys⟩
    refine does_bind (does_forM (fun _ _ s => does_runActive hinitiates s) s)
      fun _ s' _ => ?_
    exact does_modify (LinkPath.path (LinkChange.path
      (.waiting s' index (Interface.clearConnects ip) ha
        fun _ => ⟨rfl, rfl, rfl, fun h => .inl (Interface.clearConnects_of_empty h)⟩)))

theorem does_replyArp (ha : a.Resolves) (index : ℕ) (config : InterfaceConfig) (arp : Arp) (s : NetworkStack) :
    Does (LinkPath a s₀) (replyArp index config arp) s := by
  unfold replyArp
  split_ifs
  · refine does_modify (LinkChange.write s index [_] ?_).path
    exact List.forall_mem_singleton.2 (.arp _ _ rfl ha)
  · exact does_pure _ s

variable {ingress : ℕ}

theorem does_handleArp {arp : Arp} (ha : a.Carries ingress arp) (s : NetworkStack)
    (hs : s.Connecting → a.Initiates s₀) : Does (Path a s₀) (handleArp ingress arp) s := by
  have hmoves : a.MovesQueues := by
    obtain ⟨bytes, src, dest, etherType, rfl, hparse⟩ := ha
    exact ⟨ingress, arp, bytes, src, dest, etherType, rfl, hparse⟩
  refine does_interfaceAt_bind fun interface hinterface => ?_
  split_ifs with htarget
  · exact does_pure _ s
  rw [not_not] at htarget
  refine does_modify_bind (LinkPath.path (LinkChange.path
    (.learn s ingress interface arp ha hinterface htarget))) ?_
  refine does_modify_bind (LinkPath.path (LinkChange.path
    (.waiting _ ingress (Interface.clearArpRequest _) hmoves fun _ => ⟨rfl, rfl, rfl, .inl⟩))) ?_
  refine does_bind (does_resumeConnects hmoves _ _ _ fun h => hs
    (connecting_modifyInterface (connecting_modifyInterface h fun _ => id) fun _ => id)) fun _ s₁ _ => ?_
  refine does_bind (does_path
    (does_flushPendingOutboundDatagrams hmoves ..)) fun _ s₂ _ => ?_
  exact does_path (does_replyArp hmoves.resolves ..)

theorem does_parsed_bind {R : NetworkStack → NetworkStack → Prop} [Std.Refl R] {α β : Type}
    {result : Except String α} {f : α → StackM β} (h : ∀ v, result = .ok v → Does R (f v) s) :
    Does R (parsed result >>= f) s := by
  cases result with
  | error what => exact Std.Refl.refl s
  | ok v => exact h v rfl

theorem does_handleTcp (ip : Ip) (tcp : Tcp) (received : Bytes) (s : NetworkStack) :
    Does (Path a s₀) (handleTcp ip tcp received) s := by
  have hrst (s : NetworkStack) : Does (Path a s₀) (sendRst ip tcp) s :=
    does_path (does_sendRst ip tcp s)
  unfold handleTcp
  by_cases hsum : transportChecksum ip.srcAddress ip.destAddress Ip.protocolTcp received ≠ 0
  · rw [if_pos hsum]
    exact does_pure _ s
  rw [if_neg hsum]
  refine does_get_bind ?_
  split
  · next c hc => exact does_deliverSegment hc tcp
  · next hnone =>
    refine does_get_bind ?_
    split
    · next backlog hlisten =>
      split_ifs with hsyn hrst'
      · refine does_get_bind ?_
        split_ifs with hfull
        · exact does_pure _ s
        · exact does_acceptSyn hnone hlisten (Nat.lt_of_not_le hfull) tcp
      · exact does_pure _ s
      · exact hrst s
    · split_ifs
      · exact does_pure _ s
      · exact hrst s

/-- A datagram is dispatched in the step of a frame, in a state from which errors go
where they would go from the first one. -/
structure Dispatches (a : Step) (s₀ s : NetworkStack) (ip : Ip) : Prop where
  frame : ∃ ingress bytes, a = .frame ingress bytes
  parsed : ∃ data, Ip.fromBytes data = .ok ip
  unbound : s.Unbound ip → a.Errs s₀ Icmp.destinationUnreachable Icmp.codePortUnreachable ip
  links : s.links = s₀.links
  tokens : s.icmpErrorTokensScaled = s₀.icmpErrorTokensScaled

variable {ip : Ip}

theorem Dispatches.polls (h : Dispatches a s₀ s ip) : a.Polls := by
  obtain ⟨ingress, bytes, rfl⟩ := h.frame
  trivial

theorem does_handleUdp {udp : Udp} (hnext : ip.nextLayer = some (.udp udp))
    (hprotocol : ip.protocol = Ip.protocolUdp) (h : Dispatches a s₀ s ip) :
    Does (LinkPath a s₀) (handleUdp ip udp) s := by
  unfold handleUdp
  split_ifs with hsum
  · exact does_pure _ s
  refine does_get_bind ?_
  split
  · next hnone =>
    rw [not_and_or, not_not, not_not] at hsum
    exact does_sendIcmpError h.polls (h.unbound ⟨udp, hnext, hprotocol, hsum, hnone⟩) h.links h.tokens
  · exact does_pure _ s
  · exact does_modify (LinkChange.counters ..).path

theorem does_handleIcmpError (icmp : Icmp) (s : NetworkStack) : Does (Path a s₀) (handleIcmpError icmp) s := by
  refine does_parsed_bind fun key _ => ?_
  split
  · exact does_pure _ s
  · split_ifs
    · exact does_runEvent (by simp) s
    · exact does_runEvent (by simp) s

theorem does_handleIcmp {icmp : Icmp} (hnext : ip.nextLayer = some (.icmp icmp))
    (h : Dispatches a s₀ s ip) : Does (Path a s₀) (handleIcmp ip icmp) s := by
  unfold handleIcmp
  split_ifs
  · exact does_pure _ s
  · refine does_get_bind ?_
    split_ifs
    · exact does_pure _ s
    · obtain ⟨ingress, bytes, ha⟩ := h.frame
      obtain ⟨data, hdata⟩ := h.parsed
      exact does_path (does_sendIcmpMessage h.polls.resolves fun _ =>
        .echoReply _ ingress bytes _ _ _ ha (Ip.length_icmp_of_fromBytes hdata hnext))
  · exact does_handleIcmpError ..
  · exact does_pure _ s

theorem does_dispatchTransport (h : Dispatches a s₀ s ip) : Does (Path a s₀) (dispatchTransport ip) s := by
  unfold dispatchTransport
  split
  · split_ifs
    · exact does_handleTcp ..
    · exact does_pure _ s
  · next hnext =>
    split_ifs with hprotocol
    · exact does_path (does_handleUdp hnext hprotocol h)
    · exact does_pure _ s
  · next hnext =>
    split_ifs
    · exact does_handleIcmp hnext h
    · exact does_pure _ s
  · exact does_pure _ s

theorem does_handleIpFragment (ha : a.Polls) (hfragment : (ip.getIpFlagM || ip.fragmentOffset ≠ 0) = true)
    (h : ∀ datagram r data, ip.Completes s.reassembler datagram → Ip.fromBytes data = .ok datagram →
      Dispatches a s₀ { s with reassembler := r } datagram) : Does (Path a s₀) (handleIpFragment ip) s := by
  refine does_get_bind ?_
  split
  · exact does_pure _ s
  · next result r hoffer =>
    refine does_modify_bind (LinkPath.path (LinkChange.path (.reassemble s r ha))) ?_
    split
    · next bytes =>
      refine does_catching (does_parsed_bind fun complete hcomplete => does_dispatchTransport ?_)
      exact h complete r _ ((if_pos hfragment).mpr ⟨bytes, r, hoffer, hcomplete⟩) hcomplete
    · exact does_pure _ _

variable {inbound : Interface}

theorem does_forwardIp {ipBytes : Bytes}
    (hreceives : a.Receives s ingress inbound ip ipBytes) (hleaves : s.LeavesToForwarding inbound.config ip) :
    Does (LinkPath a s) (forwardIp ingress ip ipBytes) s := by
  unfold forwardIp
  split_ifs with hchecksum httl
  · exact does_pure _ s
  · rw [Bool.not_eq_true', Bool.not_eq_false] at hchecksum
    exact does_sendIcmpError hreceives.polls
      (.expired ingress inbound ip ipBytes hreceives hleaves hchecksum httl) rfl rfl
  rw [Bool.not_eq_true', Bool.not_eq_false] at hchecksum
  refine does_get_bind ?_
  split
  · next hroute =>
    exact does_sendIcmpError hreceives.polls
      (.noRoute ingress inbound ip ipBytes hreceives hleaves hchecksum httl hroute) rfl rfl
  · next nextHop egress hroute =>
    split_ifs with hback
    · exact does_pure _ s
    refine does_interfaceAt_bind fun out hout => ?_
    split
    · exact does_ensureArpResolution hreceives.polls.resolves ..
    · next mac hmac =>
      refine does_modify (LinkChange.write s egress [_] (List.forall_mem_singleton.2 ?_)).path
      exact .passedOn ip ipBytes nextHop out mac rfl ⟨⟨ingress, inbound, hreceives, hleaves,
        fun h => hback (.inl h)⟩, hchecksum, httl, hroute, hout⟩ hmac

@[simp] theorem reassembler_modifyInterface (index : ℕ) (f : Interface → Interface) :
    (s.modifyInterface index f).reassembler = s.reassembler := by
  cases index <;> rfl

theorem links_refresh (index : ℕ) (ip : IPv4Address) (r : IpReassembler) :
    ({ s.modifyInterface index (Interface.refresh ip) with reassembler := r } : NetworkStack).links =
      s.links :=
  NetworkStack.links_modifyInterface (f := Interface.refresh ip) (fun i => ⟨rfl, i.arpTable.lookup_refresh ip⟩) index

theorem does_handleIp {ipBytes : Bytes}
    (hreceives : a.Receives s ingress inbound ip ipBytes) :
    Does (Path a s) (handleIp ingress ip ipBytes) s := by
  have hrefresh : Path a s s (s.modifyInterface ingress (Interface.refresh ip.srcAddress)) :=
    LinkPath.path (LinkChange.path (.refresh _ _ _ hreceives.polls))
  obtain ⟨bytes, src, dest, etherType, ha, -, hparse, -⟩ := hreceives.frame
  -- the ports are looked up, and errors are sent, as from the state before the neighbour is refreshed
  have hdispatches (htakes : s.Takes inbound.config ip) (hchecksum : ip.verifyChecksum = true)
      (r : IpReassembler) (datagram : Ip) (hcompletes : ip.Completes s.reassembler datagram)
      (data : Bytes) (hdata : Ip.fromBytes data = .ok datagram) :
      Dispatches a s { s.modifyInterface ingress (Interface.refresh ip.srcAddress) with reassembler := r }
        datagram := by
    refine ⟨⟨ingress, bytes, ha⟩, ⟨data, hdata⟩, ?_, links_refresh .., ?_⟩
    · rintro ⟨udp, hnext, hprotocol, hsum, hnone⟩
      refine .noPort ingress inbound ip ipBytes datagram hreceives htakes hchecksum hcompletes
        ⟨udp, hnext, hprotocol, hsum, ?_⟩
      cases ingress <;> exact hnone
    · cases ingress <;> rfl
  refine does_interfaceAt_bind fun interface hinterface => does_get_bind ?_
  obtain rfl : interface = inbound := Option.some.inj (hinterface.symm.trans hreceives.interface)
  split_ifs with htakes hchecksum hfragment
  · exact does_modify_bind hrefresh (does_pure _ _)
  · rw [Bool.not_eq_true', Bool.not_eq_false] at hchecksum
    refine does_modify_bind hrefresh (does_handleIpFragment hreceives.polls hfragment ?_)
    rw [reassembler_modifyInterface]
    exact fun datagram r data hcompletes hdata =>
      hdispatches htakes hchecksum r datagram hcompletes data hdata
  · rw [Bool.not_eq_true', Bool.not_eq_false] at hchecksum
    refine does_modify_bind hrefresh (does_dispatchTransport ?_)
    have hsame : s.modifyInterface ingress (Interface.refresh ip.srcAddress) =
        { s.modifyInterface ingress (Interface.refresh ip.srcAddress) with reassembler := s.reassembler } := by
      cases ingress <;> rfl
    rw [hsame]
    exact hdispatches htakes hchecksum _ ip ((if_neg hfragment).mpr rfl) _ (Ethernet.ip_of_fromBytes hparse)
  · refine does_get_bind ?_
    split_ifs with hforwarding
    · rw [Bool.or_eq_true, not_or, Bool.not_eq_true, Bool.not_eq_true] at htakes
      exact does_path (does_forwardIp hreceives ⟨hforwarding, htakes⟩)
    · exact does_pure _ s

variable {datagram : Ip}

theorem NetworkStack.LeavesToForwarding.not_takes {config : InterfaceConfig}
    (h : s.LeavesToForwarding config ip) : ¬ s.Takes config ip := by
  rw [NetworkStack.Takes, h.2.1, h.2.2]
  decide

theorem after_dispatchTransport_of_unbound (h : s.Unbound datagram) :
    after (dispatchTransport datagram) s = after (sendIcmpPortUnreachable datagram) s := by
  obtain ⟨udp, hnext, hprotocol, hsum, hnone⟩ := h
  rw [after, dispatchTransport, hnext]
  dsimp only
  rw [if_pos hprotocol, handleUdp, if_neg (by tauto), run_get_bind, hnone]
  rfl

theorem Ip.Completes.unique {r : IpReassembler} {datagram' : Ip} (h : ip.Completes r datagram)
    (h' : ip.Completes r datagram') : datagram = datagram' := by
  unfold Ip.Completes at h h'
  split_ifs at h h'
  · obtain ⟨bytes, r₁, hoffer, hparse⟩ := h
    obtain ⟨bytes', r₁', hoffer', hparse'⟩ := h'
    rw [hoffer] at hoffer'
    cases hoffer'
    exact Except.ok.inj (hparse.symm.trans hparse')
  · exact h.trans h'.symm

/-- **A packet for this host is dispatched as the datagram it completes**, if it completes
one. -/
theorem after_handleIp_of_takes (ipBytes : Bytes)
    (hinbound : s.interface? ingress = some inbound) (htakes : s.Takes inbound.config ip)
    (hchecksum : ip.verifyChecksum = true) :
    ∃ r, (∃ datagram, ip.Completes s.reassembler datagram ∧
        after (handleIp ingress ip ipBytes) s = after (dispatchTransport datagram)
          { s.modifyInterface ingress (Interface.refresh ip.srcAddress) with reassembler := r }) ∨
      (∀ datagram, ¬ ip.Completes s.reassembler datagram) ∧ after (handleIp ingress ip ipBytes) s =
        { s.modifyInterface ingress (Interface.refresh ip.srcAddress) with reassembler := r } := by
  rw [NetworkStack.Takes] at htakes
  rw [after, handleIp, run_bind_ok (run_interfaceAt hinbound), run_get_bind, if_pos htakes,
    run_modify_bind, hchecksum, Bool.not_true, if_neg Bool.false_ne_true]
  unfold Ip.Completes
  split_ifs
  · rw [handleIpFragment, run_get_bind, reassembler_modifyInterface]
    cases hoffer : ip.offerTo s.reassembler with
    | none => exact ⟨s.reassembler, .inr ⟨by simp, by cases ingress <;> rfl⟩⟩
    | some offered =>
      obtain ⟨result, r⟩ := offered
      refine ⟨r, ?_⟩
      dsimp only
      rw [run_modify_bind]
      cases result with
      | complete bytes =>
        dsimp only
        rw [← after, after_catching]
        cases hparse : Ip.fromBytes (ip.reassembled bytes).toBytes with
        | error what => exact .inr ⟨by simp [hparse], rfl⟩
        | ok datagram => exact .inl ⟨datagram, ⟨bytes, r, rfl, hparse⟩, rfl⟩
      | _ => exact .inr ⟨by simp, rfl⟩
  · refine ⟨s.reassembler, .inl ⟨ip, rfl, ?_⟩⟩
    rw [← after]
    congr 1
    cases ingress <;> rfl

theorem after_handleIp_of_completes (ipBytes : Bytes)
    (hinbound : s.interface? ingress = some inbound) (htakes : s.Takes inbound.config ip)
    (hchecksum : ip.verifyChecksum = true) (hcompletes : ip.Completes s.reassembler datagram) :
    ∃ r, after (handleIp ingress ip ipBytes) s = after (dispatchTransport datagram)
      { s.modifyInterface ingress (Interface.refresh ip.srcAddress) with reassembler := r } := by
  obtain ⟨r, ⟨datagram', hcompletes', hafter⟩ | ⟨hnone, -⟩⟩ :=
    after_handleIp_of_takes ipBytes hinbound htakes hchecksum
  · rw [hcompletes.unique hcompletes']
    exact ⟨r, hafter⟩
  · exact absurd hcompletes (hnone datagram)

theorem does_handleFrame (ingress : ℕ) (bytes : Bytes) (s : NetworkStack) :
    Does (Path (.frame ingress bytes) s) (handleFrame ingress bytes) s := by
  refine does_catching (does_parsed_bind fun ethernet hparse => ?_)
  refine does_interfaceAt_bind fun interface hinterface => ?_
  obtain ⟨src, dest, etherType, nextLayer⟩ := ethernet
  split_ifs with haddressed
  · exact does_pure _ s
  · rw [Bool.not_eq_true', Bool.not_eq_false] at haddressed
    cases nextLayer with
    | arp packet => exact does_handleArp ⟨bytes, src, dest, etherType, rfl, hparse⟩ s id
    | ip packet =>
      exact does_handleIp ⟨⟨bytes, src, dest, etherType, rfl, rfl, hparse, haddressed⟩, hinterface⟩
    | raw data => exact does_pure _ s

end Input

/-! ### Time, and the other steps -/

section Steps

variable {a : Step} {s₀ s s' : NetworkStack}

theorem does_giveUp (ha : a.MovesQueues) (index : ℕ) (ip : IPv4Address) (s : NetworkStack) :
    Does (Path a s₀) (giveUp index ip) s := by
  refine does_modify_bind (LinkPath.path (LinkChange.path
    (.waiting s index (Interface.clearArpRequest ip) ha fun _ => ⟨rfl, rfl, rfl, .inl⟩))) ?_
  refine does_bind (does_failPendingOutboundConnects ha ..) fun _ s' _ => ?_
  refine does_interfaceAt_bind fun interface _ => ?_
  split
  · exact does_pure _ s'
  · refine does_modify (LinkPath.path ?_)
    exact (LinkChange.waiting s' index (Interface.clearDatagrams ip) ha fun _ => ⟨rfl, rfl, rfl, .inl⟩).path.trans
      (LinkChange.records _ _ _ _ ha).path

theorem does_ageArpRequest (ha : a.MovesQueues) (elapsedMs : UInt32) (index : ℕ) (ip : IPv4Address)
    (s : NetworkStack) : Does (Path a s₀) (ageArpRequest elapsedMs index ip) s := by
  refine does_interfaceAt_bind fun interface _ => ?_
  split
  · exact does_pure _ s
  · dsimp only
    split_ifs
    · exact does_modify (LinkPath.path (LinkChange.path (.request ..)))
    · exact does_giveUp ha ..
    · refine does_bind (does_path (does_sendArpRequest ha.resolves ..)) fun _ s' _ => ?_
      exact does_modify (LinkPath.path (LinkChange.path (.request ..)))

/-- The loop of `_reap_closed_connections`. -/
theorem reapIds_path (ids : List ℕ) {t : ConnectionTable} (h : t.pendingReapIds = ids) :
    Relation.ReflTransGen (TableChange a s₀) t (ConnectionTable.reapIds ids t) := by
  induction ids generalizing t with
  | nil => exact .refl
  | cons id ids ih =>
    refine .head (.reap t id ids h) (ih ?_)
    unfold ConnectionTable.reapConnection
    split <;> rfl

theorem path_modifyTable {f : ConnectionTable → ConnectionTable}
    (h : Relation.ReflTransGen (TableChange a s₀) s.toConnectionTable (f s.toConnectionTable)) :
    Path a s₀ s (s.modifyTable f) := by
  have hpath (t : ConnectionTable) (ht : Relation.ReflTransGen (TableChange a s₀) s.toConnectionTable t) :
      Path a s₀ s (s.modifyTable fun _ => t) := by
    induction ht with
    | refl => exact .refl
    | tail _ hchange ih => exact ih.tail (.table _ (fun _ => _) hchange)
  exact hpath _ h

/-- The routes and the neighbours, the budget for errors and what the reassembler holds
are the same. -/
structure SamePaths (s s' : NetworkStack) : Prop where
  routes : s'.routes = s.routes
  neighbours : (s'.interfaces.map fun i => (i.config, i.arpTable)) =
    s.interfaces.map fun i => (i.config, i.arpTable)
  tokens : s'.icmpErrorTokensScaled = s.icmpErrorTokensScaled
  reassembler : s'.reassembler = s.reassembler

theorem SamePaths.trans {s'' : NetworkStack} (h : SamePaths s s') (h' : SamePaths s' s'') : SamePaths s s'' :=
  ⟨h'.routes.trans h.routes, h'.neighbours.trans h.neighbours, h'.tokens.trans h.tokens,
    h'.reassembler.trans h.reassembler⟩

theorem SamePaths.links (h : SamePaths s s') : s'.links = s.links := by
  refine Prod.ext h.routes ?_
  have hlookups := congrArg (List.map fun x => (x.1, ArpTable.lookup x.2)) h.neighbours
  simpa [NetworkStack.links, Function.comp_def] using hlookups

theorem SamePaths.ageArpTables (h : SamePaths s s') (elapsedMs : UInt32) :
    SamePaths (s.ageArpTables elapsedMs) (s'.ageArpTables elapsedMs) := by
  refine ⟨h.routes, ?_, h.tokens, h.reassembler⟩
  have hages := congrArg (List.map fun x => (x.1, ArpTable.age elapsedMs x.2)) h.neighbours
  rw [List.map_map, List.map_map] at hages
  change ((s'.interfaces.map (Interface.age elapsedMs)).map fun i => (i.config, i.arpTable)) =
    (s.interfaces.map (Interface.age elapsedMs)).map fun i => (i.config, i.arpTable)
  rw [List.map_map, List.map_map]
  exact hages

theorem samePaths_modifyInterface {f : Interface → Interface}
    (hf : ∀ i, (f i).config = i.config ∧ (f i).arpTable = i.arpTable) (index : ℕ) :
    SamePaths s (s.modifyInterface index f) :=
  ⟨by cases index <;> rfl, NetworkStack.map_interfaces_modifyInterface
    (g := fun i => (i.config, i.arpTable)) (fun i => Prod.ext (hf i).1 (hf i).2) index,
    by cases index <;> rfl, by cases index <;> rfl⟩

theorem LinkChange.samePaths (h : LinkChange a s₀ s s') (ha : ¬ a.Polls) : SamePaths s s' := by
  cases h with
  | write index written =>
    exact samePaths_modifyInterface (f := Interface.append written) (fun _ => ⟨rfl, rfl⟩) index
  | learn index interface arp hcarries =>
    obtain ⟨bytes, src, dest, etherType, rfl, -⟩ := hcarries
    exact absurd trivial ha
  | age elapsedMs htime =>
    subst htime
    exact absurd trivial ha
  | request index ip request =>
    exact samePaths_modifyInterface (f := Interface.setArpRequest ip request) (fun _ => ⟨rfl, rfl⟩) index
  | waiting index f _ hf => exact samePaths_modifyInterface (fun i => ⟨(hf i).1, (hf i).2.1⟩) index
  | refresh _ _ hpolls | reassemble _ hpolls | budget _ hpolls => exact absurd hpolls ha
  | records | counters => exact ⟨rfl, rfl, rfl, rfl⟩

theorem Path.samePaths (h : Path a s₀ s s') (ha : ¬ a.Polls) (hconfigures : ¬ a.Configures) :
    SamePaths s s' := by
  induction h with
  | refl => exact ⟨rfl, rfl, rfl, rfl⟩
  | tail _ hchange ih =>
    cases hchange with
    | link _ hlink => exact ih.trans (hlink.samePaths ha)
    | table f => exact ⟨ih.routes, ih.neighbours, ih.tokens, ih.reassembler⟩
    | configure _ hconfigures' => exact absurd hconfigures' hconfigures

theorem does_runConnections (a : Step) (s₀ : NetworkStack) (elapsedMs : UInt32) (keys : List ConnectionKey) (s : NetworkStack) :
    Does (Path a s₀) (keys.forM fun key =>
      catching Fault.isException (runConnection key (.event (.timePassed elapsedMs)))) s :=
  does_forM (fun _ _ s => does_catching (does_runEvent (by simp) s)) s

theorem does_onTimePassed (elapsedMs : UInt32) (s : NetworkStack) :
    Does (Path (.timePassed elapsedMs) s) (onTimePassed elapsedMs) s := by
  refine does_get_bind (does_bind (does_runConnections ..) fun _ s₁ hrun => ?_)
  have hreassembler : s₁.reassembler = s.reassembler := by
    have hpath := does_runConnections .reap s elapsedMs s.connections.keys s
    rw [Does, after_ok hrun] at hpath
    exact (hpath.samePaths id id).reassembler
  refine does_modify_bind (path_modifyTable (reapIds_path _ rfl)) ?_
  refine does_modify_bind (LinkPath.path (LinkChange.path (.age _ elapsedMs rfl))) ?_
  refine does_modify_bind (LinkPath.path (LinkChange.path (.budget _ _ trivial))) ?_
  refine does_bind ?_ fun _ s₂ _ => ?_
  · refine does_get_bind (does_modify_bind (LinkPath.path (LinkChange.path (.reassemble _ _ trivial))) ?_)
    refine does_forM (fun source hsource s' => does_path ?_) _
    refine does_sendIcmpFragmentReassemblyTimeExceeded rfl ?_ s'
    rw [← hreassembler]
    exact hsource
  · refine does_get_bind (does_forM (fun index _ s => ?_) s₂)
    exact does_interfaceAt_bind fun interface _ =>
      does_forM (fun ip _ s => does_ageArpRequest (by exact trivial) ..) s

theorem does_callConnection {event : Event} (hevent : ∀ t, event ≠ .segment t) (id : ℕ) (s : NetworkStack) :
    Does (Path a s₀) (callConnection id event) s := by
  refine does_get_bind ?_
  split
  · exact does_pure _ s
  · exact does_runEvent hevent s

/-- **Every step is a sequence of changes.** -/
theorem Step.run_path (h : a.run s = some s') : Path a s s s' := by
  rw [Step.eq_after_of_run h]
  change Does (Path a s) a.program s
  cases a with
  | frame ingress bytes => exact does_handleFrame ..
  | reap => exact does_modify (path_modifyTable (reapIds_path _ rfl))
  | timePassed elapsedMs => exact does_onTimePassed ..
  | listen port backlog => exact does_modify (TableChange.path (.listen _ port backlog rfl))
  | accept port => exact does_modify (TableChange.path (.accept _ port rfl))
  | connect remoteIp remotePort => exact does_connect ..
  | send id data => exact does_callConnection (by simp) ..
  | read id maxBytes => exact does_callConnection (by simp) ..
  | close id => exact does_callConnection (by simp) ..
  | setKeepalive id enabled => exact does_callConnection (by simp) ..
  | bindUdp port => exact does_modify (LinkPath.path (LinkChange.path (.counters ..)))
  | setDatagramReceived port => exact does_modify (LinkPath.path (LinkChange.path (.counters ..)))
  | unbindUdp port => exact does_modify (LinkPath.path (LinkChange.path (.counters ..)))
  | sendTo localPort destIp destPort data =>
    exact does_path (does_sendOrQueueUdp (by exact trivial) ..)
  | sendEchoRequest destination identifier sequence payload =>
    exact does_path (does_sendIcmpMessage (by exact trivial) fun _ => .echoRequest _ identifier sequence payload _ rfl)
  | setForwarding enabled => exact does_modify (LinkPath.path (LinkChange.path (.counters ..)))
  | addStaticArpEntry ip mac =>
    exact does_modify (.single (.configure _ _ trivial rfl fun h => connecting_modifyInterface h fun _ => id))
  | addRoute destination prefixLength nextHop index =>
    exact does_modify (.single (.configure _ _ trivial rfl id))
  | addInterface config =>
    exact does_modify (.single (.configure _ _ trivial rfl connecting_addInterface))
  | configureInterface config =>
    exact does_modify (.single (.configure _ _ trivial rfl connecting_configureInterface))

/-! ### What is written -/

theorem NetworkStack.setting_modifyInterface {f : Interface → Interface}
    (hf : ∀ i, (f i).config = i.config) (index : ℕ) : (s.modifyInterface index f).setting = s.setting :=
  Prod.ext (by cases index <;> rfl) (map_interfaces_modifyInterface (g := Interface.config) hf index)

theorem NetworkStack.interface?_ageArpTables (elapsedMs : UInt32) (index : ℕ) :
    (s.ageArpTables elapsedMs).interface? index = (s.interface? index).map (Interface.age elapsedMs) := by
  have hinterfaces : (s.ageArpTables elapsedMs).interfaces = s.interfaces.map (Interface.age elapsedMs) := rfl
  rw [interface?, interface?, hinterfaces, List.getElem?_map]

theorem LinkChange.setting (h : LinkChange a s₀ s s') : s'.setting = s.setting := by
  cases h with
  | write | learn | refresh | request =>
    refine NetworkStack.setting_modifyInterface (fun _ => ?_) _
    rfl
  | waiting index f _ hf => exact NetworkStack.setting_modifyInterface (fun i => (hf i).1) index
  | age elapsedMs =>
    refine Prod.ext rfl ?_
    change (s.interfaces.map (Interface.age elapsedMs)).map Interface.config = _
    rw [List.map_map]
    rfl
  | records | reassemble | budget | counters => rfl

/-- A step that does not configure the stack leaves its configuration alone, and
**every frame that it writes has its origin in a state of that configuration.** -/
theorem Path.setting_and_writes {P : ℕ → Written → Prop} (ha : ¬ a.Configures) (h : Path a s₀ s s')
    (hP : ∀ t index w, t.setting = s.setting → Origin a s₀ t index w → P index w) :
    s'.setting = s.setting ∧ Writes P s s' := by
  induction h with
  | refl => exact ⟨rfl, Std.Refl.refl s⟩
  | tail _ hchange ih =>
    obtain ⟨hsetting, hwrites⟩ := ih
    cases hchange with
    | link _ hlink =>
      refine ⟨hlink.setting.trans hsetting, hwrites.trans ?_⟩
      cases hlink with
      | write index written horigin =>
        exact writes_append _ index fun w hw => hP _ index w hsetting (horigin w hw)
      | learn index | refresh index | request index =>
        refine .of_eq (written_modifyInterface (fun _ => ?_) index)
        rfl
      | waiting index f _ hf => exact .of_eq (written_modifyInterface (fun i => (hf i).2.2.1) index)
      | age elapsedMs =>
        refine .of_eq fun index => ?_
        rw [NetworkStack.interface?_ageArpTables, Option.map_map]
        rfl
      | records | reassemble | budget | counters => exact .of_eq fun _ => rfl
    | table f => exact ⟨hsetting, hwrites.trans (.of_eq fun _ => rfl)⟩
    | configure _ hconfigures => exact absurd hconfigures ha

/-! ### Invariants of the table -/

variable {I : ConnectionTable → Prop}

theorem Path.table_invariant (hI : ∀ t t', TableChange a s₀ t t' → I t → I t') (h : Path a s₀ s s')
    (hs : I s.toConnectionTable) : I s'.toConnectionTable := by
  induction h with
  | refl => exact hs
  | tail _ hchange ih =>
    cases hchange with
    | link _ hlink => rwa [hlink.table]
    | table f htable => exact hI _ _ htable ih
    | configure _ _ htable => rwa [htable]

/-- **What every change of the table preserves, every run preserves.** -/
theorem runs_table (ok : Step → Prop) {steps : List Step}
    (hI : ∀ a s₀ t t', ok a → TableChange a s₀ t t' → I t → I t') (hok : ∀ a ∈ steps, ok a)
    (hs : I s.toConnectionTable) (h : runs Step.run steps s = some s') : I s'.toConnectionTable :=
  runs_invariant (I := fun s => I s.toConnectionTable)
    (fun a _ _ hs ha hrun => (Step.run_path hrun).table_invariant (fun t t' => hI a _ t t' ha.1) hs) hs
    (Along.and_of_forall along_true hok) h

theorem TableChange.registered {t t' : ConnectionTable} (h : TableChange a s₀ t t') :
    t.registered <+: t'.registered := by
  cases h with
  | openPassive | openActive => exact List.prefix_append ..
  | accept port =>
    unfold ConnectionTable.accept
    split <;> exact List.prefix_refl _
  | reap id ids =>
    unfold ConnectionTable.reapConnection
    split <;> exact List.prefix_refl _
  | session | initiate | establish | skipId | returned | listen => exact List.prefix_refl _

end Steps

end TcpIpStack
