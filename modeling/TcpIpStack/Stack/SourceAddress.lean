/-
# Replies come from the address that was asked

A host takes a packet for any of its addresses, whichever interface it comes by, and
what it sends has the address of the interface it leaves by (`_source_address_for`).
A connection is found by the address of the peer and the two ports.  So a peer that
asks one address may be answered by another, and its segments for two addresses of
this host are segments of one connection (`asked_address_does_not_answer`).

Both are right if the route back to whoever asks leads out of the interface that was
asked: while the configuration stays as it is, everything that is sent to that peer
from then on has the address as its source, and the peer cannot ask another address
without breaking the condition (`replies_from_asked_address`).
-/

import TcpIpStack.Stack.Answers

namespace TcpIpStack

open Programs StackM Runs

/-- The packet asks something of this host: a TCP segment, or an ICMP echo request. -/
def Ip.AsksHost (ip : Ip) : Prop :=
  match ip.nextLayer with
  | some (.tcp _ _) => ip.protocol = Ip.protocolTcp
  | some (.icmp message) => ip.protocol = Ip.protocolIcmp ∧ message.type = Icmp.echoRequest
  | _ => False

/-- A step brings a packet, whole or with its last fragment, that asks one of the
addresses of this host. -/
def Step.Asks (a : Step) (s : NetworkStack) (datagram : Ip) : Prop :=
  (∃ ingress inbound ip ipBytes, a.Receives s ingress inbound ip ipBytes ∧
    ip.Completes s.reassembler datagram) ∧
  s.isOwnAddress datagram.destAddress = true ∧ datagram.AsksHost

/-- The route to an address leads out of an interface with another address. -/
def NetworkStack.LeavesBy (s : NetworkStack) (destIp address : IPv4Address) : Prop :=
  ∃ nextHop egress out, s.routeFor destIp = some (nextHop, egress) ∧ s.interface? egress = some out ∧
    out.config.ip = address

/-- A step does not configure the stack, and if it asks an address, the route back leads
out of the interface with that address. -/
structure Step.AsksByRoute (a : Step) (s : NetworkStack) : Prop where
  configured : ¬ a.Configures
  route : ∀ datagram, a.Asks s datagram → s.LeavesBy datagram.srcAddress datagram.destAddress

/-- A TCP or ICMP packet of this host to a peer has an address as its source. -/
def Written.ComesFrom (w : Written) (peer address : IPv4Address) : Prop :=
  ∀ packet, w.frame.nextLayer = .ip packet → packet.destAddress = peer →
    packet.protocol = Ip.protocolTcp ∨ packet.protocol = Ip.protocolIcmp → packet.srcAddress = address

section

variable {a : Step} {s s' : NetworkStack} {peer address : IPv4Address}

theorem NetworkStack.LeavesBy.unique {address' : IPv4Address} (h : s.LeavesBy peer address)
    (h' : s.LeavesBy peer address') : address = address' := by
  obtain ⟨nextHop, egress, out, hroute, hout, rfl⟩ := h
  obtain ⟨nextHop', egress', out', hroute', hout', rfl⟩ := h'
  rw [hroute] at hroute'
  cases hroute'
  rw [hout] at hout'
  cases hout'
  rfl

theorem NetworkStack.LeavesBy.of_setting (h : s.LeavesBy peer address) (hsetting : s'.setting = s.setting) :
    s'.LeavesBy peer address := by
  obtain ⟨nextHop, egress, out, hroute, hout, rfl⟩ := h
  have hconfigs := config_of_setting hsetting egress
  rw [hout, Option.map_some] at hconfigs
  obtain ⟨out', hout', hconfig⟩ := Option.map_eq_some_iff.1 hconfigs
  exact ⟨nextHop, egress, out', (routeFor_of_setting hsetting peer).trans hroute, hout', by rw [hconfig]⟩

/-- **A packet has the address of the interface its destination is reached by.** -/
theorem Origin.comesFrom {s₀ : NetworkStack} (h : s.LeavesBy peer address) {index : ℕ} {w : Written}
    (horigin : Origin a s₀ s index w) : w.ComesFrom peer address := by
  cases horigin with
  | packet hop destIp protocol bytes dontFragment identification ip hhop hegress hip =>
    obtain ⟨hroute, interface, hinterface, hconfig, -⟩ := NetworkStack.hopFor_eq_some.1 hhop
    obtain ⟨_, _, _, _, -, rfl⟩ := Hop.packet_eq_of_mem hip
    rintro _ ⟨⟩ rfl -
    refine NetworkStack.LeavesBy.unique ?_ h
    exact ⟨hop.nextHop, hop.egress, interface, hroute, hinterface, congrArg InterfaceConfig.ip hconfig⟩
  | arp frame packet hframe =>
    intro packet' hpacket
    rw [hframe] at hpacket
    cases hpacket
  | passedOn =>
    rintro _ ⟨⟩

theorem Step.comesFrom (ha : ¬ a.Configures) (h : s.LeavesBy peer address) (hrun : a.run s = some s') :
    s'.LeavesBy peer address ∧ Writes (fun _ w => w.ComesFrom peer address) s s' := by
  obtain ⟨hsetting, hwrites⟩ := (Step.run_path hrun).setting_and_writes
    (P := fun _ w => w.ComesFrom peer address) ha
    fun t index w hsetting horigin => horigin.comesFrom (h.of_setting hsetting)
  exact ⟨h.of_setting hsetting, hwrites⟩

/-- **Replies come from the address that was asked** in every run in which the route back
to whoever asks leads out of the interface that was asked: what is written to the peer
from then on has the address as its source, and another segment of the peer for the same
connection asks the same address. -/
theorem replies_from_asked_address {steps : List Step} {datagram : Ip} (hasks : a.Asks s datagram)
    (hok : Along Step.run Step.AsksByRoute (a :: steps) s) (h : runs Step.run (a :: steps) s = some s') :
    Writes (fun _ w => w.ComesFrom datagram.srcAddress datagram.destAddress) s s' ∧
      ∀ (b : Step) (datagram' : Ip) (segment segment' : Tcp) (received received' : Bytes),
        b.AsksByRoute s' → b.Asks s' datagram' →
        datagram.nextLayer = some (.tcp segment received) →
        datagram'.nextLayer = some (.tcp segment' received') →
        datagram.destAddress ≠ datagram'.destAddress →
        segmentKey datagram segment ≠ segmentKey datagram' segment' := by
  have hleaves := hok.1.route datagram hasks
  have hfinal : s'.LeavesBy datagram.srcAddress datagram.destAddress ∧
      Writes (fun _ w => w.ComesFrom datagram.srcAddress datagram.destAddress) s s' := by
    refine runs_invariant (I := fun t => t.LeavesBy datagram.srcAddress datagram.destAddress ∧
      Writes (fun _ w => w.ComesFrom datagram.srcAddress datagram.destAddress) s t)
      (fun b t t' ht hb hrun => ?_) ⟨hleaves, Std.Refl.refl s⟩ hok h
    obtain ⟨hleaves', hwrites⟩ := Step.comesFrom hb.configured ht.1 hrun
    exact ⟨hleaves', ht.2.trans hwrites⟩
  refine ⟨hfinal.2, fun b datagram' segment segment' _ _ hb hasks' _ _ hne hkey => hne ?_⟩
  have hpeer : datagram.srcAddress = datagram'.srcAddress := congrArg ConnectionKey.remoteIp hkey
  have hleaves' := hb.route datagram' hasks'
  rw [← hpeer] at hleaves'
  exact hfinal.1.unique hleaves'

end

/-- The host listens on port 80 and knows 10.0.0.5 on its first link. -/
def askedHost : NetworkStack := knowsFirst.modifyTable (·.listen 80 5)

/-- A SYN for port 80 from 10.0.0.5 to one of the addresses of the host. -/
def synTo (address : IPv4Address) : Ip :=
  let segment := Tcp.ofFlags 5000 80 7 0 5 flagSyn 1000 0 0
  let checksum := transportChecksum ⟨0x0A000005⟩ address Ip.protocolTcp segment.toBytes
  ipPacket ⟨0x0A000005⟩ address Ip.protocolTcp 0 0 0 { segment with checksum := checksum }.toBytes

/-- The same as it is received. -/
def receivedSyn : Ip :=
  let segment := Tcp.ofFlags 5000 80 7 0 5 flagSyn 1000 0 0
  let checksum := transportChecksum ⟨0x0A000005⟩ ⟨0x0A000001⟩ Ip.protocolTcp segment.toBytes
  { synTo ⟨0x0A000001⟩ with
    nextLayer := some (.tcp { segment with checksum := checksum }
      { segment with checksum := checksum }.toBytes) }

theorem fromBytes_synTo : Ethernet.fromBytes (Ethernet.toBytes ⟨MacAddress.zero, MacAddress.broadcast,
      Ethernet.etherTypeIPv4, .ip (synTo ⟨0x0A000001⟩)⟩) =
    .ok ⟨MacAddress.zero, MacAddress.broadcast, Ethernet.etherTypeIPv4, .ip receivedSyn⟩ := by
  decide +kernel

/-- A SYN to the first address is answered by it. -/
theorem first_address_answers :
    ∃ s, runs Step.run [packetIn 0 (synTo ⟨0x0A000001⟩), .timePassed 1000] askedHost = some s ∧
      s.primary.written.length = 2 ∧
      Writes (fun _ w => w.ComesFrom ⟨0x0A000005⟩ ⟨0x0A000001⟩) askedHost s := by
  have hasks : (packetIn 0 (synTo ⟨0x0A000001⟩)).Asks askedHost receivedSyn :=
    ⟨⟨0, askedHost.primary, receivedSyn, _,
      ⟨⟨_, _, _, _, rfl, rfl, fromBytes_synTo, by decide +kernel⟩, rfl⟩, (if_neg (by decide +kernel)).mpr rfl⟩,
      by decide +kernel, rfl⟩
  refine ⟨_, (Option.some_get (by decide +kernel)).symm, by decide +kernel,
    (replies_from_asked_address hasks ⟨⟨id, ?_⟩, ?_⟩ (Option.some_get _).symm).1⟩
  · rintro datagram ⟨⟨ingress, inbound, ip, ipBytes, ⟨hframe, -⟩, hcompletes⟩, -⟩
    obtain ⟨bytes, src, dest, etherType, hstep, -, hparse, -⟩ := hframe
    obtain ⟨rfl, rfl⟩ := Step.frame.inj hstep
    rw [fromBytes_synTo] at hparse
    obtain rfl := EthernetLayer.ip.inj (Ethernet.mk.inj (Except.ok.inj hparse)).2.2.2
    rw [Ip.Completes, if_neg (by decide +kernel)] at hcompletes
    subst hcompletes
    exact ⟨⟨0x0A000005⟩, 0, askedHost.primary, by decide +kernel, rfl, rfl⟩
  · split
    · trivial
    · refine ⟨⟨id, ?_⟩, ?_⟩
      · rintro datagram ⟨⟨ingress, inbound, ip, ipBytes, ⟨hframe, -⟩, -⟩, -⟩
        obtain ⟨bytes, src, dest, etherType, hstep, -⟩ := hframe
        cases hstep
      · split <;> trivial

/-- **A SYN to the second address is answered by the first**, and a SYN to the first
address from the same port is taken for one of the same connection. -/
theorem asked_address_does_not_answer :
    (runs Step.run [packetIn 0 (synTo ⟨0x0A000101⟩), packetIn 0 (synTo ⟨0x0A000001⟩)] askedHost).map
      (fun s => (s.registered.length, (s.primary.written.take 1).filterMap fun w =>
        match w.frame.nextLayer with
        | .ip packet => some (packet.srcAddress, packet.destAddress)
        | _ => none)) = some (1, [(⟨0x0A000001⟩, ⟨0x0A000005⟩)]) := by
  decide +kernel

end TcpIpStack
