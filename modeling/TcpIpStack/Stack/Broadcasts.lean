/-
# Directed broadcasts

Three functions decide where a broadcast goes.  `_is_broadcast_for_any_interface`
asks all interfaces, `_route_for` then always names the primary one, and
`_resolve_mac` asks only the interface it is given.  They agree about the
broadcasts of the primary interface, and about no others.

So `send_to` reaches the directed broadcast of an interface exactly if that is the
primary one (`directed_broadcast_leaves_iff`).  For another one it throws for want
of an ARP entry, or writes to the wrong link.

`_handle_ip` accepts the broadcasts of the interface that a packet came in by.
Those of the other interfaces are forwarded like any packet: out of the primary
interface, if the table there has the address, and otherwise that address is asked
for.  An ICMP error asks for it too, if it is the next hop to the sender: the Time
Exceeded for a broadcast to be forwarded, the Port Unreachable for one that is
accepted.  Nothing else leaves the segment (`broadcast_stays_iff`).
-/

import TcpIpStack.Stack.Changes

namespace TcpIpStack

open Programs StackM Runs

/-- The directed broadcast of the network that an interface is on. -/
def isDirectedBroadcast (ip : IPv4Address) (config : InterfaceConfig) : Bool :=
  config.hasAddress &&
    ip.value = (config.ip.value &&& ipv4PrefixMask config.prefixLength) |||
      ~~~ipv4PrefixMask config.prefixLength

theorem isBroadcastAddress_of_directed {ip : IPv4Address} {config : InterfaceConfig}
    (h : isDirectedBroadcast ip config = true) : isBroadcastAddress ip config = true := by
  simp only [isDirectedBroadcast, Bool.and_eq_true, decide_eq_true_iff] at h
  unfold isBroadcastAddress
  split_ifs
  · rfl
  · rw [decide_eq_true_iff]
    exact h.2
  · exact absurd h.1 (by assumption)

section

variable {s : NetworkStack} {ip : IPv4Address} {index : ℕ} {interface : Interface}

theorem isBroadcastForAnyInterface_of_interface (hinterface : s.interface? index = some interface)
    (h : isBroadcastAddress ip interface.config = true) : s.isBroadcastForAnyInterface ip = true :=
  List.any_eq_true.2 ⟨interface, List.mem_of_getElem? hinterface, h⟩

theorem routeFor_of_broadcast (h : s.isBroadcastForAnyInterface ip = true) :
    s.routeFor ip = some (ip, 0) := if_pos h

end

/-! ### Sending -/

/-- A datagram leaves by one interface: it is written there, to the Ethernet
broadcast address and from the addresses of the interface, and nowhere else. -/
def LeavesBy (s : NetworkStack) (index : ℕ) (config : InterfaceConfig) (localPort : UInt16)
    (destIp : IPv4Address) (destPort : UInt16) (data : Bytes) : Prop :=
  ∃ s', (sendTo localPort destIp destPort data).run s = .ok () s' ∧
    (s'.interface? index).map Interface.written ≠ (s.interface? index).map Interface.written ∧
    Writes (fun j w => j = index ∧ w.frame.dest = MacAddress.broadcast ∧ w.frame.src = config.mac ∧
      ∃ packet, w.frame.nextLayer = .ip packet ∧ packet.srcAddress = config.ip) s s'

section Directed

variable {s : NetworkStack} {index : ℕ} {interface : Interface} {destIp : IPv4Address}
  {localPort destPort : UInt16} {data : Bytes}

/-- `send_to` of a broadcast. -/
theorem sendTo_of_broadcast (h : s.isBroadcastForAnyInterface destIp = true) :
    (sendTo localPort destIp destPort data).run s =
      (do
        sendUdpDatagram destIp (Udp.ofData localPort destPort (UInt16.ofNat (8 + data.length)) 0 []) data
        recordAccepted 0 destIp destIp
          (Udp.ofData localPort destPort (UInt16.ofNat (8 + data.length)) 0 []) data).run s := by
  rw [sendTo, sendOrQueueUdp, run_get_bind, if_pos h]

/-- What `send_to` writes for a broadcast. -/
theorem sendTo_broadcast_writes {hop : Hop} (hany : s.isBroadcastForAnyInterface destIp = true)
    (hhop : s.hopFor destIp = some hop) (hroom : 0 < hop.config.maxIpPayload)
    (localPort destPort : UInt16) (data : Bytes) :
    ∃ s' frames, (sendTo localPort destIp destPort data).run s = .ok () s' ∧ frames ≠ [] ∧
      (∀ w ∈ frames, ∃ packet, w = hop.frame packet ∧ packet.srcAddress = hop.config.ip) ∧
      ∀ j, (s'.interface? j).map Interface.written =
        ((s.modifyInterface hop.egress (Interface.append frames)).interface? j).map Interface.written := by
  let header := Udp.ofData localPort destPort (UInt16.ofNat (8 + data.length)) 0 []
  have hrun := ((sendTo_of_broadcast hany).trans
    (run_bind_ok (run_sendUdpDatagram hhop header data hroom))).trans rfl
  refine ⟨_, hop.frames s.nextIpId destIp Ip.protocolUdp (header.wireBytes hop.config.ip destIp data) false,
    hrun, Hop.frames_ne_nil hroom, fun w hw => ?_, fun j => ?_⟩
  · obtain ⟨packet, hpacket, rfl⟩ := List.mem_map.1 hw
    obtain ⟨_, _, _, _, -, rfl⟩ := Hop.packet_eq_of_mem hpacket
    exact ⟨_, rfl, rfl⟩
  · rw [modifyInterface_sent]
    unfold NetworkStack.sent
    split_ifs <;> rfl

/-- **A directed broadcast leaves by its own link exactly if that is the primary
one**, and the link has room for a payload. -/
theorem directed_broadcast_leaves_iff (localPort destPort : UInt16) (data : Bytes)
    (hinterface : s.interface? index = some interface)
    (hdirected : isDirectedBroadcast destIp interface.config = true)
    (hunique : ∀ j other, s.interface? j = some other →
      isDirectedBroadcast destIp other.config = true → j = index) :
    LeavesBy s index interface.config localPort destIp destPort data ↔
      index = 0 ∧ 0 < interface.config.maxIpPayload := by
  have hbroadcast := isBroadcastAddress_of_directed hdirected
  have hany := isBroadcastForAnyInterface_of_interface hinterface hbroadcast
  have hroute := routeFor_of_broadcast hany
  constructor
  · rintro ⟨s', hrun, -, hwrites⟩
    cases hhop : s.hopFor destIp with
    | none =>
      -- no neighbour, so the send has thrown
      obtain ⟨fault, -, herror⟩ := run_sendUdpDatagram_of_none hhop (by simp [hroute])
        (Udp.ofData localPort destPort (UInt16.ofNat (8 + data.length)) 0 []) data
      rw [sendTo_of_broadcast hany, run_bind_error herror] at hrun
      cases hrun
    | some hop =>
      obtain ⟨hroute', other, hother, hconfig, -⟩ := NetworkStack.hopFor_eq_some.1 hhop
      obtain ⟨-, hegress⟩ : destIp = hop.nextHop ∧ 0 = hop.egress := by
        simpa using hroute.symm.trans hroute'
      rcases Nat.eq_zero_or_pos hop.config.maxIpPayload with hzero | hpos
      · have herror := run_sendUdpDatagram_of_no_room hhop
          (Udp.ofData localPort destPort (UInt16.ofNat (8 + data.length)) 0 []) data hzero
        rw [sendTo_of_broadcast hany, run_bind_error herror] at hrun
        cases hrun
      · obtain ⟨s'', frames, hrun', hne, -, hframes⟩ :=
          sendTo_broadcast_writes hany hhop hpos localPort destPort data
        obtain rfl : s'' = s' := by
          rw [hrun] at hrun'
          exact (EStateM.Result.ok.inj hrun').2.symm
        have hwritten := (hframes hop.egress).trans (written_append hother frames)
        obtain ⟨w, hw⟩ := List.exists_mem_of_ne_nil _ hne
        obtain ⟨hindex, -⟩ := hwrites.forall_of_append hother hwritten w hw
        rw [hindex, hinterface] at hother
        cases hother
        exact ⟨hindex.symm.trans hegress.symm, hconfig ▸ hpos⟩
  · rintro ⟨rfl, hroom⟩
    obtain rfl : s.primary = interface := Option.some.inj hinterface
    let hop : Hop := ⟨destIp, 0, s.primary.config, MacAddress.broadcast⟩
    have hhop : s.hopFor destIp = some hop :=
      NetworkStack.hopFor_eq_some.2 ⟨hroute, s.primary, rfl, rfl, if_pos hbroadcast⟩
    obtain ⟨s', frames, hrun, hne, hall, hframes⟩ :=
      sendTo_broadcast_writes hany hhop hroom localPort destPort data
    refine ⟨s', hrun, fun hsame => ?_, ?_⟩
    · rw [(hframes 0).trans (written_append hinterface frames), hinterface] at hsame
      exact hne (by simpa using hsame)
    · intro j
      obtain ⟨written, hwritten, hmem⟩ := writes_append s 0 (P := fun j w => j = 0 ∧ w ∈ frames)
        (fun w hw => ⟨rfl, hw⟩) j
      refine ⟨written, (hframes j).trans hwritten, fun w hw => ?_⟩
      obtain ⟨hj, hframe⟩ := hmem w hw
      obtain ⟨packet, rfl, hsrc⟩ := hall w hframe
      exact ⟨hj, rfl, rfl, packet, rfl, hsrc⟩

end Directed

/-- The broadcast of the first of two links leaves there. -/
theorem first_link_broadcast_leaves :
    LeavesBy twoLinks 0 twoLinks.primary.config 4000 ⟨0x0A0000FF⟩ 5000 [0] := by
  refine (directed_broadcast_leaves_iff 4000 5000 [0] rfl (by decide) fun j other hother hdirected =>
    ?_).2 ⟨rfl, by decide⟩
  match j, hother with
  | 0, _ => rfl
  | 1, hother =>
    cases hother
    exact absurd hdirected (by decide)

/-- **The broadcast of the second link throws.** -/
theorem second_link_broadcast_throws :
    isDirectedBroadcast ⟨0x0A0001FF⟩ { mac := ⟨[2, 0, 0, 0, 1, 1], rfl⟩, ip := ⟨0x0A000101⟩ } = true ∧
    (match (sendTo 4000 ⟨0x0A0001FF⟩ 5000 [0]).run twoLinks with
      | .error fault _ => some fault
      | .ok _ _ => none) = some (.baseException "No ARP entry for 10.0.1.255") := by
  decide +kernel

/-! ### Forwarding -/

/-- The question for a neighbour. -/
def Written.AsksFor (ip : IPv4Address) (w : Written) : Prop :=
  ∃ arp, w.frame.nextLayer = .arp arp ∧ arp.operation = Arp.operationRequest ∧
    arp.targetProtocolAddress = ip

/-- What may be written for a packet that stays where it is: it is not passed on,
and nobody is asked for its destination. -/
def Stays (destination : IPv4Address) (_ : ℕ) (w : Written) : Prop :=
  ¬ w.Forwarded ∧ ¬ w.AsksFor destination

/-- A packet that came in by an interface stays on its segment. -/
def StaysOnSegment (s : NetworkStack) (ingress : ℕ) (ip : Ip) (ipBytes : Bytes) : Prop :=
  Writes (Stays ip.destAddress) s (after (handleIp ingress ip ipBytes) s)

/-- An ICMP error to a sender would ask for an address: there is a budget, the address is the
next hop to the sender, and it neither resolves nor has been asked for. -/
def NetworkStack.AsksToErr (s : NetworkStack) (source destination : IPv4Address) : Prop :=
  msPerSecond ≤ s.icmpErrorTokensScaled ∧ ∃ egress interface,
    s.routeFor source = some (destination, egress) ∧ s.interface? egress = some interface ∧
      interface.resolve destination = none ∧ interface.arpRequestsInFlight.lookup destination = none

section Forward

variable {s : NetworkStack} {ingress : ℕ} {inbound : Interface} {ip : Ip} {ipBytes : Bytes}

theorem stays_frame (destination : IPv4Address) (index : ℕ) (hop : Hop) (packet : Ip) :
    Stays destination index (hop.frame packet) := by
  constructor
  · rintro ⟨data, hdata⟩
    cases hdata
  · rintro ⟨arp, harp, -⟩
    cases harp

theorem stays_arpRequestFrame (destination : IPv4Address) (index : ℕ) (config : InterfaceConfig)
    (targetIp : IPv4Address) :
    Stays destination index (arpRequestFrame config targetIp) ↔ targetIp ≠ destination := by
  rw [Stays, and_iff_right (not_forwarded_arpRequestFrame config targetIp)]
  refine not_congr ⟨?_, ?_⟩
  · rintro ⟨arp, harp, -, rfl⟩
    cases harp
    rfl
  · rintro rfl
    exact ⟨_, rfl, rfl, rfl⟩

theorem writes_sendIcmpError_stays {destination : IPv4Address} {type code : UInt8} :
    Writes (Stays destination) s (after (sendIcmpError type code ip) s) ↔
      ¬ s.AsksToErr ip.srcAddress destination := by
  rw [writes_sendIcmpError_iff, NetworkStack.AsksToErr, not_and]
  refine imp_congr_right fun _ => ⟨?_, ?_⟩
  · rintro h ⟨egress, interface, hroute, hinterface, hresolve, hflight⟩
    exact (stays_arpRequestFrame ..).1 (h.request _ _ _ hroute hinterface hresolve hflight) rfl
  · refine fun h => ⟨fun hop _ _ => List.forall_mem_map.2 fun packet _ => stays_frame _ _ hop packet, ?_⟩
    intro nextHop egress interface hroute hinterface hresolve hflight
    rw [stays_arpRequestFrame]
    rintro rfl
    exact h ⟨egress, interface, hroute, hinterface, hresolve, hflight⟩

theorem routeWrites_stays : RouteWrites (Stays ip.destAddress) s ingress ip ipBytes ip.destAddress 0 ↔
      ingress = 0 ∨ ipBytes.length < 20 ∨ s.primary.arpTable.lookup ip.destAddress = none ∧
        s.primary.arpRequestsInFlight.lookup ip.destAddress ≠ none := by
  rw [RouteWrites, ne_comm, ← or_iff_not_imp_left, ← not_lt, ← or_iff_not_imp_left]
  refine or_congr_right (or_congr_right ?_)
  have hprimary : s.interface? 0 = some s.primary := rfl
  simp only [hprimary, Option.some.injEq, forall_eq']
  cases s.primary.arpTable.lookup ip.destAddress with
  | none => simp [stays_arpRequestFrame]
  | some mac => exact iff_of_false (fun h => h.1 ⟨_, rfl⟩) (by simp)

/-- What `_forward_ip` does with a broadcast. -/
theorem writes_forwardIp_stays (hbroadcast : s.isBroadcastForAnyInterface ip.destAddress = true)
    (hchecksum : ip.verifyChecksum = true) :
    Writes (Stays ip.destAddress) s (after (forwardIp ingress ip ipBytes) s) ↔
      if ip.ttl ≤ 1 then ¬ s.AsksToErr ip.srcAddress ip.destAddress
      else ingress = 0 ∨ ipBytes.length < 20 ∨ s.primary.arpTable.lookup ip.destAddress = none ∧
        s.primary.arpRequestsInFlight.lookup ip.destAddress ≠ none := by
  split_ifs with httl
  · rw [after_forwardIp_of_expired hchecksum httl, sendIcmpTimeExceeded, writes_sendIcmpError_stays]
  · rw [writes_forwardIp_of_route hchecksum httl (routeFor_of_broadcast hbroadcast), routeWrites_stays]

end Forward

/-! ### Packets for this host -/

section Local

variable {s : NetworkStack} {destination : IPv4Address} {ip datagram : Ip}

/-- What the connections write. -/
theorem stays_of_path {s' : NetworkStack} (h : Path .reap s s s') : Writes (Stays destination) s s' := by
  refine (h.setting_and_writes id fun _ index w _ horigin => ?_).2
  cases horigin with
  | packet hop _ _ _ _ _ packet => exact stays_frame destination index hop packet
  | arp _ _ _ hasks => exact hasks.elim
  | passedOn _ _ _ _ _ _ hforwards =>
    obtain ⟨_, _, hreceives, -⟩ := hforwards.received
    obtain ⟨_, _, _, _, hstep, -⟩ := hreceives.frame
    cases hstep

theorem stays_handleIcmp (hbroadcast : s.isBroadcastForAnyInterface ip.destAddress = true) (icmp : Icmp) :
    Does (Writes (Stays destination)) (handleIcmp ip icmp) s := by
  unfold handleIcmp
  split_ifs
  · exact does_pure _ s
  · refine does_get_bind ?_
    rw [if_pos hbroadcast]
    exact does_pure _ s
  · exact does_mono (fun _ _ => stays_of_path) (does_handleIcmpError icmp s)
  · exact does_pure _ s

/-- **Of the datagrams to a broadcast only those for a port that nobody has bound** can make
this host ask for anything. -/
theorem stays_dispatchTransport_iff (hbroadcast : s.isBroadcastForAnyInterface ip.destAddress = true) :
    Writes (Stays destination) s (after (dispatchTransport ip) s) ↔
      ¬ (s.Unbound ip ∧ s.AsksToErr ip.srcAddress destination) := by
  by_cases hunbound : s.Unbound ip
  · rw [after_dispatchTransport_of_unbound hunbound, sendIcmpPortUnreachable, writes_sendIcmpError_stays,
      and_iff_right hunbound]
  refine iff_of_true ?_ fun h => hunbound h.1
  change Does (Writes (Stays destination)) (dispatchTransport ip) s
  unfold dispatchTransport
  split
  · split_ifs
    · exact does_mono (fun _ _ => stays_of_path) (does_handleTcp _ _ _ s)
    · exact does_pure _ s
  · next udp hnext =>
    split_ifs with hprotocol
    · unfold handleUdp
      split_ifs with hsum
      · exact does_pure _ s
      refine does_get_bind ?_
      split
      · next hnone =>
        rw [not_and_or, not_not, not_not] at hsum
        exact absurd ⟨udp, hnext, hprotocol, hsum, hnone⟩ hunbound
      · exact does_pure _ s
      · exact does_modify (.of_eq fun _ => rfl)
    · exact does_pure _ s
  · split_ifs
    · exact stays_handleIcmp hbroadcast _
    · exact does_pure _ s
  · exact does_pure _ s

theorem destAddress_of_reassembled {bytes : Bytes} {complete : Ip}
    (h : Ip.fromBytes (ip.reassembled bytes).toBytes = .ok complete) :
    complete.destAddress = ip.destAddress := by
  obtain ⟨-, hheader⟩ := Ip.headerToBytes_of_fromBytes h
  rw [Ip.toBytes, List.take_left' (Ip.length_headerToBytes _)] at hheader
  exact IPv4Address.octets_injective (congrArg (List.drop 16) hheader)

theorem Ip.Completes.destAddress {r : IpReassembler} (h : ip.Completes r datagram) :
    datagram.destAddress = ip.destAddress := by
  unfold Ip.Completes at h
  split_ifs at h
  · obtain ⟨bytes, r', -, hparse⟩ := h
    exact destAddress_of_reassembled hparse
  · rw [h]

/-- What an error asks for does not depend on what the reassembler holds, or on how recently a
neighbour was heard of. -/
theorem asksToErr_refresh (index : ℕ) (source' : IPv4Address) (r : IpReassembler) (source : IPv4Address) :
    ({ s.modifyInterface index (Interface.refresh source') with reassembler := r } :
      NetworkStack).AsksToErr source destination ↔ s.AsksToErr source destination := by
  have htokens : (s.modifyInterface index (Interface.refresh source')).icmpErrorTokensScaled =
      s.icmpErrorTokensScaled := by cases index <;> rfl
  have hresolve (i : Interface) : (i.refresh source').resolve destination = i.resolve destination := by
    simp only [Interface.resolve, Interface.refresh, ArpTable.lookup_refresh]
  rw [NetworkStack.AsksToErr, NetworkStack.AsksToErr, NetworkStack.routeFor_of_links (links_refresh ..)]
  change (_ ≤ (s.modifyInterface index (Interface.refresh source')).icmpErrorTokensScaled ∧
    ∃ egress interface, _ ∧ (s.modifyInterface index (Interface.refresh source')).interface? egress = _ ∧ _) ↔ _
  rw [htokens]
  refine and_congr_right fun _ => exists_congr fun egress => ?_
  rw [NetworkStack.interface?_modifyInterface]
  split_ifs
  · cases s.interface? egress with
    | none => simp
    | some i =>
      simp only [Option.map_some, Option.some.injEq, exists_eq_left', exists_and_left, hresolve]
      rfl
  · rfl

end Local

section Packets

variable {s : NetworkStack} {ingress : ℕ} {inbound : Interface} {ip : Ip} {ipBytes : Bytes}

/-- What is done with a broadcast that is for this host. -/
theorem staysOnSegment_of_takes (hinbound : s.interface? ingress = some inbound)
    (hbroadcast : s.isBroadcastForAnyInterface ip.destAddress = true)
    (htakes : s.Takes inbound.config ip) (hchecksum : ip.verifyChecksum = true) :
    StaysOnSegment s ingress ip ipBytes ↔ ∀ datagram, ip.Completes s.reassembler datagram →
      s.Unbound datagram → ¬ s.AsksToErr datagram.srcAddress ip.destAddress := by
  let refreshed (r : IpReassembler) : NetworkStack :=
    { s.modifyInterface ingress (Interface.refresh ip.srcAddress) with reassembler := r }
  have hsame (r : IpReassembler) (j : ℕ) : ((refreshed r).interface? j).map Interface.written =
      (s.interface? j).map Interface.written :=
    written_modifyInterface (f := Interface.refresh ip.srcAddress) (fun _ => rfl) ingress j
  have hdispatch {datagram : Ip} (hcompletes : ip.Completes s.reassembler datagram) (r : IpReassembler) :
      Writes (Stays ip.destAddress) (refreshed r) (after (dispatchTransport datagram) (refreshed r)) ↔
        ¬ (s.Unbound datagram ∧ s.AsksToErr datagram.srcAddress ip.destAddress) := by
    rw [stays_dispatchTransport_iff, asksToErr_refresh, NetworkStack.Unbound, NetworkStack.Unbound]
    · cases ingress <;> rfl
    · rw [NetworkStack.isBroadcastForAnyInterface_of_links (links_refresh ..), hcompletes.destAddress]
      exact hbroadcast
  obtain ⟨r, ⟨datagram, hcompletes, hafter⟩ | ⟨hnone, hafter⟩⟩ :=
    after_handleIp_of_takes ipBytes hinbound htakes hchecksum
  · have hstays : StaysOnSegment s ingress ip ipBytes ↔
        ¬ (s.Unbound datagram ∧ s.AsksToErr datagram.srcAddress ip.destAddress) := by
      rw [StaysOnSegment, hafter, ← hdispatch hcompletes r]
      exact ⟨(Writes.of_eq fun j => (hsame r j).symm).trans, (Writes.of_eq (hsame r)).trans⟩
    rw [hstays, not_and]
    refine ⟨fun h datagram' hcompletes' => ?_, fun h => h datagram hcompletes⟩
    rw [hcompletes'.unique hcompletes]
    exact h
  · rw [StaysOnSegment, hafter]
    exact iff_of_true (.of_eq (hsame r)) fun datagram hcompletes => absurd hcompletes (hnone datagram)

/-- **A broadcast stays on its segment exactly if** its header is corrupt or nobody is made to
ask for it: if it is for this host, by a Port Unreachable whose next hop it is; if it is left
to forwarding, by a Time Exceeded whose next hop it is, or because it came in by another
interface than the primary one, which has not asked for it in vain already. -/
theorem broadcast_stays_iff (hinbound : s.interface? ingress = some inbound)
    (hbroadcast : s.isBroadcastForAnyInterface ip.destAddress = true) :
    StaysOnSegment s ingress ip ipBytes ↔ (ip.verifyChecksum = true →
      (s.Takes inbound.config ip → ∀ datagram, ip.Completes s.reassembler datagram →
        s.Unbound datagram → ¬ s.AsksToErr datagram.srcAddress ip.destAddress) ∧
      (s.LeavesToForwarding inbound.config ip →
        if ip.ttl ≤ 1 then ¬ s.AsksToErr ip.srcAddress ip.destAddress
        else ingress = 0 ∨ ipBytes.length < 20 ∨ s.primary.arpTable.lookup ip.destAddress = none ∧
          s.primary.arpRequestsInFlight.lookup ip.destAddress ≠ none)) := by
  by_cases htakes : s.Takes inbound.config ip
  · have hstay (h : s.LeavesToForwarding inbound.config ip) : False := h.not_takes htakes
    cases hchecksum : ip.verifyChecksum with
    | true =>
      rw [staysOnSegment_of_takes hinbound hbroadcast htakes hchecksum]
      simp only [htakes, true_imp_iff]
      exact (and_iff_left fun h => (hstay h).elim).symm
    | false =>
      refine iff_of_true ?_ (by simp)
      rw [NetworkStack.Takes] at htakes
      rw [StaysOnSegment, after, handleIp, run_bind_ok (run_interfaceAt hinbound), run_get_bind,
        if_pos htakes, run_modify_bind, hchecksum]
      exact .of_eq (written_modifyInterface (f := Interface.refresh ip.srcAddress) (fun _ => rfl) ingress)
  simp only [htakes, false_imp_iff, true_and]
  by_cases hleaves : s.LeavesToForwarding inbound.config ip
  · rw [StaysOnSegment, after_handleIp_of_forwarding hinbound hleaves, imp_iff_right hleaves]
    cases hchecksum : ip.verifyChecksum with
    | true => rw [writes_forwardIp_stays hbroadcast hchecksum, imp_iff_right rfl]
    | false =>
      rw [after_forwardIp_of_corrupt hchecksum]
      exact iff_of_true (Std.Refl.refl s) (by simp)
  · refine iff_of_true ?_ fun _ h => absurd h hleaves
    -- forwarding is off
    rw [NetworkStack.Takes, Bool.or_eq_true, not_or, Bool.not_eq_true, Bool.not_eq_true] at htakes
    rw [StaysOnSegment, after, handleIp, run_bind_ok (run_interfaceAt hinbound), run_get_bind, htakes.1,
      htakes.2, if_neg (by decide), run_get_bind, if_neg fun henabled => hleaves ⟨henabled, htakes⟩]
    exact Std.Refl.refl s

end Packets

/-- A packet to the directed broadcast of another link, of a protocol that nobody
parses. -/
def strayPacket (src dest : IPv4Address) : Ip :=
  { Ip.build 0 7 0 0 64 99 src dest [1, 2, 3] with nextLayer := some (.raw [1, 2, 3]) }

/-- A broadcast of the second link that comes in by the first one stays there. -/
theorem broadcast_of_second_link_stays :
    StaysOnSegment { twoLinks with forwardingEnabled := true } 0 (strayPacket ⟨0x0A000005⟩ ⟨0x0A0001FF⟩)
      (strayPacket ⟨0x0A000005⟩ ⟨0x0A0001FF⟩).toBytes :=
  (broadcast_stays_iff (show _ = some twoLinks.primary from rfl) (by decide +kernel)).2 fun _ =>
    ⟨fun htakes => absurd htakes (by decide +kernel : ¬ (_ || _) = true),
      fun _ => (if_neg (by decide)).mpr (.inl rfl)⟩

/-- **A broadcast of the first link that comes in by the second one does not.**  The
address is asked for on the first link, and when somebody there claims to have it, the
packet is passed on. -/
theorem broadcast_of_first_link_passed_on :
    (runs Step.run [.setForwarding true, packetIn 1 (strayPacket ⟨0x0A000105⟩ ⟨0x0A0000FF⟩),
      arpIn 0 ⟨[2, 0, 0, 0, 0, 9], rfl⟩ ⟨0x0A0000FF⟩ ⟨0x0A000001⟩,
      packetIn 1 (strayPacket ⟨0x0A000105⟩ ⟨0x0A0000FF⟩)] twoLinks).map (fun s =>
        s.primary.written.map fun w => w.frame.nextLayer) =
      some [.arp (Arp.request ⟨[2, 0, 0, 0, 0, 1], rfl⟩ ⟨0x0A000001⟩ ⟨0x0A0000FF⟩),
        .arp ⟨Arp.operationReply, ⟨[2, 0, 0, 0, 0, 1], rfl⟩, ⟨0x0A000001⟩,
          ⟨[2, 0, 0, 0, 0, 9], rfl⟩, ⟨0x0A0000FF⟩⟩,
        .raw (forwardedBytes 64 (strayPacket ⟨0x0A000105⟩ ⟨0x0A0000FF⟩).toBytes)] := by
  decide +kernel

end TcpIpStack
