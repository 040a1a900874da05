/-
# Forwarding

`_forward_ip` of `src/src/network_stack.cpp`.  A packet that is passed on is the
received one with another time to live and another checksum, and nothing else
(`forwardedBytes_append`).  The interface is the one that the longest matching route
names (`RouteTable.longest_of_best`), and it is not the one the packet came by.

Besides the packet, `_forward_ip` writes an ICMP error or the question for the
next hop, never two of them; `RouteWrites` says what is written for a packet that
has a route.
-/

import TcpIpStack.Stack.Sending
import TcpIpStack.Stack.Steps

namespace TcpIpStack

open Programs StackM Runs

/-! ### The bytes -/

/-- The packet that is passed on: the time to live is one less. -/
def Ip.forwarded (ip : Ip) : Ip := ({ ip with ttl := ip.ttl - 1 } : Ip).computeChecksum

theorem octets_checksum (c : UInt16) :
    (c >>> 8).toUInt8 = UInt8.ofNat (c.toNat / 256) ∧ (c &&& 0xff).toUInt8 = UInt8.ofNat c.toNat := by
  have hlow := Nat.and_two_pow_sub_one_eq_mod c.toNat 8
  simp only [Nat.reducePow, Nat.reduceSub] at hlow
  constructor
  · rw [← UInt8.toNat_inj, UInt16.toNat_toUInt8, UInt16.toNat_shiftRight, UInt8.toNat_ofNat',
      Nat.shiftRight_eq_div_pow]
    rfl
  · rw [← UInt8.toNat_inj, UInt16.toNat_toUInt8, UInt16.toNat_and, UInt8.toNat_ofNat']
    simp only [UInt16.reduceToNat, hlow]
    omega

/-- **What is passed on is the header with the changed fields, and the rest as it
was received.** -/
theorem forwardedBytes_append (ip : Ip) (rest : Bytes) :
    forwardedBytes ip.ttl (ip.headerToBytes ++ rest) = ip.forwarded.headerToBytes ++ rest := by
  have hcleared : (((ip.headerToBytes ++ rest).set 8 (ip.ttl - 1)).set 10 0).set 11 0 =
      ({ ip with ttl := ip.ttl - 1, headerChecksum := 0 } : Ip).headerToBytes ++ rest := by
    simp [Ip.headerToBytes, intToBytes16, BigEndian.bytes, Ip.flagsAndOffset]
  have hheader : (({ ip with ttl := ip.ttl - 1, headerChecksum := 0 } : Ip).headerToBytes ++
      rest).take 20 = ({ ip with ttl := ip.ttl - 1, headerChecksum := 0 } : Ip).headerToBytes := rfl
  unfold forwardedBytes
  dsimp only
  rw [hcleared, hheader]
  generalize hchecksum : internetChecksum
    ({ ip with ttl := ip.ttl - 1, headerChecksum := 0 } : Ip).headerToBytes = c
  have hforwarded : ip.forwarded = { ip with ttl := ip.ttl - 1, headerChecksum := c } := by
    rw [← hchecksum]
    rfl
  obtain ⟨hhi, hlo⟩ := octets_checksum c
  rw [hforwarded, hhi, hlo]
  simp [Ip.headerToBytes, intToBytes16, BigEndian.bytes, Ip.flagsAndOffset]

/-- A packet on its way through. -/
def forwardedFrame (config : InterfaceConfig) (mac : MacAddress) (nextHop : IPv4Address) (bytes : Bytes) :
    Written := ⟨⟨config.mac, mac, Ethernet.etherTypeIPv4, .raw bytes⟩, some nextHop⟩

/-- `_handle_ip` leaves a packet to `_forward_ip`. -/
def NetworkStack.LeavesToForwarding (s : NetworkStack) (config : InterfaceConfig) (ip : Ip) : Prop :=
  s.forwardingEnabled = true ∧ s.isOwnAddress ip.destAddress = false ∧
    isBroadcastAddress ip.destAddress config = false

/-! ### The cases -/

section Cases

variable {s : NetworkStack} {ingress : ℕ} {inbound : Interface} {ip : Ip} {ipBytes : Bytes}

theorem after_handleFrame_of_ip {frame : Bytes} {src dest : MacAddress} {etherType : UInt16}
    (hframe : Ethernet.fromBytes frame = .ok ⟨src, dest, etherType, .ip ip⟩)
    (hinbound : s.interface? ingress = some inbound)
    (haddressed : isAddressedToUs dest inbound.config.mac = true) :
    after (handleFrame ingress frame) s = after (handleIp ingress ip (frame.drop 14)) s := by
  have hparsed : (parsed (Ethernet.fromBytes frame)).run s = .ok ⟨src, dest, etherType, .ip ip⟩ s := by
    rw [hframe]
    rfl
  rw [handleFrame, after_catching, after_bind_ok hparsed, after_bind_ok (run_interfaceAt hinbound),
    haddressed, Bool.not_true, if_neg Bool.false_ne_true]

theorem after_handleFrame_of_not_addressed {frame : Bytes} {ethernet : Ethernet}
    (hframe : Ethernet.fromBytes frame = .ok ethernet) (hinbound : s.interface? ingress = some inbound)
    (haddressed : isAddressedToUs ethernet.dest inbound.config.mac = false) :
    after (handleFrame ingress frame) s = s := by
  have hparsed : (parsed (Ethernet.fromBytes frame)).run s = .ok ethernet s := by
    rw [hframe]
    rfl
  rw [handleFrame, after_catching, after_bind_ok hparsed, after_bind_ok (run_interfaceAt hinbound),
    haddressed, Bool.not_false, if_pos rfl]
  rfl

theorem after_handleIp_of_forwarding (hinbound : s.interface? ingress = some inbound)
    (h : s.LeavesToForwarding inbound.config ip) :
    after (handleIp ingress ip ipBytes) s = after (forwardIp ingress ip ipBytes) s := by
  obtain ⟨henabled, hown, hbroadcast⟩ := h
  rw [after, handleIp, run_bind_ok (run_interfaceAt hinbound), run_get_bind, hown, hbroadcast,
    if_neg (by decide), run_get_bind, if_pos henabled, after]

theorem after_forwardIp_of_corrupt (hchecksum : ip.verifyChecksum = false) :
    after (forwardIp ingress ip ipBytes) s = s := by
  rw [forwardIp, hchecksum]
  rfl

theorem after_forwardIp_of_expired (hchecksum : ip.verifyChecksum = true) (httl : ip.ttl ≤ 1) :
    after (forwardIp ingress ip ipBytes) s = after (sendIcmpTimeExceeded ip) s := by
  rw [forwardIp, hchecksum, Bool.not_true, if_neg Bool.false_ne_true, if_pos httl]

theorem after_forwardIp_of_no_route (hchecksum : ip.verifyChecksum = true) (httl : ¬ ip.ttl ≤ 1)
    (hroute : s.routeFor ip.destAddress = none) :
    after (forwardIp ingress ip ipBytes) s = after (sendIcmpNetUnreachable ip) s := by
  rw [forwardIp, hchecksum, Bool.not_true, if_neg Bool.false_ne_true, if_neg httl, after, run_get_bind,
    hroute]
  rfl

/-- A packet that has a route is passed on, or the neighbour is asked for, unless it
would go back where it came from. -/
theorem after_forwardIp_of_route {nextHop : IPv4Address} {egress : ℕ}
    (hchecksum : ip.verifyChecksum = true) (httl : ¬ ip.ttl ≤ 1)
    (hroute : s.routeFor ip.destAddress = some (nextHop, egress)) : after (forwardIp ingress ip ipBytes) s =
      if egress = ingress ∨ ipBytes.length < 20 then s
      else
        match s.interface? egress with
        | none => s
        | some out =>
          match out.arpTable.lookup nextHop with
          | none => after (ensureArpResolution egress nextHop) s
          | some mac => s.modifyInterface egress (Interface.append
              [forwardedFrame out.config mac nextHop (forwardedBytes ip.ttl ipBytes)]) := by
  rw [forwardIp, hchecksum, Bool.not_true, if_neg Bool.false_ne_true, if_neg httl, after, run_get_bind,
    hroute]
  dsimp only
  by_cases hback : egress = ingress ∨ ipBytes.length < 20
  · rw [if_pos hback, if_pos hback]
    rfl
  rw [if_neg hback, if_neg hback]
  cases hinterface : s.interface? egress with
  | none => rw [run_bind_error (run_interfaceAt_of_none hinterface)]
  | some out =>
    rw [run_bind_ok (run_interfaceAt hinterface)]
    dsimp only
    cases out.arpTable.lookup nextHop with
    | none => rfl
    | some mac => rfl

/-! ### What is written -/

/-- What is written for a packet that has a route: the packet, or the question for
its next hop. -/
def RouteWrites (P : ℕ → Written → Prop) (s : NetworkStack) (ingress : ℕ) (ip : Ip) (ipBytes : Bytes)
    (nextHop : IPv4Address) (egress : ℕ) : Prop :=
  egress ≠ ingress → 20 ≤ ipBytes.length → ∀ out, s.interface? egress = some out →
    match out.arpTable.lookup nextHop with
    | none => out.arpRequestsInFlight.lookup nextHop = none →
        P egress (arpRequestFrame out.config nextHop)
    | some mac => P egress (forwardedFrame out.config mac nextHop (forwardedBytes ip.ttl ipBytes))

theorem writes_forwardIp_of_route {P : ℕ → Written → Prop} {nextHop : IPv4Address} {egress : ℕ}
    (hchecksum : ip.verifyChecksum = true) (httl : ¬ ip.ttl ≤ 1)
    (hroute : s.routeFor ip.destAddress = some (nextHop, egress)) :
    Writes P s (after (forwardIp ingress ip ipBytes) s) ↔
      RouteWrites P s ingress ip ipBytes nextHop egress := by
  rw [after_forwardIp_of_route hchecksum httl hroute]
  by_cases hback : egress = ingress ∨ ipBytes.length < 20
  · rw [if_pos hback]
    exact iff_of_true (Std.Refl.refl s) fun hegress hlength =>
      absurd hback (not_or.2 ⟨hegress, not_lt.2 hlength⟩)
  rw [if_neg hback]
  obtain ⟨hegress, hlength⟩ := not_or.1 hback
  rw [RouteWrites, imp_iff_right hegress, imp_iff_right (not_lt.1 hlength)]
  cases hinterface : s.interface? egress with
  | none => exact iff_of_true (Std.Refl.refl s) nofun
  | some out =>
    simp only [Option.some.injEq, forall_eq']
    cases out.arpTable.lookup nextHop with
    | none => exact writes_ensureArpResolution_iff hinterface nextHop
    | some mac =>
      rw [writes_iff hinterface (fun _ => rfl)]
      exact List.forall_mem_singleton

end Cases

/-! ### Transparency -/

/-- A packet on its way through: no other frame carries raw bytes. -/
def Written.Forwarded (w : Written) : Prop := ∃ data, w.frame.nextLayer = .raw data

/-- Between two states a packet was passed on. -/
def PassedOn (s s' : NetworkStack) : Prop :=
  ∃ index interface frames, s.interface? index = some interface ∧
    (s'.interface? index).map Interface.written = some (interface.written ++ frames) ∧
      ∃ w ∈ frames, w.Forwarded

/-- What may become of the bytes of a packet on its way: the time to live is one
less, and the checksum is right again. -/
structure Transparent (received sent : Bytes) : Prop where
  length : sent.length = received.length
  unchanged : ∀ j, j ≠ 8 → j ≠ 10 → j ≠ 11 → sent[j]? = received[j]?
  ttl : ∃ before after : UInt8, received[8]? = some before ∧ sent[8]? = some after ∧
    after.toNat + 1 = before.toNat ∧ 1 ≤ after.toNat
  checksum : internetChecksum (sent.take 20) = 0

/-- The address to resolve for a destination. -/
def Route.hopTo (route : Route) (destination : IPv4Address) : IPv4Address :=
  if route.nextHop = {} then destination else route.nextHop

section Transparency

variable {s : NetworkStack} {ingress : ℕ} {ip : Ip} {ipBytes : Bytes}

theorem not_forwarded_of_mem_frames {hop : Hop} {identification : UInt16} {destIp : IPv4Address}
    {protocol : UInt8} {payload : Bytes} {dontFragment : Bool} {w : Written}
    (h : w ∈ hop.frames identification destIp protocol payload dontFragment) : ¬ w.Forwarded := by
  obtain ⟨packet, -, rfl⟩ := List.mem_map.1 h
  rintro ⟨data, hdata⟩
  cases hdata

theorem not_forwarded_arpRequestFrame (config : InterfaceConfig) (targetIp : IPv4Address) :
    ¬ (arpRequestFrame config targetIp).Forwarded := by
  rintro ⟨data, hdata⟩
  cases hdata

theorem writes_sendIcmpError_not_forwarded (type code : UInt8) (ip : Ip) :
    Writes (fun _ w => ¬ w.Forwarded) s (after (sendIcmpError type code ip) s) := by
  rw [writes_sendIcmpError_iff]
  exact fun _ => ⟨fun _ _ _ w hw => not_forwarded_of_mem_frames hw,
    fun _ _ _ _ _ _ _ => not_forwarded_arpRequestFrame _ _⟩

theorem not_passedOn_of_writes {s' : NetworkStack} (h : Writes (fun _ w => ¬ w.Forwarded) s s') :
    ¬ PassedOn s s' := by
  rintro ⟨index, interface, frames, hinterface, hframes, w, hw, hforwarded⟩
  exact h.forall_of_append hinterface hframes w hw hforwarded

/-- Bytes that are passed on are those that were received, but for the time to live
and the checksum. -/
theorem transparent_forwardedBytes (hparsed : Ip.fromBytes ipBytes = .ok ip) (httl : ¬ ip.ttl ≤ 1) :
    Transparent ipBytes (forwardedBytes ip.ttl ipBytes) := by
  obtain ⟨hlength, hheader⟩ := Ip.headerToBytes_of_fromBytes hparsed
  have hsplit : ipBytes = ip.headerToBytes ++ ipBytes.drop 20 := by
    rw [hheader, List.take_append_drop]
  have hbytes := forwardedBytes_append ip (ipBytes.drop 20)
  rw [← hsplit] at hbytes
  have httl' : 1 < ip.ttl.toNat := UInt8.lt_iff_toNat_lt.1 (UInt8.not_le.1 httl)
  have hminus : (ip.ttl - 1).toNat = ip.ttl.toNat - 1 :=
    UInt8.toNat_sub_of_le _ _ (UInt8.le_iff_toNat_le.2 httl'.le)
  refine ⟨by simp [forwardedBytes], fun j h₈ h₁₀ h₁₁ => ?_, ⟨ip.ttl, ip.ttl - 1, ?_, ?_, ?_, ?_⟩, ?_⟩
  · simp [forwardedBytes, List.getElem?_set_ne, h₈.symm, h₁₀.symm, h₁₁.symm]
  · rw [hsplit]
    rfl
  · rw [hbytes]
    rfl
  · rw [hminus]
    omega
  · rw [hminus]
    omega
  · rw [hbytes, List.take_left' (Ip.length_headerToBytes _)]
    exact of_decide_eq_true (Ip.verifyChecksum_computeChecksum { ip with ttl := ip.ttl - 1 })

/-- A destination that is no broadcast is reached by its longest route, or there is
only one interface. -/
theorem longest_of_routeFor {destination nextHop : IPv4Address} {egress : ℕ}
    (hbroadcast : s.isBroadcastForAnyInterface destination = false)
    (hroute : s.routeFor destination = some (nextHop, egress)) :
    (∃ route, RouteTable.Longest destination s.routes.routes route ∧
      nextHop = route.hopTo destination ∧ egress = route.interfaceIndex) ∨
      s.others = [] ∧ egress = 0 := by
  rw [NetworkStack.routeFor, hbroadcast, if_neg Bool.false_ne_true] at hroute
  cases hbest : s.routes.best destination with
  | none =>
    rw [RouteTable.lookup, hbest, Option.map_none] at hroute
    dsimp only at hroute
    split_ifs at hroute with hothers
    cases hroute
    exact .inr ⟨hothers, rfl⟩
  | some route =>
    rw [RouteTable.lookup, hbest, Option.map_some] at hroute
    cases hroute
    exact .inl ⟨route, RouteTable.longest_of_best.2 route hbest, rfl, rfl⟩

/-- **Forwarding is transparent.**  A packet without options that is passed on has an
intact header and time to live; it is written once, on the interface of the longest
matching route, which is not the one it came by, to the neighbour the route names. -/
theorem forwarding_transparent {inbound : Interface} (hinbound : s.interface? ingress = some inbound)
    (hparsed : Ip.fromBytes ipBytes = .ok ip) (hihl : ip.ihl = 5)
    (hbroadcast : s.isBroadcastForAnyInterface ip.destAddress = false)
    (hpassed : PassedOn s (after (forwardIp ingress ip ipBytes) s)) :
    internetChecksum (ipBytes.take (4 * ip.ihl.toNat)) = 0 ∧ 1 < ip.ttl ∧
      ∃ route out mac bytes, RouteTable.Longest ip.destAddress s.routes.routes route ∧
        route.interfaceIndex ≠ ingress ∧ s.interface? route.interfaceIndex = some out ∧
        out.arpTable.lookup (route.hopTo ip.destAddress) = some mac ∧
        Transparent ipBytes bytes ∧
        after (forwardIp ingress ip ipBytes) s = s.modifyInterface route.interfaceIndex
          (Interface.append [forwardedFrame out.config mac (route.hopTo ip.destAddress) bytes]) := by
  have hsame : ¬ PassedOn s s := not_passedOn_of_writes (Std.Refl.refl s)
  cases hchecksum : ip.verifyChecksum with
  | false =>
    rw [after_forwardIp_of_corrupt hchecksum] at hpassed
    exact absurd hpassed hsame
  | true =>
    by_cases httl : ip.ttl ≤ 1
    · rw [after_forwardIp_of_expired hchecksum httl] at hpassed
      exact absurd hpassed (not_passedOn_of_writes (writes_sendIcmpError_not_forwarded _ _ ip))
    cases hroute : s.routeFor ip.destAddress with
    | none =>
      rw [after_forwardIp_of_no_route hchecksum httl hroute] at hpassed
      exact absurd hpassed (not_passedOn_of_writes (writes_sendIcmpError_not_forwarded _ _ ip))
    | some next =>
      obtain ⟨nextHop, egress⟩ := next
      rw [after_forwardIp_of_route hchecksum httl hroute] at hpassed ⊢
      by_cases hback : egress = ingress ∨ ipBytes.length < 20
      · rw [if_pos hback] at hpassed
        exact absurd hpassed hsame
      rw [if_neg hback] at hpassed ⊢
      cases hinterface : s.interface? egress with
      | none =>
        rw [hinterface] at hpassed
        exact absurd hpassed hsame
      | some out =>
        rw [hinterface] at hpassed
        dsimp only at hpassed ⊢
        cases hlookup : out.arpTable.lookup nextHop with
        | none =>
          rw [hlookup] at hpassed
          exact absurd hpassed (not_passedOn_of_writes ((writes_ensureArpResolution_iff hinterface _).2
            fun _ => not_forwarded_arpRequestFrame _ _))
        | some mac =>
          have hheader := (Ip.headerToBytes_of_fromBytes hparsed).2
          refine ⟨?_, UInt8.not_le.1 httl, ?_⟩
          · rw [hihl]
            exact hheader ▸ of_decide_eq_true hchecksum
          · rcases longest_of_routeFor hbroadcast hroute with ⟨route, hlongest, rfl, rfl⟩ | ⟨hothers, rfl⟩
            · exact ⟨route, out, mac, _, hlongest, (not_or.1 hback).1, hinterface, hlookup,
                transparent_forwardedBytes hparsed httl, rfl⟩
            · -- the only interface is the one the packet came by
              cases ingress with
              | zero => exact absurd (.inl rfl) hback
              | succ i => simp [NetworkStack.interface?, NetworkStack.interfaces, hothers] at hinbound

end Transparency

/-- A host on two links, 10.0.0.1/24 and 10.0.1.1/24. -/
def twoLinks : NetworkStack :=
  (NetworkStack.new { mac := ⟨[2, 0, 0, 0, 0, 1], rfl⟩, ip := ⟨0x0A000001⟩ } fun _ => 100).addInterface
    { mac := ⟨[2, 0, 0, 0, 1, 1], rfl⟩, ip := ⟨0x0A000101⟩ }

/-- A packet comes in by an interface. -/
def packetIn (ingress : ℕ) (ip : Ip) : Step :=
  .frame ingress (Ethernet.toBytes
    ⟨MacAddress.zero, MacAddress.broadcast, Ethernet.etherTypeIPv4, .ip ip⟩)

/-- A neighbour on an interface asks for an address. -/
def arpIn (ingress : ℕ) (mac : MacAddress) (senderIp targetIp : IPv4Address) : Step :=
  .frame ingress (Ethernet.toBytes
    ⟨mac, MacAddress.broadcast, Ethernet.etherTypeArp, .arp (Arp.request mac senderIp targetIp)⟩)

/-- The host knows 10.0.0.5 on its first link. -/
def knowsFirst : NetworkStack :=
  twoLinks.modifyInterface 0 (Interface.learn ⟨0x0A000005⟩ ⟨[2, 0, 0, 0, 0, 5], rfl⟩)

/-- The host knows 10.0.1.5 on its second link. -/
def knowsSecond : NetworkStack :=
  twoLinks.modifyInterface 1 (Interface.learn ⟨0x0A000105⟩ ⟨[2, 0, 0, 0, 1, 5], rfl⟩)

/-- A packet from 10.0.0.5 to 10.0.1.5, of a protocol that nobody parses. -/
def transitPacket : Ip :=
  { Ip.build 0 7 0 0 64 99 ⟨0x0A000005⟩ ⟨0x0A000105⟩ [1, 2, 3] with nextLayer := some (.raw [1, 2, 3]) }

/-- It is passed on to the second link. -/
theorem transit_packet_transparent :
    ∃ (route : Route) (out : InterfaceConfig) (mac : MacAddress) (bytes : Bytes),
      route.interfaceIndex ≠ 0 ∧ Transparent transitPacket.toBytes bytes ∧
      after (forwardIp 0 transitPacket transitPacket.toBytes) knowsSecond =
        knowsSecond.modifyInterface route.interfaceIndex (Interface.append
          [forwardedFrame out mac (route.hopTo ⟨0x0A000105⟩) bytes]) := by
  have hpassed : PassedOn knowsSecond
      (after (forwardIp 0 transitPacket transitPacket.toBytes) knowsSecond) :=
    ⟨1, _, [forwardedFrame { mac := ⟨[2, 0, 0, 0, 1, 1], rfl⟩, ip := ⟨0x0A000101⟩ }
      ⟨[2, 0, 0, 0, 1, 5], rfl⟩ ⟨0x0A000105⟩ (forwardedBytes 64 transitPacket.toBytes)], rfl,
      by decide +kernel, _, List.mem_singleton_self _, _, rfl⟩
  obtain ⟨-, -, route, out, mac, bytes, -, hingress, -, -, hbytes, hafter⟩ :=
    forwarding_transparent (s := knowsSecond) rfl (by decide +kernel) rfl
      (by decide +kernel) hpassed
  exact ⟨route, out.config, mac, bytes, hingress, hbytes, hafter⟩

end TcpIpStack
