/-
# What is sent verifies at the receiver

`_source_address_for` is asked before the checksum of a segment is computed, and
`_send_ip_packet` asks for the route once more.  The two agree (`Stack/Sending`),
so the address in the pseudo-header is the one in the IP header, and what a receiver
computes over it is zero (`sent_packets_verify`).

The packets of a datagram are its pieces, each with the place it starts at
(`Ip.piece`): one piece if the datagram fits, and otherwise the fragments.
-/

import TcpIpStack.Stack.Sending

namespace TcpIpStack

open Programs StackM Tiling

/-! ### Checksums over what is sent -/

section Transport

variable (src dest : IPv4Address) (protocol : UInt8) {front rest : Bytes}

theorem transportChecksum_eq (v : UInt16) :
    transportChecksum src dest protocol (front ++ (intToBytes16 v ++ rest)) =
      internetChecksum ((src.octets ++ (dest.octets ++ ([0, protocol] ++
        (intToBytes16 (UInt16.ofNat (front.length + (2 + rest.length))) ++ front)))) ++
          (intToBytes16 v ++ rest)) := by
  simp [transportChecksum]

/-- **Bytes that hold their own checksum verify.** -/
theorem transportChecksum_self (heven : front.length % 2 = 0)
    (hlength : front.length + rest.length < 2 ^ 16 - 12) :
    transportChecksum src dest protocol (front ++ (intToBytes16
      (transportChecksum src dest protocol (front ++ (intToBytes16 0 ++ rest))) ++ rest)) = 0 := by
  rw [transportChecksum_eq, transportChecksum_eq]
  refine internetChecksum_self _ _ ?_ ?_
  all_goals
    simp
    omega

theorem transportChecksum_ones (heven : front.length % 2 = 0)
    (hlength : front.length + rest.length < 2 ^ 16 - 12)
    (h : transportChecksum src dest protocol (front ++ (intToBytes16 0 ++ rest)) = 0) :
    transportChecksum src dest protocol (front ++ (intToBytes16 0xFFFF ++ rest)) = 0 := by
  rw [transportChecksum_eq] at h ⊢
  refine internetChecksum_ones ?_ ?_ h
  all_goals
    simp
    omega

end Transport

theorem Tcp.exists_toBytes (t : Tcp) : ∃ front rest, front.length = 16 ∧
    ∀ c, ({ t with checksum := c } : Tcp).toBytes = front ++ (intToBytes16 c ++ rest) := by
  refine ⟨intToBytes16 t.srcPort ++ (intToBytes16 t.destPort ++ (intToBytes32 t.sequenceNumber ++
    (intToBytes32 t.acknowledgementNumber ++ (t.wireDataOffset <<< 4) :: t.flagsToByte ::
      intToBytes16 t.window))), intToBytes16 t.urgentPtr ++ (t.optionsToBytes ++ t.payload), ?_, ?_⟩
  · simp
  · intro c
    simp only [List.append_assoc, List.cons_append]
    rfl

theorem transportChecksum_wireBytes_tcp (src dest : IPv4Address) (header : Tcp) (payload : Bytes)
    (hlength : (header.wireBytes src dest payload).length < 2 ^ 16 - 10) :
    transportChecksum src dest Ip.protocolTcp (header.wireBytes src dest payload) = 0 := by
  obtain ⟨front, rest, hfront, hbytes⟩ := (header.rebuilt payload).exists_toBytes
  have hzero : (header.rebuilt payload).toBytes = front ++ (intToBytes16 0 ++ rest) := hbytes 0
  rw [Tcp.wireBytes, hbytes] at hlength ⊢
  simp only [List.length_append, length_intToBytes16] at hlength
  rw [hzero]
  exact transportChecksum_self src dest _ (by omega) (by omega)

theorem Udp.exists_toBytes (u : Udp) : ∃ front rest, front.length = 6 ∧ rest.length = u.payload.length ∧
    ∀ c, ({ u with checksum := c } : Udp).toBytes = front ++ (intToBytes16 c ++ rest) := by
  refine ⟨intToBytes16 u.srcPort ++ (intToBytes16 u.destPort ++ intToBytes16 u.length), u.payload, ?_,
    rfl, ?_⟩
  · simp
  · intro c
    simp only [List.append_assoc]
    rfl

/-- A datagram that is sent verifies, and says that it has a checksum. -/
theorem transportChecksum_wireBytes_udp (src dest : IPv4Address) (header : Udp) (payload : Bytes)
    (hlength : payload.length ≤ 65507) :
    transportChecksum src dest Ip.protocolUdp (header.wireBytes src dest payload) = 0 ∧
      sliceInt16 (header.wireBytes src dest payload) 6 ≠ .ok 0 := by
  obtain ⟨front, rest, hfront, hrest, hbytes⟩ :=
    (Udp.ofData header.srcPort header.destPort header.length 0 payload).exists_toBytes
  rw [Udp.payload_ofData] at hrest
  have hzero : (Udp.ofData header.srcPort header.destPort header.length 0 payload).toBytes =
    front ++ (intToBytes16 0 ++ rest) := hbytes 0
  have hfield (c : UInt16) : sliceInt16 ({ Udp.ofData header.srcPort header.destPort header.length 0
      payload with checksum := c } : Udp).toBytes 6 = .ok c := by
    simp [Udp.toBytes, sliceInt16]
  have hself : transportChecksum src dest Ip.protocolUdp (front ++ (intToBytes16 (transportChecksum src
      dest Ip.protocolUdp (front ++ (intToBytes16 0 ++ rest))) ++ rest)) = 0 :=
    transportChecksum_self src dest Ip.protocolUdp (by omega) (by omega)
  rw [Udp.wireBytes, hfield, hbytes, hzero]
  by_cases h : transportChecksum src dest Ip.protocolUdp (front ++ (intToBytes16 0 ++ rest)) = 0
  · rw [if_pos h]
    exact ⟨transportChecksum_ones src dest _ (by omega) (by omega) h, by decide⟩
  · rw [if_neg h]
    exact ⟨hself, fun heq => h (Except.ok.inj heq)⟩

theorem internetChecksum_wireBytes_icmp (header : Icmp) (payload : Bytes) (hlength : payload.length ≤ 65507) :
    internetChecksum (header.wireBytes payload) = 0 := by
  have hself := internetChecksum_self [header.type, header.code]
    (intToBytes32 header.restOfHeader ++ payload) (by simp) (by simp; omega)
  have hbytes (c : UInt16) : ({ Icmp.ofData header.type header.code 0 header.restOfHeader payload with
      checksum := c } : Icmp).toBytes = [header.type, header.code] ++
        (intToBytes16 c ++ (intToBytes32 header.restOfHeader ++ payload)) := by
    have hpayload := Icmp.payload_ofData header.type header.code 0 header.restOfHeader payload
    rw [Icmp.toBytes]
    exact congrArg (fun data => [header.type, header.code] ++
      (intToBytes16 c ++ (intToBytes32 header.restOfHeader ++ data))) hpayload
  rw [Icmp.wireBytes, Icmp.computeChecksum, hbytes, hbytes]
  exact hself

/-! ### The pieces of a datagram -/

/-- What a packet carries, and where it belongs in the datagram. -/
def Ip.piece (ip : Ip) : ℕ × Bytes := (8 * ip.fragmentOffset.toNat, ip.payload)

/-- Packets carry the bytes of a datagram between two addresses: every header
verifies, the pieces follow each other, and all but the last say that there is more
to come. -/
structure Carries (src dest : IPv4Address) (protocol : UInt8) (bytes : Bytes) (packets : List Ip) :
    Prop where
  header : ∀ ip ∈ packets, ip.verifyChecksum = true ∧ ip.srcAddress = src ∧ ip.destAddress = dest ∧
    ip.protocol = protocol
  contiguous : Contiguous 0 (packets.map Ip.piece)
  join : join (packets.map Ip.piece) = bytes
  more : ∀ ip ∈ packets, ip.getIpFlagM = decide (ip.piece.1 + ip.payload.length < bytes.length)

section Packets

variable {hop : Hop} {identification : UInt16} {destIp : IPv4Address} {protocol : UInt8} {payload : Bytes}

theorem verifyChecksum_ipPacket (src dest : IPv4Address) (protocol : UInt8) (identification : UInt16)
    (flags : UInt8) (fragmentOffset : UInt16) (payload : Bytes) :
    (ipPacket src dest protocol identification flags fragmentOffset payload).verifyChecksum = true :=
  Ip.verifyChecksum_computeChecksum _

theorem carries_of_fits (hfits : payload.length ≤ hop.config.maxIpPayload) (dontFragment : Bool) :
    Carries hop.config.ip destIp protocol payload
      (hop.packets identification destIp protocol payload dontFragment) := by
  rw [Hop.packets_of_fits hfits]
  refine ⟨?_, ?_, ?_, ?_⟩
  · exact List.forall_mem_singleton.2 ⟨verifyChecksum_ipPacket .., rfl, rfl, rfl⟩
  · simp [Contiguous, Ip.piece, ipPacket, Ip.build, Ip.computeChecksum]
  · exact List.append_nil _
  · refine List.forall_mem_singleton.2 ?_
    rw [decide_eq_false (by simp [Ip.piece, ipPacket, Ip.build, Ip.computeChecksum, Ip.payload, IpLayer.toBytes])]
    cases dontFragment with
    | false =>
      change ((0 : UInt8) &&& 0xE0 &&& Ip.flagMoreFragments != 0) = false
      decide
    | true =>
      change (Ip.flagDontFragment &&& 0xE0 &&& Ip.flagMoreFragments != 0) = false
      decide

theorem piece_fragmentPacket (src dest : IPv4Address) (total : ℕ) {tile : ℕ × Bytes}
    (haligned : 8 ∣ tile.1) (hlt : tile.1 < 2 ^ 16) :
    (fragmentPacket src dest protocol identification total tile).piece = tile := by
  refine Prod.ext ?_ rfl
  change 8 * (UInt16.ofNat (tile.1 / 8)).toNat = tile.1
  rw [UInt16.toNat_ofNat', Nat.mod_eq_of_lt (by omega)]
  omega

theorem carries_of_fragments (hmtu : 28 ≤ hop.config.mtu.toNat) (hlength : payload.length ≤ 65515)
    (hfits : ¬ payload.length ≤ hop.config.maxIpPayload) : Carries hop.config.ip destIp protocol payload
      (hop.packets identification destIp protocol payload false) := by
  have hmax := hop.config.maxIpPayload_of_le (by omega)
  have hroom : 0 < hop.config.maxIpPayload := by omega
  have haligned : 8 ∣ hop.config.maxIpPayload := by
    rw [hmax]
    exact Nat.dvd_mul_left 8 _
  have hpiece (t : ℕ × Bytes) (ht : t ∈ cut hop.config.maxIpPayload payload) :
      (fragmentPacket hop.config.ip destIp protocol identification payload.length t).piece = t := by
    obtain ⟨hlt, -, hdvd⟩ := mem_cut ht
    exact piece_fragmentPacket _ _ _ (haligned.trans hdvd) (by omega)
  have hpieces : (hop.packets identification destIp protocol payload false).map Ip.piece =
      cut hop.config.maxIpPayload payload := by
    rw [Hop.packets_of_fragments hfits hroom, List.map_map]
    exact (List.map_congr_left hpiece).trans (List.map_id _)
  refine ⟨?_, ?_, ?_, ?_⟩
  · rw [Hop.packets_of_fragments hfits hroom]
    intro ip hip
    obtain ⟨t, -, rfl⟩ := List.mem_map.1 hip
    exact ⟨verifyChecksum_ipPacket .., rfl, rfl, rfl⟩
  · rw [hpieces]
    exact contiguous_cut hroom
  · rw [hpieces, join_cut hroom]
  · rw [Hop.packets_of_fragments hfits hroom]
    intro ip hip
    obtain ⟨t, ht, rfl⟩ := List.mem_map.1 hip
    rw [getIpFlagM_fragmentPacket, hpiece t ht]
    rfl

end Packets

/-! ### Sends -/

/-- All that was written between two states is one datagram to a destination that is
valid at the receiver, or no IP packet at all. -/
def SendsValid (s s' : NetworkStack) (destIp : IPv4Address) (protocol : UInt8)
    (valid : IPv4Address → Bytes → Prop) : Prop :=
  ∃ egress frames, (∀ j, (s'.interface? j).map Interface.written =
      ((s.modifyInterface egress (Interface.append frames)).interface? j).map Interface.written) ∧
    ((∀ w ∈ frames, ∃ arp, w.frame.nextLayer = .arp arp) ∨
      ∃ packets src bytes, frames.map (fun w => w.frame.nextLayer) = packets.map .ip ∧
        Carries src destIp protocol bytes packets ∧ valid src bytes)

section Sends

variable {s : NetworkStack} {destIp : IPv4Address} {hop : Hop} {protocol : UInt8}
  {valid : IPv4Address → Bytes → Prop}

theorem sendsValid_of_eq {s' : NetworkStack} (h : ∀ j, (s'.interface? j).map Interface.written =
    (s.interface? j).map Interface.written) : SendsValid s s' destIp protocol valid := by
  refine ⟨0, [], fun j => ?_, .inl (by simp)⟩
  rw [Interface.append_nil, NetworkStack.modifyInterface_id]
  exact h j

theorem sendsValid_of_carries {s' : NetworkStack} {identification : UInt16} {payload : Bytes}
    {dontFragment : Bool}
    (h : ∀ j, (s'.interface? j).map Interface.written = ((s.modifyInterface hop.egress (Interface.append
      (hop.frames identification destIp protocol payload dontFragment))).interface? j).map Interface.written)
    (hcarries : Carries hop.config.ip destIp protocol payload
      (hop.packets identification destIp protocol payload dontFragment))
    (hvalid : valid hop.config.ip payload) : SendsValid s s' destIp protocol valid := by
  refine ⟨hop.egress, _, h, .inr ⟨_, hop.config.ip, payload, ?_, hcarries, hvalid⟩⟩
  rw [Hop.frames, List.map_map]
  rfl

theorem carries_packets (hmtu : 28 ≤ hop.config.mtu.toNat) {payload : Bytes} (hlength : payload.length ≤ 65515)
    (identification : UInt16) : Carries hop.config.ip destIp protocol payload
      (hop.packets identification destIp protocol payload false) := by
  by_cases hfits : payload.length ≤ hop.config.maxIpPayload
  · exact carries_of_fits hfits false
  · exact carries_of_fragments hmtu hlength hfits

theorem mtu_of_hopFor
    (hmtu : ∀ index interface, s.interface? index = some interface → 28 ≤ interface.config.mtu.toNat)
    (hhop : s.hopFor destIp = some hop) : 28 ≤ hop.config.mtu.toNat := by
  obtain ⟨-, interface, hinterface, hconfig, -⟩ := NetworkStack.hopFor_eq_some.1 hhop
  exact hconfig ▸ hmtu _ _ hinterface

theorem sendTcpSegment_valid
    (hmtu : ∀ index interface, s.interface? index = some interface → 28 ≤ interface.config.mtu.toNat)
    (header : Tcp) (payload : Bytes) :
    SendsValid s (after (sendTcpSegment destIp header payload) s) destIp Ip.protocolTcp
      fun src bytes => transportChecksum src destIp Ip.protocolTcp bytes = 0 := by
  cases hhop : s.hopFor destIp with
  | none =>
    rw [after_sendTcpSegment_of_none hhop]
    exact sendsValid_of_eq fun _ => rfl
  | some hop =>
    have hmtu' := mtu_of_hopFor hmtu hhop
    have hmax := hop.config.maxIpPayload_of_le (by omega)
    have hlt := hop.config.mtu.toNat_lt
    rw [after_ok (run_sendTcpSegment hhop header payload)]
    by_cases hfits : (header.wireBytes hop.config.ip destIp payload).length ≤ hop.config.maxIpPayload
    · exact sendsValid_of_carries (written_sent _ _ _ _ _ _) (carries_of_fits hfits true)
        (transportChecksum_wireBytes_tcp _ _ _ _ (by omega))
    · -- a segment that does not fit is dropped
      refine sendsValid_of_eq fun j => (written_sent _ _ _ _ _ _ j).trans ?_
      rw [Hop.frames, Hop.packets_of_dontFragment hfits, List.map_nil, Interface.append_nil,
        NetworkStack.modifyInterface_id]

theorem sendUdpDatagram_valid
    (hmtu : ∀ index interface, s.interface? index = some interface → 28 ≤ interface.config.mtu.toNat)
    (header : Udp) (payload : Bytes) (hlength : payload.length ≤ 65507) :
    SendsValid s (after (sendUdpDatagram destIp header payload) s) destIp Ip.protocolUdp
      fun src bytes => transportChecksum src destIp Ip.protocolUdp bytes = 0 ∧
        sliceInt16 bytes 6 ≠ .ok 0 := by
  cases hhop : s.hopFor destIp with
  | none =>
    rw [after_sendUdpDatagram_of_none hhop]
    exact sendsValid_of_eq fun _ => rfl
  | some hop =>
    have hmtu' := mtu_of_hopFor hmtu hhop
    have hmax := hop.config.maxIpPayload_of_le (by omega)
    have hwire := length_wireBytes_udp hop.config.ip destIp header payload
    rw [after_ok (run_sendUdpDatagram hhop header payload (by omega))]
    exact sendsValid_of_carries (written_sent _ _ _ _ _ _) (carries_packets hmtu' (by omega) _)
      (transportChecksum_wireBytes_udp _ _ _ _ hlength)

theorem sendIcmpMessage_valid
    (hmtu : ∀ index interface, s.interface? index = some interface → 28 ≤ interface.config.mtu.toNat)
    (header : Icmp) (payload : Bytes) (hlength : payload.length ≤ 65507) :
    SendsValid s (after (sendIcmpMessage destIp header payload) s) destIp Ip.protocolIcmp
      fun _ bytes => internetChecksum bytes = 0 := by
  cases hhop : s.hopFor destIp with
  | none =>
    obtain ⟨-, hafter⟩ | ⟨nextHop, egress, interface, -, hinterface, -, hafter⟩ :=
      after_sendIcmpMessage_of_none hhop header payload
    · rw [hafter]
      exact sendsValid_of_eq fun _ => rfl
    · have hrun := run_ensureArpResolution hinterface nextHop
      rw [hafter]
      by_cases hflight : (interface.arpRequestsInFlight.lookup nextHop).isSome = true
      · rw [if_pos hflight] at hrun
        rw [after_ok hrun]
        exact sendsValid_of_eq fun _ => rfl
      · rw [if_neg hflight] at hrun
        rw [after_ok hrun]
        exact ⟨egress, [arpRequestFrame interface.config nextHop],
          written_modifyInterface (f := Interface.setArpRequest nextHop _) (fun _ => rfl) egress,
          .inl (List.forall_mem_singleton.2 ⟨_, rfl⟩)⟩
  | some hop =>
    have hmtu' := mtu_of_hopFor hmtu hhop
    have hmax := hop.config.maxIpPayload_of_le (by omega)
    have hwire := length_wireBytes_icmp header payload
    rw [after_ok (run_sendIcmpMessage hhop header payload (by omega))]
    exact sendsValid_of_carries (written_sent _ _ _ _ _ _) (carries_packets hmtu' (by omega) _)
      (internetChecksum_wireBytes_icmp _ _ hlength)

/-- **What is sent verifies at the receiver.**  The header of every packet does, and
so do the bytes that the packets of a segment, datagram or message carry between
them, with the addresses of the IP header in the pseudo-header. -/
theorem sent_packets_verify
    (hmtu : ∀ index interface, s.interface? index = some interface → 28 ≤ interface.config.mtu.toNat)
    (destIp : IPv4Address) :
    (∀ header payload, SendsValid s (after (sendTcpSegment destIp header payload) s) destIp Ip.protocolTcp
      fun src bytes => transportChecksum src destIp Ip.protocolTcp bytes = 0) ∧
    (∀ header payload, payload.length ≤ 65507 →
      SendsValid s (after (sendUdpDatagram destIp header payload) s) destIp Ip.protocolUdp
        fun src bytes => transportChecksum src destIp Ip.protocolUdp bytes = 0 ∧
          sliceInt16 bytes 6 ≠ .ok 0) ∧
    ∀ header payload, payload.length ≤ 65507 →
      SendsValid s (after (sendIcmpMessage destIp header payload) s) destIp Ip.protocolIcmp
        fun _ bytes => internetChecksum bytes = 0 :=
  ⟨sendTcpSegment_valid hmtu, sendUdpDatagram_valid hmtu, sendIcmpMessage_valid hmtu⟩

end Sends

/-- A datagram of nine octets on the smallest link, where it needs three frames. -/
theorem nine_octets_verify :
    (after (sendUdpDatagram limitedBroadcastAddress (Udp.ofData 4000 5000 17 0 []) [1, 2, 3, 4, 5, 6, 7, 8, 9])
      (stackOnLink 28)).primary.written.length = 3 ∧
    SendsValid (stackOnLink 28) (after (sendUdpDatagram limitedBroadcastAddress
      (Udp.ofData 4000 5000 17 0 []) [1, 2, 3, 4, 5, 6, 7, 8, 9]) (stackOnLink 28))
      limitedBroadcastAddress Ip.protocolUdp
      fun src bytes => transportChecksum src limitedBroadcastAddress Ip.protocolUdp bytes = 0 ∧
        sliceInt16 bytes 6 ≠ .ok 0 := by
  refine ⟨by decide +kernel, (sent_packets_verify ?_ _).2.1 _ _ (by decide)⟩
  intro index interface hinterface
  obtain ⟨rfl, -⟩ : (stackOnLink 28).primary = interface ∧ index = 0 := by
    cases index with
    | zero => exact ⟨Option.some.inj hinterface, rfl⟩
    | succ index => cases hinterface
  decide

end TcpIpStack
