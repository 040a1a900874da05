/-
# The stack among others

A datagram that fits its link arrives at the socket of the other stack that it was sent to
(`datagram_arrives`).  A packet that routers pass on to each other loses nothing but time to
live, and is not passed on for ever (`relayed_in_time`).

Whatever comes in, no packet leaves with the address of somebody else
(`frames_leave_as_configured`), and no table of neighbours outgrows its bound
(`neighbours_bounded`).
-/

import TcpIpStack.Stack.ErrorCauses
import TcpIpStack.Stack.LinkSize
import TcpIpStack.Stack.Sealing

namespace TcpIpStack

open Programs StackM Runs

/-! ### Datagrams -/

/-- The header that `send_to` builds. -/
def udpHeader (srcPort destPort : UInt16) (data : Bytes) : Udp :=
  Udp.ofData srcPort destPort (UInt16.ofNat (8 + data.length)) 0 []

/-- The frame of a packet that goes out whole. -/
def Hop.wholeFrame (hop : Hop) (destIp : IPv4Address) (protocol : UInt8) (bytes : Bytes) : Written :=
  hop.frame (ipPacket hop.config.ip destIp protocol 0 0 0 bytes)

/-- A stack takes the frames to a MAC address and the packets to an IP address. -/
def NetworkStack.Hears (t : NetworkStack) (ingress : ℕ) (mac : MacAddress) (ip : IPv4Address) : Prop :=
  ∃ inbound, t.interface? ingress = some inbound ∧ isAddressedToUs mac inbound.config.mac = true ∧
    (t.isOwnAddress ip || isBroadcastAddress ip inbound.config) = true

section

variable {s t : NetworkStack} {hop : Hop} {ingress : ℕ} {destIp : IPv4Address} {protocol : UInt8}
  {bytes data : Bytes}

/-- A packet that comes whole is dispatched. -/
theorem after_handleFrame_of_whole {layer : IpLayer} (hbytes : bytes.length ≤ 65515)
    (hlayer : Ip.parsePayload protocol bytes = .ok (some layer)) (h : t.Hears ingress hop.mac destIp) :
    ∃ (ip : Ip) (r : IpReassembler), ip.srcAddress = hop.config.ip ∧ ip.destAddress = destIp ∧
      ip.protocol = protocol ∧ ip.nextLayer = some layer ∧
        after (handleFrame ingress (hop.wholeFrame destIp protocol bytes).frame.toBytes) t =
          after (dispatchTransport ip)
            { t.modifyInterface ingress (Interface.refresh ip.srcAddress) with reassembler := r } := by
  obtain ⟨inbound, hinbound, haddressed, htakes⟩ := h
  let ip : Ip := { ipPacket hop.config.ip destIp protocol 0 0 0 bytes with nextLayer := some layer }
  have hframe : Ethernet.fromBytes (hop.wholeFrame destIp protocol bytes).frame.toBytes =
      .ok ⟨hop.config.mac, hop.mac, Ethernet.etherTypeIPv4, .ip ip⟩ := by
    unfold Hop.wholeFrame Hop.frame ipFrame
    dsimp only
    rw [Ethernet.fromBytes_ip, ipPacket, Ip.fromBytes_build hbytes (by decide), Ip.parseLayer,
      if_neg (by decide), hlayer]
    rfl
  have hwhole : ip.Completes t.reassembler ip := by
    rw [Ip.Completes, if_neg]
    change ¬ (((0 : UInt8) &&& 0xE0 &&& Ip.flagMoreFragments != 0) || decide ((0 : UInt16) ≠ 0)) = true
    decide
  obtain ⟨r, hafter⟩ := after_handleIp_of_completes
    ((hop.wholeFrame destIp protocol bytes).frame.toBytes.drop 14) hinbound
    (show t.Takes inbound.config ip from htakes) (Ip.verifyChecksum_build (some layer)) hwhole
  exact ⟨ip, r, rfl, rfl, rfl, rfl, (after_handleFrame_of_ip hframe hinbound haddressed).trans hafter⟩

/-- What `_send_udp_datagram` seals is read back. -/
theorem fromBytes_wireBytes_udp (src dest : IPv4Address) (srcPort destPort : UInt16)
    (hdata : data.length ≤ 65507) :
    ∃ udp : Udp, Udp.fromBytes ((udpHeader srcPort destPort data).wireBytes src dest data) = .ok udp ∧
      udp.srcPort = srcPort ∧ udp.destPort = destPort ∧ udp.payload = data ∧
      udp.toBytes = (udpHeader srcPort destPort data).wireBytes src dest data := by
  have hpayload : (Udp.ofData srcPort destPort (UInt16.ofNat (8 + data.length)) 0 data).payload = data :=
    Udp.payload_ofData ..
  have hlength : (UInt16.ofNat (8 + data.length)).toNat = 8 + data.length := by
    rw [UInt16.toNat_ofNat', Nat.mod_eq_of_lt (by omega)]
  exact ⟨_, Udp.fromBytes_toBytes _ (hlength.trans (congrArg (8 + List.length ·) hpayload.symm)), rfl, rfl,
    hpayload, rfl⟩

/-- **A datagram arrives.**  For a payload that fits the link `_send_udp_datagram` writes one
frame, and the receiver calls the callback of the port once, with the payload and where it
came from. -/
theorem datagram_arrives (srcPort destPort : UInt16) (hhop : s.hopFor destIp = some hop)
    (hdata : data.length ≤ 65507) (hfits : 8 + data.length ≤ hop.config.maxIpPayload)
    (h : t.Hears ingress hop.mac destIp) (hsocket : t.udpSockets.lookup destPort = some true) :
    ∃ interface frame, WritesTo s (after (sendUdpDatagram destIp (udpHeader srcPort destPort data) data) s)
        hop.egress interface [frame] ∧
      (after (handleFrame ingress frame.frame.toBytes) t).delivered =
        t.delivered ++ [(destPort, hop.config.ip, srcPort, data)] := by
  obtain ⟨-, interface, hinterface, -⟩ := NetworkStack.hopFor_eq_some.1 hhop
  have hlength := length_wireBytes_udp hop.config.ip destIp (udpHeader srcPort destPort data) data
  obtain ⟨udp, hread, hsrc, hdest, hpayload, hbytes⟩ :=
    fromBytes_wireBytes_udp hop.config.ip destIp srcPort destPort hdata
  have hsum := (transportChecksum_wireBytes_udp hop.config.ip destIp (udpHeader srcPort destPort data) data
    hdata).1
  have hlayer : Ip.parsePayload Ip.protocolUdp ((udpHeader srcPort destPort data).wireBytes hop.config.ip
      destIp data) = .ok (some (.udp udp)) := by
    rw [Ip.parsePayload, if_neg (by decide), if_pos rfl, hread]
    rfl
  obtain ⟨ip, r, hsource, htarget, hprotocol, hnext, hafter⟩ :=
    after_handleFrame_of_whole (by omega) hlayer h
  refine ⟨interface, _, ⟨hinterface, ?_⟩, (congrArg NetworkStack.delivered hafter).trans ?_⟩
  · rw [after_ok (run_sendUdpDatagram hhop _ data (by omega)), Hop.frames, Hop.packets_of_fits (by omega)]
    exact (written_sent _ _ _ _ _ _ _).trans (written_append hinterface _)
  · rw [← hbytes, ← hsource, ← htarget] at hsum
    rw [dispatchTransport, hnext]
    dsimp only
    rw [if_pos hprotocol, handleUdp, if_neg (fun hbad => hbad.2 hsum), after, run_get_bind, hdest]
    have hlookup : NetworkStack.udpSockets { t.modifyInterface ingress (Interface.refresh ip.srcAddress) with
        reassembler := r } = t.udpSockets := by cases ingress <;> rfl
    rw [hlookup, hsocket, hsrc, hpayload, hsource]
    cases ingress <;> rfl

/-- 10.0.0.5, with a socket at port 7. -/
def fifthHost : NetworkStack :=
  { NetworkStack.new { mac := .of 2 0 0 0 0 5, ip := ⟨0x0A000005⟩ } (fun _ => 0) with
    udpSockets := AList.insert 7 true ∅ }

theorem datagram_arrives_fifth : ∃ hop interface frame, WritesTo knowsFirst
        (after (sendUdpDatagram ⟨0x0A000005⟩ (udpHeader 9 7 [1, 2]) [1, 2]) knowsFirst)
        (Hop.egress hop) interface [frame] ∧
      (after (handleFrame 0 frame.frame.toBytes) fifthHost).delivered =
        fifthHost.delivered ++ [(7, hop.config.ip, 9, [1, 2])] :=
  ⟨_, datagram_arrives 9 7 (Option.some_get (by decide +kernel)).symm (by decide) (by decide +kernel)
    ⟨_, rfl, by decide +kernel, by decide +kernel⟩ rfl⟩

end

/-! ### Routers in a row -/

/-- A stack takes a frame, and what it writes is a packet on its way through. -/
def Relays (received sent : Bytes) : Prop :=
  ∃ s s' ingress index interface frames w, (Step.frame ingress received).run s = some s' ∧
    WritesTo s s' index interface frames ∧ w ∈ frames ∧ w.Forwarded ∧ sent = w.frame.toBytes

theorem transparent_of_relays {received sent : Bytes} (h : Relays received sent) :
    Transparent (received.drop 14) (sent.drop 14) := by
  obtain ⟨s, s', ingress, index, interface, frames, w, hrun, ⟨hinterface, hframes⟩, hw, ⟨data, hdata⟩, rfl⟩ := h
  have hpath := (Step.run_path hrun).setting_and_writes (P := fun _ w =>
    ∀ data, w.frame.nextLayer = .raw data → Transparent (received.drop 14) data) id ?_
  · have hsent : w.frame.toBytes.drop 14 = data := by
      rw [Ethernet.toBytes, hdata, ← List.append_assoc, ← List.append_assoc]
      exact List.drop_left' (by simp [w.frame.dest.length, w.frame.src.length])
    rw [hsent]
    exact hpath.2.forall_of_append hinterface hframes w hw data hdata
  rintro t index w - horigin data hraw
  cases horigin with
  | packet => cases hraw
  | arp frame packet hframe =>
    rw [hframe] at hraw
    cases hraw
  | passedOn ip ipBytes nextHop out mac _ hforwards =>
    obtain ⟨ingress', inbound, hreceives, -⟩ := hforwards.received
    obtain ⟨bytes, src, dest, etherType, hstep, rfl, hparse, -⟩ := hreceives.frame
    cases hstep
    cases hraw
    exact transparent_forwardedBytes (Ethernet.ip_of_fromBytes hparse) hforwards.ttl

/-- **A packet goes through at most 254 routers**, however they are configured and whatever
loops their routes make.  What the last one sends is what the first one received, but for
the checksum and the time to live, which is one less for each of them. -/
theorem relayed_in_time {n : ℕ} (hn : 0 < n) {frame : ℕ → Bytes}
    (h : ∀ i < n, Relays (frame i) (frame (i + 1))) :
    n ≤ 254 ∧ (∀ j, j ≠ 8 → j ≠ 10 → j ≠ 11 → ((frame n).drop 14)[j]? = ((frame 0).drop 14)[j]?) ∧
      ∃ before after : UInt8, ((frame 0).drop 14)[8]? = some before ∧ ((frame n).drop 14)[8]? = some after ∧
        after.toNat + n = before.toNat ∧ 1 ≤ after.toNat := by
  induction n, hn using Nat.le_induction with
  | base =>
    have hfirst := transparent_of_relays (h 0 Nat.one_pos)
    exact ⟨by decide, hfirst.unchanged, hfirst.ttl⟩
  | succ n hn ih =>
    obtain ⟨-, hunchanged, before, between, hbefore, hbetween, hsum, -⟩ := ih fun i hi => h i (by omega)
    have hlast := transparent_of_relays (h n (by omega))
    obtain ⟨between', after, hbetween', hafter, hless, hpositive⟩ := hlast.ttl
    obtain rfl : between = between' := Option.some.inj (hbetween.symm.trans hbetween')
    have hbound := before.toNat_lt
    exact ⟨by omega, fun j h₈ h₁₀ h₁₁ => (hlast.unchanged j h₈ h₁₀ h₁₁).trans (hunchanged j h₈ h₁₀ h₁₁),
      before, after, hbefore, hafter, by omega, hpositive⟩

/-- A packet on its way through two routers: the second one has the address that the first
one sends to. -/
theorem relayed_in_time_twice : ∃ frame : ℕ → Bytes, (∀ i < 2, Relays (frame i) (frame (i + 1))) ∧
      ∃ before after : UInt8, ((frame 0).drop 14)[8]? = some before ∧ ((frame 2).drop 14)[8]? = some after ∧
        after.toNat + 2 = before.toNat ∧ 1 ≤ after.toNat := by
  let sent (ttl : UInt8) (ipBytes : Bytes) := forwardedFrame { mac := .of 2 0 0 0 1 1, ip := ⟨0x0A000101⟩ }
    (.of 2 0 0 0 1 5) ⟨0x0A000105⟩ (forwardedBytes ttl ipBytes)
  let once := sent 64 transitPacket.toBytes
  let twice := sent 63 (forwardedBytes 64 transitPacket.toBytes)
  let frame (i : ℕ) : Bytes := if i = 0 then Ethernet.toBytes
    ⟨.zero, .broadcast, Ethernet.etherTypeIPv4, .ip transitPacket⟩
    else if i = 1 then once.frame.toBytes else twice.frame.toBytes
  let second : Interface := { knowsSecond.primary with config := { mac := .of 2 0 0 0 1 5, ip := ⟨0x0A000201⟩ } }
  have h : ∀ i < 2, Relays (frame i) (frame (i + 1)) := by
    rintro (_ | _ | i) hi
    · exact ⟨{ knowsSecond with forwardingEnabled := true }, _, 0, 1, _, [once], once,
        (Option.some_get (by decide +kernel)).symm, ⟨rfl, by decide +kernel⟩, List.mem_singleton_self _,
        ⟨_, rfl⟩, rfl⟩
    · exact ⟨{ knowsSecond with forwardingEnabled := true, primary := second }, _, 0, 1, _, [twice], twice,
        (Option.some_get (by decide +kernel)).symm, ⟨rfl, by decide +kernel⟩, List.mem_singleton_self _,
        ⟨_, rfl⟩, rfl⟩
    · omega
  exact ⟨frame, h, (relayed_in_time Nat.two_pos h).2.2⟩

/-! ### Addresses -/

/-- A frame has the addresses of the interface that it leaves by. -/
def NetworkStack.MaySend (s : NetworkStack) (index : ℕ) (w : Written) : Prop :=
  ∀ interface, s.interface? index = some interface →
    match w.frame.nextLayer with
    | .ip ip => w.frame.src = interface.config.mac ∧ ip.srcAddress = interface.config.ip
    | .raw _ => w.frame.src = interface.config.mac
    | .arp _ => True

section

variable {a : Step} {s₀ s s' t : NetworkStack}

theorem Origin.maySend {index : ℕ} {w : Written} (h : Origin a s₀ t index w) (hsetting : t.setting = s.setting) :
    s.MaySend index w := by
  intro interface hinterface
  have hconfig := NetworkStack.config_of_setting hsetting index
  rw [hinterface, Option.map_some, Option.map_eq_some_iff] at hconfig
  obtain ⟨out, hout, hconfig⟩ := hconfig
  rw [← hconfig]
  cases h with
  | packet hop destIp protocol bytes dontFragment identification ip hhop hegress hip =>
    obtain ⟨-, out', hout', hconfig', -⟩ := NetworkStack.hopFor_eq_some.1 hhop
    rw [hegress, hout] at hout'
    cases hout'
    obtain ⟨_, _, _, _, -, rfl⟩ := Hop.packet_eq_of_mem hip
    rw [hconfig']
    exact ⟨rfl, rfl⟩
  | arp frame packet hframe => simp [hframe]
  | passedOn ip ipBytes nextHop out' mac hs hforwards =>
    obtain rfl : out' = out := Option.some.inj (hforwards.interface.symm.trans (hs ▸ hout))
    rfl

/-- **No packet leaves with the address of somebody else** while nobody configures the stack:
what it sends itself has both addresses of the interface that it leaves by, and what it passes
on has the MAC address.  No step of such a run changes the routes or a configuration. -/
theorem frames_leave_as_configured {steps : List Step} (hsteps : ∀ a ∈ steps, ¬ a.Configures)
    (h : runs Step.run steps s = some s') : s'.setting = s.setting ∧ Writes s.MaySend s s' := by
  refine runs_invariant (I := fun t => t.setting = s.setting ∧ Writes s.MaySend s t)
    (fun a t t' ht ha hrun => ?_) ⟨rfl, Std.Refl.refl s⟩ (Along.and_of_forall along_true hsteps) h
  obtain ⟨hsetting, hwrites⟩ := (Step.run_path hrun).setting_and_writes (P := s.MaySend) ha.1
    fun u index w hu horigin => horigin.maySend (hu.trans ht.1)
  exact ⟨hsetting.trans ht.1, ht.2.trans hwrites⟩

end

theorem frames_leave_as_first : ∃ s', runs Step.run [.sendTo 9 ⟨0x0A000005⟩ 7 [1, 2]] knowsFirst = some s' ∧
      Writes knowsFirst.MaySend knowsFirst s' :=
  ⟨_, (Option.some_get (by decide +kernel)).symm,
    (frames_leave_as_configured (List.forall_mem_singleton.2 id) (Option.some_get _).symm).2⟩

/-! ### Neighbours -/

/-- No table of neighbours has more than `MAX_ENTRIES` entries. -/
def NetworkStack.NeighboursBounded (s : NetworkStack) : Prop :=
  ∀ interface ∈ s.interfaces, interface.arpTable.entries.size ≤ ArpTable.maxEntries

theorem ArpTable.size_insert_le {table : ArpTable} (h : table.entries.size ≤ maxEntries) {ip : IPv4Address}
    (hroom : table.contains ip ∨ table.entries.size < maxEntries) (entry : ArpEntry) :
    Assoc.size (table.entries.insert ip entry) ≤ maxEntries := by
  cases hentry : table.entries.lookup ip with
  | none =>
    have hcount := Assoc.countP_insert_of_lookup_eq_none (fun _ => true) (v := entry) hentry
    simp only [List.countP_true, if_true] at hcount
    exact hcount.trans_le (hroom.resolve_left (by simp [contains, hentry]))
  | some old =>
    have hcount := Assoc.countP_insert_of_lookup (fun _ => true) hentry entry
    simp only [List.countP_true, if_true, Nat.add_right_cancel_iff] at hcount
    exact hcount.trans_le h

section

variable {a : Step} {s₀ s s' : NetworkStack}

theorem NetworkStack.NeighboursBounded.modifyInterface (h : s.NeighboursBounded) {f : Interface → Interface}
    (hf : ∀ i, i.arpTable.entries.size ≤ ArpTable.maxEntries → (f i).arpTable.entries.size ≤ ArpTable.maxEntries)
    (index : ℕ) : (s.modifyInterface index f).NeighboursBounded := by
  intro interface hmem
  obtain ⟨j, hj⟩ := List.mem_iff_getElem?.1 hmem
  have hinterface := NetworkStack.interface?_modifyInterface s index j f
  rw [NetworkStack.interface?, hj] at hinterface
  split_ifs at hinterface
  · obtain ⟨i, hi, rfl⟩ := Option.map_eq_some_iff.1 hinterface.symm
    exact hf i (h i (List.mem_of_getElem? hi))
  · exact h interface (List.mem_of_getElem? hinterface.symm)

theorem LinkChange.neighboursBounded (hlink : LinkChange a s₀ s s') (h : s.NeighboursBounded) :
    s'.NeighboursBounded := by
  cases hlink with
  | write index written => exact h.modifyInterface (f := Interface.append written) (fun _ => id) index
  | learn index interface arp =>
    refine h.modifyInterface (fun i hi => ?_) index
    rw [Interface.learn, ArpTable.learn]
    split_ifs with hroom
    · exact ArpTable.size_insert_le hi hroom _
    · exact hi
  | refresh index ip =>
    refine h.modifyInterface (fun i hi => ?_) index
    rw [Interface.refresh, ArpTable.refresh]
    split
    · next entry hentry =>
      split_ifs
      · exact hi
      · exact ArpTable.size_insert_le hi (.inl (by simp [ArpTable.contains, hentry])) _
    · exact hi
  | request index ip request => exact h.modifyInterface (f := Interface.setArpRequest ip request) (fun _ => id) index
  | waiting index f _ hf => exact h.modifyInterface (fun i hi => (hf i).2.1 ▸ hi) index
  | age elapsedMs =>
    intro interface hmem
    obtain ⟨i, hi, rfl⟩ := List.mem_map.1 (show interface ∈ s.interfaces.map (Interface.age elapsedMs) from hmem)
    exact (List.length_filterMap_le ..).trans (h i hi)
  | records | reassemble | budget | counters => exact h

theorem Path.neighboursBounded (ha : ¬ a.Configures) (hpath : Path a s₀ s s') (h : s.NeighboursBounded) :
    s'.NeighboursBounded := by
  induction hpath with
  | refl => exact h
  | tail _ hchange ih =>
    cases hchange with
    | link _ hlink => exact hlink.neighboursBounded ih
    | table f => exact ih
    | configure _ hconfigures => exact absurd hconfigures ha

/-- **The tables of neighbours stay bounded** whatever comes in, while the configuration stays
as it is. -/
theorem neighbours_bounded {steps : List Step} (hsteps : ∀ a ∈ steps, ¬ a.Configures)
    (hs : s.NeighboursBounded) (h : runs Step.run steps s = some s') : s'.NeighboursBounded :=
  runs_invariant (fun _ _ _ ht ha hrun => (Step.run_path hrun).neighboursBounded ha.1 ht) hs
    (Along.and_of_forall along_true hsteps) h

end

/-- A table of neighbours that is full. -/
def fullTable : Assoc IPv4Address ArpEntry where
  entries := (List.range 1024).map fun i => ⟨⟨UInt32.ofNat i⟩, ⟨.zero, 1000, false⟩⟩
  nodupKeys := by
    rw [List.NodupKeys, List.keys, List.map_map]
    refine List.Nodup.map_on (fun i hi j hj heq => ?_) List.nodup_range
    have hvalue := congrArg (fun ip : IPv4Address => ip.value.toNat) heq
    have hi := List.mem_range.1 hi
    have hj := List.mem_range.1 hj
    simp only [Function.comp_apply, UInt32.toNat_ofNat'] at hvalue
    omega

/-- A host whose table is full. -/
def crowded : NetworkStack :=
  twoLinks.modifyInterface 0 fun i => { i with arpTable := { i.arpTable with entries := fullTable } }

/-- Its table takes no new neighbour. -/
theorem neighbours_bounded_crowded :
    ∃ s', runs Step.run [arpIn 0 (.of 2 0 0 0 0 5) ⟨0x0A000005⟩ ⟨0x0A000001⟩] crowded = some s' ∧
      s'.primary.arpTable.contains ⟨0x0A000005⟩ = false ∧ s'.NeighboursBounded :=
  ⟨_, (Option.some_get (by decide +kernel)).symm, by decide +kernel,
    neighbours_bounded (List.forall_mem_singleton.2 id)
      (by unfold NetworkStack.NeighboursBounded; decide +kernel) (Option.some_get _).symm⟩

end TcpIpStack
