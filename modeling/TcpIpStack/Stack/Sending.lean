/-
# What a send does

The neighbour a packet is handed to is decided by the route, the interface it
names and the ARP table of that interface (`hopFor`).  Without one, nothing
changes: there is no route and the send returns, or it throws
(`run_sendIpPacket_of_none`).  With one, `_source_address_for` and
`_send_ip_packet` use the same interface, so the address in the pseudo-header of
a segment is the one in the IP header, and the frames that are written are a
function of the interface and the segment (`run_sendTcpSegment`,
`run_sendUdpDatagram`, `run_sendIcmpMessage`).
-/

import TcpIpStack.Stack.Connections
import TcpIpStack.Stack.Fragmentation

namespace TcpIpStack

open Programs StackM

/-- The neighbour a packet is handed to, and the interface it leaves by. -/
structure Hop where
  nextHop : IPv4Address
  egress : ℕ
  config : InterfaceConfig
  mac : MacAddress

namespace Hop

/-- The frame of a packet. -/
def frame (hop : Hop) (ip : Ip) : Written :=
  ipFrame hop.config.mac hop.mac hop.nextHop ip

/-- The packets a payload is sent in. -/
def packets (hop : Hop) (identification : UInt16) (destIp : IPv4Address) (protocol : UInt8)
    (payload : Bytes) (dontFragment : Bool) : List Ip :=
  if payload.length ≤ hop.config.maxIpPayload then
    [ipPacket hop.config.ip destIp protocol 0
      (if dontFragment then Ip.flagDontFragment else 0) 0 payload]
  else if dontFragment then []
  else
    (fragments hop.config.ip destIp protocol identification
      hop.config.maxIpPayload payload payload.length 0).getD []

/-- The frames a payload is sent in. -/
def frames (hop : Hop) (identification : UInt16) (destIp : IPv4Address) (protocol : UInt8)
    (payload : Bytes) (dontFragment : Bool) : List Written :=
  (hop.packets identification destIp protocol payload dontFragment).map hop.frame

section

variable {hop : Hop} {identification : UInt16} {destIp : IPv4Address} {protocol : UInt8} {payload : Bytes}

theorem packets_of_fits (hfits : payload.length ≤ hop.config.maxIpPayload) (dontFragment : Bool) :
    hop.packets identification destIp protocol payload dontFragment =
      [ipPacket hop.config.ip destIp protocol 0 (if dontFragment then Ip.flagDontFragment else 0) 0
        payload] := if_pos hfits

theorem packets_of_dontFragment (hfits : ¬ payload.length ≤ hop.config.maxIpPayload) :
    hop.packets identification destIp protocol payload true = [] := by
  rw [packets, if_neg hfits, if_pos rfl]

theorem packets_of_fragments (hfits : ¬ payload.length ≤ hop.config.maxIpPayload)
    (hroom : 0 < hop.config.maxIpPayload) : hop.packets identification destIp protocol payload false =
      (Tiling.cut hop.config.maxIpPayload payload).map
        (fragmentPacket hop.config.ip destIp protocol identification payload.length) := by
  rw [packets, if_neg hfits, if_neg Bool.false_ne_true, fragments_eq hroom (by omega), Option.getD_some]
  rfl

theorem frames_ne_nil (hroom : 0 < hop.config.maxIpPayload) :
    hop.frames identification destIp protocol payload false ≠ [] := by
  unfold frames
  by_cases hfits : payload.length ≤ hop.config.maxIpPayload
  · rw [packets_of_fits hfits]
    simp
  · rw [packets_of_fragments hfits hroom]
    intro hnil
    have hcut : Tiling.cut hop.config.maxIpPayload payload = [] := by
      simpa using hnil
    have hjoin := Tiling.join_cut (l := payload) hroom
    rw [hcut, Tiling.join_nil] at hjoin
    rw [← hjoin] at hfits
    exact hfits (Nat.zero_le _)

/-- A packet of a send. -/
theorem packet_eq_of_mem {dontFragment : Bool} {ip : Ip}
    (h : ip ∈ hop.packets identification destIp protocol payload dontFragment) :
    ∃ identification' flags offset piece, piece.length ≤ hop.config.maxIpPayload ∧
      ip = ipPacket hop.config.ip destIp protocol identification' flags offset piece := by
  by_cases hfits : payload.length ≤ hop.config.maxIpPayload
  · rw [packets_of_fits hfits, List.mem_singleton] at h
    exact ⟨_, _, _, payload, hfits, h⟩
  cases dontFragment with
  | true =>
    rw [packets_of_dontFragment hfits] at h
    cases h
  | false =>
    rcases Nat.eq_zero_or_pos hop.config.maxIpPayload with hzero | hpos
    · rw [packets, if_neg hfits, if_neg Bool.false_ne_true, hzero, fragments_zero _ (by omega)] at h
      cases h
    · rw [packets_of_fragments hfits hpos] at h
      obtain ⟨tile, htile, rfl⟩ := List.mem_map.1 h
      obtain ⟨-, hpiece, -⟩ := Tiling.mem_cut htile
      refine ⟨_, _, _, tile.2, ?_, rfl⟩
      rw [hpiece, List.length_take]
      omega

end

end Hop

namespace NetworkStack

/-- The neighbour that carries a packet to a destination, if it is known. -/
def hopFor (s : NetworkStack) (destIp : IPv4Address) : Option Hop :=
  (s.routeFor destIp).bind fun route => (s.interface? route.2).bind fun interface =>
    (interface.resolve route.1).map fun mac => ⟨route.1, route.2, interface.config, mac⟩

theorem hopFor_eq_some {s : NetworkStack} {destIp : IPv4Address} {hop : Hop} :
    s.hopFor destIp = some hop ↔ s.routeFor destIp = some (hop.nextHop, hop.egress) ∧
      ∃ interface, s.interface? hop.egress = some interface ∧ interface.config = hop.config ∧
        interface.resolve hop.nextHop = some hop.mac := by
  constructor
  · intro h
    obtain ⟨⟨nextHop, egress⟩, hroute, h⟩ := Option.bind_eq_some_iff.1 h
    obtain ⟨interface, hinterface, h⟩ := Option.bind_eq_some_iff.1 h
    obtain ⟨mac, hmac, rfl⟩ := Option.map_eq_some_iff.1 h
    exact ⟨hroute, interface, hinterface, rfl, hmac⟩
  · rintro ⟨hroute, interface, hinterface, hconfig, hmac⟩
    rw [hopFor, hroute, Option.bind_some, hinterface, Option.bind_some, hmac, Option.map_some, hconfig]

/-- The routes, and the configuration of every interface. -/
def setting (s : NetworkStack) : RouteTable × List InterfaceConfig :=
  (s.routes, s.interfaces.map Interface.config)

section Setting

variable {s s' : NetworkStack}

theorem config_of_setting (h : s'.setting = s.setting) (index : ℕ) :
    (s'.interface? index).map Interface.config = (s.interface? index).map Interface.config := by
  have hconfigs := congrArg (fun setting => setting.2[index]?) h
  simpa [setting, interface?] using hconfigs

theorem isBroadcastForAnyInterface_of_setting (h : s'.setting = s.setting) (ip : IPv4Address) :
    s'.isBroadcastForAnyInterface ip = s.isBroadcastForAnyInterface ip := by
  have hany := congrArg (fun l => List.any l.2 fun config => isBroadcastAddress ip config) h
  simpa [setting, isBroadcastForAnyInterface, List.any_map, Function.comp_def] using hany

theorem routeFor_of_setting (h : s'.setting = s.setting) (destIp : IPv4Address) :
    s'.routeFor destIp = s.routeFor destIp := by
  have hroutes : s'.routes = s.routes := congrArg Prod.fst h
  have hothers : s'.others = [] ↔ s.others = [] := by
    have hlength := congrArg (fun setting => setting.2.length) h
    simp only [setting, interfaces, List.length_map, List.length_cons, Nat.add_right_cancel_iff] at hlength
    rw [← List.length_eq_zero_iff, ← List.length_eq_zero_iff, hlength]
  rw [routeFor, routeFor, isBroadcastForAnyInterface_of_setting h, hroutes]
  simp only [hothers]

end Setting

/-- The routes, and the configuration and the known neighbours of every interface. -/
def links (s : NetworkStack) : RouteTable × List (InterfaceConfig × (IPv4Address → Option MacAddress)) :=
  (s.routes, s.interfaces.map fun interface => (interface.config, interface.arpTable.lookup))

section Links

variable {s s' : NetworkStack}

theorem interface?_of_links (h : s'.links = s.links) (index : ℕ) :
    (s'.interface? index).map (fun i => (i.config, i.arpTable.lookup)) =
      (s.interface? index).map fun i => (i.config, i.arpTable.lookup) := by
  have hinterfaces := congrArg (fun links => links.2[index]?) h
  simpa [links, interface?] using hinterfaces

theorem setting_of_links (h : s'.links = s.links) : s'.setting = s.setting := by
  have hsetting := congrArg (fun links => (links.1, links.2.map Prod.fst)) h
  simpa [links, setting, Function.comp_def] using hsetting

theorem isBroadcastForAnyInterface_of_links (h : s'.links = s.links) (ip : IPv4Address) :
    s'.isBroadcastForAnyInterface ip = s.isBroadcastForAnyInterface ip :=
  isBroadcastForAnyInterface_of_setting (setting_of_links h) ip

theorem routeFor_of_links (h : s'.links = s.links) (destIp : IPv4Address) :
    s'.routeFor destIp = s.routeFor destIp :=
  routeFor_of_setting (setting_of_links h) destIp

theorem hopFor_of_links (h : s'.links = s.links) (destIp : IPv4Address) :
    s'.hopFor destIp = s.hopFor destIp := by
  rw [hopFor, hopFor, routeFor_of_links h]
  congr 1
  funext route
  have hinterface := interface?_of_links h route.2
  revert hinterface
  cases s'.interface? route.2 <;> cases s.interface? route.2 <;> intro heq <;> try cases heq
  · rfl
  · obtain ⟨hconfig, htable⟩ := Prod.mk.inj (Option.some.inj heq)
    rw [Option.bind_some, Option.bind_some, Interface.resolve, Interface.resolve, hconfig, htable]

theorem map_interfaces_modifyInterface {β : Type*} {f : Interface → Interface} {g : Interface → β}
    (hf : ∀ i, g (f i) = g i) (index : ℕ) : (s.modifyInterface index f).interfaces.map g = s.interfaces.map g := by
  refine List.ext_getElem? fun j => ?_
  have hinterface := interface?_modifyInterface s index j f
  simp only [interface?] at hinterface
  simp only [List.getElem?_map, hinterface]
  split_ifs
  · rw [Option.map_map]
    exact congrArg (fun h => Option.map h s.interfaces[j]?) (funext hf)
  · rfl

theorem links_modifyInterface {f : Interface → Interface}
    (hf : ∀ i, (f i).config = i.config ∧ (f i).arpTable.lookup = i.arpTable.lookup) (index : ℕ) :
    (s.modifyInterface index f).links = s.links :=
  Prod.ext (by cases index <;> rfl)
    (map_interfaces_modifyInterface (g := fun i => (i.config, i.arpTable.lookup))
      (fun i => Prod.ext (hf i).1 (hf i).2) index)

@[simp] theorem links_append (index : ℕ) (written : List Written) :
    (s.modifyInterface index (Interface.append written)).links = s.links :=
  links_modifyInterface (f := Interface.append written) (fun _ => ⟨rfl, rfl⟩) index

end Links

/-- What else a send leaves behind: the next identification, and what was too
large. -/
def sent (hop : Hop) (destIp : IPv4Address) (payload : Bytes) (dontFragment : Bool) (s : NetworkStack) :
    NetworkStack :=
  if payload.length ≤ hop.config.maxIpPayload then s
  else if dontFragment then { s with oversized := s.oversized ++ [(destIp, payload)] }
  else { s with nextIpId := s.nextIpId + 1 }

end NetworkStack

/-! ### The frames between two states -/

/-- Frames were written, and each is as it should be. -/
def Writes (P : ℕ → Written → Prop) (s s' : NetworkStack) : Prop :=
  ∀ index, ∃ written, (s'.interface? index).map Interface.written =
    (s.interface? index).map (fun interface => interface.written ++ written) ∧ ∀ w ∈ written, P index w

section Writes

variable {P Q : ℕ → Written → Prop} {s s' s'' : NetworkStack}

theorem Writes.of_eq (h : ∀ index, (s'.interface? index).map Interface.written =
    (s.interface? index).map Interface.written) : Writes P s s' :=
  fun index => ⟨[], by simpa using h index, by simp⟩

instance : Std.Refl (Writes P) := ⟨fun _ => .of_eq fun _ => rfl⟩

theorem Writes.trans (h : Writes P s s') (h' : Writes P s' s'') : Writes P s s'' := by
  intro index
  obtain ⟨written, hwritten, hP⟩ := h index
  obtain ⟨written', hwritten', hP'⟩ := h' index
  refine ⟨written ++ written', ?_, List.forall_mem_append.2 ⟨hP, hP'⟩⟩
  rw [hwritten']
  have happend := congrArg (Option.map (· ++ written')) hwritten
  rw [Option.map_map, Option.map_map] at happend
  simpa [Function.comp_def] using happend

instance : IsTrans NetworkStack (Writes P) := ⟨fun _ _ _ => Writes.trans⟩

variable {written : List Written}

theorem writes_append (s : NetworkStack) (index : ℕ)
    (h : ∀ w ∈ written, P index w) : Writes P s (s.modifyInterface index (Interface.append written)) := by
  intro j
  rw [NetworkStack.interface?_modifyInterface]
  split_ifs with hj
  · subst hj
    exact ⟨written, by rw [Option.map_map]; rfl, h⟩
  · exact ⟨[], by simp, by simp⟩

theorem Writes.forall_of_append {index : ℕ} {interface : Interface}
    (h : Writes P s s') (hinterface : s.interface? index = some interface)
    (hwritten : (s'.interface? index).map Interface.written = some (interface.written ++ written)) :
    ∀ w ∈ written, P index w := by
  obtain ⟨written', hwritten', hP⟩ := h index
  rw [hwritten, hinterface, Option.map_some, Option.some_inj, List.append_cancel_left_eq] at hwritten'
  exact hwritten' ▸ hP

theorem writes_trans_iff (h : Writes (fun _ _ => True) s s') (h' : Writes (fun _ _ => True) s' s'') :
    Writes P s s'' ↔ Writes P s s' ∧ Writes P s' s'' := by
  refine Iff.trans (forall_congr' fun index => ?_) forall_and
  obtain ⟨written, hwritten, -⟩ := h index
  obtain ⟨written', hwritten', -⟩ := h' index
  cases hinterface : s.interface? index with
  | none =>
    have hnone : s'.interface? index = none := by simpa [hinterface] using hwritten
    rw [hwritten', hnone]
    simp
  | some interface =>
    rw [hinterface] at hwritten
    obtain ⟨interface', hinterface', heq⟩ := Option.map_eq_some_iff.1 hwritten
    simp [hwritten', hinterface', heq, or_imp, forall_and]

theorem written_modifyInterface {f : Interface → Interface} (hf : ∀ i, (f i).written = i.written)
    (index j : ℕ) : ((s.modifyInterface index f).interface? j).map Interface.written =
      (s.interface? j).map Interface.written := by
  simp only [NetworkStack.interface?, ← List.getElem?_map, NetworkStack.map_interfaces_modifyInterface hf]

theorem writes_iff {index : ℕ} {interface : Interface} (hinterface : s.interface? index = some interface)
    (h : ∀ j, (s'.interface? j).map Interface.written =
      ((s.modifyInterface index (Interface.append written)).interface? j).map Interface.written) :
    Writes P s s' ↔ ∀ w ∈ written, P index w := by
  constructor
  · intro hwrites
    exact hwrites.forall_of_append hinterface ((h index).trans (written_append hinterface written))
  · intro hP j
    obtain ⟨written', hwritten', hP'⟩ := writes_append s index hP j
    exact ⟨written', (h j).trans hwritten', hP'⟩

theorem written_sent (hop : Hop) (destIp : IPv4Address) (payload : Bytes) (dontFragment : Bool)
    (index : ℕ) (written : List Written) (j : ℕ) :
    (((s.sent hop destIp payload dontFragment).modifyInterface index
      (Interface.append written)).interface? j).map Interface.written =
      ((s.modifyInterface index (Interface.append written)).interface? j).map Interface.written := by
  unfold NetworkStack.sent
  cases index <;> split_ifs <;> rfl

end Writes

section Send

variable {s : NetworkStack} {destIp : IPv4Address} {hop : Hop}

/-- **Nothing changes without a neighbour.** -/
theorem run_sendIpPacket_of_none (h : s.hopFor destIp = none) (protocol : UInt8) (payload : Bytes)
    (dontFragment : Bool) :
    s.routeFor destIp = none ∧ (sendIpPacket destIp protocol payload dontFragment).run s = .ok () s ∨
      s.routeFor destIp ≠ none ∧ ∃ fault : Fault, fault.isException = true ∧
        (sendIpPacket destIp protocol payload dontFragment).run s = .error fault s := by
  rw [sendIpPacket, run_get_bind]
  cases hroute : s.routeFor destIp with
  | none => exact .inl ⟨rfl, rfl⟩
  | some route =>
    refine .inr ⟨by simp, ?_⟩
    obtain ⟨nextHop, egress⟩ := route
    rw [NetworkStack.hopFor, hroute, Option.bind_some] at h
    dsimp only
    cases hinterface : s.interface? egress with
    | none => exact ⟨.outOfRange, rfl, run_bind_error (run_interfaceAt_of_none hinterface)⟩
    | some interface =>
      rw [hinterface, Option.bind_some, Option.map_eq_none_iff] at h
      refine ⟨.baseException ("No ARP entry for " ++ nextHop.toString), rfl, ?_⟩
      have hmac : (resolveMac egress nextHop).run s =
          .error (.baseException ("No ARP entry for " ++ nextHop.toString)) s := by
        rw [resolveMac, run_bind_ok (run_interfaceAt hinterface), h]
        rfl
      rw [run_bind_ok (run_interfaceAt hinterface), run_bind_error hmac]

@[simp] theorem links_sent (payload : Bytes) (dontFragment : Bool) :
    (s.sent hop destIp payload dontFragment).links = s.links := by
  unfold NetworkStack.sent
  split_ifs <;> rfl

theorem modifyInterface_sent (index : ℕ) (f : Interface → Interface) (payload : Bytes) (dontFragment : Bool) :
    (s.sent hop destIp payload dontFragment).modifyInterface index f =
      (s.modifyInterface index f).sent hop destIp payload dontFragment := by
  cases index <;> unfold NetworkStack.sent <;> split_ifs <;> rfl

/-- **What a send writes.** -/
theorem run_sendIpPacket_of_some (h : s.hopFor destIp = some hop) (protocol : UInt8) (payload : Bytes)
    (dontFragment : Bool) (hroom : payload.length ≤ hop.config.maxIpPayload ∨ dontFragment = true ∨
      0 < hop.config.maxIpPayload) : (sendIpPacket destIp protocol payload dontFragment).run s =
      .ok () ((s.sent hop destIp payload dontFragment).modifyInterface hop.egress
        (Interface.append (hop.frames s.nextIpId destIp protocol payload dontFragment))) := by
  obtain ⟨hroute, interface, hinterface, hconfig, hmac⟩ := NetworkStack.hopFor_eq_some.1 h
  rw [run_sendIpPacket hroute hinterface hmac, hconfig]
  unfold NetworkStack.sent Hop.frames Hop.packets
  by_cases hfits : payload.length ≤ hop.config.maxIpPayload
  · rw [if_pos hfits, if_pos hfits, if_pos hfits]
    rfl
  rw [if_neg hfits, if_neg hfits, if_neg hfits]
  by_cases hdont : dontFragment = true
  · rw [if_pos hdont, if_pos hdont, if_pos hdont, List.map_nil, Interface.append_nil,
      NetworkStack.modifyInterface_id]
  · have hpos := (hroom.resolve_left hfits).resolve_left hdont
    rw [if_neg hdont, if_neg hdont, if_neg hdont, fragments_eq hpos (by omega)]
    rfl

/-- **A send that no frame has room for never ends.** -/
theorem run_sendIpPacket_of_no_room (h : s.hopFor destIp = some hop) (protocol : UInt8) (payload : Bytes)
    (hroom : hop.config.maxIpPayload = 0) (hpayload : 0 < payload.length) :
    (sendIpPacket destIp protocol payload false).run s =
      .error .diverges { s with nextIpId := s.nextIpId + 1 } := by
  obtain ⟨hroute, interface, hinterface, hconfig, hmac⟩ := NetworkStack.hopFor_eq_some.1 h
  rw [run_sendIpPacket hroute hinterface hmac, hconfig, hroom, if_neg (by omega),
    if_neg Bool.false_ne_true, fragments_zero _ hpayload]

theorem run_sourceAddressFor (h : s.hopFor destIp = some hop) :
    (sourceAddressFor destIp).run s = .ok hop.config.ip s := by
  obtain ⟨hroute, interface, hinterface, hconfig, -⟩ := NetworkStack.hopFor_eq_some.1 h
  rw [sourceAddressFor, run_get_bind, hroute]
  dsimp only
  rw [run_bind_ok (run_interfaceAt hinterface), hconfig]
  rfl

/-- Without a neighbour the source address is anything, or there is no such
interface. -/
theorem run_sourceAddressFor_bind {α : Type} (s : NetworkStack) (destIp : IPv4Address)
    (f : IPv4Address → StackM α) : (∃ src, (sourceAddressFor destIp >>= f).run s = (f src).run s) ∨
      s.routeFor destIp ≠ none ∧ (sourceAddressFor destIp >>= f).run s = .error .outOfRange s := by
  rw [sourceAddressFor, bind_assoc, run_get_bind]
  cases hroute : s.routeFor destIp with
  | none => exact .inl ⟨s.primary.config.ip, rfl⟩
  | some route =>
    dsimp only
    rw [bind_assoc]
    cases hinterface : s.interface? route.2 with
    | none => exact .inr ⟨by simp, run_bind_error (run_interfaceAt_of_none hinterface)⟩
    | some interface =>
      refine .inl ⟨interface.config.ip, ?_⟩
      rw [run_bind_ok (run_interfaceAt hinterface)]
      rfl

/-! ### Transports -/

/-- The bytes of a segment, as `_send_tcp_segment` seals it with its checksum. -/
def Tcp.wireBytes (src dest : IPv4Address) (header : Tcp) (payload : Bytes) : Bytes :=
  { header.rebuilt payload with
    checksum := transportChecksum src dest Ip.protocolTcp (header.rebuilt payload).toBytes }.toBytes

/-- The bytes of a datagram, as `_send_udp_datagram` seals it. -/
def Udp.wireBytes (src dest : IPv4Address) (header : Udp) (payload : Bytes) : Bytes :=
  let datagram := Udp.ofData header.srcPort header.destPort header.length 0 payload
  let checksum := transportChecksum src dest Ip.protocolUdp datagram.toBytes
  { datagram with checksum := if checksum = 0 then 0xFFFF else checksum }.toBytes

/-- The bytes of a message, as `_send_icmp_message` seals it. -/
def Icmp.wireBytes (header : Icmp) (payload : Bytes) : Bytes :=
  (Icmp.ofData header.type header.code 0 header.restOfHeader payload).computeChecksum.toBytes

theorem run_sendTcpSegment (h : s.hopFor destIp = some hop) (header : Tcp) (payload : Bytes) :
    (sendTcpSegment destIp header payload).run s =
      .ok () ((s.sent hop destIp (header.wireBytes hop.config.ip destIp payload)
        true).modifyInterface hop.egress (Interface.append (hop.frames s.nextIpId destIp Ip.protocolTcp
          (header.wireBytes hop.config.ip destIp payload) true))) := by
  rw [sendTcpSegment]
  dsimp only
  rw [run_bind_ok (run_sourceAddressFor h)]
  exact run_sendIpPacket_of_some h _ _ _ (.inr (.inl rfl))

theorem run_sendTcpSegment_of_none (h : s.hopFor destIp = none) (header : Tcp) (payload : Bytes) :
    s.routeFor destIp = none ∧ (sendTcpSegment destIp header payload).run s = .ok () s ∨
      s.routeFor destIp ≠ none ∧ ∃ fault : Fault, fault.isException = true ∧
        (sendTcpSegment destIp header payload).run s = .error fault s := by
  rw [sendTcpSegment]
  dsimp only
  rcases run_sourceAddressFor_bind s destIp _ with ⟨src, hrun⟩ | ⟨hroute, hrun⟩
  · rw [hrun]
    exact run_sendIpPacket_of_none h ..
  · exact .inr ⟨hroute, .outOfRange, rfl, hrun⟩

theorem after_sendTcpSegment_of_none (h : s.hopFor destIp = none) (header : Tcp) (payload : Bytes) :
    after (sendTcpSegment destIp header payload) s = s := by
  obtain ⟨-, hrun⟩ | ⟨-, fault, -, hrun⟩ := run_sendTcpSegment_of_none h header payload
  · exact after_ok hrun
  · exact after_error hrun

/-- A UDP datagram is on its way. -/
def NetworkStack.recordTransmitted (hop : Hop) (destIp : IPv4Address) (header : Udp) (payload : Bytes)
    (s : NetworkStack) : NetworkStack :=
  { s with transmitted := s.transmitted ++
      [⟨hop.egress, hop.nextHop, ⟨destIp, header.srcPort, header.destPort, payload⟩⟩] }

theorem run_sendUdpDatagram (h : s.hopFor destIp = some hop) (header : Udp) (payload : Bytes)
    (hroom : 0 < hop.config.maxIpPayload) : (sendUdpDatagram destIp header payload).run s =
      .ok () (((s.sent hop destIp (header.wireBytes hop.config.ip destIp payload) false).modifyInterface
        hop.egress (Interface.append (hop.frames s.nextIpId destIp Ip.protocolUdp
          (header.wireBytes hop.config.ip destIp payload) false))).recordTransmitted hop destIp header
            payload) := by
  rw [sendUdpDatagram]
  dsimp only
  rw [run_bind_ok (run_sourceAddressFor h),
    run_bind_ok (run_sendIpPacket_of_some h _ _ _ (.inr (.inr hroom))), run_get_bind,
    NetworkStack.routeFor_of_links (s := s) (by simp), (NetworkStack.hopFor_eq_some.1 h).1]
  rfl

theorem length_wireBytes_udp (src dest : IPv4Address) (header : Udp) (payload : Bytes) :
    (header.wireBytes src dest payload).length = 8 + payload.length := by
  rw [Udp.wireBytes, Udp.length_toBytes]
  exact congrArg (8 + ·) (congrArg List.length (Udp.payload_ofData ..))

theorem run_sendUdpDatagram_of_no_room (h : s.hopFor destIp = some hop) (header : Udp) (payload : Bytes)
    (hroom : hop.config.maxIpPayload = 0) : (sendUdpDatagram destIp header payload).run s =
      .error .diverges { s with nextIpId := s.nextIpId + 1 } := by
  have hlength := length_wireBytes_udp hop.config.ip destIp header payload
  rw [sendUdpDatagram]
  dsimp only
  rw [run_bind_ok (run_sourceAddressFor h)]
  exact run_bind_error (run_sendIpPacket_of_no_room h _ (header.wireBytes hop.config.ip destIp payload)
    hroom (by omega))

theorem run_sendUdpDatagram_of_none (h : s.hopFor destIp = none) (hroute : s.routeFor destIp ≠ none)
    (header : Udp) (payload : Bytes) : ∃ fault : Fault, fault.isException = true ∧
      (sendUdpDatagram destIp header payload).run s = .error fault s := by
  rw [sendUdpDatagram]
  dsimp only
  rcases run_sourceAddressFor_bind s destIp _ with ⟨src, hrun⟩ | ⟨-, hrun⟩
  · rw [hrun]
    obtain ⟨hnone, -⟩ | ⟨-, fault, hfault, hsend⟩ := run_sendIpPacket_of_none h Ip.protocolUdp _ false
    · exact absurd hnone hroute
    · exact ⟨fault, hfault, run_bind_error hsend⟩
  · exact ⟨.outOfRange, rfl, hrun⟩

theorem after_sendUdpDatagram_of_none (h : s.hopFor destIp = none) (header : Udp) (payload : Bytes) :
    after (sendUdpDatagram destIp header payload) s = s := by
  by_cases hroute : s.routeFor destIp = none
  · rw [after, sendUdpDatagram]
    dsimp only
    rcases run_sourceAddressFor_bind s destIp _ with ⟨src, hrun⟩ | ⟨hroute', -⟩
    · obtain ⟨-, hsend⟩ | ⟨hroute', -⟩ := run_sendIpPacket_of_none h Ip.protocolUdp _ false
      · rw [hrun, run_bind_ok hsend, run_get_bind, hroute]
        rfl
      · exact absurd hroute hroute'
    · exact absurd hroute hroute'
  · obtain ⟨fault, -, hrun⟩ := run_sendUdpDatagram_of_none h hroute header payload
    rw [after_error hrun]

theorem Interface.isSome_resolve (interface : Interface) (ip : IPv4Address) : (interface.resolve ip).isSome =
      (isBroadcastAddress ip interface.config || interface.arpTable.contains ip) := by
  unfold Interface.resolve ArpTable.lookup ArpTable.contains
  split_ifs with hbroadcast
  · simp [hbroadcast]
  · simp [hbroadcast]

/-! ### ARP -/

/-- The question for a neighbour. -/
def arpRequestFrame (config : InterfaceConfig) (targetIp : IPv4Address) : Written :=
  ⟨⟨config.mac, MacAddress.broadcast, Ethernet.etherTypeArp,
    .arp (Arp.request config.mac config.ip targetIp)⟩, none⟩

theorem run_ensureArpResolution {index : ℕ} {interface : Interface}
    (hinterface : s.interface? index = some interface) (ip : IPv4Address) :
    (ensureArpResolution index ip).run s =
      if (interface.arpRequestsInFlight.lookup ip).isSome then .ok () s
      else .ok () ((s.modifyInterface index (Interface.append [arpRequestFrame interface.config
        ip])).modifyInterface index (Interface.setArpRequest ip ⟨arpMaxRetries, arpRetryMs⟩)) := by
  rw [ensureArpResolution, run_bind_ok (run_interfaceAt hinterface)]
  by_cases hflight : (interface.arpRequestsInFlight.lookup ip).isSome = true
  · rw [if_pos hflight, if_pos hflight]
    rfl
  · rw [if_neg hflight, if_neg hflight, sendArpRequest, bind_assoc,
      run_bind_ok (run_interfaceAt hinterface)]
    rfl

variable {P : ℕ → Written → Prop}

/-- A neighbour is asked for, unless that has been done. -/
theorem writes_ensureArpResolution_iff {index : ℕ} {interface : Interface}
    (hinterface : s.interface? index = some interface) (ip : IPv4Address) :
    Writes P s (after (ensureArpResolution index ip) s) ↔
      (interface.arpRequestsInFlight.lookup ip = none →
        P index (arpRequestFrame interface.config ip)) := by
  have hrun := run_ensureArpResolution hinterface ip
  cases hflight : interface.arpRequestsInFlight.lookup ip with
  | some request =>
    rw [hflight, Option.isSome_some, if_pos rfl] at hrun
    rw [after_ok hrun]
    simpa using Std.Refl.refl s
  | none =>
    rw [hflight, Option.isSome_none, if_neg Bool.false_ne_true] at hrun
    rw [after_ok hrun, writes_iff hinterface
      (written_modifyInterface (f := Interface.setArpRequest ip _) (fun _ => rfl) index)]
    simp

/-! ### ICMP -/

theorem run_sendIcmpMessage_eq (h : s.hopFor destIp = some hop) (header : Icmp) (payload : Bytes) :
    (sendIcmpMessage destIp header payload).run s =
      (sendIpPacket destIp Ip.protocolIcmp (header.wireBytes payload) false).run s := by
  obtain ⟨hroute, interface, hinterface, -, hmac⟩ := NetworkStack.hopFor_eq_some.1 h
  have hknown := interface.isSome_resolve hop.nextHop
  rw [hmac, Option.isSome_some] at hknown
  rw [sendIcmpMessage, run_get_bind, hroute]
  dsimp only
  rw [run_bind_ok (run_interfaceAt hinterface), if_pos hknown.symm]
  rfl

theorem run_sendIcmpMessage (h : s.hopFor destIp = some hop) (header : Icmp) (payload : Bytes)
    (hroom : 0 < hop.config.maxIpPayload) : (sendIcmpMessage destIp header payload).run s =
      .ok () ((s.sent hop destIp (header.wireBytes payload) false).modifyInterface hop.egress
        (Interface.append (hop.frames s.nextIpId destIp Ip.protocolIcmp (header.wireBytes payload)
          false))) :=
  (run_sendIcmpMessage_eq h header payload).trans
    (run_sendIpPacket_of_some h _ _ _ (.inr (.inr hroom)))

/-- Without a neighbour a message is dropped, and the neighbour is asked for if there
is a way to it. -/
theorem run_sendIcmpMessage_of_none (h : s.hopFor destIp = none) (header : Icmp) (payload : Bytes) :
    s.routeFor destIp = none ∧ (sendIcmpMessage destIp header payload).run s = .ok () s ∨
    ∃ nextHop egress, s.routeFor destIp = some (nextHop, egress) ∧
      (s.interface? egress = none ∧ (sendIcmpMessage destIp header payload).run s = .error .outOfRange s ∨
        ∃ interface, s.interface? egress = some interface ∧ interface.resolve nextHop = none ∧
          (sendIcmpMessage destIp header payload).run s = (ensureArpResolution egress nextHop).run s) := by
  rw [sendIcmpMessage, run_get_bind]
  cases hroute : s.routeFor destIp with
  | none => exact .inl ⟨rfl, rfl⟩
  | some route =>
    obtain ⟨nextHop, egress⟩ := route
    refine .inr ⟨nextHop, egress, rfl, ?_⟩
    rw [NetworkStack.hopFor, hroute, Option.bind_some] at h
    dsimp only
    cases hinterface : s.interface? egress with
    | none => exact .inl ⟨rfl, run_bind_error (run_interfaceAt_of_none hinterface)⟩
    | some interface =>
      rw [hinterface, Option.bind_some, Option.map_eq_none_iff] at h
      have hknown := interface.isSome_resolve nextHop
      rw [h, Option.isSome_none] at hknown
      rw [run_bind_ok (run_interfaceAt hinterface), if_neg (by simp [← hknown])]
      exact .inr ⟨interface, rfl, h, rfl⟩

theorem after_sendIcmpMessage_of_none (h : s.hopFor destIp = none) (header : Icmp) (payload : Bytes) :
    (∀ nextHop egress interface, s.routeFor destIp = some (nextHop, egress) →
      s.interface? egress ≠ some interface) ∧ after (sendIcmpMessage destIp header payload) s = s ∨
    ∃ nextHop egress interface, s.routeFor destIp = some (nextHop, egress) ∧
      s.interface? egress = some interface ∧ interface.resolve nextHop = none ∧
      after (sendIcmpMessage destIp header payload) s = after (ensureArpResolution egress nextHop) s := by
  rcases run_sendIcmpMessage_of_none h header payload with ⟨hroute, hrun⟩ | ⟨nextHop, egress, hroute,
    ⟨hinterface, hrun⟩ | ⟨interface, hinterface, hresolve, hrun⟩⟩
  · exact .inl ⟨by simp [hroute], after_ok hrun⟩
  · refine .inl ⟨?_, after_error hrun⟩
    rintro nextHop' egress' interface' hroute'
    cases hroute.symm.trans hroute'
    simp [hinterface]
  · exact .inr ⟨nextHop, egress, interface, hroute, hinterface, hresolve, by rw [after, hrun, after]⟩

theorem length_wireBytes_icmp (header : Icmp) (payload : Bytes) :
    (header.wireBytes payload).length = 8 + payload.length := by
  rw [Icmp.wireBytes, Icmp.length_toBytes]
  exact congrArg (8 + ·) (congrArg List.length (Icmp.payload_ofData ..))

theorem run_sendIcmpMessage_of_no_room (h : s.hopFor destIp = some hop) (header : Icmp) (payload : Bytes)
    (hroom : hop.config.maxIpPayload = 0) : (sendIcmpMessage destIp header payload).run s =
      .error .diverges { s with nextIpId := s.nextIpId + 1 } := by
  have hlength := length_wireBytes_icmp header payload
  rw [run_sendIcmpMessage_eq h]
  exact run_sendIpPacket_of_no_room h _ (header.wireBytes payload) hroom (by omega)

/-- There is a neighbour that carries an ICMP message. -/
def NetworkStack.CarriesMessage (s : NetworkStack) (destIp : IPv4Address) : Prop :=
  ∃ hop, s.hopFor destIp = some hop ∧ 0 < hop.config.maxIpPayload

/-- What an ICMP message of some bytes would write: its packets if the neighbour is
known, and otherwise the question for it. -/
@[mk_iff]
structure IcmpWrites (P : ℕ → Written → Prop) (s : NetworkStack) (destIp : IPv4Address) (bytes : Bytes) :
    Prop where
  packets : ∀ hop, s.hopFor destIp = some hop → 0 < hop.config.maxIpPayload →
    ∀ w ∈ hop.frames s.nextIpId destIp Ip.protocolIcmp bytes false, P hop.egress w
  request : ∀ nextHop egress interface, s.routeFor destIp = some (nextHop, egress) →
    s.interface? egress = some interface → interface.resolve nextHop = none →
      interface.arpRequestsInFlight.lookup nextHop = none →
        P egress (arpRequestFrame interface.config nextHop)

/-- **What an ICMP message writes.** -/
theorem writes_sendIcmpMessage_iff (header : Icmp) (payload : Bytes) :
    Writes P s (after (sendIcmpMessage destIp header payload) s) ↔
      IcmpWrites P s destIp (header.wireBytes payload) := by
  rw [icmpWrites_iff]
  cases hhop : s.hopFor destIp with
  | some hop =>
    obtain ⟨hroute, interface, hinterface, -, hmac⟩ := NetworkStack.hopFor_eq_some.1 hhop
    rw [and_iff_left]
    swap
    · intro nextHop egress interface' hroute' hinterface' hnone
      cases hroute.symm.trans hroute'
      cases hinterface.symm.trans hinterface'
      cases hmac.symm.trans hnone
    rcases Nat.eq_zero_or_pos hop.config.maxIpPayload with hzero | hpos
    · rw [after_error (run_sendIcmpMessage_of_no_room hhop header payload hzero)]
      refine iff_of_true (.of_eq fun _ => rfl) fun hop' hhop' hpos => ?_
      cases hhop'
      omega
    · rw [after_ok (run_sendIcmpMessage hhop header payload hpos), writes_iff hinterface
        (written_sent _ _ _ _ _ _)]
      constructor
      · rintro h _ ⟨⟩ -
        exact h
      · exact fun h => h hop rfl hpos
  | none =>
    rw [and_iff_right (by rintro hop ⟨⟩)]
    rcases after_sendIcmpMessage_of_none hhop header payload with
      ⟨hnone, hafter⟩ | ⟨nextHop, egress, interface, hroute, hinterface, hresolve, hafter⟩
    · rw [hafter]
      exact iff_of_true (Std.Refl.refl s) fun _ _ _ hroute hinterface =>
        absurd hinterface (hnone _ _ _ hroute)
    · rw [hafter, writes_ensureArpResolution_iff hinterface]
      constructor
      · rintro h nextHop' egress' interface' hroute' hinterface' -
        cases hroute.symm.trans hroute'
        cases hinterface.symm.trans hinterface'
        exact h
      · exact fun h => h nextHop egress interface hroute hinterface hresolve

theorem run_maySendIcmpError_of_lt (h : s.icmpErrorTokensScaled < msPerSecond) :
    maySendIcmpError.run s = .ok false s := by
  rw [maySendIcmpError, run_get_bind, if_pos h]
  rfl

theorem run_maySendIcmpError_of_le (h : msPerSecond ≤ s.icmpErrorTokensScaled) : maySendIcmpError.run s =
      .ok true { s with icmpErrorTokensScaled := s.icmpErrorTokensScaled - msPerSecond } := by
  rw [maySendIcmpError, run_get_bind, if_neg (not_lt.2 h)]
  rfl

/-- **What an ICMP error writes**, if the budget allows it. -/
theorem writes_sendIcmpError_iff (type code : UInt8) (ip : Ip) :
    Writes P s (after (sendIcmpError type code ip) s) ↔
      (msPerSecond ≤ s.icmpErrorTokensScaled → IcmpWrites P s ip.srcAddress
        ((Icmp.ofData type code 0 0 []).wireBytes (ip.toBytes.take 28))) := by
  rw [sendIcmpError]
  by_cases hbudget : s.icmpErrorTokensScaled < msPerSecond
  · rw [after_bind_ok (run_maySendIcmpError_of_lt hbudget)]
    exact iff_of_true (Std.Refl.refl s) fun h => absurd hbudget (not_lt.2 h)
  · rw [after_bind_ok (run_maySendIcmpError_of_le (not_lt.1 hbudget)), if_pos rfl,
      imp_iff_right (not_lt.1 hbudget), icmpWrites_iff]
    exact (writes_sendIcmpMessage_iff
      (s := { s with icmpErrorTokensScaled := s.icmpErrorTokensScaled - msPerSecond }) ..).trans
      (icmpWrites_iff ..)

end Send

end TcpIpStack
