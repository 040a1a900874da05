/-
# Fragmentation

What `_send_ip_packet` writes.  With a route and a known neighbour it writes one
packet if the payload fits, drops the payload if it must not be fragmented, and
otherwise writes the tiles of the payload (`sendIpPacket_eq`).

An MTU that leaves room for eight octets behind the header is enough for all of
that to be right.  A smaller one is not: the loop then never advances, or, below
the header itself, the subtraction wraps and everything goes out in one packet
(`sendIpPacket_survives_iff`).  A DHCP server can configure either.
-/

import TcpIpStack.Lib.Tiling
import TcpIpStack.Stack.Output

namespace TcpIpStack

open Programs StackM

/-! ### The fragments are tiles -/

/-- The packet of one tile of a payload of `total` octets. -/
def fragmentPacket (src dest : IPv4Address) (protocol : UInt8) (identification : UInt16) (total : ℕ)
    (tile : ℕ × Bytes) : Ip :=
  ipPacket src dest protocol identification
    (if tile.1 + tile.2.length < total then Ip.flagMoreFragments else 0)
    (UInt16.ofNat (tile.1 / 8)) tile.2

theorem getIpFlagM_fragmentPacket (src dest : IPv4Address) (protocol : UInt8) (identification : UInt16)
    (total : ℕ) (tile : ℕ × Bytes) : (fragmentPacket src dest protocol identification total tile).getIpFlagM =
      decide (tile.1 + tile.2.length < total) := by
  rcases Nat.lt_or_ge (tile.1 + tile.2.length) total with hmore | hlast
  · rw [fragmentPacket, if_pos hmore, decide_eq_true hmore]
    change (Ip.flagMoreFragments &&& 0xE0 &&& Ip.flagMoreFragments != 0) = true
    decide
  · rw [fragmentPacket, if_neg (by omega), decide_eq_false (by omega)]
    change ((0 : UInt8) &&& 0xE0 &&& Ip.flagMoreFragments != 0) = false
    decide

section Fragments

variable {src dest : IPv4Address} {protocol : UInt8} {identification : UInt16} {maxIpPayload : ℕ}
  {payload : Bytes}

/-- The loop ends if a frame carries anything, and its packets are the tiles. -/
theorem fragments_eq (hmax : 0 < maxIpPayload) {fuel offset : ℕ} (h : payload.length ≤ offset + fuel) :
    fragments src dest protocol identification maxIpPayload payload fuel offset =
      some ((Tiling.cutFrom maxIpPayload payload fuel offset).map
        (fragmentPacket src dest protocol identification payload.length)) := by
  induction fuel generalizing offset with
  | zero => rw [fragments, if_pos (by omega), Tiling.cutFrom, List.map_nil]
  | succ fuel ih =>
    rw [fragments, Tiling.cutFrom]
    split_ifs with hstop
    · rfl
    · rcases Nat.lt_or_ge (payload.length - offset) maxIpPayload with hlast | hfull
      · -- the last turn: the rest is one tile, and nothing follows
        have hrest : Tiling.cutFrom maxIpPayload payload fuel (offset + maxIpPayload) = [] :=
          Tiling.cutFrom_of_length_le (by omega)
        have hpiece : (payload.drop offset).take maxIpPayload = payload.drop offset :=
          List.take_of_length_le (by rw [List.length_drop]; omega)
        have hpiece' : (payload.drop offset).take (payload.length - offset) = payload.drop offset :=
          List.take_of_length_le (by rw [List.length_drop])
        dsimp only
        rw [Nat.min_eq_right hlast.le, ih (by omega), Tiling.cutFrom_of_length_le (by omega), hrest,
          hpiece, hpiece', Option.map_some, List.map_nil, List.map_singleton, fragmentPacket]
        dsimp only
        rw [List.length_drop]
      · have hlength : ((payload.drop offset).take maxIpPayload).length = maxIpPayload := by
          rw [List.length_take, List.length_drop]
          omega
        dsimp only
        rw [Nat.min_eq_left hfull, ih (by omega), Option.map_some, List.map_cons, fragmentPacket, hlength]

/-- **The loop never ends** if a frame carries nothing. -/
theorem fragments_zero (fuel : ℕ) {offset : ℕ} (h : offset < payload.length) :
    fragments src dest protocol identification 0 payload fuel offset = none := by
  induction fuel with
  | zero => rw [fragments, if_neg (by omega)]
  | succ fuel ih =>
    rw [fragments, if_neg (by omega)]
    dsimp only
    rw [Nat.zero_min, Nat.add_zero, ih, Option.map_none]

end Fragments

/-! ### What is written -/

theorem written_append {s : NetworkStack} {index : ℕ} {interface : Interface}
    (h : s.interface? index = some interface) (written : List Written) :
    ((s.modifyInterface index (Interface.append written)).interface? index).map Interface.written =
      some (interface.written ++ written) := by
  rw [NetworkStack.interface?_modifyInterface, if_pos rfl, h]
  rfl

theorem run_forM_write (index : ℕ) (f : Ip → Written) (packets : List Ip) (s : NetworkStack) :
    (packets.forM fun ip => write index (f ip)).run s =
      .ok () (s.modifyInterface index (Interface.append (packets.map f))) := by
  induction packets generalizing s with
  | nil =>
    rw [List.map_nil, Interface.append_nil, NetworkStack.modifyInterface_id]
    rfl
  | cons ip packets ih =>
    rw [forM_cons, write, run_modify_bind, ih, NetworkStack.modifyInterface_modifyInterface,
      Interface.append_comp_append, List.map_cons, List.singleton_append]

section Send

variable {s : NetworkStack} {destIp nextHop : IPv4Address} {egress : ℕ} {interface : Interface}
  {mac : MacAddress}

theorem run_interfaceAt (h : s.interface? egress = some interface) :
    (interfaceAt egress).run s = .ok interface s := by
  rw [interfaceAt, run_get_bind, h]
  rfl

theorem run_interfaceAt_of_none (h : s.interface? egress = none) :
    (interfaceAt egress).run s = .error .outOfRange s := by
  rw [interfaceAt, run_get_bind, h]
  rfl

theorem run_resolveMac (h : s.interface? egress = some interface)
    (hmac : interface.resolve nextHop = some mac) : (resolveMac egress nextHop).run s = .ok mac s := by
  rw [resolveMac, run_bind_ok (run_interfaceAt h), hmac]
  rfl

/-- **What `_send_ip_packet` does** with a route and a known neighbour. -/
theorem run_sendIpPacket (hroute : s.routeFor destIp = some (nextHop, egress))
    (hinterface : s.interface? egress = some interface) (hmac : interface.resolve nextHop = some mac)
    (protocol : UInt8) (payload : Bytes) (dontFragment : Bool) :
    (sendIpPacket destIp protocol payload dontFragment).run s =
      if payload.length ≤ interface.config.maxIpPayload then
        .ok () (s.modifyInterface egress (Interface.append [ipFrame interface.config.mac mac nextHop
          (ipPacket interface.config.ip destIp protocol 0
            (if dontFragment then Ip.flagDontFragment else 0) 0 payload)]))
      else if dontFragment then
        .ok () { s with oversized := s.oversized ++ [(destIp, payload)] }
      else
        match fragments interface.config.ip destIp protocol s.nextIpId interface.config.maxIpPayload
          payload payload.length 0 with
        | none => .error .diverges { s with nextIpId := s.nextIpId + 1 }
        | some packets => .ok () (({ s with nextIpId := s.nextIpId + 1 } : NetworkStack).modifyInterface
            egress (Interface.append (packets.map (ipFrame interface.config.mac mac nextHop)))) := by
  rw [sendIpPacket, run_get_bind, hroute]
  dsimp only
  rw [run_bind_ok (run_interfaceAt hinterface), run_bind_ok (run_resolveMac hinterface hmac)]
  by_cases hfits : payload.length ≤ interface.config.maxIpPayload
  · rw [if_pos hfits, if_pos hfits]
    rfl
  · rw [if_neg hfits, if_neg hfits]
    cases dontFragment with
    | true => rfl
    | false =>
      rw [if_neg Bool.false_ne_true, if_neg Bool.false_ne_true, run_get_bind, run_modify_bind]
      cases fragments interface.config.ip destIp protocol s.nextIpId interface.config.maxIpPayload
          payload payload.length 0 with
      | none => rfl
      | some packets => exact run_forM_write ..

/-! ### Every MTU -/

theorem payload_ipPacket (src dest : IPv4Address) (protocol : UInt8) (identification : UInt16)
    (flags : UInt8) (fragmentOffset : UInt16) (payload : Bytes) :
    (ipPacket src dest protocol identification flags fragmentOffset payload).payload = payload := rfl

theorem length_toBytes_ipPacket (src dest : IPv4Address) (protocol : UInt8) (identification : UInt16)
    (flags : UInt8) (fragmentOffset : UInt16) (payload : Bytes) :
    (ipPacket src dest protocol identification flags fragmentOffset payload).toBytes.length =
      20 + payload.length := Ip.length_toBytes_build

/-- What a send should do on an interface: return, having written nothing, or
packets that fit the link and carry the payload between them. -/
def SendSurvives (s : NetworkStack) (egress : ℕ) (interface : Interface) (mac : MacAddress)
    (destIp nextHop : IPv4Address) (protocol : UInt8) (payload : Bytes) (dontFragment : Bool) : Prop :=
  ∃ s' packets, (sendIpPacket destIp protocol payload dontFragment).run s = .ok () s' ∧
    (s'.interface? egress).map Interface.written =
      some (interface.written ++ packets.map (ipFrame interface.config.mac mac nextHop)) ∧
    (packets = [] ∨ (∀ ip ∈ packets, ip.toBytes.length ≤ interface.config.mtu.toNat) ∧
      packets.flatMap Ip.payload = payload)

theorem packets_eq_of_written {packets packets' : List Ip} (hinterface : s.interface? egress = some interface)
    (h : ((s.modifyInterface egress (Interface.append
        (packets.map (ipFrame interface.config.mac mac nextHop)))).interface? egress).map Interface.written =
      some (interface.written ++ packets'.map (ipFrame interface.config.mac mac nextHop))) :
    packets' = packets := by
  have hinjective : Function.Injective (ipFrame interface.config.mac mac nextHop) := by
    intro ip ip' heq
    simpa [ipFrame] using heq
  rw [written_append hinterface, Option.some_inj, List.append_cancel_left_eq] at h
  exact (List.map_injective_iff.2 hinjective h).symm

section Survives

variable (hroute : s.routeFor destIp = some (nextHop, egress))
  (hinterface : s.interface? egress = some interface) (hmac : interface.resolve nextHop = some mac)
  (protocol : UInt8) {payload : Bytes} {dontFragment : Bool}

include hroute hinterface hmac

theorem survives_of_fits (hfits : payload.length ≤ interface.config.maxIpPayload)
    (hmtu : 20 + payload.length ≤ interface.config.mtu.toNat) :
    SendSurvives s egress interface mac destIp nextHop protocol payload dontFragment := by
  have hrun := run_sendIpPacket hroute hinterface hmac protocol payload dontFragment
  rw [if_pos hfits] at hrun
  refine ⟨_, [ipPacket interface.config.ip destIp protocol 0
    (if dontFragment then Ip.flagDontFragment else 0) 0 payload], hrun, ?_, .inr ⟨?_, ?_⟩⟩
  · exact written_append hinterface _
  · intro ip hip
    rw [List.mem_singleton.1 hip, length_toBytes_ipPacket]
    exact hmtu
  · rw [List.flatMap_singleton, payload_ipPacket]

theorem survives_of_drop (hlarge : interface.config.maxIpPayload < payload.length)
    (hdont : dontFragment = true) :
    SendSurvives s egress interface mac destIp nextHop protocol payload dontFragment := by
  refine ⟨{ s with oversized := s.oversized ++ [(destIp, payload)] }, [], ?_, ?_, .inl rfl⟩
  · rw [run_sendIpPacket hroute hinterface hmac, if_neg (by omega), if_pos hdont]
  · have hsame : ({ s with oversized := s.oversized ++ [(destIp, payload)] } : NetworkStack).interface?
        egress = some interface := hinterface
    rw [hsame, Option.map_some, List.map_nil, List.append_nil]

/-- Fragments fit the link and join to the payload. -/
theorem survives_of_fragments (hmtu : 28 ≤ interface.config.mtu.toNat)
    (hlarge : interface.config.maxIpPayload < payload.length) (hdont : ¬ dontFragment = true) :
    SendSurvives s egress interface mac destIp nextHop protocol payload dontFragment := by
  have hmax := interface.config.maxIpPayload_of_le (by omega)
  have hpos : 0 < interface.config.maxIpPayload := by omega
  have hrun := run_sendIpPacket hroute hinterface hmac protocol payload dontFragment
  rw [if_neg (by omega), if_neg hdont, fragments_eq hpos (by omega)] at hrun
  refine ⟨_, (Tiling.cut interface.config.maxIpPayload payload).map
    (fragmentPacket interface.config.ip destIp protocol s.nextIpId payload.length), hrun, ?_,
    .inr ⟨?_, ?_⟩⟩
  · exact written_append (s := { s with nextIpId := s.nextIpId + 1 }) hinterface _
  · intro ip hip
    obtain ⟨tile, htile, rfl⟩ := List.mem_map.1 hip
    obtain ⟨-, htile, -⟩ := Tiling.mem_cut htile
    have hlength : tile.2.length ≤ interface.config.maxIpPayload := by
      rw [htile, List.length_take]
      omega
    rw [fragmentPacket, length_toBytes_ipPacket]
    omega
  · rw [List.flatMap_map]
    exact Tiling.join_cut hpos

theorem not_survives_of_short (hmtu : interface.config.mtu.toNat < 20) (hpayload : payload.length ≤ 65515) :
    ¬ SendSurvives s egress interface mac destIp nextHop protocol payload dontFragment := by
  rintro ⟨s', packets, hrun, hwritten, hpackets⟩
  have hmax := InterfaceConfig.maxIpPayload_of_lt hmtu
  rw [run_sendIpPacket hroute hinterface hmac, if_pos (by omega)] at hrun
  cases hrun
  have hone : packets = [_] := packets_eq_of_written hinterface hwritten
  subst hone
  rcases hpackets with hnil | ⟨hfit, -⟩
  · cases hnil
  · have hle := hfit _ List.mem_cons_self
    rw [length_toBytes_ipPacket] at hle
    omega

theorem not_survives_of_no_room (hmtu : 20 ≤ interface.config.mtu.toNat)
    (hmtu' : interface.config.mtu.toNat < 28) (hpayload : payload ≠ []) (hdont : ¬ dontFragment = true) :
    ¬ SendSurvives s egress interface mac destIp nextHop protocol payload dontFragment := by
  rintro ⟨s', packets, hrun, -, -⟩
  have hmax : interface.config.maxIpPayload = 0 := by
    rw [interface.config.maxIpPayload_of_le hmtu]
    omega
  have hpos := List.length_pos_iff.2 hpayload
  rw [run_sendIpPacket hroute hinterface hmac, hmax, if_neg (by omega), if_neg hdont,
    fragments_zero _ hpos] at hrun
  cases hrun

/-- **A send survives exactly the MTUs that leave room for a fragment**, except
that a link without any room carries an empty payload and drops what must not be
fragmented. -/
theorem sendIpPacket_survives_iff (payload : Bytes) (dontFragment : Bool)
    (hpayload : payload.length ≤ 65515) :
    SendSurvives s egress interface mac destIp nextHop protocol payload dontFragment ↔
      28 ≤ interface.config.mtu.toNat ∨
        20 ≤ interface.config.mtu.toNat ∧ (payload = [] ∨ dontFragment = true) := by
  constructor
  · intro hsurvives
    by_contra hcondition
    rw [not_or, not_and_or, not_or] at hcondition
    obtain ⟨hroom, hshort | ⟨hne, hdont⟩⟩ := hcondition
    · exact not_survives_of_short hroute hinterface hmac protocol (by omega) hpayload hsurvives
    · rcases Nat.lt_or_ge interface.config.mtu.toNat 20 with hlt | hge
      · exact not_survives_of_short hroute hinterface hmac protocol hlt hpayload hsurvives
      · exact not_survives_of_no_room hroute hinterface hmac protocol hge (by omega) hne hdont hsurvives
  · intro hcondition
    have hmtu : 20 ≤ interface.config.mtu.toNat := by omega
    have hmax := interface.config.maxIpPayload_of_le hmtu
    rcases Nat.lt_or_ge interface.config.maxIpPayload payload.length with hlarge | hfits
    · by_cases hdont : dontFragment = true
      · exact survives_of_drop hroute hinterface hmac protocol hlarge hdont
      · refine survives_of_fragments hroute hinterface hmac protocol ?_ hlarge hdont
        rcases hcondition with hroom | ⟨-, rfl | htrue⟩
        · exact hroom
        · exact absurd hlarge (Nat.not_lt_zero _)
        · exact absurd htrue hdont
    · exact survives_of_fits hroute hinterface hmac protocol hfits (by omega)

end Survives

end Send

/-- A stack on a link of a given MTU. -/
def stackOnLink (mtu : UInt16) : NetworkStack :=
  NetworkStack.new { mac := MacAddress.zero, ip := ⟨0x0A000001⟩, mtu := mtu } fun _ => 0

/-- The smallest MTU that carries a payload carries twenty octets, in three fragments. -/
theorem smallest_link_survives :
    (stackOnLink 28).primary.config.maxIpPayload = 8 ∧
      SendSurvives (stackOnLink 28) 0 (stackOnLink 28).primary MacAddress.broadcast
        limitedBroadcastAddress limitedBroadcastAddress Ip.protocolUdp (List.replicate 20 0) false :=
  ⟨by decide, (sendIpPacket_survives_iff rfl rfl rfl Ip.protocolUdp (List.replicate 20 0) false (by decide)).2
    (.inl (by decide))⟩

/-- **An MTU of 27 hangs the stack**: a broadcast of one octet is cut into
fragments of no octets, for as long as the loop is let run. -/
theorem mtu_27_never_returns :
    ¬ SendSurvives (stackOnLink 27) 0 (stackOnLink 27).primary MacAddress.broadcast
      limitedBroadcastAddress limitedBroadcastAddress Ip.protocolUdp [0] false ∧
    ∀ fuel, fragments ⟨0x0A000001⟩ limitedBroadcastAddress Ip.protocolUdp 1
      (stackOnLink 27).primary.config.maxIpPayload [0] fuel 0 = none :=
  ⟨not_survives_of_no_room rfl rfl rfl _ (by decide) (by decide) (by decide) (by decide),
    fun fuel => fragments_zero fuel (by decide)⟩

end TcpIpStack
