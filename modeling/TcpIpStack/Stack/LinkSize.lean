/-
# No frame is larger than its link takes

Whatever this host sends is cut to the link it leaves by: a packet carries at most
`max_ip_payload` bytes behind its header.  `_forward_ip` never looks at the MTU.  A
packet from a link with a larger one is written as it came, and its source is not told
when it must not be fragmented (`large_packet_passed_on`).

`link_size_respected_iff` says that this is the only way to write too large a frame.
-/

import TcpIpStack.Stack.Changes

namespace TcpIpStack

open Programs StackM Runs

/-- The bytes behind the Ethernet header of an IP packet. -/
def Written.ipLength (w : Written) : ℕ :=
  match w.frame.nextLayer with
  | .ip packet => packet.toBytes.length
  | .raw data => data.length
  | .arp _ => 0

/-- An ICMP Fragmentation Needed. -/
def Written.FragmentationNeeded (w : Written) (source : IPv4Address) : Prop :=
  ∃ packet, w.frame.nextLayer = .ip packet ∧ packet.destAddress = source ∧
    packet.protocol = Ip.protocolIcmp ∧
    packet.payload.take 2 = [Icmp.destinationUnreachable, Icmp.codeFragmentationNeeded]

/-- Between two states an interface was given some frames to write. -/
def WritesTo (s s' : NetworkStack) (index : ℕ) (interface : Interface) (frames : List Written) : Prop :=
  s.interface? index = some interface ∧
    (s'.interface? index).map Interface.written = some (interface.written ++ frames)

/-- What a step wrote fits the links.  The source of a packet that does not fit the link
it is to be passed on to, and must not be fragmented, is told so, if there is a budget
and a neighbour for the message. -/
structure RespectsLinkSize (a : Step) (s s' : NetworkStack) : Prop where
  fits : ∀ index interface frames, WritesTo s s' index interface frames →
    ∀ w ∈ frames, w.ipLength ≤ interface.config.mtu.toNat
  reported : ∀ ip ipBytes nextHop egress out, a.Forwards s ip ipBytes nextHop egress out →
    out.config.mtu.toNat < ip.totalLength.toNat → ip.getIpFlagD = true →
    msPerSecond ≤ s.icmpErrorTokensScaled → s.CarriesMessage ip.srcAddress →
    ∃ index interface frames, WritesTo s s' index interface frames ∧
      ∃ w ∈ frames, w.FragmentationNeeded ip.srcAddress

/-- A step brings a packet that is too large for the link it is to be passed on to, and
the next hop is known or the source would have to be told. -/
def Step.Oversizes (a : Step) (s : NetworkStack) : Prop :=
  ∃ ip ipBytes nextHop egress out, a.Forwards s ip ipBytes nextHop egress out ∧
    (out.config.mtu.toNat < ipBytes.length ∧ out.arpTable.lookup nextHop ≠ none ∨
      out.config.mtu.toNat < ip.totalLength.toNat ∧ ip.getIpFlagD = true ∧
        msPerSecond ≤ s.icmpErrorTokensScaled ∧ s.CarriesMessage ip.srcAddress)

section

variable {a : Step} {s s' : NetworkStack}

/-! ### Packets of this host -/

/-- **A packet of this host fits its link.** -/
theorem length_packet_le {hop : Hop} (hmtu : 28 ≤ hop.config.mtu.toNat) {identification : UInt16}
    {destIp : IPv4Address} {protocol : UInt8} {payload : Bytes} {dontFragment : Bool} {ip : Ip}
    (h : ip ∈ hop.packets identification destIp protocol payload dontFragment) :
    (hop.frame ip).ipLength ≤ hop.config.mtu.toNat := by
  obtain ⟨identification', flags, offset, piece, hpiece, rfl⟩ := Hop.packet_eq_of_mem h
  change (ipPacket hop.config.ip destIp protocol identification' flags offset piece).toBytes.length ≤ _
  rw [ipPacket, Ip.length_toBytes_build]
  rw [InterfaceConfig.maxIpPayload_of_le _ (by omega)] at hpiece
  omega

theorem config_of_hopFor {t : NetworkStack} (hsetting : t.setting = s.setting) {destIp : IPv4Address}
    {hop : Hop} (hhop : t.hopFor destIp = some hop) :
    ∃ interface, s.interface? hop.egress = some interface ∧ interface.config = hop.config := by
  obtain ⟨-, interface, hinterface, hconfig, -⟩ := NetworkStack.hopFor_eq_some.1 hhop
  have hconfigs := NetworkStack.config_of_setting hsetting hop.egress
  rw [hinterface, Option.map_some] at hconfigs
  obtain ⟨interface', hinterface', hconfig'⟩ := Option.map_eq_some_iff.1 hconfigs.symm
  exact ⟨interface', hinterface', hconfig'.trans hconfig⟩

theorem length_forwardedBytes (ttl : UInt8) (ipBytes : Bytes) :
    (forwardedBytes ttl ipBytes).length = ipBytes.length := by
  simp [forwardedBytes]

/-- A frame fits if it is not too large a packet on its way through. -/
theorem Origin.fits (hmtu : ∀ interface ∈ s.interfaces, 28 ≤ interface.config.mtu.toNat)
    (hover : ¬ a.Oversizes s) {t : NetworkStack} (hsetting : t.setting = s.setting) {index : ℕ}
    {interface : Interface} (hinterface : s.interface? index = some interface) {w : Written}
    (h : Origin a s t index w) : w.ipLength ≤ interface.config.mtu.toNat := by
  cases h with
  | packet hop destIp protocol bytes dontFragment identification ip hhop hegress hip =>
    subst hegress
    obtain ⟨interface', hinterface', hconfig⟩ := config_of_hopFor hsetting hhop
    rw [hinterface] at hinterface'
    cases hinterface'
    have hsize := hmtu interface (List.mem_of_getElem? hinterface)
    rw [hconfig] at hsize ⊢
    exact length_packet_le hsize hip
  | arp frame packet hframe =>
    rw [Written.ipLength, hframe]
    exact Nat.zero_le _
  | passedOn ip ipBytes nextHop out mac _ hforwards hmac =>
    obtain rfl : out = interface := Option.some.inj (hforwards.interface.symm.trans hinterface)
    refine Nat.le_of_not_lt fun hlarge => hover ⟨ip, ipBytes, nextHop, index, out, hforwards, .inl ⟨?_, ?_⟩⟩
    · rwa [← length_forwardedBytes ip.ttl]
    · simp [hmac]

/-- A step that configures the stack writes nothing. -/
theorem nil_of_configures (ha : a.Configures) (h : a.run s = some s') {index : ℕ} {interface : Interface}
    {frames : List Written} (hwrites : WritesTo s s' index interface frames) : frames = [] := by
  obtain ⟨hinterface, hframes⟩ := hwrites
  have hwritten : (s'.interface? index).map Interface.written = some interface.written := by
    rw [Step.eq_after_of_run h]
    cases a with
    | addStaticArpEntry ip mac =>
      rw [← Option.map_some, ← hinterface]
      exact written_modifyInterface (s := s) (f := fun i => { i with arpTable := i.arpTable.addStatic ip mac })
        (fun _ => rfl) 0 index
    | addRoute => exact congrArg (Option.map Interface.written) hinterface
    | addInterface config =>
      have hbound := (List.getElem?_eq_some_iff.1 hinterface).1
      have hsame : (s.interfaces ++ [NetworkStack.newInterface config])[index]? = some interface :=
        (List.getElem?_append_left hbound).trans hinterface
      exact congrArg (Option.map Interface.written) hsame
    | configureInterface config =>
      cases index with
      | zero => exact congrArg (Option.map Interface.written) hinterface
      | succ index => exact congrArg (Option.map Interface.written) hinterface
    | _ => exact ha.elim
  rw [hframes, Option.some_inj] at hwritten
  exact List.append_right_eq_self.1 hwritten

/-- **Nothing else writes too large a frame.** -/
theorem respectsLinkSize_of_not_oversizes
    (hmtu : ∀ interface ∈ s.interfaces, 28 ≤ interface.config.mtu.toNat) (h : a.run s = some s')
    (hover : ¬ a.Oversizes s) : RespectsLinkSize a s s' := by
  refine ⟨fun index interface frames hwrites => ?_, ?_⟩
  · by_cases ha : a.Configures
    · rw [nil_of_configures ha h hwrites]
      simp
    · have hpath := (Step.run_path h).setting_and_writes
        (P := fun index w => ∀ interface, s.interface? index = some interface →
          w.ipLength ≤ interface.config.mtu.toNat) ha
        fun t index w hsetting horigin interface hinterface => horigin.fits hmtu hover hsetting hinterface
      intro w hw
      exact hpath.2.forall_of_append hwrites.1 hwrites.2 w hw interface hwrites.1
  · intro ip ipBytes nextHop egress out hforwards hlarge hdont hbudget hcarries
    exact absurd ⟨ip, ipBytes, nextHop, egress, out, hforwards, .inr ⟨hlarge, hdont, hbudget, hcarries⟩⟩
      hover

/-! ### Packets on their way through -/

/-- What becomes of a packet that is to be passed on. -/
theorem Step.Forwards.run {ip : Ip} {ipBytes : Bytes} {nextHop : IPv4Address} {egress : ℕ}
    {out : Interface} (h : a.Forwards s ip ipBytes nextHop egress out) (hrun : a.run s = some s') :
    s' = match out.arpTable.lookup nextHop with
      | none => after (ensureArpResolution egress nextHop) s
      | some mac => s.modifyInterface egress (Interface.append
          [forwardedFrame out.config mac nextHop (forwardedBytes ip.ttl ipBytes)]) := by
  obtain ⟨ingress, inbound, hreceives, hleaves, hegress⟩ := h.received
  obtain ⟨bytes, src, dest, etherType, rfl, rfl, hparse, haddressed⟩ := hreceives.frame
  have hlength := (Ip.headerToBytes_of_fromBytes (Ethernet.ip_of_fromBytes hparse)).1
  have hroute : after (forwardIp ingress ip (bytes.drop 14)) s = _ :=
    after_forwardIp_of_route h.intact h.ttl h.route
  rw [if_neg (not_or.2 ⟨hegress, Nat.not_lt.2 hlength⟩), h.interface] at hroute
  rw [Step.eq_after_of_run hrun]
  change after (handleFrame ingress bytes) s = _
  rw [after_handleFrame_of_ip hparse hreceives.interface haddressed,
    after_handleIp_of_forwarding hreceives.interface hleaves]
  exact hroute

theorem Step.Forwards.not_reported {ip : Ip} {ipBytes : Bytes} {nextHop : IPv4Address} {egress : ℕ}
    {out : Interface} (h : a.Forwards s ip ipBytes nextHop egress out) (hrun : a.run s = some s')
    (source : IPv4Address) : Writes (fun _ w => ¬ w.FragmentationNeeded source) s s' := by
  rw [h.run hrun]
  cases out.arpTable.lookup nextHop with
  | none =>
    rw [writes_ensureArpResolution_iff h.interface]
    rintro - ⟨packet, hpacket, -⟩
    cases hpacket
  | some mac =>
    refine writes_append s egress (List.forall_mem_singleton.2 ?_)
    rintro ⟨packet, hpacket, -⟩
    cases hpacket

/-- **Every frame fits its link, and the source of a packet that does not is told,
exactly if** no packet comes in that is too large for the link it is to be passed on
to. -/
theorem link_size_respected_iff (hmtu : ∀ interface ∈ s.interfaces, 28 ≤ interface.config.mtu.toNat)
    (h : a.run s = some s') : RespectsLinkSize a s s' ↔ ¬ a.Oversizes s := by
  refine ⟨?_, respectsLinkSize_of_not_oversizes hmtu h⟩
  rintro hrespects ⟨ip, ipBytes, nextHop, egress, out, hforwards, ⟨hlarge, hknown⟩ | htold⟩
  · obtain ⟨mac, hmac⟩ := Option.ne_none_iff_exists'.1 hknown
    have hrun := hforwards.run h
    rw [hmac] at hrun
    subst hrun
    have hfits := hrespects.fits egress out _
      ⟨hforwards.interface, written_append hforwards.interface _⟩ _ (List.mem_singleton_self _)
    refine absurd hfits (Nat.not_le.2 ?_)
    rwa [← length_forwardedBytes ip.ttl] at hlarge
  · obtain ⟨hlarge, hdont, hbudget, hcarries⟩ := htold
    obtain ⟨index, interface, frames, hwrites, w, hw, hneeded⟩ :=
      hrespects.reported ip ipBytes nextHop egress out hforwards hlarge hdont hbudget hcarries
    exact (hforwards.not_reported h ip.srcAddress).forall_of_append hwrites.1 hwrites.2 w hw hneeded

end

/-- A host on two links, of which the second takes packets of 40 bytes. -/
def narrowSecond : NetworkStack :=
  (NetworkStack.new { mac := .of 2 0 0 0 0 1, ip := ⟨0x0A000001⟩ } fun _ => 100).addInterface
    { mac := .of 2 0 0 0 1 1, ip := ⟨0x0A000101⟩, mtu := 40 }

/-- Its neighbours on both links are known. -/
def knowsNarrow : NetworkStack :=
  (narrowSecond.modifyInterface 0 (Interface.learn ⟨0x0A000005⟩ (.of 2 0 0 0 0 5))).modifyInterface 1
    (Interface.learn ⟨0x0A000105⟩ (.of 2 0 0 0 1 5))

/-- An echo request of 30 bytes to the second link is sent in pieces. -/
theorem echo_request_respects_link_size :
    ∃ s, (Step.sendEchoRequest ⟨0x0A000105⟩ 1 1 (List.replicate 30 0)).run knowsNarrow = some s ∧
      (s.others.map fun i => i.written.map Written.ipLength) = [[36, 36, 26]] ∧
      RespectsLinkSize (.sendEchoRequest ⟨0x0A000105⟩ 1 1 (List.replicate 30 0)) knowsNarrow s := by
  refine ⟨_, (Option.some_get (by decide +kernel)).symm, by decide +kernel,
    (link_size_respected_iff ?_ (Option.some_get _).symm).2 ?_⟩
  · decide +kernel
  · rintro ⟨ip, ipBytes, nextHop, egress, out, ⟨⟨ingress, inbound, ⟨hframe, -⟩, -⟩, -⟩, -⟩
    obtain ⟨bytes, src, dest, etherType, hstep, -⟩ := hframe
    cases hstep

/-- A packet of 50 bytes from 10.0.0.5 to 10.0.1.5 that must not be fragmented. -/
def largePacket : Ip :=
  Ip.build 0 7 Ip.flagDontFragment 0 64 99 ⟨0x0A000005⟩ ⟨0x0A000105⟩ (List.replicate 30 0)

/-- **A packet that is too large for the second link is passed on to it**, and its source
is not told. -/
theorem large_packet_passed_on :
    (runs Step.run [.setForwarding true, packetIn 0 largePacket] knowsNarrow).map (fun s =>
      (s.primary.written.length, s.others.map fun i => (i.config.mtu, i.written.map Written.ipLength))) =
      some (0, [(40, [50])]) := by
  decide +kernel

end TcpIpStack
