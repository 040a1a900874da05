/-
# What is left of a segment on the wire

A connection hands a header and a payload to `_send_tcp_segment` in
`src/src/network_stack.cpp`, which does not put the header on the wire.  It builds
another one: the constructor takes the fields, and the MSS and the window scale are
carried over (`Tcp.rebuilt`).  SACK-permitted, the SACK blocks and the timestamps are
not.

What arrives at the parser of the peer is exactly the rebuilt header with the payload
(`segment?_frame`).  So a segment survives just when it carries none of the three
(`wire_fidelity_iff`), and no SYN of this stack does.
-/

import TcpIpStack.Stack.Forwarding
import TcpIpStack.Stack.LinkSize
import TcpIpStack.Tcp.Stamps

namespace TcpIpStack

open Programs StackM Runs

/-- The segment that the three parsers read from a frame. -/
def Written.segment? (w : Written) : Option Tcp :=
  match Ethernet.fromBytes w.frame.toBytes with
  | .ok ⟨_, _, _, .ip packet⟩ =>
    match packet.nextLayer with
    | some (.tcp segment _) => some segment
    | _ => none
  | _ => none

/-- The segment has the fields, the payload and the options of what was handed over. -/
structure Tcp.Conveys (header : Tcp) (payload : Bytes) (t : Tcp) : Prop where
  srcPort : t.srcPort = header.srcPort
  destPort : t.destPort = header.destPort
  sequenceNumber : t.sequenceNumber = header.sequenceNumber
  acknowledgementNumber : t.acknowledgementNumber = header.acknowledgementNumber
  flags : t.flagsToByte = header.flagsToByte
  window : t.window = header.window
  payload : t.payload = payload
  mss : t.mssOption = header.mssOption
  windowScale : t.windowScaleOption = header.windowScaleOption
  sackPermitted : t.sackPermittedOption = header.sackPermittedOption
  sackBlocks : t.sackBlocks = header.sackBlocks
  timestamp : t.timestampOption = header.timestampOption

/-- The header has none of the options that are lost. -/
def Tcp.WithoutLostOptions (header : Tcp) : Prop :=
  header.sackPermittedOption = false ∧ header.sackBlocks = [] ∧ header.timestampOption = none

instance (header : Tcp) : Decidable header.WithoutLostOptions := inferInstanceAs (Decidable (_ ∧ _ ∧ _))

/-- A header that the codec reads back: a window scale is not above the cap. -/
def Tcp.Capped (header : Tcp) : Prop := ∀ shift ∈ header.windowScaleOption, shift ≤ Tcp.maxWindowScale

/-! ### The rebuilt header -/

section Rebuilt

variable {header : Tcp} {payload : Bytes}

/-- A segment without the options that are lost. -/
def Tcp.stripped (header : Tcp) (payload : Bytes) (checksum : UInt16) : Tcp :=
  { header.carrying payload with
    checksum := checksum
    sackPermittedOption := false
    sackBlocks := []
    timestampOption := none }

theorem Tcp.payload_stripped (header : Tcp) (payload : Bytes) (checksum : UInt16) :
    (header.stripped payload checksum).payload = payload := payload_carrying header payload

/-- **The rebuilt header** is the header without the options that are lost. -/
theorem Tcp.sealed_rebuilt (header : Tcp) (payload : Bytes) (checksum : UInt16) :
    { header.rebuilt payload with checksum := checksum } = header.stripped payload checksum := by
  have hflags := Tcp.ofFlags_flagsToByte { header with checksum := 0 } header.dataOffset
  unfold Tcp.rebuilt Tcp.stripped Tcp.carrying
  rw [show header.flagsToByte = ({ header with checksum := 0 } : Tcp).flagsToByte from rfl, hflags]

theorem Tcp.wireBytes_eq (src dest : IPv4Address) (header : Tcp) (payload : Bytes) :
    ∃ checksum, header.wireBytes src dest payload = (header.stripped payload checksum).toBytes :=
  ⟨_, congrArg Tcp.toBytes (sealed_rebuilt header payload _)⟩

theorem Tcp.length_optionsToBytes_stripped (header : Tcp) (payload : Bytes) (checksum : UInt16) :
    (header.stripped payload checksum).optionsToBytes.length ≤ 8 ∧
      (header.mssOption = none → header.windowScaleOption = none →
        (header.stripped payload checksum).optionsToBytes = []) := by
  unfold optionsToBytes unpaddedOptions mssToBytes windowScaleToBytes sackPermittedToBytes sackBlocksToBytes
    timestampToBytes stripped carrying
  cases header.mssOption <;> cases header.windowScaleOption <;> simp

/-- **What is read from the bytes of a segment.** -/
theorem Tcp.fromBytes_wireBytes (hcap : header.Capped) (src dest : IPv4Address) (payload : Bytes) :
    ∃ dataOffset checksum, Tcp.fromBytes (header.wireBytes src dest payload) =
      .ok { header.stripped payload checksum with dataOffset := dataOffset } := by
  obtain ⟨checksum, hwire⟩ := wireBytes_eq src dest header payload
  have hfit : (header.stripped payload checksum).optionsToBytes.length ≤ 40 :=
    (length_optionsToBytes_stripped header payload checksum).1.trans (by decide)
  have hread := Tcp.fromBytes_toBytes (header.stripped payload checksum) hfit hcap
  rw [payload_stripped] at hread
  exact ⟨_, checksum, hwire ▸ hread⟩

theorem Tcp.length_wireBytes (src dest : IPv4Address) (header : Tcp) (payload : Bytes) :
    (header.wireBytes src dest payload).length ≤ 28 + payload.length ∧
      (header.mssOption = none → header.windowScaleOption = none →
        (header.wireBytes src dest payload).length = 20 + payload.length) := by
  obtain ⟨checksum, hwire⟩ := wireBytes_eq src dest header payload
  obtain ⟨hle, hnil⟩ := length_optionsToBytes_stripped header payload checksum
  rw [hwire, length_toBytes, payload_stripped]
  refine ⟨by omega, fun hmss hscale => ?_⟩
  rw [hnil hmss hscale]
  rfl

theorem Tcp.conveys_stripped_iff (header : Tcp) (payload : Bytes) (checksum : UInt16) (dataOffset : UInt8) :
    header.Conveys payload { header.stripped payload checksum with dataOffset := dataOffset } ↔
      header.WithoutLostOptions := by
  constructor
  · intro h
    exact ⟨h.sackPermitted.symm, h.sackBlocks.symm, h.timestamp.symm⟩
  · rintro ⟨hpermitted, hblocks, htimestamp⟩
    exact ⟨rfl, rfl, rfl, rfl, rfl, rfl, payload_stripped header payload checksum, rfl, rfl,
      hpermitted.symm, hblocks.symm, htimestamp.symm⟩

end Rebuilt

/-! ### The frame -/

section Frame

variable {hop : Hop} {destIp : IPv4Address} {header : Tcp} {payload : Bytes}

/-- The frame of a segment. -/
def Hop.segmentFrame (hop : Hop) (destIp : IPv4Address) (header : Tcp) (payload : Bytes) : Written :=
  hop.frame (ipPacket hop.config.ip destIp Ip.protocolTcp 0 Ip.flagDontFragment 0
    (header.wireBytes hop.config.ip destIp payload))

/-- **What arrives**, if an IP packet can say how long it is. -/
theorem segment?_frame (hop : Hop) (destIp : IPv4Address) (payload : Bytes) (hcap : header.Capped)
    (hlength : (header.wireBytes hop.config.ip destIp payload).length ≤ 65515) :
    ∃ dataOffset checksum, (hop.segmentFrame destIp header payload).segment? =
      some { header.stripped payload checksum with dataOffset := dataOffset } := by
  obtain ⟨dataOffset, checksum, hread⟩ := Tcp.fromBytes_wireBytes hcap hop.config.ip destIp payload
  refine ⟨dataOffset, checksum, ?_⟩
  have hlayer : Ip.parseLayer (Ip.flagDontFragment &&& 0xE0) 0 Ip.protocolTcp
      (header.wireBytes hop.config.ip destIp payload) = .ok (some (.tcp
        { header.stripped payload checksum with dataOffset := dataOffset }
        (header.wireBytes hop.config.ip destIp payload))) := by
    rw [Ip.parseLayer, if_neg (by decide), Ip.parsePayload, if_pos rfl, hread]
    rfl
  unfold Written.segment? Hop.segmentFrame Hop.frame ipFrame ipPacket
  dsimp only
  rw [Ethernet.fromBytes_ip, Ip.fromBytes_build hlength (by decide), hlayer]
  rfl

theorem length_payload_of_segment? {w : Written} {t : Tcp} (h : w.segment? = some t) :
    t.payload.length ≤ 65495 := by
  unfold Written.segment? at h
  split at h
  · rename_i src dest etherType packet hframe
    split at h
    · rename_i segment received hnext
      obtain rfl := Option.some.inj h
      obtain ⟨hread, hreceived⟩ := Ip.tcp_of_fromBytes (Ethernet.ip_of_fromBytes hframe) hnext
      have hpayload := Tcp.length_payload_of_fromBytes hread
      omega
    · cases h
  · cases h

/-- The only frame that is written for a segment is its own. -/
theorem writes_segmentFrame (s : NetworkStack) (destIp : IPv4Address) (header : Tcp) (payload : Bytes) :
    Writes (fun _ w => ∃ hop : Hop, w = hop.segmentFrame destIp header payload) s
      (after (sendTcpSegment destIp header payload) s) := by
  cases hhop : s.hopFor destIp with
  | none =>
    rw [after_sendTcpSegment_of_none hhop]
    exact .of_eq fun _ => rfl
  | some hop =>
    obtain ⟨-, interface, hinterface, -⟩ := NetworkStack.hopFor_eq_some.1 hhop
    rw [after_ok (run_sendTcpSegment hhop header payload), writes_iff hinterface (written_sent _ _ _ _ _ _)]
    intro w hw
    by_cases hfits : (header.wireBytes hop.config.ip destIp payload).length ≤ hop.config.maxIpPayload
    · rw [Hop.frames, Hop.packets_of_fits hfits, List.map_singleton, List.mem_singleton] at hw
      exact ⟨hop, hw⟩
    · rw [Hop.frames, Hop.packets_of_dontFragment hfits] at hw
      exact absurd hw List.not_mem_nil

theorem after_sendTcpSegment_of_fits {s : NetworkStack} (hhop : s.hopFor destIp = some hop) (header : Tcp)
    (payload : Bytes)
    (hfits : (header.wireBytes hop.config.ip destIp payload).length ≤ hop.config.maxIpPayload) :
    after (sendTcpSegment destIp header payload) s =
      s.modifyInterface hop.egress (Interface.append [hop.segmentFrame destIp header payload]) := by
  rw [after_ok (run_sendTcpSegment hhop header payload), NetworkStack.sent, if_pos hfits, Hop.frames,
    Hop.packets_of_fits hfits]
  rfl

theorem writesTo_segmentFrame {s : NetworkStack} (hhop : s.hopFor destIp = some hop) (header : Tcp)
    (payload : Bytes)
    (hfits : (header.wireBytes hop.config.ip destIp payload).length ≤ hop.config.maxIpPayload) :
    ∃ interface, WritesTo s (after (sendTcpSegment destIp header payload) s) hop.egress interface
      [hop.segmentFrame destIp header payload] := by
  obtain ⟨-, interface, hinterface, -⟩ := NetworkStack.hopFor_eq_some.1 hhop
  rw [after_sendTcpSegment_of_fits hhop header payload hfits]
  exact ⟨interface, hinterface, written_append hinterface _⟩

end Frame

/-! ### The segments of a connection -/

section Calls

variable {call : Call}

theorem Call.Optioned.capped (h : call.Optioned) : call.header.Capped := by
  intro shift hshift
  obtain ⟨-, hnone⟩ | ⟨hscale, -⟩ := h.offers
  · rw [hnone] at hshift
    cases hshift
  · rw [hscale, Option.mem_some] at hshift
    subst hshift
    decide

theorem Call.Optioned.length_le (h : call.Optioned) (src dest : IPv4Address)
    (hpayload : call.payload.length ≤ 65495) :
    (call.header.wireBytes src dest call.payload).length ≤ 65515 := by
  obtain ⟨hle, hplain⟩ := Tcp.length_wireBytes src dest call.header call.payload
  obtain ⟨hmss, hscale⟩ | ⟨-, hnil⟩ := h.offers
  · rw [hplain hmss hscale]
    omega
  · rw [hnil] at hle ⊢
    exact hle.trans (by decide)

/-- **A segment survives the wire just when it carries neither SACK-permitted nor SACK
blocks nor timestamps.**  The bound on the payload only fails on a link with an MTU
below 20, where `max_ip_payload` wraps. -/
theorem wire_fidelity_iff (o : Opener) (localPort remotePort : UInt16) (initialSeq : UInt32) (localMss : UInt16)
    (algorithm : CongestionControlAlgorithm) (events : List Event) {x : Session}
    (h : runs Event.run events (o.run (.fresh localPort remotePort initialSeq localMss algorithm)) = some x)
    (hcall : call ∈ x.sent) {s : NetworkStack} {destIp : IPv4Address} {index : ℕ} {interface : Interface}
    {frames : List Written} {w : Written}
    (hwrites : WritesTo s (after (sendTcpSegment destIp call.header call.payload) s) index interface frames)
    (hw : w ∈ frames) :
    (∃ t, w.segment? = some t ∧ call.header.Conveys call.payload t) ↔
      call.header.WithoutLostOptions ∧ call.payload.length ≤ 65495 := by
  have hoptioned := optioned_of_runs h call hcall
  obtain ⟨hop, rfl⟩ := (writes_segmentFrame s destIp call.header call.payload).forall_of_append
    hwrites.1 hwrites.2 w hw
  constructor
  · rintro ⟨t, ht, hconveys⟩
    have hpayload : call.payload.length ≤ 65495 := hconveys.payload ▸ length_payload_of_segment? ht
    obtain ⟨dataOffset, checksum, harrives⟩ :=
      segment?_frame hop destIp call.payload hoptioned.capped (hoptioned.length_le _ _ hpayload)
    obtain rfl := Option.some.inj (harrives.symm.trans ht)
    exact ⟨(Tcp.conveys_stripped_iff ..).1 hconveys, hpayload⟩
  · rintro ⟨hwithout, hpayload⟩
    obtain ⟨dataOffset, checksum, harrives⟩ :=
      segment?_frame hop destIp call.payload hoptioned.capped (hoptioned.length_le _ _ hpayload)
    exact ⟨_, harrives, (Tcp.conveys_stripped_iff ..).2 hwithout⟩

/-- 10.0.0.5 as the first link knows it. -/
def firstHop : Hop := ⟨⟨0x0A000005⟩, 0, { mac := .of 2 0 0 0 0 1, ip := ⟨0x0A000001⟩ },
  .of 2 0 0 0 0 5⟩

/-- Two bytes of a server whose peer has offered no options arrive as they were sent. -/
theorem plain_data_conveyed : ∃ x, runs Event.run
    [.segment (Tcp.ofFlags 9000 80 8 101 5 flagAck 8 0 0), .send [1, 2]]
    ((Opener.passive { peerIsn := 7 }).run (.fresh 80 9000 100 4 .reno)) = some x ∧
    ∃ call ∈ x.sent, call.payload = [1, 2] ∧ ∃ interface frames,
      WritesTo knowsFirst (after (sendTcpSegment ⟨0x0A000005⟩ call.header call.payload) knowsFirst) 0
        interface frames ∧ frames ≠ [] ∧
      ∀ w ∈ frames, ∃ t, w.segment? = some t ∧ call.header.Conveys call.payload t := by
  refine ⟨_, rfl, _, List.mem_cons_of_mem _ List.mem_cons_self, rfl, ?_⟩
  obtain ⟨interface, hwrites⟩ := writesTo_segmentFrame
    (rfl : knowsFirst.hopFor ⟨0x0A000005⟩ = some firstHop) (Tcp.ofFlags 80 9000 101 8 5 flagAck 65535 0 0) [1, 2]
    (by decide +kernel)
  refine ⟨interface, _, hwrites, List.cons_ne_nil _ _, fun w hw => ?_⟩
  exact (wire_fidelity_iff (.passive { peerIsn := 7 }) 80 9000 100 4 .reno
    [.segment (Tcp.ofFlags 9000 80 8 101 5 flagAck 8 0 0), .send [1, 2]] rfl
    (List.mem_cons_of_mem _ List.mem_cons_self) hwrites hw).2 (by decide +kernel)

/-- **The SYN of a client** offers SACK and carries a timestamp, and neither is in the
frame. -/
theorem syn_loses_options : ∃ x, runs Event.run [] (Opener.active.run (.fresh 80 9000 100 4 .reno)) = some x ∧
    ∃ call ∈ x.sent, call.header.sackPermittedOption = true ∧ call.header.timestampOption = some (1, 0) ∧
      ∃ interface frames,
        WritesTo knowsFirst (after (sendTcpSegment ⟨0x0A000005⟩ call.header call.payload) knowsFirst) 0
          interface frames ∧
        ∃ w ∈ frames, ∃ t, w.segment? = some t ∧ t.sackPermittedOption = false ∧ t.timestampOption = none := by
  refine ⟨_, rfl, _, List.mem_cons_self, rfl, by decide +kernel, ?_⟩
  have hcap := (optioned_open .active (x := .fresh 80 9000 100 4 .reno) rfl _ List.mem_cons_self).capped
  obtain ⟨interface, hwrites⟩ := writesTo_segmentFrame
    (rfl : knowsFirst.hopFor ⟨0x0A000005⟩ = some firstHop) _ []
    ((Tcp.length_wireBytes ..).1.trans (by decide))
  obtain ⟨dataOffset, checksum, harrives⟩ := segment?_frame firstHop ⟨0x0A000005⟩ [] hcap
    ((Tcp.length_wireBytes ..).1.trans (by decide))
  exact ⟨interface, _, hwrites, _, List.mem_singleton_self _, _, harrives, rfl, rfl⟩

end Calls

end TcpIpStack
