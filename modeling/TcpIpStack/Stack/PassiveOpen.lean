/-
# Which segments open a connection

A segment of no connection is handled at the end of `_handle_tcp` in
`src/src/network_stack.cpp`.  `is_new_connection_request` asks for a SYN and a port
that listens, and for nothing else: `after_handleTcp_unmatched` is what follows from
it.  A SYN that also carries an ACK or a RST is taken for a request.  So a RST can
open a connection, and an ACK that should have been refused is answered with a
SYN-ACK, or with nothing when the accept queue is full.

Everything else is as RFC 793 has it: a segment of no connection is handled as it
should be exactly if it is none of these, and the link has room for the RST
(`passive_open_iff`).
-/

import TcpIpStack.Stack.Answers
import TcpIpStack.Stack.SourceAddress
import TcpIpStack.Stack.WireFidelity

namespace TcpIpStack

open Programs StackM

/-- The frame carries the RST that refuses a segment: it goes back to where the segment
came from, and continues where the segment's ACK says. -/
def Written.Refuses (w : Written) (ip : Ip) (tcp : Tcp) : Prop :=
  (∃ packet, w.frame.nextLayer = .ip packet ∧ packet.destAddress = ip.srcAddress) ∧
    ∃ segment, w.segment? = some segment ∧ segment.srcPort = tcp.destPort ∧ segment.destPort = tcp.srcPort ∧
      segment.rst = true ∧ segment.sequenceNumber = tcp.acknowledgementNumber

/-- What a segment of no connection may lead to. -/
structure OpensCleanly (ip : Ip) (tcp : Tcp) (s s' : NetworkStack) : Prop where
  created : ∀ key, s.connections.lookup key = none → s'.connections.lookup key ≠ none →
    tcp.syn = true ∧ tcp.ack = false ∧ tcp.rst = false ∧ s.listeningPorts.lookup tcp.destPort ≠ none
  reset : tcp.rst = true → s' = s
  refused : tcp.ack = true → tcp.rst = false → s.listeningPorts.lookup tcp.destPort ≠ none →
    ∀ hop, s.hopFor ip.srcAddress = some hop → ∃ w : Written, w.Refuses ip tcp ∧
      s' = s.modifyInterface hop.egress (Interface.append [w])

/-- A segment of no connection, to a port that listens, that is not handled as it should
be: a SYN with an ACK or a RST, or an ACK whose RST does not fit the link. -/
def MisreadSyn (s : NetworkStack) (ip : Ip) (tcp : Tcp) : Prop :=
  ∃ backlog, s.listeningPorts.lookup tcp.destPort = some backlog ∧
    if tcp.syn then
      if backlog ≤ (s.acceptQueue tcp.destPort).length then
        tcp.ack = true ∧ tcp.rst = false ∧ s.hopFor ip.srcAddress ≠ none
      else tcp.rst = true ∨ tcp.ack = true ∧ s.SendReturns ip.srcAddress
    else tcp.ack = true ∧ tcp.rst = false ∧
      ∃ hop, s.hopFor ip.srcAddress = some hop ∧ hop.config.maxIpPayload < 20

section

variable {s : NetworkStack} {ip : Ip} {tcp : Tcp} {received : Bytes}

/-! ### The parts of `_handle_tcp` -/

/-- **The end of `_handle_tcp`.** -/
theorem after_handleTcp_unmatched
    (hsum : transportChecksum ip.srcAddress ip.destAddress Ip.protocolTcp received = 0)
    (hnone : s.connections.lookup (segmentKey ip tcp) = none) : after (handleTcp ip tcp received) s =
      match s.listeningPorts.lookup tcp.destPort, tcp.syn with
      | some backlog, true =>
        if backlog ≤ (s.acceptQueue tcp.destPort).length then s
        else after (acceptSyn (segmentKey ip tcp) tcp) s
      | _, _ => if tcp.rst then s else after (sendRst ip tcp) s := by
  have hreset : after (if tcp.rst then pure () else sendRst ip tcp) s =
      if tcp.rst then s else after (sendRst ip tcp) s := by
    split_ifs <;> rfl
  unfold handleTcp
  rw [if_neg (not_not.2 hsum), after, run_get_bind]
  dsimp only [segmentKey] at hnone ⊢
  rw [hnone]
  dsimp only
  rw [run_get_bind]
  cases s.listeningPorts.lookup tcp.destPort with
  | none => exact hreset
  | some backlog =>
    cases tcp.syn with
    | false => exact hreset
    | true =>
      dsimp only
      rw [if_pos rfl, run_get_bind]
      split_ifs <;> rfl

theorem callsSince_acceptIncomingSyn (x : Session) (o : Session.SynOptions) :
    ∃ call calls, x.callsSince (x.acceptIncomingSyn o) = call :: calls := ⟨_, _, Session.callsSince_eq rfl⟩

theorem after_acceptSyn_of_returns (key : ConnectionKey) (tcp : Tcp) (h : s.SendReturns key.remoteIp) :
    ∃ c, (after (acceptSyn key tcp) s).connections = s.connections.insert key c := by
  have hy : (Operation.opener (.passive (synOptions tcp))).run (s.freshSession key) =
    some ((s.freshSession key).acceptIncomingSyn (synOptions tcp)) := rfl
  obtain ⟨failure, s', hrun, htable, -, hfailure, -⟩ := run_runSession_quiet hy key.remoteIp s
  obtain rfl := hfailure.2 (.inl h)
  rw [acceptSyn, after, run_get_bind, run_bind_ok hrun]
  exact ⟨_, congrArg (fun t : ConnectionTable => t.connections.insert key _) htable⟩

theorem after_acceptSyn_of_throws (key : ConnectionKey) (tcp : Tcp) (h : ¬ s.SendReturns key.remoteIp) :
    after (acceptSyn key tcp) s = s.modifyTable (·.skipId) := by
  obtain ⟨call, calls, hcalls⟩ := callsSince_acceptIncomingSyn (s.freshSession key) (synOptions tcp)
  obtain ⟨fault, hfault, hrun⟩ := run_sendCalls_of_throws h call calls 0
  have hsession : (runSession key.remoteIp (.opener (.passive (synOptions tcp)))
      (s.freshSession key)).run s = .ok ((Operation.opener (.passive (synOptions tcp))).outcome (some 0)
        (s.freshSession key) ((s.freshSession key).acceptIncomingSyn (synOptions tcp)), some fault) s := by
    unfold runSession
    dsimp only [Operation.run, Opener.run]
    rw [hcalls, run_bind_ok hrun]
    rfl
  rw [acceptSyn, after, run_get_bind, run_bind_ok hsession]
  dsimp only
  rw [modifyTable, run_modify_bind, if_pos hfault]
  rfl

theorem toConnectionTable_sendTcpSegment (s : NetworkStack) (destIp : IPv4Address) (header : Tcp)
    (payload : Bytes) :
    (after (sendTcpSegment destIp header payload) s).toConnectionTable = s.toConnectionTable := by
  cases hhop : s.hopFor destIp with
  | none => rw [after_sendTcpSegment_of_none hhop]
  | some hop =>
    rw [after_ok (run_sendTcpSegment hhop header payload)]
    exact toConnectionTable_sent ..

/-! ### The RST -/

theorem length_wireBytes_rstHeader (src dest : IPv4Address) (tcp : Tcp) :
    ((rstHeader tcp).wireBytes src dest []).length = 20 := by
  have hmss : (rstHeader tcp).mssOption = none := by unfold rstHeader; split_ifs <;> rfl
  have hscale : (rstHeader tcp).windowScaleOption = none := by unfold rstHeader; split_ifs <;> rfl
  exact (Tcp.length_wireBytes src dest (rstHeader tcp) []).2 hmss hscale

/-- **The RST that answers an ACK** continues where the ACK says. -/
theorem refuses_segmentFrame (hop : Hop) (hack : tcp.ack = true) :
    (hop.segmentFrame ip.srcAddress (rstHeader tcp) []).Refuses ip tcp := by
  have hheader : rstHeader tcp =
      Tcp.ofFlags tcp.destPort tcp.srcPort tcp.acknowledgementNumber 0 5 flagRst 0 0 0 := if_pos hack
  have hcap : (rstHeader tcp).Capped := by
    rw [hheader]
    exact fun _ h => nomatch h
  obtain ⟨dataOffset, checksum, harrives⟩ := segment?_frame hop ip.srcAddress [] hcap
    ((length_wireBytes_rstHeader ..).trans_le (by decide))
  refine ⟨⟨_, rfl, rfl⟩, _, harrives, ?_⟩
  rw [hheader]
  exact ⟨rfl, rfl, (by decide : (flagRst &&& 0x04 != 0) = true), rfl⟩

theorem ne_append {s s' : NetworkStack} {index : ℕ} {interface : Interface} (w : Written)
    (hinterface : s.interface? index = some interface)
    (h : (s'.interface? index).map Interface.written = (s.interface? index).map Interface.written) :
    s' ≠ s.modifyInterface index (Interface.append [w]) := by
  rintro rfl
  rw [written_append hinterface, hinterface, Option.map_some, Option.some_inj] at h
  simp at h

theorem written_sendRst_of_small {hop : Hop} (hhop : s.hopFor ip.srcAddress = some hop)
    (hsmall : hop.config.maxIpPayload < 20) (index : ℕ) :
    ((after (sendRst ip tcp) s).interface? index).map Interface.written =
      (s.interface? index).map Interface.written := by
  have hfits : ¬ ((rstHeader tcp).wireBytes hop.config.ip ip.srcAddress []).length ≤ hop.config.maxIpPayload := by
    rw [length_wireBytes_rstHeader]
    omega
  rw [sendRst_eq, after_ok (run_sendTcpSegment hhop (rstHeader tcp) []), written_sent, Hop.frames,
    Hop.packets_of_dontFragment hfits, List.map_nil, Interface.append_nil, NetworkStack.modifyInterface_id]

/-! ### Every segment of no connection -/

theorem connections_refused (s : NetworkStack) (ip : Ip) (tcp : Tcp) :
    (if tcp.rst then s else after (sendRst ip tcp) s).connections = s.connections := by
  split_ifs
  · rfl
  · rw [sendRst_eq]
    exact congrArg ConnectionTable.connections (toConnectionTable_sendTcpSegment ..)

theorem opensCleanly_of_not_listening (hlisten : s.listeningPorts.lookup tcp.destPort = none) :
    OpensCleanly ip tcp s (if tcp.rst then s else after (sendRst ip tcp) s) where
  created key hnone h := by
    rw [connections_refused] at h
    exact absurd hnone h
  reset hrst := if_pos hrst
  refused _ _ h := absurd hlisten h

/-- A segment without a SYN is refused if the RST fits the link. -/
theorem opensCleanly_refused_iff {backlog : ℕ} (hlisten : s.listeningPorts.lookup tcp.destPort = some backlog) :
    OpensCleanly ip tcp s (if tcp.rst then s else after (sendRst ip tcp) s) ↔
      ¬ (tcp.ack = true ∧ tcp.rst = false ∧
        ∃ hop, s.hopFor ip.srcAddress = some hop ∧ hop.config.maxIpPayload < 20) := by
  constructor
  · rintro h ⟨hack, hrst, hop, hhop, hsmall⟩
    obtain ⟨w, -, heq⟩ := h.refused hack hrst (by simp [hlisten]) hop hhop
    obtain ⟨-, interface, hinterface, -⟩ := NetworkStack.hopFor_eq_some.1 hhop
    rw [if_neg (by simp [hrst])] at heq
    exact ne_append w hinterface (written_sendRst_of_small hhop hsmall hop.egress) heq
  · intro hroom
    refine ⟨fun key hnone h => ?_, fun hrst => if_pos hrst, fun hack hrst _ hop hhop => ?_⟩
    · rw [connections_refused] at h
      exact absurd hnone h
    · have hfits : ((rstHeader tcp).wireBytes hop.config.ip ip.srcAddress []).length ≤
          hop.config.maxIpPayload := by
        rw [length_wireBytes_rstHeader]
        exact not_lt.1 fun hsmall => hroom ⟨hack, hrst, hop, hhop, hsmall⟩
      rw [if_neg (by simp [hrst]), sendRst_eq]
      exact ⟨_, refuses_segmentFrame hop hack, after_sendTcpSegment_of_fits hhop _ _ hfits⟩

theorem opensCleanly_dropped_iff {backlog : ℕ} (hlisten : s.listeningPorts.lookup tcp.destPort = some backlog) :
    OpensCleanly ip tcp s s ↔ ¬ (tcp.ack = true ∧ tcp.rst = false ∧ s.hopFor ip.srcAddress ≠ none) := by
  constructor
  · rintro h ⟨hack, hrst, hknown⟩
    obtain ⟨hop, hhop⟩ := Option.ne_none_iff_exists'.1 hknown
    obtain ⟨w, -, heq⟩ := h.refused hack hrst (by simp [hlisten]) hop hhop
    obtain ⟨-, interface, hinterface, -⟩ := NetworkStack.hopFor_eq_some.1 hhop
    exact ne_append w hinterface rfl heq
  · intro hquiet
    refine ⟨fun key hnone h => absurd hnone h, fun _ => rfl, fun hack hrst _ hop hhop => ?_⟩
    exact absurd ⟨hack, hrst, by simp [hhop]⟩ hquiet

/-- A SYN that is taken for a request. -/
theorem opensCleanly_accepted_iff {backlog : ℕ} (hlisten : s.listeningPorts.lookup tcp.destPort = some backlog)
    (hsyn : tcp.syn = true) (hnone : s.connections.lookup (segmentKey ip tcp) = none) :
    OpensCleanly ip tcp s (after (acceptSyn (segmentKey ip tcp) tcp) s) ↔
      ¬ (tcp.rst = true ∨ tcp.ack = true ∧ s.SendReturns ip.srcAddress) := by
  by_cases hreturns : s.SendReturns ip.srcAddress
  · obtain ⟨c, hconnections⟩ := after_acceptSyn_of_returns (segmentKey ip tcp) tcp hreturns
    constructor
    · intro h
      obtain ⟨-, hack, hrst, -⟩ := h.created (segmentKey ip tcp) hnone (by simp [hconnections])
      simp [hack, hrst]
    · intro hclean
      obtain ⟨hrst, hack⟩ := not_or.1 hclean
      rw [Bool.not_eq_true] at hrst
      have hack : tcp.ack = false := Bool.not_eq_true _ ▸ fun h => hack ⟨h, hreturns⟩
      refine ⟨fun _ _ _ => ⟨hsyn, hack, hrst, by simp [hlisten]⟩, fun h => ?_, fun h => ?_⟩
      · rw [hrst] at h
        cases h
      · rw [hack] at h
        cases h
  · -- the SYN-ACK cannot be sent, and the id is spent
    rw [after_acceptSyn_of_throws (segmentKey ip tcp) tcp hreturns]
    constructor
    · rintro h (hrst | ⟨-, h'⟩)
      · have hid := congrArg (fun t : NetworkStack => t.nextConnectionId) (h.reset hrst)
        exact absurd hid (Nat.succ_ne_self _)
      · exact hreturns h'
    · intro hclean
      refine ⟨fun key hkey h => absurd hkey h, fun hrst => absurd (.inl hrst) hclean, fun _ _ _ hop hhop => ?_⟩
      exact absurd (.inl (by simp [hhop])) hreturns

/-- **Passive opens come only from clean SYNs**, a segment with a RST changes nothing,
and an ACK to a port that listens is refused, exactly if the segment is not one that is
misread. -/
theorem passive_open_iff
    (hsum : transportChecksum ip.srcAddress ip.destAddress Ip.protocolTcp received = 0)
    (hnone : s.connections.lookup (segmentKey ip tcp) = none) :
    OpensCleanly ip tcp s (after (handleTcp ip tcp received) s) ↔ ¬ MisreadSyn s ip tcp := by
  rw [after_handleTcp_unmatched hsum hnone]
  cases hlisten : s.listeningPorts.lookup tcp.destPort with
  | none =>
    refine iff_of_true (opensCleanly_of_not_listening hlisten) ?_
    rintro ⟨backlog, hbacklog, -⟩
    rw [hlisten] at hbacklog
    cases hbacklog
  | some backlog =>
    have hmisread : MisreadSyn s ip tcp ↔
        if tcp.syn then
          if backlog ≤ (s.acceptQueue tcp.destPort).length then
            tcp.ack = true ∧ tcp.rst = false ∧ s.hopFor ip.srcAddress ≠ none
          else tcp.rst = true ∨ tcp.ack = true ∧ s.SendReturns ip.srcAddress
        else tcp.ack = true ∧ tcp.rst = false ∧
          ∃ hop, s.hopFor ip.srcAddress = some hop ∧ hop.config.maxIpPayload < 20 := by
      simp only [MisreadSyn, hlisten, Option.some_inj, exists_eq_left']
    rw [hmisread]
    cases hsyn : tcp.syn with
    | false => exact opensCleanly_refused_iff hlisten
    | true =>
      dsimp only
      rw [if_pos rfl]
      split_ifs with hfull
      · exact opensCleanly_dropped_iff hlisten
      · exact opensCleanly_accepted_iff hlisten hsyn hnone

end

/-- A segment for port 80 from 10.0.0.5, with its checksum. -/
def strayTcp (flags : UInt8) : Tcp :=
  let segment := Tcp.ofFlags 5000 80 7 55 5 flags 1000 0 0
  { segment with
    checksum := transportChecksum ⟨0x0A000005⟩ ⟨0x0A000001⟩ Ip.protocolTcp segment.toBytes }

/-- The packet it comes in. -/
def strayIp (flags : UInt8) : Ip :=
  { ipPacket ⟨0x0A000005⟩ ⟨0x0A000001⟩ Ip.protocolTcp 0 0 0 (strayTcp flags).toBytes with
    nextLayer := some (.tcp (strayTcp flags) (strayTcp flags).toBytes) }

/-- An ACK of no connection is refused. -/
theorem stray_ack_refused : OpensCleanly (strayIp flagAck) (strayTcp flagAck) askedHost
    (after (handleTcp (strayIp flagAck) (strayTcp flagAck) (strayTcp flagAck).toBytes) askedHost) := by
  refine (passive_open_iff (by decide +kernel) rfl).2 ?_
  rintro ⟨backlog, -, hmisread⟩
  rw [if_neg (by decide)] at hmisread
  obtain ⟨-, -, hop, hhop, hsmall⟩ := hmisread
  obtain rfl := Option.some.inj ((rfl : askedHost.hopFor ⟨0x0A000005⟩ = some firstHop).symm.trans hhop)
  exact absurd hsmall (by decide)

/-- The segment is valid and of no connection.  The host opens one for it and sends a
frame. -/
def StrayOpens (flags : UInt8) : Prop :=
  transportChecksum ⟨0x0A000005⟩ ⟨0x0A000001⟩ Ip.protocolTcp (strayTcp flags).toBytes = 0 ∧
    (askedHost.connections.lookup (segmentKey (strayIp flags) (strayTcp flags))).isNone ∧
    ((after (handleTcp (strayIp flags) (strayTcp flags) (strayTcp flags).toBytes)
      askedHost).connections.lookup (segmentKey (strayIp flags) (strayTcp flags))).isSome ∧
    (after (handleTcp (strayIp flags) (strayTcp flags) (strayTcp flags).toBytes)
      askedHost).primary.written.length = 1

instance (flags : UInt8) : Decidable (StrayOpens flags) := inferInstanceAs (Decidable (_ ∧ _ ∧ _ ∧ _))

/-- **A SYN with a RST, or with an ACK, opens a connection**, and a SYN-ACK is sent. -/
theorem stray_syn_accepted :
    (strayTcp (flagSyn ||| flagRst)).rst = true ∧ StrayOpens (flagSyn ||| flagRst) ∧
      (strayTcp (flagSyn ||| flagAck)).ack = true ∧ StrayOpens (flagSyn ||| flagAck) := by
  decide +kernel

end TcpIpStack
