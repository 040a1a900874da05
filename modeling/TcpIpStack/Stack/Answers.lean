/-
# Which packets are answered

`_handle_icmp` does not answer an echo request that was sent to a broadcast, and the
comment in `src/src/network_stack.cpp` says that its guard has to span at least what
`_handle_ip` accepts.  It is the only guard of its kind: a SYN to a broadcast opens a
connection, another segment is answered with a RST or by the connection it belongs to,
a datagram for a port that nobody has bound with a Port Unreachable, and a broadcast of
another link whose time to live has run out with a Time Exceeded.

`Answered` lists these cases with what each takes: the neighbour towards the sender has
to be known and the link to have room.  A broadcast is handled without a reply exactly
if it is none of them (`broadcast_unanswered_iff`).
-/

import TcpIpStack.Stack.Broadcasts
import TcpIpStack.Stack.Changes

namespace TcpIpStack

open Programs StackM Runs

/-! ### Replies -/

/-- A packet this host has made for TCP or ICMP. -/
def Written.Replies (w : Written) : Prop :=
  ∃ packet, w.frame.nextLayer = .ip packet ∧
    (packet.protocol = Ip.protocolTcp ∨ packet.protocol = Ip.protocolIcmp)

/-- Between two states no reply was written and no connection opened. -/
structure Quiet (s s' : NetworkStack) : Prop where
  writes : Writes (fun _ w => ¬ w.Replies) s s'
  registered : s'.registered = s.registered

/-- There is a neighbour that carries a segment, and the segment fits. -/
def NetworkStack.CarriesSegment (s : NetworkStack) (destIp : IPv4Address) (header : Tcp) (payload : Bytes) :
    Prop :=
  ∃ hop, s.hopFor destIp = some hop ∧
    (header.wireBytes hop.config.ip destIp payload).length ≤ hop.config.maxIpPayload

/-- The same frames have been written, and the same connections opened. -/
structure SameOutput (s s' : NetworkStack) : Prop where
  written : ∀ j, (s'.interface? j).map Interface.written = (s.interface? j).map Interface.written
  registered : s'.registered = s.registered

section Quiet

variable {s s₁ s' : NetworkStack}

theorem SameOutput.refl (s : NetworkStack) : SameOutput s s := ⟨fun _ => rfl, rfl⟩

theorem SameOutput.symm (h : SameOutput s s') : SameOutput s' s :=
  ⟨fun j => (h.written j).symm, h.registered.symm⟩

theorem SameOutput.quiet (h : SameOutput s s') : Quiet s s' := ⟨.of_eq h.written, h.registered⟩

theorem Quiet.trans (h : Quiet s s₁) (h' : Quiet s₁ s') : Quiet s s' :=
  ⟨h.writes.trans h'.writes, h'.registered.trans h.registered⟩

theorem SameOutput.quiet_iff_left (h : SameOutput s s₁) : Quiet s s' ↔ Quiet s₁ s' :=
  ⟨h.symm.quiet.trans, h.quiet.trans⟩

theorem quiet_trans_iff (h : Writes (fun _ _ => True) s s₁) (h' : Writes (fun _ _ => True) s₁ s')
    (hregistered : s₁.registered = s.registered) : Quiet s s' ↔ Quiet s s₁ ∧ Quiet s₁ s' := by
  refine ⟨fun hquiet => ?_, fun hquiet => hquiet.1.trans hquiet.2⟩
  obtain ⟨hwrites, hregistered'⟩ := hquiet
  obtain ⟨hfirst, hsecond⟩ := (writes_trans_iff h h').1 hwrites
  exact ⟨⟨hfirst, hregistered⟩, ⟨hsecond, hregistered'.trans hregistered.symm⟩⟩

theorem SameOutput.quiet_iff_right (h : SameOutput s₁ s') : Quiet s s' ↔ Quiet s s₁ :=
  ⟨fun hq => hq.trans h.symm.quiet, fun hq => hq.trans h.quiet⟩

theorem sameOutput_modifyTable (s : NetworkStack) {f : ConnectionTable → ConnectionTable}
    (h : (f s.toConnectionTable).registered = s.registered) : SameOutput s (s.modifyTable f) :=
  ⟨fun _ => rfl, h⟩

end Quiet

/-! ### Segments -/

section Segments

variable {s : NetworkStack} {destIp : IPv4Address}

theorem replies_frame (hop : Hop) {packet : Ip}
    (h : packet.protocol = Ip.protocolTcp ∨ packet.protocol = Ip.protocolIcmp) :
    (hop.frame packet).Replies := ⟨packet, rfl, h⟩

/-- **A segment is a reply exactly if it can be carried.** -/
theorem quiet_sendTcpSegment_iff (s : NetworkStack) (destIp : IPv4Address) (header : Tcp) (payload : Bytes) :
    Quiet s (after (sendTcpSegment destIp header payload) s) ↔ ¬ s.CarriesSegment destIp header payload := by
  cases hhop : s.hopFor destIp with
  | none =>
    rw [after_sendTcpSegment_of_none hhop]
    refine iff_of_true (SameOutput.refl s).quiet ?_
    rintro ⟨hop, hhop', -⟩
    rw [hhop] at hhop'
    cases hhop'
  | some hop =>
    obtain ⟨-, interface, hinterface, -⟩ := NetworkStack.hopFor_eq_some.1 hhop
    have hcarries : s.CarriesSegment destIp header payload ↔
        (header.wireBytes hop.config.ip destIp payload).length ≤ hop.config.maxIpPayload := by
      simp [NetworkStack.CarriesSegment, hhop]
    rw [after_ok (run_sendTcpSegment hhop header payload), hcarries]
    constructor
    · rintro ⟨hwrites, -⟩ hfits
      rw [writes_iff hinterface (written_sent _ _ _ _ _ _), Hop.frames, Hop.packets_of_fits hfits] at hwrites
      exact hwrites _ (List.mem_singleton_self _) (replies_frame hop (.inl rfl))
    · intro hfits
      refine ⟨?_, congrArg ConnectionTable.registered (toConnectionTable_sent ..)⟩
      rw [writes_iff hinterface (written_sent _ _ _ _ _ _), Hop.frames, Hop.packets_of_dontFragment hfits]
      simp

/-- A send returns if a neighbour is known, or if there is no route at all. -/
def NetworkStack.SendReturns (s : NetworkStack) (destIp : IPv4Address) : Prop :=
  s.hopFor destIp ≠ none ∨ s.routeFor destIp = none

theorem run_sendTcpSegment_of_returns (h : s.SendReturns destIp) (header : Tcp) (payload : Bytes) :
    ∃ s', (sendTcpSegment destIp header payload).run s = .ok () s' ∧ s'.links = s.links ∧
      s'.toConnectionTable = s.toConnectionTable ∧ Writes (fun _ _ => True) s s' := by
  cases hhop : s.hopFor destIp with
  | none =>
    obtain ⟨-, hrun⟩ | ⟨hroute, -⟩ := run_sendTcpSegment_of_none hhop header payload
    · exact ⟨s, hrun, rfl, rfl, Std.Refl.refl s⟩
    · exact absurd (h.resolve_left (by simp [hhop])) hroute
  | some hop =>
    obtain ⟨-, interface, hinterface, -⟩ := NetworkStack.hopFor_eq_some.1 hhop
    refine ⟨_, run_sendTcpSegment hhop header payload, ?_, toConnectionTable_sent .., ?_⟩
    · rw [NetworkStack.links_append, links_sent]
    · rw [writes_iff hinterface (written_sent _ _ _ _ _ _)]
      simp

theorem sendReturns_of_links {s' : NetworkStack} (hlinks : s'.links = s.links) :
    s'.SendReturns destIp ↔ s.SendReturns destIp := by
  rw [NetworkStack.SendReturns, NetworkStack.SendReturns, NetworkStack.hopFor_of_links hlinks,
    NetworkStack.routeFor_of_links hlinks]

theorem carriesSegment_of_links {s' : NetworkStack} (hlinks : s'.links = s.links) (header : Tcp)
    (payload : Bytes) : s'.CarriesSegment destIp header payload ↔ s.CarriesSegment destIp header payload := by
  rw [NetworkStack.CarriesSegment, NetworkStack.CarriesSegment, NetworkStack.hopFor_of_links hlinks]

/-- The callback returns for every call. -/
theorem run_sendCalls_of_returns (h : s.SendReturns destIp) (calls : List Call) (i : ℕ) :
    ∃ s', (sendCalls destIp i calls).run s = .ok none s' ∧
      s'.toConnectionTable = s.toConnectionTable ∧ Writes (fun _ _ => True) s s' ∧
      (Quiet s s' ↔ ∀ call ∈ calls, ¬ s.CarriesSegment destIp call.header call.payload) := by
  induction calls generalizing s i with
  | nil => exact ⟨s, rfl, rfl, Std.Refl.refl s, iff_of_true (SameOutput.refl s).quiet (by simp)⟩
  | cons call calls ih =>
    obtain ⟨s₁, hrun, hlinks, htable, hwrites⟩ :=
      run_sendTcpSegment_of_returns h call.header call.payload
    obtain ⟨s', hrest, htable', hwrites', hquiet⟩ := ih ((sendReturns_of_links hlinks).2 h) (i + 1)
    have hfirst := quiet_sendTcpSegment_iff s destIp call.header call.payload
    rw [after_ok hrun] at hfirst
    refine ⟨s', ?_, htable'.trans htable, hwrites.trans hwrites', ?_⟩
    · rw [run_sendCalls_cons, hrun]
      exact hrest
    · rw [quiet_trans_iff hwrites hwrites' (congrArg ConnectionTable.registered htable), hfirst, hquiet,
        List.forall_mem_cons]
      simp only [carriesSegment_of_links hlinks]

theorem run_sendCalls_of_throws (h : ¬ s.SendReturns destIp) (call : Call) (calls : List Call) (i : ℕ) :
    ∃ fault : Fault, fault.isException = true ∧
      (sendCalls destIp i (call :: calls)).run s = .ok (some (i, fault)) s := by
  obtain ⟨hhop, hroute⟩ := not_or.1 h
  rw [not_not] at hhop
  obtain ⟨hroute', -⟩ | ⟨-, fault, hfault, hrun⟩ :=
    run_sendTcpSegment_of_none hhop call.header call.payload
  · exact absurd hroute' hroute
  · refine ⟨fault, hfault, ?_⟩
    rw [run_sendCalls_cons, hrun]

theorem not_carriesSegment_of_throws (h : ¬ s.SendReturns destIp) (header : Tcp) (payload : Bytes) :
    ¬ s.CarriesSegment destIp header payload := by
  rintro ⟨hop, hhop, -⟩
  exact h (.inl (by simp [hhop]))

end Segments

/-! ### Connections -/

section Connections

variable {s : NetworkStack} {key : ConnectionKey} {operation : Operation}

/-- **What running a session writes**: what it hands to its callback, up to a throw. -/
theorem run_runSession_quiet {x y : Session} (hy : operation.run x = some y) (destIp : IPv4Address)
    (s : NetworkStack) : ∃ (failure : Option (ℕ × Fault)) (s' : NetworkStack),
      (runSession destIp operation x).run s =
        .ok (operation.outcome (failure.map Prod.fst) x y, failure.map Prod.snd) s' ∧
      s'.toConnectionTable = s.toConnectionTable ∧
      (Quiet s s' ↔ ∀ call ∈ x.callsSince y, ¬ s.CarriesSegment destIp call.header call.payload) ∧
      (failure = none ↔ s.SendReturns destIp ∨ x.callsSince y = []) ∧
      ∀ f ∈ failure, f.2.isException = true := by
  unfold runSession
  rw [hy]
  dsimp only
  by_cases hreturns : s.SendReturns destIp
  · obtain ⟨s', hrun, htable, -, hquiet⟩ := run_sendCalls_of_returns hreturns (x.callsSince y) 0
    refine ⟨none, s', ?_, htable, hquiet, by simp [hreturns], by simp⟩
    rw [run_bind_ok hrun]
    rfl
  · have hquiet : Quiet s s ↔ ∀ call ∈ x.callsSince y,
        ¬ s.CarriesSegment destIp call.header call.payload :=
      iff_of_true (SameOutput.refl s).quiet fun _ _ => not_carriesSegment_of_throws hreturns _ _
    cases hcalls : x.callsSince y with
    | nil =>
      rw [hcalls] at hquiet
      exact ⟨none, s, rfl, rfl, hquiet, by simp, by simp⟩
    | cons call calls =>
      rw [hcalls] at hquiet
      obtain ⟨fault, hfault, hrun⟩ := run_sendCalls_of_throws hreturns call calls 0
      refine ⟨some (0, fault), s, ?_, rfl, hquiet, by simp [hreturns], by simpa using hfault⟩
      rw [run_bind_ok hrun]
      rfl

/-- A connection has something to say that can be carried. -/
def ConnectionAnswers (s : NetworkStack) (key : ConnectionKey) (operation : Operation) : Prop :=
  ∃ c y call, s.connections.lookup key = some c ∧ operation.run c.session = some y ∧
    call ∈ c.session.callsSince y ∧ s.CarriesSegment key.remoteIp call.header call.payload

theorem quiet_runConnection_iff (key : ConnectionKey) (operation : Operation) (s : NetworkStack) :
    Quiet s (after (runConnection key operation) s) ↔ ¬ ConnectionAnswers s key operation := by
  rw [after, runConnection, run_get_bind]
  cases hc : s.connections.lookup key with
  | none => exact iff_of_true (SameOutput.refl s).quiet (by simp [ConnectionAnswers, hc])
  | some c =>
    dsimp only
    cases hy : operation.run c.session with
    | none =>
      have hrun : (runSession key.remoteIp operation c.session).run s = .error .diverges s := by
        rw [runSession, hy]
        rfl
      rw [run_bind_error hrun]
      exact iff_of_true (SameOutput.refl s).quiet (by simp [ConnectionAnswers, hc, hy])
    | some y =>
      obtain ⟨failure, s', hrun, htable, hquiet, -, -⟩ := run_runSession_quiet hy key.remoteIp s
      rw [run_bind_ok hrun, modifyTable, run_modify_bind, ← after, after_rethrow]
      refine ((sameOutput_modifyTable s' rfl).quiet_iff_right.trans hquiet).trans ?_
      simp [ConnectionAnswers, hc, hy]

/-- Whether the key is queued for `accept` afterwards is no output. -/
theorem quiet_deliverSegment_iff (c : Connection) (tcp : Tcp) :
    Quiet s (after (deliverSegment key c tcp) s) ↔ ¬ ConnectionAnswers s key (.event (.segment tcp)) := by
  rw [← quiet_runConnection_iff, deliverSegment]
  cases hrun : (runConnection key (.event (.segment tcp))).run s with
  | error fault s' => rw [after_bind_error hrun, after_error hrun]
  | ok u s' =>
    rw [after_bind_ok hrun, after_ok hrun, after, run_get_bind]
    cases s'.connections.lookup key with
    | none => rfl
    | some c' =>
      dsimp only
      split_ifs
      · exact (sameOutput_modifyTable s' rfl).quiet_iff_right
      · rfl

/-- A SYN opens a connection unless its SYN-ACK cannot be sent. -/
theorem quiet_acceptSyn_iff (key : ConnectionKey) (tcp : Tcp) (s : NetworkStack) :
    Quiet s (after (acceptSyn key tcp) s) ↔ ¬ s.SendReturns key.remoteIp := by
  have hy : (Operation.opener (.passive (synOptions tcp))).run (s.freshSession key) =
    some ((s.freshSession key).acceptIncomingSyn (synOptions tcp)) := rfl
  obtain ⟨failure, s', hrun, htable, hquiet, hfailure, hexception⟩ :=
    run_runSession_quiet hy key.remoteIp s
  have hcalls : (s.freshSession key).callsSince
      ((s.freshSession key).acceptIncomingSyn (synOptions tcp)) ≠ [] := by
    rw [Session.callsSince_eq rfl]
    exact List.cons_ne_nil _ _
  have hreturns : failure = none ↔ s.SendReturns key.remoteIp :=
    hfailure.trans (or_iff_left hcalls)
  rw [after, acceptSyn, run_get_bind, run_bind_ok hrun]
  cases failure with
  | none =>
    refine iff_of_false (fun hopened => ?_) (not_not.2 (hreturns.1 rfl))
    have hregistered := hopened.registered
    change s'.registered ++ [_] = s.registered at hregistered
    rw [show s'.registered = s.registered from congrArg ConnectionTable.registered htable] at hregistered
    simp at hregistered
  | some failed =>
    have hthrows : ¬ s.SendReturns key.remoteIp := fun h => by simpa using hreturns.2 h
    have hsilent : Quiet s s' := hquiet.2 fun _ _ => not_carriesSegment_of_throws hthrows _ _
    simp only [Option.map_some, hexception failed rfl, if_true]
    exact iff_of_true (hsilent.trans (sameOutput_modifyTable s' rfl).quiet) hthrows

end Connections

/-! ### Transports -/

/-- The header of the RST that answers a segment. -/
def rstHeader (tcp : Tcp) : Tcp :=
  if tcp.ack then Tcp.ofFlags tcp.destPort tcp.srcPort tcp.acknowledgementNumber 0 5 flagRst 0 0 0
  else
    Tcp.ofFlags tcp.destPort tcp.srcPort 0
      (tcp.sequenceNumber + (UInt32.ofNat tcp.payload.length + (if tcp.syn then 1 else 0) +
        (if tcp.fin then 1 else 0))) 5 (flagRst ||| flagAck) 0 0 0

theorem sendRst_eq (ip : Ip) (tcp : Tcp) :
    sendRst ip tcp = sendTcpSegment ip.srcAddress (rstHeader tcp) [] := by
  unfold sendRst rstHeader
  split_ifs <;> rfl

/-- The connection that a segment is for. -/
def segmentKey (ip : Ip) (tcp : Tcp) : ConnectionKey := ⟨ip.srcAddress, tcp.srcPort, tcp.destPort⟩

/-- A segment is answered: by its connection, by a SYN-ACK for which the port has room,
or by a RST. -/
def AnsweredTcp (s : NetworkStack) (ip : Ip) (tcp : Tcp) (received : Bytes) : Prop :=
  transportChecksum ip.srcAddress ip.destAddress Ip.protocolTcp received = 0 ∧
    match s.connections.lookup (segmentKey ip tcp), s.listeningPorts.lookup tcp.destPort, tcp.syn with
    | some _, _, _ => ConnectionAnswers s (segmentKey ip tcp) (.event (.segment tcp))
    | none, some backlog, true =>
      (s.acceptQueue tcp.destPort).length < backlog ∧ s.SendReturns ip.srcAddress
    | none, _, _ => tcp.rst = false ∧ s.CarriesSegment ip.srcAddress (rstHeader tcp) []

/-- A datagram is answered: nobody has bound its port. -/
def AnsweredUdp (s : NetworkStack) (ip : Ip) (udp : Udp) : Prop :=
  (udp.checksum = 0 ∨ transportChecksum ip.srcAddress ip.destAddress Ip.protocolUdp udp.toBytes = 0) ∧
    s.udpSockets.lookup udp.destPort = none ∧ msPerSecond ≤ s.icmpErrorTokensScaled ∧
    s.CarriesMessage ip.srcAddress

/-- What a packet carries is answered. -/
def AnsweredTransport (s : NetworkStack) (ip : Ip) : Prop :=
  match ip.nextLayer with
  | some (.tcp tcp received) => ip.protocol = Ip.protocolTcp ∧ AnsweredTcp s ip tcp received
  | some (.udp udp) => ip.protocol = Ip.protocolUdp ∧ AnsweredUdp s ip udp
  | _ => False

section Transports

variable {s : NetworkStack} {ip : Ip}

theorem quiet_handleTcp_iff (tcp : Tcp) (received : Bytes) :
    Quiet s (after (handleTcp ip tcp received) s) ↔ ¬ AnsweredTcp s ip tcp received := by
  have hrst : Quiet s (after (if tcp.rst then pure () else sendRst ip tcp) s) ↔
      ¬ (tcp.rst = false ∧ s.CarriesSegment ip.srcAddress (rstHeader tcp) []) := by
    cases tcp.rst with
    | true => exact iff_of_true (SameOutput.refl s).quiet (by simp)
    | false => simpa [sendRst_eq] using quiet_sendTcpSegment_iff s ip.srcAddress (rstHeader tcp) []
  unfold handleTcp AnsweredTcp
  by_cases hsum : transportChecksum ip.srcAddress ip.destAddress Ip.protocolTcp received = 0
  · rw [if_neg (not_not.2 hsum), after, run_get_bind]
    simp only [hsum, true_and]
    dsimp only [segmentKey]
    cases hlookup : s.connections.lookup ⟨ip.srcAddress, tcp.srcPort, tcp.destPort⟩ with
    | some c => exact quiet_deliverSegment_iff c tcp
    | none =>
      dsimp only
      rw [run_get_bind]
      cases hlisten : s.listeningPorts.lookup tcp.destPort with
      | none => exact hrst
      | some backlog =>
        cases hsyn : tcp.syn with
        | false => exact hrst
        | true =>
          dsimp only
          rw [if_pos rfl, run_get_bind]
          by_cases hfull : backlog ≤ (s.acceptQueue tcp.destPort).length
          · rw [if_pos hfull]
            exact iff_of_true (SameOutput.refl s).quiet fun h => absurd h.1 (not_lt.2 hfull)
          · rw [if_neg hfull, and_iff_right (not_le.1 hfull)]
            exact quiet_acceptSyn_iff (segmentKey ip tcp) tcp s
  · rw [if_pos hsum]
    exact iff_of_true (SameOutput.refl s).quiet fun h => hsum h.1

theorem registered_sendIcmpMessage (destIp : IPv4Address) (header : Icmp) (payload : Bytes)
    (s : NetworkStack) : (after (sendIcmpMessage destIp header payload) s).registered = s.registered := by
  cases hhop : s.hopFor destIp with
  | some hop =>
    rcases Nat.eq_zero_or_pos hop.config.maxIpPayload with hzero | hpos
    · rw [after_error (run_sendIcmpMessage_of_no_room hhop header payload hzero)]
    · rw [after_ok (run_sendIcmpMessage hhop header payload hpos), toConnectionTable_modifyInterface]
      unfold NetworkStack.sent
      split_ifs <;> rfl
  | none =>
    rcases after_sendIcmpMessage_of_none hhop header payload with
      ⟨-, hafter⟩ | ⟨nextHop, egress, interface, -, -, -, hafter⟩
    · rw [hafter]
    · rw [hafter]
      exact congrArg _ (LinkPath.table (does_ensureArpResolution (a := .connect {} 0) trivial s egress nextHop s))

theorem registered_sendIcmpError (type code : UInt8) (ip : Ip) (s : NetworkStack) :
    (after (sendIcmpError type code ip) s).registered = s.registered := by
  rw [sendIcmpError]
  by_cases hbudget : s.icmpErrorTokensScaled < msPerSecond
  · rw [after_bind_ok (run_maySendIcmpError_of_lt hbudget)]
    rfl
  · rw [after_bind_ok (run_maySendIcmpError_of_le (not_lt.1 hbudget))]
    exact registered_sendIcmpMessage ..

/-- **An ICMP error is a reply exactly if** the budget allows it and it can be carried. -/
theorem quiet_sendIcmpError_iff (type code : UInt8) (ip : Ip) (s : NetworkStack) :
    Quiet s (after (sendIcmpError type code ip) s) ↔
      ¬ (msPerSecond ≤ s.icmpErrorTokensScaled ∧ s.CarriesMessage ip.srcAddress) := by
  have hquiet : Quiet s (after (sendIcmpError type code ip) s) ↔
      Writes (fun _ w => ¬ w.Replies) s (after (sendIcmpError type code ip) s) :=
    ⟨Quiet.writes, fun h => ⟨h, registered_sendIcmpError type code ip s⟩⟩
  rw [hquiet, writes_sendIcmpError_iff, not_and]
  refine imp_congr_right fun _ => ⟨?_, ?_⟩
  · rintro h ⟨hop, hhop, hroom⟩
    obtain ⟨w, hw⟩ := List.exists_mem_of_ne_nil _ (Hop.frames_ne_nil hroom)
    refine h.packets hop hhop hroom w hw ?_
    obtain ⟨packet, hpacket, rfl⟩ := List.mem_map.1 hw
    obtain ⟨_, _, _, _, -, rfl⟩ := Hop.packet_eq_of_mem hpacket
    exact replies_frame hop (.inr rfl)
  · refine fun h => ⟨fun hop hhop hroom => absurd ⟨hop, hhop, hroom⟩ h, ?_⟩
    rintro nextHop egress interface - - - - ⟨packet, hpacket, -⟩
    cases hpacket

theorem quiet_handleUdp_iff (udp : Udp) : Quiet s (after (handleUdp ip udp) s) ↔ ¬ AnsweredUdp s ip udp := by
  unfold handleUdp AnsweredUdp
  by_cases hsum : udp.checksum ≠ 0 ∧
      transportChecksum ip.srcAddress ip.destAddress Ip.protocolUdp udp.toBytes ≠ 0
  · rw [if_pos hsum]
    exact iff_of_true (SameOutput.refl s).quiet fun h => h.1.elim hsum.1 hsum.2
  · have hgood : udp.checksum = 0 ∨
        transportChecksum ip.srcAddress ip.destAddress Ip.protocolUdp udp.toBytes = 0 := by
      rwa [not_and_or, not_not, not_not] at hsum
    rw [if_neg hsum, and_iff_right hgood, after, run_get_bind]
    cases s.udpSockets.lookup udp.destPort with
    | none =>
      rw [and_iff_right rfl]
      exact quiet_sendIcmpError_iff _ _ ip s
    | some bound =>
      refine iff_of_true ?_ (by simp)
      cases bound with
      | false => exact (SameOutput.refl s).quiet
      | true => exact SameOutput.quiet ⟨fun _ => rfl, rfl⟩

/-- What an ICMP error tells a connection makes it send nothing. -/
theorem quiet_handleIcmpError (icmp : Icmp) (s : NetworkStack) : Quiet s (after (handleIcmpError icmp) s) := by
  rw [handleIcmpError]
  cases keyFromIcmpQuote icmp with
  | error what => exact (SameOutput.refl s).quiet
  | ok key =>
    cases key with
    | none => exact (SameOutput.refl s).quiet
    | some key =>
      have hsilent (e : Event) (he : ∀ x y, e.run x = some y → y.sent = x.sent) :
          Quiet s (after (runConnection key (.event e)) s) := by
        rw [quiet_runConnection_iff]
        rintro ⟨c, y, call, -, hy, hcall, -⟩
        have hnone : c.session.callsSince y = [] :=
          Session.callsSince_eq (by rw [he _ _ hy, List.append_nil])
        rw [hnone] at hcall
        cases hcall
      change Quiet s (after (if icmp.code = Icmp.codeFragmentationNeeded then _ else _) s)
      split_ifs
      · refine hsilent _ fun x y hy => ?_
        cases hy
        rfl
      · refine hsilent _ fun x y hy => ?_
        cases hy
        rfl

theorem quiet_handleIcmp (hbroadcast : s.isBroadcastForAnyInterface ip.destAddress = true) (icmp : Icmp) :
    Quiet s (after (handleIcmp ip icmp) s) := by
  rw [handleIcmp]
  split_ifs
  · exact (SameOutput.refl s).quiet
  · rw [after, run_get_bind, if_pos hbroadcast]
    exact (SameOutput.refl s).quiet
  · exact quiet_handleIcmpError icmp s
  · exact (SameOutput.refl s).quiet

theorem quiet_dispatchTransport_iff (hbroadcast : s.isBroadcastForAnyInterface ip.destAddress = true) :
    Quiet s (after (dispatchTransport ip) s) ↔ ¬ AnsweredTransport s ip := by
  have hrefl := (SameOutput.refl s).quiet
  unfold dispatchTransport AnsweredTransport
  cases ip.nextLayer with
  | none => exact iff_of_true hrefl not_false
  | some layer =>
    cases layer with
    | raw data => exact iff_of_true hrefl not_false
    | tcp tcp received =>
      dsimp only
      split_ifs with hprotocol
      · rw [and_iff_right hprotocol]
        exact quiet_handleTcp_iff tcp received
      · exact iff_of_true hrefl fun h => hprotocol h.1
    | udp udp =>
      dsimp only
      split_ifs with hprotocol
      · rw [and_iff_right hprotocol]
        exact quiet_handleUdp_iff udp
      · exact iff_of_true hrefl fun h => hprotocol h.1
    | icmp icmp =>
      dsimp only
      split_ifs
      · exact iff_of_true (quiet_handleIcmp hbroadcast icmp) not_false
      · exact iff_of_true hrefl not_false

end Transports

/-! ### Packets -/

/-- A fragment completes a datagram that is answered. -/
def AnsweredFragment (s : NetworkStack) (ip : Ip) : Prop :=
  ∃ datagram r complete, ip.offerTo s.reassembler = some (.complete datagram, r) ∧
    Ip.fromBytes (ip.reassembled datagram).toBytes = .ok complete ∧ AnsweredTransport s complete

/-- **A packet is answered**: its header is intact, and what it carries is answered, or
the datagram that it completes, or it was to be forwarded and has expired. -/
def Answered (s : NetworkStack) (inbound : InterfaceConfig) (ip : Ip) : Prop :=
  ip.verifyChecksum = true ∧
    if s.isOwnAddress ip.destAddress || isBroadcastAddress ip.destAddress inbound then
      if ip.getIpFlagM || ip.fragmentOffset ≠ 0 then AnsweredFragment s ip else AnsweredTransport s ip
    else
      s.forwardingEnabled = true ∧ ip.ttl ≤ 1 ∧ msPerSecond ≤ s.icmpErrorTokensScaled ∧
        s.CarriesMessage ip.srcAddress

section Packets

variable {s s' : NetworkStack} {ingress : ℕ} {inbound : Interface} {ip : Ip} {ipBytes : Bytes}

/-- What is answered depends on the routes and neighbours, the connections, the sockets
and the budget. -/
theorem answeredTransport_congr (hlinks : s'.links = s.links)
    (htable : s'.toConnectionTable = s.toConnectionTable) (hsockets : s'.udpSockets = s.udpSockets)
    (htokens : s'.icmpErrorTokensScaled = s.icmpErrorTokensScaled) (ip : Ip) :
    AnsweredTransport s' ip ↔ AnsweredTransport s ip := by
  have hconnections : s'.connections = s.connections := congrArg ConnectionTable.connections htable
  have hlistening : s'.listeningPorts = s.listeningPorts := congrArg ConnectionTable.listeningPorts htable
  have hqueue (port : UInt16) : s'.acceptQueue port = s.acceptQueue port :=
    congrArg (ConnectionTable.acceptQueue · port) htable
  have hmessage : s'.CarriesMessage ip.srcAddress ↔ s.CarriesMessage ip.srcAddress := by
    rw [NetworkStack.CarriesMessage, NetworkStack.CarriesMessage, NetworkStack.hopFor_of_links hlinks]
  unfold AnsweredTransport
  cases ip.nextLayer with
  | none => rfl
  | some layer =>
    cases layer with
    | raw data => rfl
    | icmp message => rfl
    | tcp tcp received =>
      simp only [AnsweredTcp, ConnectionAnswers, hconnections, hlistening, hqueue,
        carriesSegment_of_links hlinks, sendReturns_of_links hlinks]
    | udp udp => simp only [AnsweredUdp, hsockets, htokens, hmessage]

/-- What is answered is the datagram that the packet completes. -/
theorem answered_iff_of_takes (htakes : s.Takes inbound.config ip) :
    Answered s inbound.config ip ↔ ip.verifyChecksum = true ∧
      ∃ datagram, ip.Completes s.reassembler datagram ∧ AnsweredTransport s datagram := by
  rw [NetworkStack.Takes] at htakes
  rw [Answered, if_pos htakes]
  unfold AnsweredFragment Ip.Completes
  refine and_congr_right fun _ => ?_
  split_ifs
  · constructor
    · rintro ⟨bytes, r, datagram, hoffer, hparse, h⟩
      exact ⟨datagram, ⟨bytes, r, hoffer, hparse⟩, h⟩
    · rintro ⟨datagram, ⟨bytes, r, hoffer, hparse⟩, h⟩
      exact ⟨bytes, r, datagram, hoffer, hparse, h⟩
  · exact exists_eq_left.symm

theorem registered_forwardIp_of_route {nextHop : IPv4Address} {egress : ℕ}
    (hchecksum : ip.verifyChecksum = true) (httl : ¬ ip.ttl ≤ 1)
    (hroute : s.routeFor ip.destAddress = some (nextHop, egress)) :
    (after (forwardIp ingress ip ipBytes) s).registered = s.registered := by
  rw [after_forwardIp_of_route hchecksum httl hroute]
  split_ifs
  · rfl
  split
  · rfl
  split
  · exact congrArg _ (LinkPath.table (does_ensureArpResolution (a := .connect {} 0) trivial s egress nextHop s))
  · rw [toConnectionTable_modifyInterface]

/-- **A packet to a broadcast of another link** is answered if it has expired. -/
theorem quiet_forwardIp_iff (hbroadcast : s.isBroadcastForAnyInterface ip.destAddress = true) :
    Quiet s (after (forwardIp ingress ip ipBytes) s) ↔
      ¬ (ip.verifyChecksum = true ∧ ip.ttl ≤ 1 ∧ msPerSecond ≤ s.icmpErrorTokensScaled ∧
        s.CarriesMessage ip.srcAddress) := by
  cases hchecksum : ip.verifyChecksum with
  | false =>
    rw [after_forwardIp_of_corrupt hchecksum]
    exact iff_of_true (SameOutput.refl s).quiet (by simp)
  | true =>
    rw [and_iff_right rfl]
    by_cases httl : ip.ttl ≤ 1
    · rw [after_forwardIp_of_expired hchecksum httl, and_iff_right httl]
      exact quiet_sendIcmpError_iff _ _ ip s
    · have hroute := routeFor_of_broadcast hbroadcast
      refine iff_of_true ⟨?_, registered_forwardIp_of_route hchecksum httl hroute⟩ fun h => httl h.1
      rw [writes_forwardIp_of_route hchecksum httl hroute]
      intro hegress hlength out hout
      split
      · rintro - ⟨packet, hpacket, -⟩
        cases hpacket
      · rintro ⟨packet, hpacket, -⟩
        cases hpacket

theorem quiet_handleIp_iff (hinbound : s.interface? ingress = some inbound)
    (hbroadcast : s.isBroadcastForAnyInterface ip.destAddress = true) :
    Quiet s (after (handleIp ingress ip ipBytes) s) ↔ ¬ Answered s inbound.config ip := by
  by_cases htakes : s.Takes inbound.config ip
  · -- the sender is a neighbour that has been heard of, which changes nothing that matters here
    have hlinks (r : IpReassembler) := links_refresh (s := s) ingress ip.srcAddress r
    have hsame (r : IpReassembler) : SameOutput s
        { s.modifyInterface ingress (Interface.refresh ip.srcAddress) with reassembler := r } :=
      ⟨written_modifyInterface (f := Interface.refresh ip.srcAddress) (fun _ => rfl) ingress,
        congrArg ConnectionTable.registered (toConnectionTable_modifyInterface ..)⟩
    rw [answered_iff_of_takes htakes]
    cases hchecksum : ip.verifyChecksum with
    | false =>
      rw [NetworkStack.Takes] at htakes
      rw [after, handleIp, run_bind_ok (run_interfaceAt hinbound), run_get_bind, if_pos htakes,
        run_modify_bind, hchecksum]
      exact iff_of_true (hsame (s.modifyInterface ingress _).reassembler).quiet (by simp)
    | true =>
      rw [and_iff_right rfl]
      obtain ⟨r, ⟨datagram, hcompletes, hafter⟩ | ⟨hnone, hafter⟩⟩ :=
        after_handleIp_of_takes ipBytes hinbound htakes hchecksum
      · rw [hafter, (hsame r).quiet_iff_left, quiet_dispatchTransport_iff,
          answeredTransport_congr (hlinks r) (toConnectionTable_modifyInterface ..)]
        · refine not_congr ⟨fun h => ⟨datagram, hcompletes, h⟩, ?_⟩
          rintro ⟨datagram', hcompletes', h⟩
          rwa [hcompletes.unique hcompletes']
        · cases ingress <;> rfl
        · cases ingress <;> rfl
        · rw [NetworkStack.isBroadcastForAnyInterface_of_links (hlinks r), hcompletes.destAddress]
          exact hbroadcast
      · rw [hafter]
        exact iff_of_true (hsame r).quiet fun h => hnone h.choose h.choose_spec.1
  · rw [NetworkStack.Takes] at htakes
    rw [after, handleIp, run_bind_ok (run_interfaceAt hinbound), run_get_bind, Answered, if_neg htakes,
      if_neg htakes, run_get_bind]
    by_cases henabled : s.forwardingEnabled = true
    · rw [if_pos henabled, and_iff_right henabled]
      exact quiet_forwardIp_iff hbroadcast
    · rw [if_neg henabled]
      exact iff_of_true (SameOutput.refl s).quiet fun h => henabled h.2.1

/-- **A broadcast is handled without a reply exactly if** its frame is not for this
host or it is not answered. -/
theorem broadcast_unanswered_iff {frame : Bytes} {src dest : MacAddress} {etherType : UInt16}
    (hframe : Ethernet.fromBytes frame = .ok ⟨src, dest, etherType, .ip ip⟩)
    (hinbound : s.interface? ingress = some inbound)
    (hbroadcast : s.isBroadcastForAnyInterface ip.destAddress = true) :
    Quiet s (after (handleFrame ingress frame) s) ↔
      ¬ (isAddressedToUs dest inbound.config.mac = true ∧ Answered s inbound.config ip) := by
  cases haddressed : isAddressedToUs dest inbound.config.mac with
  | false =>
    rw [after_handleFrame_of_not_addressed hframe hinbound haddressed]
    exact iff_of_true (SameOutput.refl s).quiet (by simp)
  | true =>
    rw [after_handleFrame_of_ip hframe hinbound haddressed, and_iff_right rfl]
    exact quiet_handleIp_iff hinbound hbroadcast

end Packets

/-- An echo request. -/
def echoMessage : Icmp := (Icmp.ofData Icmp.echoRequest 0 0 1 [1]).computeChecksum

/-- It comes from 10.0.0.5 to the broadcast of the first link. -/
def broadcastEcho : Ip :=
  { ipPacket ⟨0x0A000005⟩ ⟨0x0A0000FF⟩ Ip.protocolIcmp 0 0 0 echoMessage.toBytes with
    nextLayer := some (.icmp echoMessage) }

/-- An echo request to a broadcast is not answered. -/
theorem broadcast_echo_unanswered :
    Quiet knowsFirst (after (handleFrame 0 (Ethernet.toBytes
      ⟨MacAddress.zero, MacAddress.broadcast, Ethernet.etherTypeIPv4, .ip broadcastEcho⟩)) knowsFirst) := by
  have hframe : Ethernet.fromBytes (Ethernet.toBytes
      ⟨MacAddress.zero, MacAddress.broadcast, Ethernet.etherTypeIPv4, .ip broadcastEcho⟩) =
    .ok ⟨MacAddress.zero, MacAddress.broadcast, Ethernet.etherTypeIPv4, .ip broadcastEcho⟩ := by
    decide +kernel
  refine (broadcast_unanswered_iff (s := knowsFirst) hframe rfl (by decide +kernel)).2 ?_
  rintro ⟨-, -, h⟩
  rw [if_pos (by decide +kernel), if_neg (by decide +kernel)] at h
  exact h

/-- A SYN for port 80 from 10.0.0.5 to the broadcast of the first link. -/
def broadcastSyn : Ip :=
  let segment := Tcp.ofFlags 5000 80 7 0 5 flagSyn 1000 0 0
  let checksum := transportChecksum ⟨0x0A000005⟩ ⟨0x0A0000FF⟩ Ip.protocolTcp segment.toBytes
  ipPacket ⟨0x0A000005⟩ ⟨0x0A0000FF⟩ Ip.protocolTcp 0 0 0 { segment with checksum := checksum }.toBytes

/-- A datagram without a checksum from 10.0.0.5 to the broadcast of the first link. -/
def broadcastDatagram : Ip :=
  ipPacket ⟨0x0A000005⟩ ⟨0x0A0000FF⟩ Ip.protocolUdp 0 0 0 (Udp.ofData 5000 9 9 0 [1]).toBytes

/-- **A SYN to a broadcast opens a connection, and a datagram to a broadcast is answered
with a Port Unreachable.** -/
theorem broadcast_syn_answered :
    (runs Step.run [.listen 80 5, arpIn 0 ⟨[2, 0, 0, 0, 0, 5], rfl⟩ ⟨0x0A000005⟩ ⟨0x0A000001⟩,
      packetIn 0 broadcastSyn, packetIn 0 broadcastDatagram] twoLinks).map (fun s =>
        (s.registered.length, s.primary.written.filterMap fun w =>
          match w.frame.nextLayer with
          | .ip packet => some (packet.protocol, packet.destAddress)
          | _ => none)) =
      some (1, [(Ip.protocolTcp, ⟨0x0A000005⟩), (Ip.protocolIcmp, ⟨0x0A000005⟩)]) := by
  decide +kernel

end TcpIpStack
