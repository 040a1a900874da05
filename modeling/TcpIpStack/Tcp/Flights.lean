/-
# What happens to the segments in flight

The effects of `TcpIpStack.Tcp.Effects` forget the clock, and the marks that the
clock leaves on a segment in flight: when it was sent, and whether it was sent
again.  `FlightStep` is the relation of the steps that keep them.  A segment is
sent, sent again, marked, aged or retired; a probe or an ack goes out; time
passes.  Each call of `_send_segment` is recorded with the window it was made
over.

`Event.run_flights` says that an event does nothing else, and how much time
passes on the way.
-/

import TcpIpStack.Tcp.AckDuty

namespace TcpIpStack

open TcpConnection Session

/-- The window and its clock, and what the session has recorded about them. -/
structure Flying where
  inFlight : List InFlightSegment
  sendNext : UInt32
  nowMs : UInt64
  retired : Bytes
  sent : List Call

/-- The window of a session, and the calls that filled it. -/
def Session.flying (x : Session) : Flying :=
  ⟨x.conn.inFlight, x.conn.sendNext, x.conn.nowMs, x.retired, x.sent⟩

/-- The call is made over this window. -/
structure Call.Over (f : Flying) (call : Call) : Prop where
  inFlight : call.conn.inFlight = f.inFlight
  nowMs : call.conn.nowMs = f.nowMs
  retired : call.retired = f.retired

/-- The call puts the segment on the wire. -/
structure Call.Bears (s : InFlightSegment) (call : Call) : Prop where
  seq : call.header.sequenceNumber = s.seq
  payload : call.payload = s.payload
  syn : call.header.syn = hasFlag s.flags flagSyn
  fin : call.header.fin = hasFlag s.flags flagFin

/-- One step, and the time it takes. -/
inductive FlightStep : ℕ → Flying → Flying → Prop
  /-- An ack or a keepalive probe. -/
  | ack (f call) : call.site = .pureAck ∨ call.site = .keepaliveProbe → call.span = 0 → call.Over f →
      FlightStep 0 f { f with sent := f.sent ++ [call] }
  | probe (f call) : call.site = .zeroWindowProbe → call.header.syn = false →
      call.header.sequenceNumber = f.sendNext → call.Over f →
      FlightStep 0 f { f with sent := f.sent ++ [call] }
  /-- Data or a FIN, for the first time. -/
  | send (f call) (s : InFlightSegment) : call.site = .sendFlags → call.Over f → call.Bears s →
      call.header.syn = false → s.seq = f.sendNext → s.sentAtMs = f.nowMs → s.retransmitted = false →
      FlightStep 0 f { f with
        inFlight := f.inFlight ++ [s]
        sendNext := f.sendNext + UInt32.ofNat call.span
        sent := f.sent ++ [call] }
  | resend (f call) (s : InFlightSegment) (rtoMs) : call.site = .fastRetransmit ∨ call.site = .timeoutRetransmit →
      call.Over f → f.inFlight.find? (fun s => !s.sacked) = some s → call.Bears s →
      FlightStep 0 f
        { f with inFlight := updateOldestUnsacked (resent rtoMs) f.inFlight, sent := f.sent ++ [call] }
  | mark (f) (sacked : InFlightSegment → Bool) : (∀ s, s.sacked → sacked s) →
      FlightStep 0 f { f with inFlight := f.inFlight.map fun s => { s with sacked := sacked s } }
  | age (f remaining attempts) :
      FlightStep 0 f { f with inFlight := updateOldestUnsacked (aged remaining attempts) f.inFlight }
  | retire (f ack) :
      FlightStep 0 f { f with
        inFlight := f.inFlight.dropWhile (coveredBy ack)
        retired := f.retired ++ (f.inFlight.takeWhile (coveredBy ack)).flatMap (·.payload) }
  /-- The SYN is acknowledged. -/
  | establish (f) : (∀ s ∈ f.inFlight, s.payload = []) → FlightStep 0 f { f with inFlight := [] }
  | tick (f) (elapsedMs : UInt32) :
      FlightStep elapsedMs.toNat f { f with nowMs := f.nowMs + elapsedMs.toUInt64 }

/-- A sequence of steps, and the time it takes. -/
inductive Flights : ℕ → Flying → Flying → Prop
  | refl (f) : Flights 0 f f
  | tail {m n f g h} : Flights m f g → FlightStep n g h → Flights (m + n) f h

section Flights

variable {m n : ℕ} {f g h : Flying} {x y z : Session} {t : Tcp}

theorem Flights.single (hstep : FlightStep n f g) : Flights n f g := by
  simpa using (Flights.refl f).tail hstep

theorem Flights.trans (hfg : Flights m f g) (hgh : Flights n g h) : Flights (m + n) f h := by
  induction hgh with
  | refl => exact hfg
  | tail _ hstep ih =>
    rw [← Nat.add_assoc]
    exact (ih hfg).tail hstep

theorem Flights.preserves {P : ℕ → Flying → Prop} (hflights : Flights n f g)
    (hstep : ∀ {k n f g}, FlightStep n f g → P k f → P (k + n) g) (hf : P m f) : P (m + n) g := by
  induction hflights with
  | refl => exact hf
  | tail _ hlast ih =>
    rw [← Nat.add_assoc]
    exact hstep hlast (ih hf)

theorem Flights.of_eq (heq : y.flying = x.flying) : Flights 0 x.flying y.flying := heq ▸ .refl _

theorem Flights.andThen (hxy : Flights 0 f g) (hyz : Flights 0 g h) : Flights 0 f h := hxy.trans hyz

/-! ### Sending -/

theorem bears_sendOptions {call : Call} {s : InFlightSegment} (flags : UInt8)
    (hheader : call.header = sendOptions call.conn flags (call.conn.buildHeader s.flags s.seq))
    (hpayload : call.payload = s.payload) : call.Bears s := by
  obtain ⟨hfin, hsyn, hseq⟩ := sendOptions_flags call.conn flags (call.conn.buildHeader s.flags s.seq)
  rw [← hheader] at hfin hsyn hseq
  exact ⟨hseq, hpayload, hsyn, hfin⟩

theorem span_ack {call : Call} {seq : UInt32} (hpayload : call.payload = [])
    (hheader : call.header = sendOptions call.conn 0 (call.conn.buildHeader flagAck seq)) : call.span = 0 := by
  obtain ⟨hfin, hsyn, -⟩ := sendOptions_flags call.conn 0 (call.conn.buildHeader flagAck seq)
  rw [← hheader] at hfin hsyn
  exact span_eq_zero hpayload (hfin.trans (by decide : hasFlag flagAck flagFin = false))
    (hsyn.trans (by decide : hasFlag flagAck flagSyn = false))

/-- The segment takes up what its header says. -/
theorem flights_sendFlags {flags : UInt8} (payload : Bytes) (x : Session)
    (hsyn : hasFlag (flags ||| flagAck) flagSyn = false) (hflags : hasFlag flags flagSyn = false)
    (hfin : hasFlag (flags ||| flagAck) flagFin = hasFlag flags flagFin) :
    Flights 0 x.flying (x.sendFlags flags payload true).flying := by
  obtain ⟨hheader, hheader', -⟩ :=
    sendOptions_flags x.conn flags (x.conn.buildHeader (flags ||| flagAck) x.conn.sendNext)
  have hspan : (⟨.sendFlags, x.conn, x.entered, x.accepted, x.retired, sendOptions x.conn flags
      (x.conn.buildHeader (flags ||| flagAck) x.conn.sendNext), payload⟩ : Call).span =
      payload.length + (if hasFlag flags flagSyn then 1 else 0) + (if hasFlag flags flagFin then 1 else 0) := by
    have hfin' : (x.conn.buildHeader (flags ||| flagAck) x.conn.sendNext).fin = hasFlag flags flagFin := hfin
    have hsyn' : (x.conn.buildHeader (flags ||| flagAck) x.conn.sendNext).syn = false := hsyn
    simp only [Call.span, hheader, hheader', hfin', hsyn', hflags]
  have hstep := FlightStep.send x.flying ⟨.sendFlags, x.conn, x.entered, x.accepted, x.retired,
    sendOptions x.conn flags (x.conn.buildHeader (flags ||| flagAck) x.conn.sendNext), payload⟩
    { seq := x.conn.sendNext, endSeq := x.conn.sendNext + UInt32.ofNat (payload.length +
        (if hasFlag flags flagSyn then 1 else 0) + (if hasFlag flags flagFin then 1 else 0)),
      flags := flags ||| flagAck, payload := payload, retransmitMsRemaining := x.conn.rtoMs,
      retransmitAttempts := 0, sentAtMs := x.conn.nowMs, sacked := false, retransmitted := false }
    rfl ⟨rfl, rfl, rfl⟩ (bears_sendOptions flags rfl rfl) (hheader'.trans hsyn) rfl rfl rfl
  rw [hspan] at hstep
  exact .single hstep

theorem flights_sendPureAck (x : Session) : Flights 0 x.flying x.sendPureAck.flying :=
  .single (.ack _ _ (.inl rfl) (span_ack rfl rfl) ⟨rfl, rfl, rfl⟩)

theorem flights_sendFront (front : Bytes) (rest : List Bytes) (x : Session) :
    Flights 0 x.flying (x.sendFront front rest).flying :=
  flights_sendFlags front (x.modify fun c =>
    { c with sendQueue := rest, sendQueuedBytes := c.sendQueuedBytes - front.length })
    (by decide) (by decide) (by decide)

theorem flying_armOrDisarmPersist (x : Session) : (x.modify (·.armOrDisarmPersist)).flying = x.flying := by
  unfold Session.modify armOrDisarmPersist
  dsimp only
  split_ifs <;> rfl

theorem flights_close (x : Session) : Flights 0 x.flying x.close.flying := by
  unfold close
  split_ifs
  · exact .refl _
  · exact .of_eq rfl
  · exact flights_sendFlags [] (x.transition .finWait1) (by decide) (by decide) (by decide)
  · exact flights_sendFlags [] (x.transition .lastAck) (by decide) (by decide) (by decide)

/-! ### `_handle_ack` -/

theorem flights_retireAcked (t : Tcp) (x : Session) : Flights 0 x.flying (x.retireAcked t).flying := by
  have hflying : (x.retireAcked t).flying = { x.flying with
      inFlight := x.conn.inFlight.dropWhile (coveredBy t.acknowledgementNumber)
      retired := x.retired ++
        (x.conn.inFlight.takeWhile (coveredBy t.acknowledgementNumber)).flatMap (·.payload) } := by
    unfold Session.flying retireAcked
    dsimp only
    rcases sampleRtt_cases t (x.conn.ackTally t.acknowledgementNumber)
      (x.conn.retire t.acknowledgementNumber) with h | ⟨rttMs, h⟩ <;> rw [h] <;> rfl
  rw [hflying]
  exact .single (.retire x.flying t.acknowledgementNumber)

theorem flying_afterNewAck (tally : AckTally) (x : Session) :
    (x.modify (afterNewAck tally)).flying = x.flying := by
  unfold Session.modify afterNewAck
  split <;> rfl

theorem flights_noteAck (t : Tcp) (x : Session) : Flights 0 x.flying (x.modify (noteAck t)).flying := by
  obtain ⟨sacked, hsacked, hflight⟩ := applySackBlocks_inFlight t x.conn
  obtain ⟨flight, bytes, heq⟩ := applySackBlocks_eq t x.conn
  have hflying : (x.modify (noteAck t)).flying =
      { x.flying with inFlight := x.conn.inFlight.map fun s => { s with sacked := sacked s } } := by
    rw [← hflight]
    simp only [Session.flying, Session.modify, noteAck, takeWindow, heq]
  rw [hflying]
  exact .single (.mark x.flying sacked hsacked)

theorem flying_recordTimestamp (t : Tcp) (x : Session) : (x.modify (recordTimestamp t)).flying = x.flying := by
  unfold Session.modify recordTimestamp
  split
  · split_ifs <;> rfl
  · rfl

theorem flights_frame : SegmentFrame True fun x y => Flights 0 x.flying y.flying where
  refl x := .refl x.flying
  trans := .andThen
  front := flights_sendFront
  persist x := .of_eq (flying_armOrDisarmPersist x)
  note := flights_noteAck
  count x := .refl x.flying
  inflate x := .refl x.flying
  fast {oldest x} _ hold :=
    .single (.resend _ _ oldest x.conn.rtoMs (.inl rfl) ⟨rfl, rfl, rfl⟩ hold ⟨rfl, rfl, rfl, rfl⟩)
  clear x := .refl x.flying
  retire := flights_retireAcked
  after tally x := .of_eq (flying_afterNewAck tally x)
  ends {x y} h := by
    cases h with
    | stop => exact .refl x.flying
    | acked => exact .refl x.flying
    | close _ _ _ => exact flights_close (x.modify fun c => { c with finRequested := false })
  pureAck := flights_sendPureAck
  hold x := .refl x.flying
  deliver _ x := .refl x.flying
  unblock _ x := .refl x.flying
  buffer _ _ _ := by
    unfold Session.modify bufferOutOfOrder
    split_ifs <;> exact .of_eq rfl
  pastFin x := .refl x.flying
  enter _ x _ _ := .refl x.flying
  wait x := .refl x.flying
  record t x := .of_eq (flying_recordTimestamp t x)

/-- While the handshake is not over, no segment in flight carries data. -/
def OpensEmpty (c : TcpConnection) : Prop :=
  c.state = .synSent ∨ c.state = .synReceived → ∀ s ∈ c.inFlight, s.payload = []

theorem flights_onSegment (t : Tcp) (hopens : OpensEmpty x.conn) : Flights 0 x.flying (x.onSegment t).flying := by
  have hnoted : (x.noteArrival t).flying = x.flying := rfl
  have hstate : (x.noteArrival t).conn.state = x.conn.state := rfl
  unfold onSegment dispatch
  rw [← hnoted]
  split_ifs
  · unfold handleRst
    dsimp only
    split_ifs <;> exact .of_eq rfl
  · split
    · next hsent =>
      unfold handleSynSent
      split_ifs
      · exact Flights.andThen (.single (.establish _ (hopens (.inl hsent))))
          (flights_sendPureAck (((x.noteArrival t).modify (recordSynAck t)).transition .established))
      · exact .refl _
    · next hreceived =>
      unfold handleSynReceived
      split_ifs
      · exact .single (.establish _ (hopens (.inr hreceived)))
      · exact .refl _
    · exact .refl _
    · exact flights_frame.handleSynchronized fun _ _ _ => trivial

/-! ### `on_time_passed` -/

theorem flights_runDelayedAck (elapsedMs : UInt32) (x : Session) :
    Flights 0 x.flying (x.runDelayedAck elapsedMs).flying := by
  unfold runDelayedAck
  dsimp only
  split_ifs
  · exact .single (.ack _ _ (.inl rfl) (span_ack rfl rfl) ⟨rfl, rfl, rfl⟩)
  · exact .of_eq rfl
  · exact .refl _

theorem flights_runPersist (elapsedMs : UInt32) (x : Session) :
    Flights 0 x.flying (x.runPersist elapsedMs).flying := by
  unfold runPersist sendZeroWindowProbe
  split_ifs
  · split
    · exact .of_eq rfl
    · exact .single (.probe _ _ rfl (by decide : hasFlag flagAck flagSyn = false) rfl ⟨rfl, rfl, rfl⟩)
  · exact .of_eq rfl

theorem flights_runKeepalive (elapsedMs : UInt32) (x : Session) :
    Flights 0 x.flying (x.runKeepalive elapsedMs).flying := by
  have hspan {call : Call} (hheader : call.header = call.conn.buildHeader flagAck (call.conn.sendNext - 1))
      (hpayload : call.payload = []) : call.span = 0 :=
    span_eq_zero hpayload (by rw [hheader]; exact (by decide : hasFlag flagAck flagFin = false))
      (by rw [hheader]; exact (by decide : hasFlag flagAck flagSyn = false))
  unfold runKeepalive
  dsimp only
  split_ifs
  · exact .refl _
  · exact .of_eq rfl
  · exact .of_eq rfl
  · exact .single (.ack _ _ (.inr rfl) (hspan rfl rfl) ⟨rfl, rfl, rfl⟩)
  · exact .single (.ack _ _ (.inr rfl) (hspan rfl rfl) ⟨rfl, rfl, rfl⟩)
  · exact .of_eq rfl

theorem find_updateOldestUnsacked {u : InFlightSegment → InFlightSegment} (hu : ∀ s, (u s).sacked = s.sacked)
    {flight : List InFlightSegment} {s : InFlightSegment} (h : flight.find? (fun s => !s.sacked) = some s) :
    (updateOldestUnsacked u flight).find? (fun s => !s.sacked) = some (u s) := by
  induction flight with
  | nil => cases h
  | cons front rest ih =>
    rw [updateOldestUnsacked]
    cases hsacked : front.sacked with
    | true =>
      rw [if_pos rfl, List.find?_cons_of_neg (by simp [hsacked])]
      exact ih (by rwa [List.find?_cons_of_neg (by simp [hsacked])] at h)
    | false =>
      rw [List.find?_cons_of_pos (by simp [hsacked])] at h
      rw [if_neg Bool.false_ne_true, List.find?_cons_of_pos (by simp [hu, hsacked]), Option.some.inj h]

theorem flights_runRetransmit (elapsedMs : UInt32) (x : Session) :
    Flights 0 x.flying (x.runRetransmit elapsedMs).flying := by
  unfold runRetransmit
  cases holdest : x.conn.oldestUnsackedSegment with
  | none => exact .refl _
  | some oldest =>
    dsimp only
    split_ifs
    · exact .single (.age x.flying _ _)
    · exact .single (.age x.flying _ _)
    · set u := aged (oldest.retransmitMsRemaining - asInt elapsedMs) (oldest.retransmitAttempts + 1)
      refine Flights.andThen (.single (.age x.flying (oldest.retransmitMsRemaining - asInt elapsedMs)
        (oldest.retransmitAttempts + 1))) ?_
      exact .single (.resend _ _ (u oldest) (backOff x.conn).rtoMs (.inr rfl) ⟨rfl, rfl, rfl⟩
        (find_updateOldestUnsacked (u := u) (fun _ => rfl) holdest) ⟨rfl, rfl, rfl, rfl⟩)

theorem flights_onTimePassed (elapsedMs : UInt32) (x : Session) :
    ∃ n ≤ elapsedMs.toNat, Flights n x.flying (x.onTimePassed elapsedMs).flying := by
  unfold onTimePassed
  split_ifs
  · exact ⟨0, Nat.zero_le _, .refl _⟩
  · refine ⟨elapsedMs.toNat, le_rfl, ?_⟩
    dsimp only
    have htick : Flights elapsedMs.toNat x.flying
        (x.modify fun c => { c with nowMs := c.nowMs + elapsedMs.toUInt64 }).flying :=
      .single (.tick x.flying elapsedMs)
    refine htick.trans (n := 0) ?_
    generalize x.modify (fun c => { c with nowMs := c.nowMs + elapsedMs.toUInt64 }) = y
    have hdelayed := flights_runDelayedAck elapsedMs y
    split_ifs
    · exact .of_eq rfl
    · exact .of_eq rfl
    · exact hdelayed.andThen (flights_runPersist ..)
    · exact hdelayed.andThen (flights_runKeepalive ..)
    · exact hdelayed.andThen (flights_runRetransmit ..)

/-! ### The application -/

theorem flights_placeChunk (chunk : Bytes) (x : Session) : Flights 0 x.flying (x.placeChunk chunk).flying := by
  unfold placeChunk
  dsimp only
  split_ifs
  · exact .of_eq rfl
  · exact flights_sendFlags chunk x (by decide) (by decide) (by decide)

theorem flights_read (maxBytes : ℕ) (x : Session) : Flights 0 x.flying (x.read maxBytes).flying := by
  unfold Session.read
  dsimp only
  split_ifs
  · exact .single (.ack _ _ (.inl rfl) (span_ack rfl rfl) ⟨rfl, rfl, rfl⟩)
  · exact .of_eq rfl

/-- **What an event does to the segments in flight**, and how much time it
takes. -/
theorem Event.run_flights {e : Event} (he : e.run x = some y) (hopens : OpensEmpty x.conn) :
    ∃ n ≤ e.elapsed, Flights n x.flying y.flying := by
  cases e with
  | segment t => exact Option.some.inj he ▸ ⟨0, le_rfl, flights_onSegment t hopens⟩
  | timePassed elapsedMs => exact Option.some.inj he ▸ flights_onTimePassed elapsedMs x
  | send data => exact ⟨0, le_rfl, flights_frame.send flights_placeChunk he⟩
  | read maxBytes => exact Option.some.inj he ▸ ⟨0, le_rfl, flights_read maxBytes x⟩
  | close => exact Option.some.inj he ▸ ⟨0, le_rfl, flights_close x⟩
  | setKeepalive enabled => exact Option.some.inj he ▸ ⟨0, le_rfl, .of_eq rfl⟩
  | reduceEffectiveMss pathMss =>
    refine Option.some.inj he ▸ ⟨0, le_rfl, .of_eq ?_⟩
    unfold Session.modify Session.reduceEffectiveMss
    dsimp only
    split_ifs <;> rfl
  | fail => exact Option.some.inj he ▸ ⟨0, le_rfl, .of_eq rfl⟩

theorem Session.Kept.opensEmpty {isn : UInt32} (h : x.Kept isn) : OpensEmpty x.conn := by
  intro hstate s hs
  have hmem : s.flight ∈ x.conn.core.flight := List.mem_map_of_mem hs
  have hphase := h.phase
  have hopening {flags : UInt8} (hk : Opening isn flags x.retired.length x.conn.core) : s.payload = [] := by
    rw [hk.flight] at hmem
    exact congrArg Flight.payload (List.mem_singleton.1 hmem)
  rcases hstate with hstate | hstate
  · rw [Phase, show x.conn.core.state = .synSent from hstate] at hphase
    exact hopening hphase
  · rw [Phase, show x.conn.core.state = .synReceived from hstate] at hphase
    exact hopening hphase

end Flights

end TcpIpStack
