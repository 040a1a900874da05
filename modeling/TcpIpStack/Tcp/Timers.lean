/-
# What runs without the clock

The effects of `TcpIpStack.Tcp.Effects` do not say what an event does to the
timers, nor where in the source it sends.  This module does, for the events
that are not the clock: a segment that arrives, `send` and `read`.

`Undisturbed r x y` collects what they all have in common.  No countdown is
started at zero, no attempt to retransmit is counted, no `close` is asked for,
the keepalive setting stays, and nothing is sent but new segments and acks,
except for a fast retransmission if `r` holds.  It is proved function by
function, in the order of the source; for an arriving segment `r` is the
condition that it is the third duplicate ack.
-/

import TcpIpStack.Tcp.Frames

namespace TcpIpStack

open TcpConnection Session

/-- The members of a connection that this module is about. -/
structure Timers where
  finRequested : Bool
  keepaliveEnabled : Bool
  rtoMs : ℤ
  ackPending : Bool
  ackDelayMsRemaining : ℤ
  inFastRecovery : Bool
  inFlight : List InFlightSegment

def TcpConnection.timers (c : TcpConnection) : Timers where
  finRequested := c.finRequested
  keepaliveEnabled := c.keepaliveEnabled
  rtoMs := c.rtoMs
  ackPending := c.ackPending
  ackDelayMsRemaining := c.ackDelayMsRemaining
  inFastRecovery := c.inFastRecovery
  inFlight := c.inFlight

/-- A segment in flight that has just been sent, or one that was in flight
before, with its attempts as they were. -/
def Carried (flight : List InFlightSegment) (s : InFlightSegment) : Prop :=
  s.retransmitAttempts = 0 ∧ 0 < s.retransmitMsRemaining ∨
    ∃ s' ∈ flight, s.endSeq = s'.endSeq ∧ s.retransmitAttempts = s'.retransmitAttempts ∧
      (0 < s'.retransmitMsRemaining → 0 < s.retransmitMsRemaining)

/-- A pending ack has time left. -/
def Timers.AckRunning (k : Timers) : Prop := k.ackPending → 0 < k.ackDelayMsRemaining

/-- A call that sends something new, or an ack. -/
def Call.Fresh (r : Prop) (call : Call) : Prop :=
  call.site = .sendFlags ∨ call.site = .pureAck ∨ r ∧ call.site = .fastRetransmit

/-- What an event that is not the clock leaves of the timers; `r` is the
condition under which it retransmits. -/
structure Undisturbed (r : Prop) (x y : Session) : Prop where
  finRequested : y.conn.timers.finRequested → x.conn.timers.finRequested
  keepaliveEnabled : y.conn.timers.keepaliveEnabled = x.conn.timers.keepaliveEnabled
  rto : 0 < x.conn.timers.rtoMs → 0 < y.conn.timers.rtoMs
  ack : x.conn.timers.AckRunning → y.conn.timers.AckRunning
  recovery : y.conn.timers.inFastRecovery → x.conn.timers.inFastRecovery ∨ r
  flight : 0 < x.conn.timers.rtoMs → ∀ s ∈ y.conn.timers.inFlight, Carried x.conn.timers.inFlight s
  sent : ∃ calls, y.sent = x.sent ++ calls ∧ ∀ call ∈ calls, call.Fresh r

section Undisturbed

variable {r r' : Prop} {x y z : Session}

variable {flight : List InFlightSegment} {s : InFlightSegment}

theorem carried_of_mem (h : s ∈ flight) :
    Carried flight s := .inr ⟨s, h, rfl, rfl, id⟩

theorem Carried.trans {flight' : List InFlightSegment}
    (h : Carried flight' s) (hflight : ∀ s' ∈ flight', Carried flight s') : Carried flight s := by
  rcases h with h | ⟨s', hs', hend, hattempts, hremaining⟩
  · exact .inl h
  · rcases hflight s' hs' with ⟨hzero, hpos⟩ | ⟨s'', hs'', hend', hattempts', hremaining'⟩
    · exact .inl ⟨hattempts.trans hzero, hremaining hpos⟩
    · exact .inr ⟨s'', hs'', hend.trans hend', hattempts.trans hattempts', hremaining ∘ hremaining'⟩

theorem Undisturbed.trans (h : Undisturbed r x y) (h' : Undisturbed r y z) : Undisturbed r x z where
  finRequested hz := h.finRequested (h'.finRequested hz)
  keepaliveEnabled := h'.keepaliveEnabled.trans h.keepaliveEnabled
  rto hx := h'.rto (h.rto hx)
  ack hx := h'.ack (h.ack hx)
  recovery hz := (h'.recovery hz).elim h.recovery .inr
  flight hx s hs := (h'.flight (h.rto hx) s hs).trans (h.flight hx)
  sent := by
    obtain ⟨calls, hsent, hcalls⟩ := h.sent
    obtain ⟨calls', hsent', hcalls'⟩ := h'.sent
    refine ⟨calls ++ calls', by rw [hsent', hsent, List.append_assoc], fun call hcall => ?_⟩
    exact (List.mem_append.1 hcall).elim (hcalls call) (hcalls' call)

theorem Undisturbed.mono (h : Undisturbed r x y) (hr : r → r') : Undisturbed r' x y :=
  { h with
    recovery hy := (h.recovery hy).imp_right hr
    sent := by
      obtain ⟨calls, hsent, hcalls⟩ := h.sent
      exact ⟨calls, hsent, fun call hcall =>
        (hcalls call hcall).imp_right (.imp_right fun ⟨hr', hsite⟩ => ⟨hr hr', hsite⟩)⟩ }

theorem Undisturbed.of_eq (htimers : y.conn.timers = x.conn.timers) (hsent : y.sent = x.sent) :
    Undisturbed r x y where
  finRequested h := htimers ▸ h
  keepaliveEnabled := congrArg Timers.keepaliveEnabled htimers
  rto h := htimers ▸ h
  ack h := htimers ▸ h
  recovery h := .inl (htimers ▸ h)
  flight _ s hs := carried_of_mem (htimers ▸ hs)
  sent := ⟨[], by rw [hsent, List.append_nil], fun _ hcall => absurd hcall List.not_mem_nil⟩

theorem Undisturbed.refl (x : Session) : Undisturbed r x x := .of_eq rfl rfl

theorem Undisturbed.of_flight (rtoMs : ℤ) (flight : List InFlightSegment) (recovery : Bool)
    (htimers : y.conn.timers = { x.conn.timers with
      rtoMs := rtoMs, inFlight := flight, inFastRecovery := recovery })
    (hsent : y.sent = x.sent) (hrto : 0 < x.conn.rtoMs → 0 < rtoMs)
    (hflight : ∀ s ∈ flight, Carried x.conn.inFlight s)
    (hrecovery : recovery → x.conn.inFastRecovery) : Undisturbed r x y where
  finRequested h := by rwa [htimers] at h
  keepaliveEnabled := by rw [htimers]
  rto h := by rw [htimers]; exact hrto h
  ack h := by rw [htimers]; exact h
  recovery h := by rw [htimers] at h; exact .inl (hrecovery h)
  flight _ s hs := by rw [htimers] at hs; exact hflight s hs
  sent := ⟨[], by rw [hsent, List.append_nil], fun _ hcall => absurd hcall List.not_mem_nil⟩

theorem Undisturbed.of_call {call : Call}
    (htimers : y.conn.timers = { x.conn.timers with
      ackPending := false, ackDelayMsRemaining := 0, inFlight := flight })
    (hflight : 0 < x.conn.rtoMs → ∀ s ∈ flight, Carried x.conn.inFlight s)
    (hsent : y.sent = x.sent ++ [call]) (hcall : call.Fresh r) : Undisturbed r x y where
  finRequested h := by rwa [htimers] at h
  keepaliveEnabled := by rw [htimers]
  rto h := by rw [htimers]; exact h
  ack _ hpending := by rw [htimers] at hpending; cases hpending
  recovery h := by rw [htimers] at h; exact .inl h
  flight hrto s hs := by rw [htimers] at hs; exact hflight hrto s hs
  sent := ⟨[call], hsent, fun _ h => List.mem_singleton.1 h ▸ hcall⟩

/-! ### Sending -/

theorem undisturbed_sendFlags (flags : UInt8) (payload : Bytes) (includeAck : Bool) (x : Session) :
    Undisturbed r x (x.sendFlags flags payload includeAck) := by
  refine .of_call rfl (fun hrto s hs => ?_) rfl (.inl rfl)
  rcases List.mem_append.1 hs with hs | hs
  · exact carried_of_mem hs
  · rw [List.mem_singleton.1 hs]
    exact .inl ⟨rfl, hrto⟩

theorem undisturbed_sendPureAck (x : Session) : Undisturbed r x x.sendPureAck :=
  .of_call rfl (fun _ _ hs => carried_of_mem hs) rfl (.inr (.inl rfl))

theorem undisturbed_holdAck (x : Session) : Undisturbed r x
    (x.modify fun c => { c with ackPending := true, ackDelayMsRemaining := delayedAckMs }) := by
  refine ⟨id, rfl, id, fun _ _ => ?_, .inl, fun _ s hs => carried_of_mem hs, [],
    (List.append_nil _).symm, fun _ hcall => absurd hcall List.not_mem_nil⟩
  show 0 < delayedAckMs
  decide

theorem undisturbed_sendFront (front : Bytes) (rest : List Bytes) (x : Session) :
    Undisturbed r x (x.sendFront front rest) :=
  Undisturbed.trans (y := x.modify fun c => { c with
      sendQueue := rest, sendQueuedBytes := c.sendQueuedBytes - front.length })
    (.of_eq rfl rfl) (undisturbed_sendFlags ..)

theorem timers_armOrDisarmPersist (c : TcpConnection) : c.armOrDisarmPersist.timers = c.timers := by
  unfold armOrDisarmPersist
  split_ifs <;> rfl

theorem undisturbed_sendFin (x : Session) : Undisturbed r x x.sendFin :=
  Undisturbed.trans (y := x.transition (if x.conn.state = .established then .finWait1 else .lastAck))
    (.of_eq rfl rfl) (undisturbed_sendFlags ..)

theorem undisturbed_close (hempty : x.conn.inFlight = [] ∧ x.conn.sendQueue = []) :
    Undisturbed r x x.close := by
  unfold close
  rw [if_neg (c := x.conn.inFlight ≠ [] ∨ x.conn.sendQueue ≠ []) (by simp [hempty])]
  split
  · exact .refl x
  · exact undisturbed_sendFin x

/-! ### `_handle_ack` -/

theorem updateOldestUnsacked_mem {f : InFlightSegment → InFlightSegment} {l : List InFlightSegment}
    (h : s ∈ updateOldestUnsacked f l) : s ∈ l ∨ ∃ s' ∈ l, s = f s' := by
  induction l with
  | nil => cases h
  | cons hd tl ih =>
    rw [updateOldestUnsacked] at h
    split_ifs at h
    · rcases List.mem_cons.1 h with rfl | h
      · exact .inl (List.mem_cons_self ..)
      · rcases ih h with h | ⟨s', hs', rfl⟩
        · exact .inl (List.mem_cons_of_mem _ h)
        · exact .inr ⟨s', List.mem_cons_of_mem _ hs', rfl⟩
    · rcases List.mem_cons.1 h with rfl | h
      · exact .inr ⟨hd, List.mem_cons_self .., rfl⟩
      · exact .inl (List.mem_cons_of_mem _ h)

theorem undisturbed_fastRetransmit (oldest : InFlightSegment) (x : Session) :
    Undisturbed True x (x.fastRetransmit oldest) where
  finRequested := id
  keepaliveEnabled := rfl
  rto := id
  ack := id
  recovery _ := .inr trivial
  flight hrto s hs := by
    rcases updateOldestUnsacked_mem hs with hs | ⟨s', hs', rfl⟩
    · exact carried_of_mem hs
    · exact .inr ⟨s', hs', rfl, rfl, fun _ => hrto⟩
  sent := ⟨[_], rfl, fun _ h => List.mem_singleton.1 h ▸ .inr (.inr ⟨trivial, rfl⟩)⟩

theorem updateRtoFromSample_rto_pos (rttMs : UInt32) (c : TcpConnection) :
    0 < (c.updateRtoFromSample rttMs).rtoMs := by
  unfold updateRtoFromSample
  dsimp only
  have hmin : (0 : ℤ) < minRtoMs := by decide
  have hmax : (0 : ℤ) < maxRtoMs := by decide
  exact lt_min (lt_max_of_lt_right hmin) hmax

/-- The RTT sample changes nothing but the estimator, and leaves a positive
RTO. -/
theorem sampleRtt_cases (t : Tcp) (tally : AckTally) (c : TcpConnection) :
    c.sampleRtt t tally = c ∨ ∃ rttMs, c.sampleRtt t tally = c.updateRtoFromSample rttMs := by
  unfold sampleRtt
  split
  · split_ifs
    · exact .inr ⟨_, rfl⟩
    · exact .inl rfl
  · split
    · exact .inr ⟨_, rfl⟩
    · exact .inl rfl

theorem undisturbed_retireAcked (t : Tcp) (x : Session) : Undisturbed r x (x.retireAcked t) := by
  have hflight : ∀ s ∈ (x.conn.retire t.acknowledgementNumber).inFlight, Carried x.conn.inFlight s :=
    fun s hs => carried_of_mem ((List.dropWhile_sublist _).mem hs)
  rcases sampleRtt_cases t (x.conn.ackTally t.acknowledgementNumber)
    (x.conn.retire t.acknowledgementNumber) with h | ⟨rttMs, h⟩
  · exact .of_flight x.conn.rtoMs _ _ (congrArg timers h :) rfl id hflight id
  · exact .of_flight _ _ _ (congrArg timers h :) rfl (fun _ => updateRtoFromSample_rto_pos rttMs _) hflight id

theorem undisturbed_afterNewAck (tally : AckTally) (x : Session) :
    Undisturbed r x (x.modify (afterNewAck tally)) := by
  unfold Session.modify afterNewAck
  split
  · exact .of_flight _ _ false rfl rfl id (fun _ => carried_of_mem) nofun
  · exact .of_eq rfl rfl

theorem undisturbed_ends (h : AckEnds x y) : Undisturbed r x y := by
  cases h with
  | stop => exact .refl x
  | acked => exact .of_eq rfl rfl
  | close hflight hqueue _ =>
    refine Undisturbed.trans ?_ (undisturbed_close ⟨hflight, hqueue⟩)
    exact ⟨fun h => Bool.noConfusion h, rfl, id, id, .inl, fun _ s hs => carried_of_mem hs, [],
      (List.append_nil _).symm, fun _ hcall => absurd hcall List.not_mem_nil⟩

theorem undisturbed_noteAck (t : Tcp) (x : Session) : Undisturbed r x (x.modify (noteAck t)) := by
  obtain ⟨flight, bytes, happlied⟩ := applySackBlocks_eq t x.conn
  obtain ⟨mark, -, hflight⟩ := applySackBlocks_inFlight t x.conn
  have hflight : flight = x.conn.inFlight.map fun s => { s with sacked := mark s } := by
    rwa [happlied] at hflight
  refine .of_flight _ flight _ ?_ rfl id (fun s hs => ?_) id
  · simp only [Session.modify, noteAck, happlied]
    rfl
  · rw [hflight] at hs
    obtain ⟨s', hs', rfl⟩ := List.mem_map.1 hs
    exact .inr ⟨s', hs', rfl, rfl, id⟩

theorem handleAck_of_thirdDuplicateAck {t : Tcp} {x : Session} (h : ThirdDuplicateAck t x.conn) :
    ∃ (y : Session) (oldest : _), y.sent = x.sent ∧ y.fastRetransmit oldest = x.handleAck t := by
  obtain ⟨hbusy, hack, hcount, holdest⟩ := h
  obtain ⟨oldest, hold⟩ := Option.isSome_iff_exists.1 holdest
  have hdup := (duplicate_noteAck t x.conn).2 ⟨hbusy, hack⟩
  have hthird : ((x.modify (noteAck t)).modify countDuplicateAck).conn.dupAckCount =
      dupAckFastRetransmitThreshold := by
    rw [← hcount, ← dupAckCount_noteAck t x.conn]
    rfl
  have hold : ((x.modify (noteAck t)).modify countDuplicateAck).conn.oldestUnsackedSegment = some oldest := hold
  refine ⟨(x.modify (noteAck t)).modify countDuplicateAck, oldest, rfl, ?_⟩
  rw [handleAck_eq, if_pos hdup, duplicateAck, onDuplicateAck, if_pos hthird, hold]

theorem onSegment_of_handlesAcks {t : Tcp} {x : Session} (h : handlesAcks x.conn.state) (hrst : t.rst = false) :
    x.onSegment t = (x.noteArrival t).handleSynchronized t := by
  have hstate : (x.noteArrival t).conn.state = x.conn.state := rfl
  obtain ⟨hsent, hreceived, hclosed⟩ := h
  unfold onSegment dispatch
  rw [hrst, if_neg Bool.false_ne_true, hstate]
  split
  · next heq => exact absurd heq hsent
  · next heq => exact absurd heq hreceived
  · next heq => exact absurd heq hclosed
  · rfl

/-! ### `on_segment` -/

theorem timers_recordTimestamp (t : Tcp) (c : TcpConnection) : (recordTimestamp t c).timers = c.timers := by
  unfold recordTimestamp
  split
  · split_ifs <;> rfl
  · rfl

/-- The arriving segment is the third duplicate ack, in a state that looks at
it. -/
def ThirdDuplicate (t : Tcp) (c : TcpConnection) : Prop :=
  t.rst = false ∧ handlesAcks c.state ∧ pawsRejects c t = false ∧ t.ack ∧ ThirdDuplicateAck t c

instance (t : Tcp) (c : TcpConnection) : Decidable (ThirdDuplicate t c) :=
  inferInstanceAs (Decidable (_ = false ∧ (_ ≠ _ ∧ _ ≠ _ ∧ _ ≠ _) ∧ _ = false ∧ _ = true ∧
    _ ≠ _ ∧ _ = _ ∧ _ = _ ∧ _ = true))

theorem FinFrame.third {R : Session → Session → Prop} (hR : FinFrame R) {t : Tcp} {x : Session}
    (h : ThirdDuplicate t x.conn) :
    ∃ (y : Session) (oldest : _), y.sent = x.sent ∧ R (y.fastRetransmit oldest) (x.onSegment t) := by
  obtain ⟨hrst, hstate, hpaws, hack, hthird⟩ := h
  rw [onSegment_of_handlesAcks hstate hrst]
  have hpaws : pawsRejects (x.noteArrival t).conn t = false := hpaws
  have hsame : ThirdDuplicateAck t (x.noteArrival t).conn ↔ ThirdDuplicateAck t x.conn :=
    ThirdDuplicateAck.congr rfl rfl rfl rfl
  have hthird := (thirdDuplicateAck_recordTimestamp t (x.noteArrival t).conn).2 (hsame.2 hthird)
  obtain ⟨y, oldest, hsent, heq⟩ :=
    handleAck_of_thirdDuplicateAck (x := (x.noteArrival t).modify (recordTimestamp t)) hthird
  have hstage : (x.noteArrival t).ackStage t = y.fastRetransmit oldest := (if_pos hack).trans heq.symm
  exact ⟨y, oldest, hsent, hstage ▸ hR.rest hpaws⟩

theorem undisturbed_frame : SegmentFrame r (Undisturbed r) where
  refl := .refl
  trans := .trans
  front := undisturbed_sendFront
  persist x := .of_eq (timers_armOrDisarmPersist x.conn) rfl
  note := undisturbed_noteAck
  count _ := .of_eq rfl rfl
  inflate _ := .of_eq rfl rfl
  fast hr _ := (undisturbed_fastRetransmit ..).mono fun _ => hr
  clear _ := .of_eq rfl rfl
  retire := undisturbed_retireAcked
  after := undisturbed_afterNewAck
  ends := undisturbed_ends
  pureAck := undisturbed_sendPureAck
  hold := undisturbed_holdAck
  deliver _ _ := .of_eq rfl rfl
  unblock _ _ := .of_eq rfl rfl
  buffer _ _ _ := by
    unfold Session.modify bufferOutOfOrder
    split_ifs <;> exact .of_eq rfl rfl
  pastFin _ := .of_eq rfl rfl
  enter _ _ _ _ := .of_eq rfl rfl
  wait _ := .of_eq rfl rfl
  record t x := .of_eq (timers_recordTimestamp t x.conn) rfl

/-- **A segment does not disturb the timers**, and sets off a retransmission
only as the third duplicate ack. -/
theorem undisturbed_onSegment (t : Tcp) (x : Session) :
    Undisturbed (ThirdDuplicate t x.conn) x (x.onSegment t) := by
  have harrived (r : Prop) : Undisturbed r x (x.noteArrival t) := .of_eq rfl rfl
  refine (harrived _).trans ?_
  unfold onSegment dispatch
  have hthird : ThirdDuplicate t (x.noteArrival t).conn ↔ ThirdDuplicate t x.conn := by
    have hsame : ThirdDuplicateAck t (x.noteArrival t).conn ↔ ThirdDuplicateAck t x.conn :=
      ThirdDuplicateAck.congr rfl rfl rfl rfl
    unfold ThirdDuplicate
    rw [hsame]
    rfl
  rw [← hthird]
  generalize x.noteArrival t = y
  split
  · unfold handleRst
    dsimp only
    split_ifs
    · exact .refl y
    · exact .of_eq rfl rfl
  · next hrst =>
    split
    · unfold handleSynSent
      split_ifs
      · refine Undisturbed.trans (y := (y.modify (recordSynAck t)).transition .established) ?_
          (undisturbed_sendPureAck _)
        exact .of_flight y.conn.rtoMs [] _ rfl rfl id nofun id
      · exact .refl y
    · unfold handleSynReceived
      split_ifs
      · exact .of_flight y.conn.rtoMs [] _ rfl rfl id nofun id
      · exact .refl y
    · exact .refl y
    · next h₁ h₂ h₃ =>
      exact undisturbed_frame.handleSynchronized fun hpaws hack h =>
        ⟨Bool.eq_false_iff.2 hrst, ⟨h₁, h₂, h₃⟩, hpaws, hack, h⟩

/-! ### The application -/

theorem undisturbed_placeChunk (chunk : Bytes) (x : Session) : Undisturbed r x (x.placeChunk chunk) := by
  unfold placeChunk
  dsimp only
  split_ifs
  · exact .of_eq rfl rfl
  · exact (undisturbed_sendFlags 0 chunk true x).trans (.of_eq rfl rfl)

theorem undisturbed_send {data : Bytes} (h : (Event.send data).run x = some y) : Undisturbed r x y :=
  undisturbed_frame.send undisturbed_placeChunk h

theorem undisturbed_read (maxBytes : ℕ) (x : Session) : Undisturbed r x (x.read maxBytes) := by
  unfold Session.read
  dsimp only
  split_ifs
  · refine Undisturbed.trans (y := x.modify fun c => { c with
      receiveQueue := (takeFromQueue maxBytes c.receiveQueue).2
      receiveQueuedBytes := c.receiveQueuedBytes - (takeFromQueue maxBytes x.conn.receiveQueue).1.length })
      (.of_eq rfl rfl) ((undisturbed_sendPureAck _).trans (.of_eq rfl rfl))
  · exact .of_eq rfl rfl

end Undisturbed

end TcpIpStack
