/-
# The receive side by itself

A connection's receive side is a small machine of its own: `RCV.NXT`, the reorder
buffer, the queue of what has not been read, and the timestamp to echo.  `Inbox`
is that machine, with the three things that can happen to it: a payload is
stored, a FIN moves `RCV.NXT`, the application takes data out.

Everything else a connection does leaves the inbox alone.  `Outgoing x y` says
so, together with what the calls on the way carry: the ack number and the window
of that same inbox.  It is proved function by function, in the order of the
source, and `Event.run_inbox` puts the pieces together: what every event does to
the inbox.
-/

import TcpIpStack.Tcp.Sender
import TcpIpStack.Tcp.Timers

namespace TcpIpStack

open TcpConnection Session

/-- The members that the send side of a connection leaves alone. -/
structure Inbox where
  recvNext : UInt32
  reorderBuffer : OrderedMap UInt32 Bytes
  lastOutOfOrderSeq : UInt32
  receiveQueue : List Bytes
  receiveQueuedBytes : ℕ
  nowMs : UInt64
  timestampsNegotiated : Bool
  tsRecent : UInt32
  haveTsRecent : Bool
  windowScalingNegotiated : Bool
  sackPermitted : Bool

/-- The receiving half of a connection. -/
def TcpConnection.inbox (c : TcpConnection) : Inbox where
  recvNext := c.recvNext
  reorderBuffer := c.reorderBuffer
  lastOutOfOrderSeq := c.lastOutOfOrderSeq
  receiveQueue := c.receiveQueue
  receiveQueuedBytes := c.receiveQueuedBytes
  nowMs := c.nowMs
  timestampsNegotiated := c.timestampsNegotiated
  tsRecent := c.tsRecent
  haveTsRecent := c.haveTsRecent
  windowScalingNegotiated := c.windowScalingNegotiated
  sackPermitted := c.sackPermitted

namespace Inbox

/-- `_receive_buffer_occupied`, `_advertised_window` and `_seq_in_receive_window`
of the connection. -/
def occupied (i : Inbox) : UInt32 :=
  i.reorderBuffer.entries.foldl (fun occupied entry => occupied + UInt32.ofNat entry.2.length) 0
    + UInt32.ofNat i.receiveQueuedBytes

def window (i : Inbox) : UInt32 :=
  if i.occupied < receiveBufferCapacity then receiveBufferCapacity - i.occupied else 0

def seqInWindow (i : Inbox) (seq : UInt32) : Bool :=
  if i.window = 0 then seq = i.recvNext else seq - i.recvNext < i.window

/-- The shift of the windows that are advertised, and the field itself. -/
def shift (i : Inbox) : UInt8 := if i.windowScalingNegotiated then windowScaleShift else 0

def windowField (i : Inbox) : UInt16 := (min (i.window >>> i.shift.toUInt32) 0xFFFF).toUInt16

/-! ### What happens to it -/

/-- Data in order goes to the application's queue. -/
def deliver (payload : Bytes) (i : Inbox) : Inbox :=
  { i with
    recvNext := i.recvNext + UInt32.ofNat payload.length
    receiveQueue := i.receiveQueue ++ [payload]
    receiveQueuedBytes := i.receiveQueuedBytes + payload.length }

/-- The next entry of the reorder buffer is in order now. -/
def unblock (buffered : Bytes) (i : Inbox) : Inbox :=
  { i with reorderBuffer := i.reorderBuffer.erase i.recvNext }.deliver buffered

/-- The loop that delivers what is contiguous. -/
def drain : ℕ → Inbox → Inbox
  | 0, i => i
  | fuel + 1, i =>
    match i.reorderBuffer.find? i.recvNext with
    | none => i
    | some buffered => drain fuel (i.unblock buffered)

def deliverAndDrain (payload : Bytes) (i : Inbox) : Inbox :=
  (i.deliver payload).drain i.reorderBuffer.entries.length

/-- A payload ahead of `RCV.NXT` is kept if there is room and it is not there
yet. -/
def keep (seq : UInt32) (payload : Bytes) (i : Inbox) : Inbox :=
  if (i.reorderBuffer.find? seq).isNone && i.seqInWindow seq then
    { i with reorderBuffer := i.reorderBuffer.insert seq payload, lastOutOfOrderSeq := seq }
  else i

/-- A payload arrives. -/
def store (seq : UInt32) (payload : Bytes) (i : Inbox) : Inbox :=
  if seq = i.recvNext then i.deliverAndDrain payload
  else if seq > i.recvNext then i.keep seq payload
  else if (i.recvNext - seq).toNat < payload.length then
    i.deliverAndDrain (payload.drop (i.recvNext - seq).toNat)
  else i

/-- The timestamp to echo. -/
def stamp (t : Tcp) (i : Inbox) : Inbox :=
  match i.timestampsNegotiated, t.timestampOption with
  | true, some (theirs, _) =>
    if !i.haveTsRecent || t.sequenceNumber = i.recvNext then
      { i with tsRecent := theirs, haveTsRecent := true }
    else i
  | _, _ => i

/-- The FIN takes up one sequence number. -/
def pastFin (i : Inbox) : Inbox := { i with recvNext := i.recvNext + 1 }

/-- What a segment does past the handshake: `receives` says whether its payload is
looked at, `fin` whether its FIN counts. -/
def arrive (t : Tcp) (receives fin : Bool) (i : Inbox) : Inbox :=
  let i := i.stamp t
  let i := if receives ∧ t.payload ≠ [] then i.store t.sequenceNumber t.payload else i
  if fin then i.pastFin else i

/-- The application takes data out. -/
def take (maxBytes : ℕ) (i : Inbox) : Inbox :=
  { i with
    receiveQueue := (takeFromQueue maxBytes i.receiveQueue).2
    receiveQueuedBytes := i.receiveQueuedBytes - (takeFromQueue maxBytes i.receiveQueue).1.length }

theorem stamp_same (t : Tcp) (i : Inbox) : (i.stamp t).receiveQueue = i.receiveQueue ∧
      (i.stamp t).receiveQueuedBytes = i.receiveQueuedBytes ∧
      (i.stamp t).reorderBuffer = i.reorderBuffer ∧ (i.stamp t).recvNext = i.recvNext := by
  unfold stamp
  split
  · split_ifs <;> exact ⟨rfl, rfl, rfl, rfl⟩
  · exact ⟨rfl, rfl, rfl, rfl⟩

end Inbox

/-! ### The inbox of a connection -/

section Connection

variable (c : TcpConnection)

theorem seqInReceiveWindow_eq (seq : UInt32) : c.seqInReceiveWindow seq = c.inbox.seqInWindow seq := rfl

theorem inbox_drainReorderBuffer (fuel : ℕ) : (c.drainReorderBuffer fuel).inbox = c.inbox.drain fuel := by
  induction fuel generalizing c with
  | zero => rfl
  | succ fuel ih =>
    rw [drainReorderBuffer, Inbox.drain]
    show (match c.reorderBuffer.find? c.recvNext with
      | none => c
      | some buffered => _).inbox = match c.reorderBuffer.find? c.recvNext with
      | none => _
      | some buffered => _
    cases c.reorderBuffer.find? c.recvNext with
    | none => rfl
    | some buffered => exact ih _

theorem inbox_deliverAndDrain (payload : Bytes) :
    (c.deliverAndDrain payload).inbox = c.inbox.deliverAndDrain payload :=
  inbox_drainReorderBuffer ..

theorem inbox_bufferOutOfOrder (seq : UInt32) (payload : Bytes) :
    (bufferOutOfOrder seq payload c).inbox = c.inbox.keep seq payload := by
  unfold bufferOutOfOrder Inbox.keep
  rw [seqInReceiveWindow_eq]
  show TcpConnection.inbox (if (c.reorderBuffer.find? seq).isNone && c.inbox.seqInWindow seq then _ else _) =
    if (c.reorderBuffer.find? seq).isNone && c.inbox.seqInWindow seq then _ else _
  split_ifs <;> rfl

theorem inbox_recordTimestamp (t : Tcp) : (recordTimestamp t c).inbox = c.inbox.stamp t := by
  unfold recordTimestamp Inbox.stamp
  show TcpConnection.inbox (match c.timestampsNegotiated, t.timestampOption with
    | true, some (theirs, _) => _
    | _, _ => _) = match c.timestampsNegotiated, t.timestampOption with
    | true, some (theirs, _) => _
    | _, _ => _
  split
  · show TcpConnection.inbox (if !c.haveTsRecent || t.sequenceNumber = c.recvNext then _ else _) =
      if !c.haveTsRecent || t.sequenceNumber = c.recvNext then _ else _
    split_ifs <;> rfl
  · rfl

end Connection

/-! ### What leaves it alone -/

/-- The call is made over this inbox, and carries its ack number and window. -/
structure Call.Carries (i : Inbox) (call : Call) : Prop where
  inbox : call.conn.inbox = i
  ack : call.header.acknowledgementNumber = i.recvNext
  window : call.header.window = i.windowField

/-- The delayed ack. -/
def TcpConnection.ackTimer (c : TcpConnection) : Bool × ℤ := (c.ackPending, c.ackDelayMsRemaining)

/-- From `x` to `y` only the send side acts.  The inbox stays, every call carries
what it says, and a delayed ack stays as it is unless one of the calls has taken
it along. -/
structure Outgoing (x y : Session) : Prop where
  inbox : y.conn.inbox = x.conn.inbox
  sent : ∃ calls, y.sent = x.sent ++ calls ∧ (∀ call ∈ calls, call.Carries x.conn.inbox) ∧
    (y.conn.ackTimer = x.conn.ackTimer ∨ y.conn.ackPending = false ∧ calls ≠ [])

section Outgoing

variable {x y z : Session} {t : Tcp}

theorem Outgoing.of_conn (hinbox : y.conn.inbox = x.conn.inbox) (htimer : y.conn.ackTimer = x.conn.ackTimer)
    (hsent : y.sent = x.sent) : Outgoing x y :=
  ⟨hinbox, [], by rw [hsent, List.append_nil], fun _ hcall => absurd hcall List.not_mem_nil, .inl htimer⟩

theorem Outgoing.refl (x : Session) : Outgoing x x := .of_conn rfl rfl rfl

theorem Outgoing.of_call {call : Call} (hinbox : y.conn.inbox = x.conn.inbox)
    (hcall : call.Carries x.conn.inbox) (hsent : y.sent = x.sent ++ [call])
    (htimer : y.conn.ackTimer = x.conn.ackTimer ∨ y.conn.ackPending = false) : Outgoing x y := by
  refine ⟨hinbox, [call], hsent, fun other hother => ?_, htimer.imp_right fun h => ⟨h, by simp⟩⟩
  rwa [List.mem_singleton.1 hother]

theorem Outgoing.trans (h : Outgoing x y) (h' : Outgoing y z) : Outgoing x z := by
  obtain ⟨hinbox, calls, hsent, hcalls, htimer⟩ := h
  obtain ⟨hinbox', calls', hsent', hcalls', htimer'⟩ := h'
  refine ⟨hinbox'.trans hinbox, calls ++ calls', by rw [hsent', hsent, List.append_assoc],
    fun call hcall => ?_, ?_⟩
  · rcases List.mem_append.1 hcall with hcall | hcall
    · exact hcalls call hcall
    · exact hinbox ▸ hcalls' call hcall
  · rcases htimer' with hsame' | ⟨hpending', hne'⟩
    · rcases htimer with hsame | ⟨hpending, hne⟩
      · exact .inl (hsame'.trans hsame)
      · exact .inr ⟨(congrArg Prod.fst hsame').trans hpending, by simp [hne]⟩
    · exact .inr ⟨hpending', by simp [hne']⟩

theorem Outgoing.modify (h : Outgoing x y) {f : TcpConnection → TcpConnection}
    (hinbox : (f y.conn).inbox = y.conn.inbox) (htimer : (f y.conn).ackTimer = y.conn.ackTimer) :
    Outgoing x (y.modify f) := h.trans (.of_conn hinbox htimer rfl)

/-! ### Sending -/

theorem carries_buildHeader (x : Session) (site : CallSite) (flags : UInt8) (seq : UInt32) (payload : Bytes) :
    Call.Carries x.conn.inbox ⟨site, x.conn, x.entered, x.accepted, x.retired,
      x.conn.buildHeader flags seq, payload⟩ := ⟨rfl, rfl, rfl⟩

theorem carries_sendOptions (x : Session) (site : CallSite) (flags fullFlags : UInt8) (seq : UInt32)
    (payload : Bytes) : Call.Carries x.conn.inbox ⟨site, x.conn, x.entered, x.accepted, x.retired,
      sendOptions x.conn flags (x.conn.buildHeader fullFlags seq), payload⟩ := by
  unfold sendOptions
  split_ifs <;> exact ⟨rfl, rfl, rfl⟩

theorem outgoing_sendFlags (flags : UInt8) (payload : Bytes) (includeAck : Bool) (x : Session) :
    Outgoing x (x.sendFlags flags payload includeAck) :=
  .of_call rfl (carries_sendOptions x .sendFlags flags _ _ payload) rfl (.inr rfl)

theorem outgoing_sendSegment (site : CallSite) (flags : UInt8) (seq : UInt32) (payload : Bytes)
    (x : Session) : Outgoing x (x.sendSegment site (x.conn.buildHeader flags seq) payload) :=
  .of_call rfl (carries_buildHeader x site flags seq payload) rfl (.inl rfl)

theorem outgoing_transition (newState : TcpState) (x : Session) : Outgoing x (x.transition newState) :=
  .of_conn rfl rfl rfl

theorem outgoing_sendFront (front : Bytes) (rest : List Bytes) (x : Session) :
    Outgoing x (x.sendFront front rest) :=
  Outgoing.trans (y := x.modify fun c => { c with
      sendQueue := rest, sendQueuedBytes := c.sendQueuedBytes - front.length })
    (.of_conn rfl rfl rfl) (outgoing_sendFlags ..)

theorem outgoing_armOrDisarmPersist (x : Session) : Outgoing x (x.modify (·.armOrDisarmPersist)) := by
  unfold Session.modify armOrDisarmPersist
  dsimp only
  split_ifs <;> exact .of_conn rfl rfl rfl

theorem outgoing_close (x : Session) : Outgoing x x.close := by
  unfold close
  split_ifs
  · exact .refl x
  · exact .of_conn rfl rfl rfl
  all_goals exact (outgoing_transition _ x).trans (outgoing_sendFlags ..)

/-! ### `_handle_ack` -/

theorem outgoing_fastRetransmit (oldest : InFlightSegment) (x : Session) :
    Outgoing x (x.fastRetransmit oldest) :=
  (outgoing_sendSegment .fastRetransmit oldest.flags oldest.seq oldest.payload x).trans
    (.of_conn rfl rfl rfl)

theorem outgoing_retireAcked (t : Tcp) (x : Session) : Outgoing x (x.retireAcked t) := by
  rcases sampleRtt_cases t (x.conn.ackTally t.acknowledgementNumber)
    (x.conn.retire t.acknowledgementNumber) with h | ⟨rttMs, h⟩
  · exact .of_conn (congrArg inbox h :) (congrArg ackTimer h :) rfl
  · exact .of_conn (congrArg inbox h :) (congrArg ackTimer h :) rfl

theorem outgoing_afterNewAck (tally : AckTally) (x : Session) : Outgoing x (x.modify (afterNewAck tally)) := by
  unfold Session.modify afterNewAck
  split <;> exact .of_conn rfl rfl rfl

theorem outgoing_noteAck (t : Tcp) (x : Session) : Outgoing x (x.modify (noteAck t)) := by
  obtain ⟨flight, bytes, happlied⟩ := applySackBlocks_eq t x.conn
  have hnote : noteAck t x.conn = takeWindow t
      { x.conn with inFlight := flight, unsackedInFlightBytes := bytes } := by
    rw [noteAck, happlied]
  unfold Session.modify
  rw [hnote]
  exact .of_conn rfl rfl rfl

theorem outgoing_frame : AckFrame True Outgoing where
  refl := .refl
  trans := .trans
  front := outgoing_sendFront
  persist := outgoing_armOrDisarmPersist
  note := outgoing_noteAck
  count _ := .of_conn rfl rfl rfl
  inflate _ := .of_conn rfl rfl rfl
  fast _ _ := outgoing_fastRetransmit ..
  clear _ := .of_conn rfl rfl rfl
  after := outgoing_afterNewAck

theorem outgoing_ends (h : AckEnds x y) : Outgoing x y := by
  cases h with
  | stop => exact .refl x
  | acked => exact .of_conn rfl rfl rfl
  | close _ _ _ =>
    refine Outgoing.trans ?_ (outgoing_close _)
    exact .of_conn rfl rfl rfl

/-- **The ack of a segment concerns the send side only.** -/
theorem outgoing_handleAck (t : Tcp) (x : Session) : Outgoing x (x.handleAck t) := by
  obtain ⟨y, hy, hend⟩ := outgoing_frame.handleAck (x := x) (outgoing_retireAcked t) fun _ => trivial
  exact hy.trans (outgoing_ends hend)

/-! ### Time -/

theorem outgoing_sendKeepaliveProbe (x : Session) : Outgoing x x.sendKeepaliveProbe :=
  (outgoing_sendSegment .keepaliveProbe flagAck (x.conn.sendNext - 1) [] x).trans (.of_conn rfl rfl rfl)

theorem outgoing_runKeepalive (elapsedMs : UInt32) (x : Session) : Outgoing x (x.runKeepalive elapsedMs) := by
  unfold runKeepalive
  dsimp only
  split_ifs
  · exact .refl x
  · exact (Outgoing.refl x).modify rfl rfl
  · exact ((Outgoing.refl x).modify rfl rfl).trans (outgoing_transition _ _)
  · exact ((Outgoing.refl x).modify rfl rfl).trans (outgoing_sendKeepaliveProbe _)
  · exact ((Outgoing.refl x).modify rfl rfl).trans (outgoing_sendKeepaliveProbe _)
  · exact (Outgoing.refl x).modify rfl rfl

theorem outgoing_runPersist (elapsedMs : UInt32) (x : Session) : Outgoing x (x.runPersist elapsedMs) := by
  have haged : Outgoing x (x.modify (agePersist elapsedMs)) := .of_conn rfl rfl rfl
  unfold runPersist
  split_ifs
  · refine Outgoing.modify (haged.trans ?_) rfl rfl
    unfold sendZeroWindowProbe
    split
    · exact .refl _
    · exact outgoing_sendSegment ..
  · exact haged

theorem outgoing_retransmitOldest (oldest : InFlightSegment) (x : Session) :
    Outgoing x (x.retransmitOldest oldest) := by
  unfold retransmitOldest
  exact (((Outgoing.refl x).modify rfl rfl).trans (outgoing_sendSegment ..)).modify rfl rfl

theorem outgoing_runRetransmit (elapsedMs : UInt32) (x : Session) : Outgoing x (x.runRetransmit elapsedMs) := by
  unfold runRetransmit
  split
  · exact .refl x
  · next oldest _ =>
    have haged (remaining : ℤ) (attempts : ℕ) :
        Outgoing x (x.modify (·.updateOldest (aged remaining attempts))) := .of_conn rfl rfl rfl
    dsimp only
    split_ifs
    · exact haged _ _
    · exact (haged _ _).trans (outgoing_transition _ _)
    · exact (haged _ _).trans (outgoing_retransmitOldest oldest _)

/-! ### The application -/

theorem outgoing_placeChunk (chunk : Bytes) (x : Session) : Outgoing x (x.placeChunk chunk) := by
  unfold placeChunk
  dsimp only
  split_ifs
  · exact .of_conn rfl rfl rfl
  · exact (outgoing_sendFlags 0 chunk true x).trans (.of_conn rfl rfl rfl)

theorem outgoing_send {data : Bytes} (h : (Event.send data).run x = some y) : Outgoing x y :=
  outgoing_frame.send outgoing_placeChunk h

end Outgoing

/-! ### Whether data is received -/

section Receives

variable {x : Session}

theorem state_frame : AckFrame True fun x y => y.conn.state = x.conn.state where
  toFrame := .of_eq (·.conn.state)
  front _ _ _ := rfl
  persist x := congrArg Core.state (core_armOrDisarmPersist x.conn)
  note t x := applySackBlocks_state t x.conn
  count _ := rfl
  inflate _ := rfl
  fast _ _ := rfl
  clear _ := rfl
  after _ _ := by
    unfold Session.modify afterNewAck
    split <;> rfl

/-- `close` leaves a state in which data is received for one in which it still
is, and one in which it is not for one in which it is not. -/
theorem receivesData_close (x : Session) : receivesData x.close.conn.state = receivesData x.conn.state := by
  unfold close
  split_ifs with hstate hbusy hest
  · rfl
  · rfl
  · rw [hest]
    rfl
  · have hwait : x.conn.state = .closeWait := by tauto
    rw [hwait]
    rfl

theorem receivesData_ends {y : Session} (h : AckEnds x y) :
    receivesData y.conn.state = receivesData x.conn.state := by
  cases h with
  | stop => rfl
  | acked newState _ hnew =>
    show receivesData newState = _
    rcases finAckedState_cases hnew with ⟨hx, rfl⟩ | ⟨hx, rfl⟩ | ⟨hx, rfl⟩ <;> rw [hx] <;> rfl
  | close _ _ _ => exact receivesData_close _

/-- **The ack of a segment does not decide whether its data is received.** -/
theorem receivesData_handleAck (t : Tcp) (x : Session) :
    receivesData (x.handleAck t).conn.state = receivesData x.conn.state := by
  obtain ⟨y, hy, hend⟩ := state_frame.handleAck (x := x)
    (fun y => congrArg Core.state (core_retireAcked t y)) fun _ => trivial
  rw [receivesData_ends hend, hy]

end Receives

/-! ### What every event does -/

theorem inbox_scheduleOrSendAck (x : Session) : x.scheduleOrSendAck.conn.inbox = x.conn.inbox := by
  unfold scheduleOrSendAck
  split_ifs <;> rfl

theorem inbox_handlePayload (seq : UInt32) (payload : Bytes) (x : Session) :
    (x.handlePayload seq payload).conn.inbox = x.conn.inbox.store seq payload := by
  unfold handlePayload Inbox.store
  show (if seq = x.conn.recvNext then _ else if seq > x.conn.recvNext then _ else _ : Session).conn.inbox =
    if seq = x.conn.recvNext then _ else if seq > x.conn.recvNext then _ else
      if (x.conn.recvNext - seq).toNat < payload.length then _ else _
  dsimp only
  split_ifs
  · rw [inbox_scheduleOrSendAck]
    exact inbox_deliverAndDrain x.conn payload
  · exact inbox_bufferOutOfOrder x.conn seq payload
  · exact inbox_deliverAndDrain x.conn _
  · rfl

/-- The FIN counts if it sits at `RCV.NXT`, except in `TIME_WAIT`. -/
theorem inbox_handleFin (finSeq : UInt32) (x : Session) : (x.handleFin finSeq).conn.inbox = x.conn.inbox ∨
      finSeq = x.conn.recvNext ∧ (x.handleFin finSeq).conn.inbox = x.conn.inbox.pastFin := by
  unfold handleFin
  split_ifs with hwait hseq
  · exact .inl rfl
  · exact .inl rfl
  · refine .inr ⟨not_not.1 hseq, ?_⟩
    unfold consumeFin
    split <;> rfl

/-- What an event can do to the inbox of a connection. -/
inductive InboxMove (e : Event) (x : Session) : Inbox → Prop
  | same : InboxMove e x x.conn.inbox
  | tick (elapsedMs) : e = .timePassed elapsedMs →
      InboxMove e x { x.conn.inbox with nowMs := x.conn.nowMs + elapsedMs.toUInt64 }
  | establish (t) : e = .segment t → x.conn.state = .synSent →
      InboxMove e x (recordSynAck t x.conn).inbox
  | arrive (t) (fin : Bool) : e = .segment t → handlesAcks x.conn.state → t.rst = false →
      pawsRejects x.conn t = false →
      (fin → t.fin ∧ t.sequenceNumber + UInt32.ofNat t.payload.length =
        (x.conn.inbox.arrive t (receivesData x.conn.state) false).recvNext) →
      InboxMove e x (x.conn.inbox.arrive t (receivesData x.conn.state) fin)
  | take (maxBytes) : e = .read maxBytes → InboxMove e x (x.conn.inbox.take maxBytes)

section Events

variable {e : Event} {x y : Session} {t : Tcp}

theorem inbox_ackStage (t : Tcp) (x : Session) : (x.ackStage t).conn.inbox = x.conn.inbox.stamp t := by
  have hstamped : (x.modify (recordTimestamp t)).conn.inbox = _ := inbox_recordTimestamp x.conn t
  unfold ackStage
  dsimp only
  split_ifs
  · exact (outgoing_handleAck t _).inbox.trans hstamped
  · exact hstamped

theorem receivesData_ackStage (t : Tcp) (x : Session) :
    receivesData (x.ackStage t).conn.state = receivesData x.conn.state := by
  have hstamped : (x.modify (recordTimestamp t)).conn.state = x.conn.state := by
    unfold Session.modify recordTimestamp
    split
    · split_ifs <;> rfl
    · rfl
  unfold ackStage
  dsimp only
  split_ifs
  · rw [receivesData_handleAck, hstamped]
  · rw [hstamped]

theorem state_drainReorderBuffer (fuel : ℕ) (c : TcpConnection) :
    (c.drainReorderBuffer fuel).state = c.state := by
  induction fuel generalizing c with
  | zero => rfl
  | succ fuel ih =>
    rw [drainReorderBuffer]
    split
    · rfl
    · exact (ih _).trans rfl

theorem state_handlePayload (seq : UInt32) (payload : Bytes) (x : Session) :
    (x.handlePayload seq payload).conn.state = x.conn.state := by
  have hdrained (payload : Bytes) (c : TcpConnection) : (c.deliverAndDrain payload).state = c.state :=
    state_drainReorderBuffer ..
  unfold handlePayload
  dsimp only
  split_ifs
  · unfold scheduleOrSendAck
    split_ifs <;> exact hdrained payload x.conn
  · show (bufferOutOfOrder seq payload x.conn).state = _
    unfold bufferOutOfOrder
    split_ifs <;> rfl
  · exact hdrained _ x.conn
  · rfl

theorem receivesData_payloadStage (t : Tcp) (x : Session) :
    receivesData (x.payloadStage t).conn.state = receivesData x.conn.state := by
  unfold payloadStage
  dsimp only
  split_ifs
  · rw [state_handlePayload, receivesData_ackStage]
  · exact receivesData_ackStage t x

theorem inbox_payloadStage (t : Tcp) (x : Session) :
    (x.payloadStage t).conn.inbox = x.conn.inbox.arrive t (receivesData x.conn.state) false := by
  unfold payloadStage Inbox.arrive
  dsimp only
  rw [receivesData_ackStage, if_neg Bool.false_ne_true, ← inbox_ackStage]
  split_ifs
  · exact inbox_handlePayload ..
  · rfl

/-- The parts of `on_segment` past the handshake, on the inbox. -/
theorem inbox_handleSynchronized (hpaws : pawsRejects x.conn t = false) :
    ∃ fin : Bool, (fin → t.fin ∧ t.sequenceNumber + UInt32.ofNat t.payload.length =
        (x.conn.inbox.arrive t (receivesData x.conn.state) false).recvNext) ∧
      (x.handleSynchronized t).conn.inbox =
        x.conn.inbox.arrive t (receivesData x.conn.state) fin := by
  have hpayload := inbox_payloadStage t x
  rw [handleSynchronized_eq hpaws]
  split_ifs with hfin
  · rcases inbox_handleFin (t.sequenceNumber + UInt32.ofNat t.payload.length) (x.payloadStage t) with
      hsame | ⟨hseq, hpast⟩
    · exact ⟨false, nofun, hsame.trans hpayload⟩
    · refine ⟨true, fun _ => ⟨hfin, ?_⟩, ?_⟩
      · rw [hseq, ← hpayload]
        rfl
      · rw [hpast, hpayload]
        rfl
  · exact ⟨false, nofun, hpayload⟩

theorem inbox_onSegment (t : Tcp) (x : Session) : InboxMove (.segment t) x (x.onSegment t).conn.inbox := by
  unfold onSegment dispatch
  have harrived : (x.noteArrival t).conn.inbox = x.conn.inbox := rfl
  have hstate : (x.noteArrival t).conn.state = x.conn.state := rfl
  split_ifs with hrst
  · unfold handleRst
    dsimp only
    split_ifs <;> exact .same
  · split
    · next hsent =>
      unfold handleSynSent
      split_ifs
      · exact .establish t rfl hsent
      · exact .same
    · unfold handleSynReceived
      split_ifs <;> exact .same
    · exact .same
    · next h₁ h₂ h₃ =>
      have hacks : handlesAcks x.conn.state := ⟨h₁, h₂, h₃⟩
      cases hpaws : pawsRejects (x.noteArrival t).conn t with
      | true =>
        unfold handleSynchronized
        rw [if_pos hpaws]
        exact .same
      | false =>
        obtain ⟨fin, hfin, heq⟩ := inbox_handleSynchronized hpaws
        rw [heq, harrived, hstate]
        exact .arrive t fin rfl hacks (by simpa using hrst) hpaws hfin

theorem inbox_onTimePassed (elapsedMs : UInt32) (x : Session) :
    InboxMove (.timePassed elapsedMs) x (x.onTimePassed elapsedMs).conn.inbox := by
  unfold onTimePassed
  split_ifs
  · exact .same
  · have hnow : (x.modify fun c => { c with nowMs := c.nowMs + elapsedMs.toUInt64 }).conn.inbox =
        { x.conn.inbox with nowMs := x.conn.nowMs + elapsedMs.toUInt64 } := rfl
    dsimp only
    generalize (x.modify fun c => { c with nowMs := c.nowMs + elapsedMs.toUInt64 }) = y at hnow
    have hmove {z : Session} (h : z.conn.inbox = y.conn.inbox) :
        InboxMove (.timePassed elapsedMs) x z.conn.inbox := by
      rw [h, hnow]
      exact .tick elapsedMs rfl
    have hdelayed : (y.runDelayedAck elapsedMs).conn.inbox = y.conn.inbox := by
      unfold runDelayedAck
      dsimp only
      split_ifs <;> rfl
    split_ifs
    · exact hmove rfl
    · exact hmove rfl
    · exact hmove ((outgoing_runPersist elapsedMs _).inbox.trans hdelayed)
    · exact hmove ((outgoing_runKeepalive elapsedMs _).inbox.trans hdelayed)
    · exact hmove ((outgoing_runRetransmit elapsedMs _).inbox.trans hdelayed)

theorem inbox_read (maxBytes : ℕ) (x : Session) :
    (x.read maxBytes).conn.inbox = x.conn.inbox.take maxBytes := by
  unfold Session.read
  dsimp only
  split_ifs <;> rfl

/-- **What every event does to the inbox.** -/
theorem Event.run_inbox (h : e.run x = some y) : InboxMove e x y.conn.inbox := by
  cases e with
  | segment t => exact Option.some.inj h ▸ inbox_onSegment t x
  | timePassed elapsedMs => exact Option.some.inj h ▸ inbox_onTimePassed elapsedMs x
  | send data =>
    rw [(outgoing_send h).inbox]
    exact .same
  | read maxBytes =>
    rw [← Option.some.inj h, inbox_read]
    exact .take maxBytes rfl
  | close =>
    rw [← Option.some.inj h, (outgoing_close x).inbox]
    exact .same
  | setKeepalive enabled => exact Option.some.inj h ▸ .same
  | reduceEffectiveMss pathMss =>
    rw [← Option.some.inj h]
    have hsame : (x.modify (Session.reduceEffectiveMss pathMss)).conn.inbox = x.conn.inbox := by
      unfold Session.modify Session.reduceEffectiveMss
      dsimp only
      split_ifs <;> rfl
    rw [hsame]
    exact .same
  | fail => exact Option.some.inj h ▸ .same

end Events

end TcpIpStack
