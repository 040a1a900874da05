/-
# What the server sees of a connection

Of all that a connection does, the server's accounts depend on little
(`Watched`): its state, whether a FIN was requested, what is in the receive
queue, what `send` has accepted and `read` has returned.  `Move` is the relation
of the changes that are visible there, each with its guard in the source: a state
is entered, the FIN that was requested goes out, data is delivered, the callback
dispatches.  A segment makes such moves and no others (`onSegment_moves`), and so
do the clock and the ICMP errors.

`Move m` leaves open when a FIN of the peer may end a stream: the guard `m` says
it.  For a segment it is `FinOf`: a FIN that comes with new data finds the data
dispatched.
-/

import TcpIpStack.Tcp.Transitions
import TcpIpStack.Tcp.Timers
import TcpIpStack.Tcp.Receiver
import TcpIpStack.Server.Connection

namespace TcpIpStack

open TcpConnection Session

/-! ### What is watched -/

/-- The members of a connection that the server's accounts depend on. -/
structure Seen where
  state : TcpState
  finRequested : Bool
  recvNext : UInt32
  receiveQueue : List Bytes
  receiveQueuedBytes : ℕ

/-- What the server reads of a connection. -/
def TcpConnection.seen (c : TcpConnection) : Seen where
  state := c.state
  finRequested := c.finRequested
  recvNext := c.recvNext
  receiveQueue := c.receiveQueue
  receiveQueuedBytes := c.receiveQueuedBytes

/-- The same with the record of what the connection has done. -/
structure Watched extends Seen where
  entered : List TcpState
  accepted : Bytes
  returned : Bytes

def Session.watched (x : Session) : Watched where
  toSeen := x.conn.seen
  entered := x.entered
  accepted := x.accepted
  returned := x.returned

section Watched

variable {x y : Session}

theorem watched_modify {f : TcpConnection → TcpConnection} (h : (f x.conn).seen = x.conn.seen) :
    (x.modify f).watched = x.watched := by
  rw [watched, watched, Session.modify, h]

@[simp] theorem watched_sendPureAck (x : Session) : x.sendPureAck.watched = x.watched := rfl

@[simp] theorem watched_scheduleOrSendAck (x : Session) : x.scheduleOrSendAck.watched = x.watched := by
  unfold scheduleOrSendAck
  split_ifs <;> rfl

@[simp] theorem watched_armOrDisarmPersist (x : Session) :
    (x.modify (·.armOrDisarmPersist)).watched = x.watched := by
  refine watched_modify ?_
  unfold armOrDisarmPersist
  split_ifs <;> rfl

/-! ### `_handle_ack` -/

theorem watched_retireAcked (t : Tcp) (x : Session) : (x.retireAcked t).watched = x.watched := by
  rcases sampleRtt_cases t (x.conn.ackTally t.acknowledgementNumber)
    (x.conn.retire t.acknowledgementNumber) with h | ⟨rttMs, h⟩
  all_goals
    unfold retireAcked watched
    dsimp only
    rw [h]
    rfl

theorem watched_afterNewAck (tally : AckTally) (x : Session) :
    (x.modify (afterNewAck tally)).watched = x.watched := by
  refine watched_modify ?_
  unfold afterNewAck
  split_ifs <;> rfl

theorem watched_frame : AckFrame True fun x y => y.watched = x.watched where
  toFrame := .of_eq watched
  front _ _ _ := rfl
  persist := watched_armOrDisarmPersist
  note t x := by
    obtain ⟨flight, bytes, h⟩ := applySackBlocks_eq t x.conn
    refine watched_modify ?_
    rw [noteAck, h]
    rfl
  count _ := rfl
  inflate _ := rfl
  fast _ _ := rfl
  clear _ := rfl
  after := watched_afterNewAck

/-! ### `send` -/

theorem watched_placeChunk (chunk : Bytes) (x : Session) :
    (x.placeChunk chunk).watched = { x.watched with accepted := x.accepted ++ chunk } := by
  unfold placeChunk
  dsimp only
  split_ifs <;> rfl

theorem watched_sendLoop (fuel : ℕ) {rest : Bytes} (h : x.sendLoop fuel rest = some y) :
    y.watched = { x.watched with accepted := x.accepted ++ rest } := by
  induction fuel generalizing x rest with
  | zero =>
    simp only [sendLoop, Option.ite_none_right_eq_some, Option.some.injEq] at h
    obtain ⟨rfl, rfl⟩ := h
    rw [List.append_nil]
    rfl
  | succ fuel ih =>
    by_cases hrest : rest = []
    · simp only [sendLoop, hrest, if_true, Option.some.injEq] at h
      subst h hrest
      rw [List.append_nil]
      rfl
    · simp only [sendLoop, hrest, if_false] at h
      have hplaced := watched_placeChunk (rest.take x.conn.effectiveMss.toNat) x
      rw [ih h, hplaced, show (x.placeChunk _).accepted = _ from congrArg (·.accepted) hplaced,
        List.append_assoc, List.take_append_drop]

/-- `send` accepts what there is room for, in the states that take data. -/
theorem watched_send {data : Bytes} {n : ℕ} (h : x.send data = some (n, y)) :
    y.watched = { x.watched with accepted := x.accepted ++ data.take n } ∧
      (acceptsData x.conn.state → n = min data.length (sendSpaceAvailable x.conn)) ∧
      (¬ acceptsData x.conn.state → n = 0) := by
  unfold send at h
  dsimp only at h
  split_ifs at h with hstate hzero
  · simp only [Option.some.injEq, Prod.mk.injEq] at h
    obtain ⟨rfl, rfl⟩ := h
    refine ⟨?_, fun haccepts => absurd haccepts (not_or.2 hstate), fun _ => rfl⟩
    rw [List.take_zero, List.append_nil]
    rfl
  · simp only [Option.some.injEq, Prod.mk.injEq] at h
    obtain ⟨rfl, rfl⟩ := h
    refine ⟨?_, fun _ => hzero.symm, fun _ => rfl⟩
    rw [List.take_zero, List.append_nil]
    rfl
  · simp only [Option.map_eq_some_iff, Prod.mk.injEq] at h
    obtain ⟨z, hz, rfl, rfl⟩ := h
    refine ⟨(watched_armOrDisarmPersist z).trans (watched_sendLoop _ hz), fun _ => rfl, fun hnot => ?_⟩
    exact absurd (not_or.1 hnot) hstate

/-! ### `close` -/

theorem close_of_not_acceptsData (h : ¬ acceptsData x.conn.state) : x.close = x := by
  unfold close
  rw [if_pos ⟨fun hstate => h (.inl hstate), fun hstate => h (.inr hstate)⟩]

theorem close_of_waiting (h : acceptsData x.conn.state)
    (hwaiting : x.conn.inFlight ≠ [] ∨ x.conn.sendQueue ≠ []) :
    x.close = x.modify fun c => { c with finRequested := true } := by
  unfold close
  rw [if_neg (fun hstate => h.elim hstate.1 hstate.2), if_pos hwaiting]

theorem close_of_empty (h : acceptsData x.conn.state) (hflight : x.conn.inFlight = [])
    (hqueue : x.conn.sendQueue = []) : x.close = x.sendFin := by
  unfold close
  rw [if_neg (fun hstate => h.elim hstate.1 hstate.2),
    if_neg (fun hwaiting => hwaiting.elim (· hflight) (· hqueue))]
  rfl

/-- Nobody waits for the FIN any more. -/
def Session.forgetFin (x : Session) : Session := x.modify fun c => { c with finRequested := false }

/-- The FIN that was requested goes out. -/
def Session.requestedFin (x : Session) : Session :=
  x.forgetFin.transition (if x.conn.state = .established then .finWait1 else .lastAck)

theorem watched_sendFin_forgetFin (x : Session) : x.forgetFin.sendFin.watched = x.requestedFin.watched := rfl

end Watched

/-! ### Moves -/

/-- The states that a connection enters without being asked to: a handshake ends,
our FIN is acknowledged, the peer's FIN comes after ours, the connection closes. -/
def Turns (state newState : TcpState) : Prop :=
  newState = .closed ∨ (state = .synSent ∨ state = .synReceived) ∧ newState = .established ∨
    finAckedState state = some newState ∨ state = .finWait2 ∧ newState = .timeWait ∨
    state = .finWait1 ∧ newState = .closing

namespace Served

/-- The changes of a connection that the server sees.  The peer's FIN ends an open
stream only where `m` holds. -/
inductive Move (m : Served → Prop) : Served → Served → Prop
  | quiet (v x recvNext) : x.watched = { v.session.watched with recvNext := recvNext } →
      Move m v { v with session := x }
  | enter (v newState) : Turns v.session.conn.state newState →
      Move m v (v.run (Session.transition newState))
  | peerFin (v) : m v → v.session.conn.state = .established →
      Move m v (v.run (Session.transition .closeWait))
  | ownFin (v) : acceptsData v.session.conn.state → v.session.conn.finRequested = true →
      Move m v (v.run Session.requestedFin)
  | forget (v) : ¬ acceptsData v.session.conn.state → Move m v (v.run Session.forgetFin)
  | deliver (v payload) : receivesData v.session.conn.state →
      Move m v (v.run (Session.modify (·.deliver payload)))
  | dispatch (v) : v.dataReady → Move m v v.tryDispatch

/-- Any number of moves. -/
def Moves (m : Served → Prop) : Served → Served → Prop := Relation.ReflTransGen (Move m)

section Moves

variable {m : Served → Prop} {v w z : Served} {x : Session}

theorem Moves.refl : Moves m v v := Relation.ReflTransGen.refl

theorem Moves.trans (h : Moves m v w) (h' : Moves m w z) : Moves m v z := Relation.ReflTransGen.trans h h'

theorem Moves.single (h : Move m v w) : Moves m v w := Relation.ReflTransGen.single h

theorem moves_of_watched (h : x.watched = v.session.watched) : Moves m v { v with session := x } :=
  .single (.quiet v x v.session.conn.recvNext h)

theorem moves_run {f : Session → Session} (h : (f v.session).watched = v.session.watched) :
    Moves m v (v.run f) := moves_of_watched h

theorem Moves.of_watched (h : Moves m v w) (hx : x.watched = w.session.watched) :
    Moves m v { w with session := x } := h.trans (moves_of_watched hx)

/-! ### `_handle_ack` -/

theorem moves_ends {x y : Session} (h : AckEnds x y) (hx : v.session = x) : Moves m v { v with session := y } := by
  subst hx
  cases h with
  | stop => exact .refl
  | acked newState wait hnew =>
    exact (Moves.single (.enter v newState (.inr (.inr (.inl hnew))))).of_watched rfl
  | close hflight hqueue hfin =>
    by_cases haccepts : acceptsData v.session.conn.state
    · have hclose : v.session.forgetFin.close.watched = v.session.requestedFin.watched := by
        rw [close_of_empty (x := v.session.forgetFin) haccepts hflight hqueue, watched_sendFin_forgetFin]
      exact (Moves.single (.ownFin v haccepts hfin)).of_watched hclose
    · have hclose : v.session.forgetFin.close.watched = v.session.forgetFin.watched := by
        rw [close_of_not_acceptsData (x := v.session.forgetFin) haccepts]
      exact (Moves.single (.forget v haccepts)).of_watched hclose

theorem moves_handleAck (segment : Tcp) (v : Served) : Moves m v (v.run (Session.handleAck segment)) := by
  obtain ⟨y, hy, hend⟩ := watched_frame.handleAck (x := v.session) (watched_retireAcked segment) fun _ => trivial
  exact (moves_of_watched hy).trans (moves_ends (v := { v with session := y }) hend rfl)

/-! ### Delivery -/

theorem watched_read (maxBytes : ℕ) (x : Session) : (x.read maxBytes).watched =
    { x.watched with
      receiveQueue := (takeFromQueue maxBytes x.conn.receiveQueue).2
      receiveQueuedBytes := x.conn.receiveQueuedBytes - (takeFromQueue maxBytes x.conn.receiveQueue).1.length
      returned := x.returned ++ (takeFromQueue maxBytes x.conn.receiveQueue).1 } := by
  unfold Session.read
  dsimp only
  split_ifs <;> rfl

theorem state_tryDispatch (v : Served) : v.tryDispatch.session.conn.state = v.session.conn.state := by
  have hread : (v.session.read readAll).conn.state = v.session.conn.state :=
    congrArg (·.state) (watched_read readAll v.session)
  unfold tryDispatch
  split_ifs
  · rfl
  · exact hread
  · exact hread

theorem finRequested_tryDispatch (v : Served) :
    v.tryDispatch.session.conn.finRequested = v.session.conn.finRequested := by
  have hread : (v.session.read readAll).conn.finRequested = v.session.conn.finRequested :=
    congrArg (·.finRequested) (watched_read readAll v.session)
  unfold tryDispatch
  split_ifs
  · rfl
  · exact hread
  · exact hread

theorem dataReady_tryDispatch (v : Served) : v.tryDispatch.dataReady = v.dataReady := by
  unfold tryDispatch
  split_ifs <;> rfl

theorem state_notify (v : Served) : v.notify.session.conn.state = v.session.conn.state := by
  unfold notify
  split_ifs
  · exact state_tryDispatch v
  · rfl

theorem moves_notify (v : Served) : Moves m v v.notify := by
  unfold notify
  split_ifs with h
  · exact .single (.dispatch v h)
  · exact .refl

theorem moves_deliver (payload : Bytes) (h : receivesData v.session.conn.state) :
    Moves m v (v.deliver payload) := (Moves.single (.deliver v payload h)).trans (moves_notify _)

theorem state_deliver (payload : Bytes) (v : Served) :
    (v.deliver payload).session.conn.state = v.session.conn.state := state_notify _

theorem moves_drainReorderBuffer (fuel : ℕ) (h : receivesData v.session.conn.state) :
    Moves m v (v.drainReorderBuffer fuel) ∧
      (v.drainReorderBuffer fuel).session.conn.state = v.session.conn.state := by
  induction fuel generalizing v with
  | zero => exact ⟨.refl, rfl⟩
  | succ fuel ih =>
    rw [drainReorderBuffer]
    split
    · exact ⟨.refl, rfl⟩
    · next buffered _ =>
      set w := v.run (Session.modify fun c =>
        { c with reorderBuffer := c.reorderBuffer.erase c.recvNext })
      have hw : Moves m v w := moves_run rfl
      have hstate : (w.deliver buffered).session.conn.state = v.session.conn.state := state_deliver buffered w
      obtain ⟨hmoves, hstate'⟩ := ih (hstate ▸ h : receivesData (w.deliver buffered).session.conn.state)
      exact ⟨(hw.trans (moves_deliver buffered h)).trans hmoves, hstate'.trans hstate⟩

theorem moves_deliverAndDrain (payload : Bytes) (h : receivesData v.session.conn.state) :
    Moves m v (v.deliverAndDrain payload) ∧
      (v.deliverAndDrain payload).session.conn.state = v.session.conn.state := by
  have hstate := state_deliver payload v
  obtain ⟨hmoves, hstate'⟩ := moves_drainReorderBuffer (m := m)
    (v.deliver payload).session.conn.reorderBuffer.entries.length
    (hstate ▸ h : receivesData (v.deliver payload).session.conn.state)
  exact ⟨(moves_deliver payload h).trans hmoves, hstate'.trans hstate⟩

theorem moves_handlePayload (seq : UInt32) (payload : Bytes) (h : receivesData v.session.conn.state) :
    Moves m v (v.handlePayload seq payload) ∧
      (v.handlePayload seq payload).session.conn.state = v.session.conn.state := by
  unfold handlePayload
  dsimp only
  split_ifs
  · obtain ⟨hmoves, hstate⟩ := moves_deliverAndDrain (m := m) payload h
    exact ⟨hmoves.of_watched (watched_scheduleOrSendAck _),
      (congrArg (·.state) (watched_scheduleOrSendAck _)).trans hstate⟩
  · have hbuffered : (v.session.modify (bufferOutOfOrder seq payload)).watched = v.session.watched := by
      refine watched_modify ?_
      unfold bufferOutOfOrder
      split_ifs <;> rfl
    exact ⟨moves_of_watched hbuffered, congrArg (·.state) hbuffered⟩
  · obtain ⟨hmoves, hstate⟩ := moves_deliverAndDrain (m := m)
      (payload.drop (v.session.conn.recvNext - seq).toNat) h
    exact ⟨hmoves.of_watched (watched_sendPureAck _), hstate⟩
  · exact ⟨moves_of_watched rfl, rfl⟩

/-! ### FIN, reset and handshake -/

theorem moves_handleFin (finSeq : UInt32) (hm : m v) : Moves m v (v.run (Session.handleFin finSeq)) := by
  unfold run handleFin
  split_ifs
  · exact moves_of_watched rfl
  · exact moves_of_watched rfl
  · unfold consumeFin
    split
    · next hstate =>
      exact (Moves.single (.peerFin v hm hstate)).trans
        (.single (.quiet _ _ (v.session.conn.recvNext + 1) rfl))
    · next hstate =>
      have hturns : Turns v.session.conn.state .timeWait :=
        .inr (.inr (.inr (.inl ⟨hstate, rfl⟩)))
      exact (Moves.single (.enter v .timeWait hturns)).trans
        (.single (.quiet _ _ (v.session.conn.recvNext + 1) rfl))
    · next hstate =>
      have hturns : Turns v.session.conn.state .closing := .inr (.inr (.inr (.inr ⟨hstate, rfl⟩)))
      exact (Moves.single (.enter v .closing hturns)).trans
        (.single (.quiet _ _ (v.session.conn.recvNext + 1) rfl))
    · exact .single (.quiet v _ (v.session.conn.recvNext + 1) rfl)

theorem moves_handleRst (segment : Tcp) (v : Served) : Moves m v (v.run (Session.handleRst segment)) := by
  unfold run handleRst
  dsimp only
  split_ifs
  · exact .refl
  · exact .single (.enter v .closed (.inl rfl))

theorem moves_handleSynSent (segment : Tcp) (hstate : v.session.conn.state = .synSent) :
    Moves m v (v.run (Session.handleSynSent segment)) := by
  unfold run handleSynSent
  split_ifs
  · exact (Moves.single (.enter v .established (.inr (.inl ⟨.inl hstate, rfl⟩)))).trans
      (.single (.quiet _ _ (segment.sequenceNumber + 1) rfl))
  · exact .refl

theorem moves_handleSynReceived (segment : Tcp) (hstate : v.session.conn.state = .synReceived) :
    Moves m v (v.run (Session.handleSynReceived segment)) := by
  unfold run handleSynReceived
  split_ifs
  · exact (Moves.single (.enter v .established (.inr (.inl ⟨.inr hstate, rfl⟩)))).of_watched rfl
  · exact .refl

end Moves

/-! ### `on_segment` -/

/-- The segment has data that is delivered on arrival, by the comparison that the
source makes. -/
def Brings (c : TcpConnection) (segment : Tcp) : Prop :=
  segment.sequenceNumber ≤ c.recvNext ∧
    (c.recvNext - segment.sequenceNumber).toNat < segment.payload.length

instance (c : TcpConnection) (segment : Tcp) : Decidable (Brings c segment) :=
  inferInstanceAs (Decidable (_ ∧ _))

/-- When the FIN of a segment that found `v` ends the stream of `w`: the stream was
open, if a chunk was in flight, one still is, and if the segment brought data to a
connection with a callback, then it is in flight. -/
def FinOf (v : Served) (segment : Tcp) (w : Served) : Prop :=
  segment.fin = true ∧ (w.session.conn.state = .established → v.session.conn.state = .established ∧
    (v.inFlight = true ∨ v.dataReady = true ∧ Brings v.session.conn segment → w.inFlight = true))

section InFlight

variable {v w : Served}

/-- Nothing is read only if nothing is there. -/
theorem takeFromQueue_eq_nil_iff {maxBytes : ℕ} (hpos : 0 < maxBytes) (queue : List Bytes) :
    (takeFromQueue maxBytes queue).1 = [] ↔ queue.flatten = [] := by
  induction queue with
  | nil => simp [takeFromQueue]
  | cons front rest ih =>
    rw [takeFromQueue, if_neg hpos.ne', List.flatten_cons, List.append_eq_nil_iff]
    split_ifs with hfits
    · rw [List.append_eq_nil_iff]
      constructor
      · rintro ⟨rfl, hrest⟩
        exact ⟨rfl, ih.1 (by simpa using hrest)⟩
      · rintro ⟨rfl, hrest⟩
        exact ⟨rfl, by simpa using ih.2 hrest⟩
    · rw [List.take_eq_nil_iff]
      constructor
      · rintro (hzero | rfl)
        · exact absurd hzero hpos.ne'
        · simp at hfits
      · rintro ⟨rfl, -⟩
        simp at hfits

theorem unread_eq_nil_iff (v : Served) : v.unread = [] ↔ v.session.conn.receiveQueue.flatten = [] :=
  takeFromQueue_eq_nil_iff (by decide) _

theorem inFlight_tryDispatch (h : v.inFlight = true ∨ v.unread ≠ []) : v.tryDispatch.inFlight = true := by
  unfold tryDispatch
  split_ifs with hflight hunread
  · exact hflight
  · exact absurd hunread (h.resolve_left hflight)
  · rfl

theorem inFlight_notify (h : v.inFlight = true) : v.notify.inFlight = true := by
  unfold notify
  split_ifs
  · exact inFlight_tryDispatch (.inl h)
  · exact h

/-- What is delivered to a connection with a callback is in flight, or behind what
is. -/
theorem inFlight_deliver {payload : Bytes}
    (h : v.inFlight = true ∨ v.dataReady = true ∧ payload ≠ []) : (v.deliver payload).inFlight = true := by
  rcases h with h | ⟨hready, hpayload⟩
  · exact inFlight_notify (v := v.run _) h
  · have hunread : (v.run (Session.modify (·.deliver payload))).unread ≠ [] := by
      rw [Ne, unread_eq_nil_iff]
      show (v.session.conn.receiveQueue ++ [payload]).flatten ≠ []
      simp [hpayload]
    unfold deliver notify
    rw [run_dataReady, if_pos hready]
    exact inFlight_tryDispatch (.inr hunread)

theorem inFlight_drainReorderBuffer (fuel : ℕ) (h : v.inFlight = true) :
    (v.drainReorderBuffer fuel).inFlight = true := by
  induction fuel generalizing v with
  | zero => exact h
  | succ fuel ih =>
    rw [drainReorderBuffer]
    split
    · exact h
    · exact ih (inFlight_deliver (.inl h))

theorem inFlight_deliverAndDrain {payload : Bytes} (h : v.inFlight = true ∨ v.dataReady = true ∧ payload ≠ []) :
    (v.deliverAndDrain payload).inFlight = true :=
  inFlight_drainReorderBuffer _ (inFlight_deliver h)

theorem inFlight_handlePayload {segment : Tcp}
    (h : v.inFlight = true ∨ v.dataReady = true ∧ Brings v.session.conn segment) :
    (v.handlePayload segment.sequenceNumber segment.payload).inFlight = true := by
  unfold handlePayload
  dsimp only
  split_ifs with hseq hafter hnew
  · refine inFlight_deliverAndDrain (h.imp_right fun ⟨hready, _, hlength⟩ => ⟨hready, ?_⟩)
    exact List.ne_nil_of_length_pos (Nat.zero_lt_of_lt hlength)
  · exact h.resolve_right fun ⟨_, hle, _⟩ => absurd hafter (UInt32.not_lt.2 hle)
  · refine inFlight_deliverAndDrain (h.imp_right fun ⟨hready, _, hlength⟩ => ⟨hready, ?_⟩)
    exact List.ne_nil_of_length_pos (by simpa using hlength)
  · exact h.resolve_right fun ⟨_, _, hlength⟩ => hnew hlength

end InFlight

/-! An ack does not move `RCV.NXT`. -/

theorem recvNext_close (x : Session) : x.close.conn.recvNext = x.conn.recvNext := by
  unfold close
  split_ifs <;> rfl

theorem recvNext_handleAck (segment : Tcp) (x : Session) :
    (x.handleAck segment).conn.recvNext = x.conn.recvNext := by
  obtain ⟨y, hy, hend⟩ := watched_frame.handleAck (x := x) (watched_retireAcked segment) fun _ => trivial
  have hsame : y.conn.recvNext = x.conn.recvNext := congrArg (·.recvNext) hy
  rw [← hsame]
  generalize x.handleAck segment = z at hend
  cases hend with
  | stop | acked => rfl
  | close => exact recvNext_close _

/-- A handshake state is not entered, and `ESTABLISHED` only from one. -/
theorem Move.state {m : Served → Prop} {v w : Served} (h : Move m v w) :
    w.session.conn.state = v.session.conn.state ∨
      w.session.conn.state ≠ .synSent ∧ w.session.conn.state ≠ .synReceived ∧
        (w.session.conn.state = .established →
          v.session.conn.state = .synSent ∨ v.session.conn.state = .synReceived) := by
  have hnew (newState : TcpState) (hstate : w.session.conn.state = newState)
      (hother : newState ≠ .synSent ∧ newState ≠ .synReceived ∧ newState ≠ .established) :
      w.session.conn.state ≠ .synSent ∧ w.session.conn.state ≠ .synReceived ∧
        (w.session.conn.state = .established →
          v.session.conn.state = .synSent ∨ v.session.conn.state = .synReceived) := by
    rw [hstate]
    exact ⟨hother.1, hother.2.1, fun h => absurd h hother.2.2⟩
  cases h with
  | quiet x recvNext hx => exact .inl (congrArg (·.state) hx)
  | enter newState hturns =>
    rcases hturns with rfl | ⟨hstate, rfl⟩ | hfin | ⟨-, rfl⟩ | ⟨-, rfl⟩
    · exact .inr (hnew .closed rfl (by decide))
    · exact .inr ⟨TcpState.noConfusion, TcpState.noConfusion, fun _ => hstate⟩
    · rcases finAckedState_cases hfin with ⟨-, rfl⟩ | ⟨-, rfl⟩ | ⟨-, rfl⟩
      · exact .inr (hnew .finWait2 rfl (by decide))
      · exact .inr (hnew .timeWait rfl (by decide))
      · exact .inr (hnew .closed rfl (by decide))
    · exact .inr (hnew .timeWait rfl (by decide))
    · exact .inr (hnew .closing rfl (by decide))
  | peerFin => exact .inr (hnew .closeWait rfl (by decide))
  | ownFin =>
    refine .inr (hnew (if v.session.conn.state = .established then .finWait1 else .lastAck) rfl ?_)
    split_ifs <;> decide
  | forget => exact .inl rfl
  | deliver => exact .inl rfl
  | dispatch => exact .inl (state_tryDispatch v)

/-- Past the handshake nothing leads back to `ESTABLISHED`. -/
theorem Moves.state {m : Served → Prop} {v w : Served} (h : Moves m v w)
    (hsent : v.session.conn.state ≠ .synSent) (hreceived : v.session.conn.state ≠ .synReceived) :
    w.session.conn.state ≠ .synSent ∧ w.session.conn.state ≠ .synReceived ∧
      (w.session.conn.state = .established → v.session.conn.state = .established) := by
  induction h with
  | refl => exact ⟨hsent, hreceived, id⟩
  | tail _ hmove ih =>
    obtain ⟨ihsent, ihreceived, ihstate⟩ := ih
    rcases hmove.state with hsame | ⟨hsent', hreceived', hfrom⟩
    · rw [hsame]
      exact ⟨ihsent, ihreceived, ihstate⟩
    · refine ⟨hsent', hreceived', fun hstate => ?_⟩
      rcases hfrom hstate with hbefore | hbefore
      · exact absurd hbefore ihsent
      · exact absurd hbefore ihreceived

/-- The guard of the peer's FIN, once acks and data are dealt with. -/
theorem finOf_handled {v w : Served} {segment : Tcp} (hfin : segment.fin = true)
    (hopen : w.session.conn.state = .established → v.session.conn.state = .established)
    (hready : w.dataReady = v.dataReady) (hflight : w.inFlight = v.inFlight)
    (hnext : w.session.conn.recvNext = v.session.conn.recvNext) :
    FinOf v segment (if receivesData w.session.conn.state ∧ segment.payload ≠ [] then
      w.handlePayload segment.sequenceNumber segment.payload else w) := by
  refine ⟨hfin, fun hstate => ?_⟩
  have hbefore : w.session.conn.state = .established := by
    split_ifs at hstate with hdata
    · exact (moves_handlePayload (m := fun _ => False) _ _ hdata.1).2 ▸ hstate
    · exact hstate
  refine ⟨hopen hbefore, fun h => ?_⟩
  have hbrings : w.inFlight = true ∨ w.dataReady = true ∧ Brings w.session.conn segment := by
    rwa [hready, hflight, Brings, hnext]
  split_ifs with hdata
  · exact inFlight_handlePayload hbrings
  · refine hbrings.resolve_right fun ⟨_, _, hlength⟩ => hdata ⟨?_, ?_⟩
    · rw [hbefore]
      decide
    · exact List.ne_nil_of_length_pos (Nat.zero_lt_of_lt hlength)

/-- The payload and the FIN of a segment, once its ack is dealt with. -/
theorem moves_payload_fin {v w : Served} {segment : Tcp} (h : Moves (FinOf v segment) v w)
    (hopen : w.session.conn.state = .established → v.session.conn.state = .established)
    (hready : w.dataReady = v.dataReady) (hflight : w.inFlight = v.inFlight)
    (hnext : w.session.conn.recvNext = v.session.conn.recvNext) : Moves (FinOf v segment) v
      (let w := if receivesData w.session.conn.state ∧ segment.payload ≠ [] then
        w.handlePayload segment.sequenceNumber segment.payload else w
      if segment.fin then
        w.run (Session.handleFin (segment.sequenceNumber + UInt32.ofNat segment.payload.length))
      else w) := by
  have hpayload : Moves (FinOf v segment) v (if receivesData w.session.conn.state ∧ segment.payload ≠ []
      then w.handlePayload segment.sequenceNumber segment.payload else w) := by
    split_ifs with hdata
    · exact h.trans (moves_handlePayload _ _ hdata.1).1
    · exact h
  dsimp only
  by_cases hfin : segment.fin
  · rw [if_pos hfin]
    exact hpayload.trans (moves_handleFin _ (finOf_handled hfin hopen hready hflight hnext))
  · rw [if_neg hfin]
    exact hpayload

theorem moves_handleSynchronized (segment : Tcp) {v : Served}
    (hsent : v.session.conn.state ≠ .synSent) (hreceived : v.session.conn.state ≠ .synReceived) :
    Moves (FinOf v segment) v (v.handleSynchronized segment) := by
  have htimestamp : (v.session.modify (recordTimestamp segment)).watched = v.session.watched := by
    refine watched_modify ?_
    unfold recordTimestamp
    split
    · split_ifs <;> rfl
    · rfl
  have hrecorded : Moves (FinOf v segment) v (v.run (Session.modify (recordTimestamp segment))) :=
    moves_of_watched htimestamp
  have hnext : (v.session.modify (recordTimestamp segment)).conn.recvNext = v.session.conn.recvNext :=
    congrArg (·.recvNext) htimestamp
  unfold handleSynchronized
  by_cases hpaws : pawsRejects v.session.conn segment
  · rw [if_pos hpaws]
    exact moves_of_watched rfl
  · rw [if_neg hpaws]
    dsimp only
    by_cases hack : segment.ack
    · rw [if_pos hack]
      have hacked := hrecorded.trans (moves_handleAck segment _)
      exact moves_payload_fin hacked (hacked.state hsent hreceived).2.2 rfl rfl
        ((recvNext_handleAck segment _).trans hnext)
    · rw [if_neg hack]
      exact moves_payload_fin hrecorded (hrecorded.state hsent hreceived).2.2 rfl rfl hnext

/-- **A segment makes moves and does nothing else that the server sees.** -/
theorem onSegment_moves (segment : Tcp) (v : Served) : Moves (FinOf v segment) v (v.onSegment segment) := by
  have hnoted : Moves (FinOf v segment) v (v.run (Session.noteArrival segment)) := moves_of_watched rfl
  refine hnoted.trans ?_
  unfold onSegment dispatch
  split_ifs
  · exact moves_handleRst segment _
  · split
    · next hstate => exact moves_handleSynSent segment hstate
    · next hstate => exact moves_handleSynReceived segment hstate
    · exact .refl
    · next hsent hreceived _ =>
      exact moves_handleSynchronized (v := v.run (Session.noteArrival segment)) segment hsent hreceived

/-! ### The clock -/

theorem watched_runDelayedAck (elapsedMs : UInt32) (x : Session) :
    (x.runDelayedAck elapsedMs).watched = x.watched := by
  unfold runDelayedAck
  dsimp only
  split_ifs <;> rfl

theorem watched_runPersist (elapsedMs : UInt32) (x : Session) :
    (x.runPersist elapsedMs).watched = x.watched := by
  unfold runPersist
  split_ifs
  · unfold sendZeroWindowProbe
    split <;> rfl
  · rfl

variable {m : Served → Prop} {v : Served}

theorem moves_of_closed {x : Session} (h : x.watched = (v.session.transition .closed).watched) :
    Moves m v { v with session := x } := (Moves.single (.enter v .closed (.inl rfl))).of_watched h

theorem moves_runKeepalive (elapsedMs : UInt32) (v : Served) :
    Moves m v (v.run (Session.runKeepalive elapsedMs)) := by
  unfold run runKeepalive
  dsimp only
  split_ifs
  any_goals exact moves_of_watched rfl
  exact moves_of_closed rfl

theorem moves_runRetransmit (elapsedMs : UInt32) (v : Served) :
    Moves m v (v.run (Session.runRetransmit elapsedMs)) := by
  unfold run runRetransmit
  dsimp only
  split
  · exact .refl
  · split_ifs
    · exact moves_of_watched rfl
    · exact moves_of_closed rfl
    · exact moves_of_watched rfl

/-- **Time makes moves.** -/
theorem onTimePassed_moves (elapsedMs : UInt32) (v : Served) :
    Moves m v (v.run (Session.onTimePassed elapsedMs)) := by
  unfold run Session.onTimePassed
  dsimp only
  have hdelayed : ((v.session.modify fun c =>
      { c with nowMs := c.nowMs + elapsedMs.toUInt64 }).runDelayedAck elapsedMs).watched =
      v.session.watched := watched_runDelayedAck elapsedMs _
  split_ifs
  · exact .refl
  · exact moves_of_closed rfl
  · exact moves_of_watched rfl
  · exact moves_of_watched ((watched_runPersist elapsedMs _).trans hdelayed)
  · exact (moves_of_watched hdelayed).trans (moves_runKeepalive elapsedMs { v with session := _ })
  · exact (moves_of_watched hdelayed).trans (moves_runRetransmit elapsedMs { v with session := _ })

end Served

end TcpIpStack
