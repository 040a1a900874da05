/-
# Relations that hold along a function

Much of what is proved about a connection says that some relation holds between
a session and what a function of the source makes of it: no timer is disturbed,
nothing is received, the state stays.  Such a relation holds between a session
and itself and can be chained, so it holds along a function if it holds along
the assignments and the calls the function is made of.

This module goes through the functions once, for all these relations.  A frame
is the list of the assignments and calls of one part of the source: of the loop
that empties the send queue, of `_handle_ack`, of the payload of a segment, of
its FIN, of the clock.
-/

import TcpIpStack.Tcp.Refinement

namespace TcpIpStack

open TcpConnection Session

/-- A relation between a session and what becomes of it. -/
structure Frame (R : Session → Session → Prop) : Prop where
  refl (x : Session) : R x x
  trans {x y z : Session} : R x y → R y z → R x z

theorem Frame.of_eq {α : Type*} (f : Session → α) : Frame fun x y => f y = f x where
  refl _ := rfl
  trans hxy hyz := hyz.trans hxy

/-! ### The send queue -/

/-- A relation that the steps of `_send_queued_while_window_allows` keep. -/
structure QueueFrame (R : Session → Session → Prop) : Prop extends Frame R where
  front (front : Bytes) (rest : List Bytes) (x : Session) : R x (x.sendFront front rest)
  persist (x : Session) : R x (x.modify (·.armOrDisarmPersist))

namespace QueueFrame

variable {R : Session → Session → Prop} {x y : Session}

theorem drainLoop (h : QueueFrame R) (fuel : ℕ) (x : Session) : R x (x.drainLoop fuel) := by
  induction fuel generalizing x with
  | zero => exact h.refl x
  | succ fuel ih =>
    rw [Session.drainLoop]
    split
    · exact h.refl x
    · next front rest _ =>
      split_ifs
      · exact h.trans (h.front front rest x) (ih _)
      · exact h.refl x

theorem sendQueued (h : QueueFrame R) (x : Session) : R x x.sendQueuedWhileWindowAllows :=
  h.trans (h.drainLoop _ x) (h.persist _)

theorem onWindowUpdate (h : QueueFrame R) (x : Session) : R x x.onWindowUpdate := by
  unfold Session.onWindowUpdate
  split_ifs
  · exact h.sendQueued x
  · exact h.persist x

theorem sendLoop (h : QueueFrame R) (hplace : ∀ chunk x, R x (x.placeChunk chunk)) {fuel : ℕ} {rest : Bytes}
    (hloop : x.sendLoop fuel rest = some y) : R x y := by
  induction fuel generalizing rest x with
  | zero =>
    rw [Session.sendLoop] at hloop
    split_ifs at hloop
    exact Option.some.inj hloop ▸ h.refl x
  | succ fuel ih =>
    rw [Session.sendLoop] at hloop
    split_ifs at hloop
    · exact Option.some.inj hloop ▸ h.refl x
    · exact h.trans (hplace _ x) (ih hloop)

theorem send (h : QueueFrame R) (hplace : ∀ chunk x, R x (x.placeChunk chunk)) {data : Bytes}
    (hrun : (Event.send data).run x = some y) : R x y := by
  simp only [Event.run, Session.send] at hrun
  split_ifs at hrun
  · exact Option.some.inj hrun ▸ h.refl x
  · exact Option.some.inj hrun ▸ h.refl x
  · obtain ⟨_, hsent, rfl⟩ := Option.map_eq_some_iff.1 hrun
    obtain ⟨z, hz, rfl⟩ := Option.map_eq_some_iff.1 hsent
    exact h.trans (h.sendLoop hplace hz) (h.persist z)

end QueueFrame

/-! ### `_handle_ack` -/

/-- The connection once the scoreboard and the window are taken, which
`_handle_ack` does first. -/
def noteAck (t : Tcp) (c : TcpConnection) : TcpConnection := takeWindow t (c.applySackBlocks t).1

theorem handleAck_eq (t : Tcp) (x : Session) : x.handleAck t =
    if (noteAck t x.conn).inFlight ≠ [] ∧ t.acknowledgementNumber = (noteAck t x.conn).sndUna then
      (x.modify (noteAck t)).duplicateAck (x.conn.applySackBlocks t).2
    else (x.modify (noteAck t)).advanceAck t := rfl

/-- `r` is the condition under which a segment goes out again. -/
structure AckFrame (r : Prop) (R : Session → Session → Prop) : Prop extends QueueFrame R where
  note (t : Tcp) (x : Session) : R x (x.modify (noteAck t))
  count (x : Session) : R x (x.modify countDuplicateAck)
  inflate (x : Session) : R x (x.modify inflate)
  fast {oldest : InFlightSegment} {x : Session} : r → x.conn.oldestUnsackedSegment = some oldest →
    R x (x.fastRetransmit oldest)
  clear (x : Session) : R x (x.modify clearDuplicateAcks)
  after (tally : AckTally) (x : Session) : R x (x.modify (afterNewAck tally))

/-- How `_handle_ack` ends: it stops, enters the state after the ack of our FIN,
or sends the FIN that was waiting. -/
inductive AckEnds (x : Session) : Session → Prop
  | stop : AckEnds x x
  | acked (newState wait) : finAckedState x.conn.state = some newState →
      AckEnds x ((x.transition newState).modify fun c => { c with timeWaitMsRemaining := wait })
  | close : x.conn.inFlight = [] → x.conn.sendQueue = [] → x.conn.finRequested →
      AckEnds x (x.modify fun c => { c with finRequested := false }).close

theorem AckEnds.of_finAcked {x : Session} {newState : TcpState}
    (h : finAckedState x.conn.state = some newState) : AckEnds x (x.finAcked newState) := by
  unfold finAcked
  dsimp only
  split_ifs
  · exact .acked newState _ h
  · exact .acked newState x.conn.timeWaitMsRemaining h

/-- What comes after the loop that retires what is acknowledged. -/
theorem QueueFrame.resume {R : Session → Session → Prop} (h : QueueFrame R)
    (hafter : ∀ tally x, R x (x.modify (afterNewAck tally))) (t : Tcp) (x : Session) :
    ∃ y, R ((x.modify clearDuplicateAcks).retireAcked t) y ∧ AckEnds y (x.advanceAck t) := by
  unfold advanceAck
  dsimp only
  generalize (x.modify clearDuplicateAcks).retireAcked t = y
  split_ifs
  · exact ⟨_, h.onWindowUpdate y, .stop⟩
  · have hacked := hafter ((x.modify clearDuplicateAcks).conn.ackTally t.acknowledgementNumber) y
    unfold onNewAck
    split
    · next newState hnew =>
      split_ifs at hnew
      exact ⟨_, hacked, .of_finAcked hnew⟩
    · unfold resumeSending
      dsimp only
      refine ⟨_, h.trans hacked (h.sendQueued _), ?_⟩
      split_ifs with hfin
      · exact .close hfin.1 hfin.2.1 hfin.2.2
      · exact .stop

namespace AckFrame

variable {r : Prop} {R : Session → Session → Prop} {t : Tcp} {x : Session}

theorem duplicateAck (h : AckFrame r R) (sackAdvanced : Bool) (x : Session)
    (hr : x.conn.dupAckCount + 1 = dupAckFastRetransmitThreshold → x.conn.oldestUnsackedSegment.isSome → r) :
    R x (x.duplicateAck sackAdvanced) := by
  refine h.trans (h.count x) ?_
  unfold Session.duplicateAck onDuplicateAck
  split_ifs with hthird
  · split
    · exact h.refl _
    · next oldest hold =>
      have hsome : x.conn.oldestUnsackedSegment.isSome := (congrArg Option.isSome hold).trans Option.isSome_some
      exact h.fast (hr hthird hsome) hold
  · exact h.trans (h.inflate _) (h.sendQueued _)
  · exact h.refl _

end AckFrame

/-- The ack repeats `SND.UNA` for the third time, and the report it carries
leaves a segment that is not accounted for. -/
def ThirdDuplicateAck (t : Tcp) (c : TcpConnection) : Prop :=
  c.inFlight ≠ [] ∧ t.acknowledgementNumber = c.sndUna ∧
    c.dupAckCount + 1 = dupAckFastRetransmitThreshold ∧
    (c.applySackBlocks t).1.oldestUnsackedSegment.isSome

theorem ThirdDuplicateAck.congr {t : Tcp} {c c' : TcpConnection} (hflight : c'.inFlight = c.inFlight)
    (hnext : c'.sendNext = c.sendNext) (hcount : c'.dupAckCount = c.dupAckCount)
    (hsack : c'.sackPermitted = c.sackPermitted) : ThirdDuplicateAck t c' ↔ ThirdDuplicateAck t c := by
  simp only [ThirdDuplicateAck, sndUna, oldestUnsackedSegment, applySackBlocks_inFlight_eq, hflight,
    hnext, hcount, hsack]

theorem duplicate_noteAck (t : Tcp) (c : TcpConnection) :
    (noteAck t c).inFlight ≠ [] ∧ t.acknowledgementNumber = (noteAck t c).sndUna ↔
      c.inFlight ≠ [] ∧ t.acknowledgementNumber = c.sndUna := by
  obtain ⟨mark, -, hflight⟩ := applySackBlocks_inFlight t c
  have hflight : (noteAck t c).inFlight = c.inFlight.map fun s => { s with sacked := mark s } := hflight
  unfold sndUna
  rw [hflight]
  cases c.inFlight with
  | nil => simp
  | cons front rest => simp

theorem dupAckCount_noteAck (t : Tcp) (c : TcpConnection) : (noteAck t c).dupAckCount = c.dupAckCount := by
  obtain ⟨flight, bytes, happlied⟩ := applySackBlocks_eq t c
  simp only [noteAck, takeWindow, happlied]

theorem AckFrame.handleAck {r : Prop} {R : Session → Session → Prop} (h : AckFrame r R) {t : Tcp} {x : Session}
    (hretire : ∀ y : Session, R y (y.retireAcked t)) (hr : ThirdDuplicateAck t x.conn → r) :
    ∃ y, R x y ∧ AckEnds y (x.handleAck t) := by
  have hnote := h.note t x
  rw [handleAck_eq]
  split_ifs with hdup
  · refine ⟨_, h.trans hnote (h.duplicateAck _ _ fun hthird holdest => hr ?_), .stop⟩
    obtain ⟨hbusy, hack⟩ := (duplicate_noteAck t x.conn).1 hdup
    exact ⟨hbusy, hack, dupAckCount_noteAck t x.conn ▸ hthird, holdest⟩
  · obtain ⟨y, hresumed, hend⟩ := h.resume h.after t (x.modify (noteAck t))
    exact ⟨y, h.trans hnote (h.trans (h.clear _) (h.trans (hretire _) hresumed)), hend⟩

/-! ### The payload and the FIN -/

/-- A relation that the steps taken for a payload keep. -/
structure DataFrame (R : Session → Session → Prop) : Prop extends Frame R where
  pureAck (x : Session) : R x x.sendPureAck
  hold (x : Session) : R x (x.modify fun c => { c with ackPending := true, ackDelayMsRemaining := delayedAckMs })
  deliver (payload : Bytes) (x : Session) : R x (x.modify (·.deliver payload))
  unblock (buffered : Bytes) (x : Session) : R x (x.modify (unblock buffered))
  buffer (seq : UInt32) (payload : Bytes) (x : Session) : R x (x.modify (bufferOutOfOrder seq payload))

namespace DataFrame

variable {R : Session → Session → Prop}

theorem drainReorderBuffer (h : DataFrame R) (fuel : ℕ) (x : Session) :
    R x (x.modify (drainReorderBuffer fuel)) := by
  induction fuel generalizing x with
  | zero => exact h.refl x
  | succ fuel ih =>
    unfold Session.modify
    rw [TcpConnection.drainReorderBuffer]
    split
    · exact h.refl x
    · next buffered _ => exact h.trans (h.unblock buffered x) (ih (x.modify (Session.unblock buffered)))

theorem deliverAndDrain (h : DataFrame R) (payload : Bytes) (x : Session) :
    R x (x.modify (·.deliverAndDrain payload)) :=
  h.trans (h.deliver payload x) (h.drainReorderBuffer _ (x.modify (·.deliver payload)))

theorem scheduleOrSendAck (h : DataFrame R) (x : Session) : R x x.scheduleOrSendAck := by
  unfold Session.scheduleOrSendAck
  split_ifs
  · exact h.pureAck x
  · exact h.hold x

theorem handlePayload (h : DataFrame R) (seq : UInt32) (payload : Bytes) (x : Session) :
    R x (x.handlePayload seq payload) := by
  unfold Session.handlePayload
  dsimp only
  split_ifs
  · exact h.trans (h.deliverAndDrain payload x) (h.scheduleOrSendAck _)
  · exact h.trans (h.buffer seq payload x) (h.pureAck _)
  · exact h.trans (h.deliverAndDrain _ x) (h.pureAck _)
  · exact h.pureAck x

end DataFrame

/-- The same with the steps of `_handle_fin`. -/
structure FinFrame (R : Session → Session → Prop) : Prop extends DataFrame R where
  pastFin (x : Session) : R x (x.modify advancePastFin)
  enter (newState : TcpState) (x : Session) : newState = stateAfterFin x.conn.state → newState ≠ .closed →
    R x (x.transition newState)
  wait (x : Session) : R x (x.modify fun c => { c with timeWaitMsRemaining := timeWaitMs })

theorem FinFrame.handleFin {R : Session → Session → Prop} (h : FinFrame R) (finSeq : UInt32) (x : Session) :
    R x (x.handleFin finSeq) := by
  unfold Session.handleFin
  split_ifs
  · exact h.trans (h.pureAck x) (h.wait _)
  · exact h.pureAck x
  · refine h.trans (h.pastFin x) ?_
    unfold consumeFin
    have henter (newState : TcpState) (y : Session) (hy : y.conn.state = x.conn.state) (s : TcpState)
        (hs : x.conn.state = s) (hnew : newState = stateAfterFin s) (hopen : newState ≠ .closed) :
        R y (y.transition newState) := h.enter newState y (by rw [hnew, hy, hs]) hopen
    split
    · next hs => exact h.trans (henter .closeWait _ rfl _ hs rfl nofun) (h.pureAck _)
    · next hs => exact h.trans (h.pureAck _) (h.trans (henter .timeWait _ rfl _ hs rfl nofun) (h.wait _))
    · next hs => exact h.trans (h.pureAck _) (henter .closing _ rfl _ hs rfl nofun)
    · exact h.refl _

/-! ### A segment past the handshake -/

/-- The timestamp is recorded, then the ack is handled. -/
def Session.ackStage (t : Tcp) (x : Session) : Session :=
  let x := x.modify (recordTimestamp t)
  if t.ack then x.handleAck t else x

/-- Then the payload, in the states that receive data. -/
def Session.payloadStage (t : Tcp) (x : Session) : Session :=
  let x := x.ackStage t
  if receivesData x.conn.state ∧ t.payload ≠ [] then x.handlePayload t.sequenceNumber t.payload else x

theorem handleSynchronized_eq {t : Tcp} {x : Session} (hpaws : pawsRejects x.conn t = false) :
    x.handleSynchronized t =
      if t.fin then (x.payloadStage t).handleFin (t.sequenceNumber + UInt32.ofNat t.payload.length)
      else x.payloadStage t := by
  unfold handleSynchronized
  rw [if_neg (by simp [hpaws])]
  rfl

theorem FinFrame.rest {R : Session → Session → Prop} (h : FinFrame R) {t : Tcp} {x : Session}
    (hpaws : pawsRejects x.conn t = false) : R (x.ackStage t) (x.handleSynchronized t) := by
  have hpayload : R (x.ackStage t) (x.payloadStage t) := by
    unfold payloadStage
    dsimp only
    split_ifs
    · exact h.handlePayload ..
    · exact h.refl _
  rw [handleSynchronized_eq hpaws]
  split_ifs
  · exact h.trans hpayload (h.handleFin ..)
  · exact hpayload

/-- A relation that every step of `on_segment` in a synchronised state keeps. -/
structure SegmentFrame (r : Prop) (R : Session → Session → Prop) : Prop extends AckFrame r R, FinFrame R where
  retire (t : Tcp) (x : Session) : R x (x.retireAcked t)
  ends {x y : Session} : AckEnds x y → R x y
  record (t : Tcp) (x : Session) : R x (x.modify (recordTimestamp t))

/-- The timestamp is recorded apart from what an ack is about. -/
theorem recordTimestamp_flight (t : Tcp) (c : TcpConnection) :
    (recordTimestamp t c).inFlight = c.inFlight ∧ (recordTimestamp t c).sndUna = c.sndUna ∧
      (recordTimestamp t c).dupAckCount = c.dupAckCount := by
  unfold recordTimestamp
  split
  · split_ifs <;> exact ⟨rfl, rfl, rfl⟩
  · exact ⟨rfl, rfl, rfl⟩

theorem thirdDuplicateAck_recordTimestamp (t : Tcp) (c : TcpConnection) :
    ThirdDuplicateAck t (recordTimestamp t c) ↔ ThirdDuplicateAck t c := by
  unfold recordTimestamp
  split
  · split_ifs
    · exact ThirdDuplicateAck.congr rfl rfl rfl rfl
    · rfl
  · rfl

namespace SegmentFrame

variable {r : Prop} {R : Session → Session → Prop} {t : Tcp} {x : Session}

theorem ackStage (h : SegmentFrame r R) (hr : t.ack → ThirdDuplicateAck t x.conn → r) : R x (x.ackStage t) := by
  refine h.trans (h.record t x) ?_
  unfold Session.ackStage
  dsimp only
  split_ifs with hack
  · obtain ⟨y, hy, hend⟩ := h.handleAck (x := x.modify (recordTimestamp t)) (h.retire t)
      fun hthird => hr hack ((thirdDuplicateAck_recordTimestamp t x.conn).1 hthird)
    exact h.trans hy (h.ends hend)
  · exact h.refl _

theorem handleSynchronized (h : SegmentFrame r R)
    (hr : pawsRejects x.conn t = false → t.ack → ThirdDuplicateAck t x.conn → r) :
    R x (x.handleSynchronized t) := by
  cases hpaws : pawsRejects x.conn t with
  | true =>
    unfold Session.handleSynchronized
    rw [if_pos hpaws]
    exact h.pureAck x
  | false => exact h.trans (h.ackStage (hr hpaws)) (h.rest hpaws)

end SegmentFrame

end TcpIpStack
