/-
# What an event can do

Every event on a session is a sequence of effects, of which there are few: a
segment is acknowledged, a chunk is queued or sent, the window slides, a
payload is delivered or kept for later, a timer moves.  `Effect e s₀` is the
relation of the effects that the event `e` may have on a connection that is in
state `s₀` when it begins, each with the guard the source puts in front of it,
and `Event.run_steps` says that the event does nothing else.  A property of
sessions that every effect keeps is therefore kept by every event, whatever the
timers and the congestion window do.

Timers, clocks and the congestion window are not part of what the effects are
about: `TcpConnection.core` is the connection without them, and a change that
leaves the core alone is the effect `quiet`.
-/

import TcpIpStack.Tcp.Events

namespace TcpIpStack

open TcpConnection

/-- What a segment in flight is on the wire. -/
structure Flight where
  seq : UInt32
  endSeq : UInt32
  flags : UInt8
  payload : Bytes
  sacked : Bool

/-- A segment in flight without its timer and its attempts. -/
def InFlightSegment.flight (s : InFlightSegment) : Flight :=
  ⟨s.seq, s.endSeq, s.flags, s.payload, s.sacked⟩

@[simp] theorem InFlightSegment.flight_seq (s : InFlightSegment) : s.flight.seq = s.seq := rfl
@[simp] theorem InFlightSegment.flight_endSeq (s : InFlightSegment) : s.flight.endSeq = s.endSeq := rfl
@[simp] theorem InFlightSegment.flight_flags (s : InFlightSegment) : s.flight.flags = s.flags := rfl
@[simp] theorem InFlightSegment.flight_payload (s : InFlightSegment) : s.flight.payload = s.payload := rfl
@[simp] theorem InFlightSegment.flight_sacked (s : InFlightSegment) : s.flight.sacked = s.sacked := rfl

/-- A connection without its timers, clocks and congestion window. -/
structure Core where
  state : TcpState
  sendNext : UInt32
  recvNext : UInt32
  flight : List Flight
  unsackedInFlightBytes : UInt32
  sendQueue : List Bytes
  sendQueuedBytes : ℕ
  ackPending : Bool
  sackPermitted : Bool
  timestampsNegotiated : Bool
  localMss : UInt16
  peerMss : UInt16
  effectiveMss : UInt16
  windowScalingNegotiated : Bool
  peerWindowScale : UInt8
  peerWindow : UInt32
  reorderBuffer : OrderedMap UInt32 Bytes
  receiveQueue : List Bytes
  receiveQueuedBytes : ℕ

/-- A connection as its data and options go. -/
def TcpConnection.core (c : TcpConnection) : Core where
  state := c.state
  sendNext := c.sendNext
  recvNext := c.recvNext
  flight := c.inFlight.map InFlightSegment.flight
  unsackedInFlightBytes := c.unsackedInFlightBytes
  sendQueue := c.sendQueue
  sendQueuedBytes := c.sendQueuedBytes
  ackPending := c.ackPending
  sackPermitted := c.sackPermitted
  timestampsNegotiated := c.timestampsNegotiated
  localMss := c.localMss
  peerMss := c.peerMss
  effectiveMss := c.effectiveMss
  windowScalingNegotiated := c.windowScalingNegotiated
  peerWindowScale := c.peerWindowScale
  peerWindow := c.peerWindow
  reorderBuffer := c.reorderBuffer
  receiveQueue := c.receiveQueue
  receiveQueuedBytes := c.receiveQueuedBytes

/-- The states in which `on_segment` looks at the ack. -/
def handlesAcks (state : TcpState) : Prop :=
  state ≠ .synSent ∧ state ≠ .synReceived ∧ state ≠ .closed

/-- The states in which `send` and `close` act. -/
def acceptsData (state : TcpState) : Prop := state = .established ∨ state = .closeWait

/-- The occasions for a pure ack: a segment that arrives past the handshake, the
end of an active open, and a delayed ack that is due. -/
def mayAck (s₀ : TcpState) (c : TcpConnection) : Prop :=
  handlesAcks s₀ ∨ c.state = .established ∨ c.ackPending ∧ c.state ≠ .closed

namespace Session

/-- The FIN of `close`, once nothing is left to send before it. -/
def sendFin (x : Session) : Session :=
  (x.transition (if x.conn.state = .established then .finWait1 else .lastAck)).sendFlags
    flagFin [] true

/-- The window slides, and the state follows if our FIN was acknowledged. -/
def slide (t : Tcp) (x : Session) : Session :=
  match if (x.conn.ackTally t.acknowledgementNumber).finAcked then finAckedState x.conn.state
    else none with
  | some newState => (x.retireAcked t).transition newState
  | none => x.retireAcked t

/-- The receive queue gives up to `maxBytes` to the application. -/
def take (maxBytes : ℕ) (x : Session) : Session :=
  let taken := (takeFromQueue maxBytes x.conn.receiveQueue).1
  { x with
    conn := { x.conn with
      receiveQueue := (takeFromQueue maxBytes x.conn.receiveQueue).2
      receiveQueuedBytes := x.conn.receiveQueuedBytes - taken.length }
    returned := x.returned ++ taken }

/-- The next entry of the reorder buffer is in order now. -/
def unblock (buffered : Bytes) (c : TcpConnection) : TcpConnection :=
  { c with reorderBuffer := c.reorderBuffer.erase c.recvNext }.deliver buffered

end Session

open Session

/-- The effects that the event `e` may have on a connection it finds in state
`s₀`. -/
inductive Effect (e : Event) (s₀ : TcpState) : Session → Session → Prop
  /-- A timer, a clock or the congestion window moves. -/
  | quiet (x c) : x.conn.core = c.core → Effect e s₀ x { x with conn := c }
  | receive (x t) : e = .segment t → Effect e s₀ x { x with received := x.received ++ [t] }
  | ack (x) : mayAck s₀ x.conn → Effect e s₀ x x.sendPureAck
  | holdAck (x) : receivesData x.conn.state → Effect e s₀ x (x.modify fun c => { c with ackPending := true })
  | probe (x front rest) : x.conn.sendQueue = front :: rest → x.conn.inFlight = [] →
      x.conn.state ≠ .closed → x.conn.state ≠ .timeWait →
      Effect e s₀ x (x.sendSegment .zeroWindowProbe (x.conn.buildHeader flagAck x.conn.sendNext)
        (front.take 1))
  | keepalive (x) : x.conn.state = .established →
      Effect e s₀ x (x.sendSegment .keepaliveProbe (x.conn.buildHeader flagAck (x.conn.sendNext - 1)) [])
  | retransmit (x site s) : site = .fastRetransmit ∨ site = .timeoutRetransmit →
      s ∈ x.conn.core.flight → s.sacked = false → x.conn.state ≠ .closed →
      Effect e s₀ x (x.sendSegment site (x.conn.buildHeader s.flags s.seq) s.payload)
  | drain (x t front rest) : e = .segment t → x.conn.sendQueue = front :: rest →
      mayDrain x.conn front → handlesAcks x.conn.state → Effect e s₀ x (x.sendFront front rest)
  | place (x chunk data) : e = .send data → acceptsData x.conn.state → chunk ≠ [] →
      chunk.length ≤ x.conn.effectiveMss.toNat → Effect e s₀ x (x.placeChunk chunk)
  | fin (x) : (∀ data, e ≠ .send data) → acceptsData x.conn.state → x.conn.inFlight = [] →
      x.conn.sendQueue = [] → Effect e s₀ x x.sendFin
  | scoreboard (x t) : e = .segment t → t.ack → handlesAcks x.conn.state →
      Effect e s₀ x (x.modify fun c => (c.applySackBlocks t).1)
  | window (x t) : e = .segment t → t.ack → handlesAcks x.conn.state →
      Effect e s₀ x (x.modify (takeWindow t))
  | slide (x t) : e = .segment t → t.ack → handlesAcks x.conn.state →
      x.conn.peerWindow = t.window.toUInt32 <<< x.conn.peerShift.toUInt32 → Effect e s₀ x (x.slide t)
  | deliver (x t) : e = .segment t → receivesData x.conn.state →
      (x.conn.recvNext - t.sequenceNumber).toNat < t.payload.length →
      Effect e s₀ x (x.modify
        (·.deliver (t.payload.drop (x.conn.recvNext - t.sequenceNumber).toNat)))
  | unblock (x buffered) : receivesData x.conn.state →
      x.conn.reorderBuffer.find? x.conn.recvNext = some buffered →
      Effect e s₀ x (x.modify (unblock buffered))
  | buffer (x t) : e = .segment t → receivesData x.conn.state → t.payload ≠ [] →
      Effect e s₀ x (x.modify (bufferOutOfOrder t.sequenceNumber t.payload))
  | consumeFin (x t) : e = .segment t → t.fin →
      t.sequenceNumber + UInt32.ofNat t.payload.length = x.conn.recvNext →
      handlesAcks s₀ → x.conn.state ≠ .timeWait → Effect e s₀ x x.consumeFin
  | establishActive (x t) : e = .segment t → x.conn.state = .synSent → t.syn → t.ack →
      t.acknowledgementNumber = x.conn.sendNext →
      Effect e s₀ x ((x.modify (recordSynAck t)).transition .established)
  | establishPassive (x t) : e = .segment t → x.conn.state = .synReceived → t.ack →
      t.acknowledgementNumber = x.conn.sendNext →
      Effect e s₀ x ((x.modify (recordHandshakeAck t)).transition .established)
  | abort (x) : Effect e s₀ x (x.transition .closed)
  | take (x maxBytes) : e = .read maxBytes → Effect e s₀ x (x.take maxBytes)
  | lowerMss (x pathMss) : e = .reduceEffectiveMss pathMss →
      Effect e s₀ x (x.modify (reduceEffectiveMss pathMss))

/-- A sequence of effects of one event. -/
def Steps (e : Event) (s₀ : TcpState) : Session → Session → Prop := Relation.ReflTransGen (Effect e s₀)

end TcpIpStack
