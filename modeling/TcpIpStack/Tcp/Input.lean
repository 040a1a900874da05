/-
# A segment arrives

`on_segment` of `src/src/tcp_connection.cpp` with `_handle_ack` and
`_handle_fin`, cut at the branches of the source: the two handshake states, the
duplicate ack, the ack that may retire something, the payload, the FIN.
-/

import TcpIpStack.Tcp.Output

namespace TcpIpStack
namespace Session

open Serial (atOrBefore)

/-! ### `_handle_ack` -/

def countDuplicateAck (c : TcpConnection) : TcpConnection :=
  { c with dupAckCount := c.dupAckCount + 1 }

def clearDuplicateAcks (c : TcpConnection) : TcpConnection := { c with dupAckCount := 0 }

/-- One more duplicate during recovery: a segment has left the network. -/
def inflate (c : TcpConnection) : TcpConnection :=
  { c with congestion := c.congestion.onRecoveryInflate }

/-- The third duplicate ack: the oldest segment the peer has not reported goes
out again. -/
def fastRetransmit (oldest : InFlightSegment) (x : Session) : Session :=
  (x.sendSegment .fastRetransmit (x.conn.buildHeader oldest.flags oldest.seq) oldest.payload).modify
    fun c =>
      { c.updateOldest (TcpConnection.resent c.rtoMs) with
        congestion := c.congestion.onFastRetransmit c.unsackedInFlightBytes
          TcpConnection.dupAckFastRetransmitThreshold
        inFastRecovery := true }

/-- What a duplicate ack sets off, once it is counted. -/
def onDuplicateAck (sackAdvanced : Bool) (x : Session) : Session :=
  if x.conn.dupAckCount = TcpConnection.dupAckFastRetransmitThreshold then
    match x.conn.oldestUnsackedSegment with
    | none => x
    | some oldest => x.fastRetransmit oldest
  else if x.conn.inFastRecovery || sackAdvanced then
    (x.modify inflate).sendQueuedWhileWindowAllows
  else x

/-- The branch of `_handle_ack` for an ack that repeats `SND.UNA` while
something is in flight. -/
def duplicateAck (sackAdvanced : Bool) (x : Session) : Session :=
  (x.modify countDuplicateAck).onDuplicateAck sackAdvanced

/-- The congestion window after an ack that retired something. -/
def afterNewAck (tally : TcpConnection.AckTally) (c : TcpConnection) : TcpConnection :=
  if c.inFastRecovery then
    { c with congestion := c.congestion.onRecoveryEnd, inFastRecovery := false }
  else
    let srttMs := if c.hasRttSample then c.srttScaled / TcpConnection.rtoScale else 0
    { c with congestion := c.congestion.onAck tally.bytesAcked srttMs c.nowMs }

/-- The state the ack of our FIN leads to, where there is one. -/
def finAckedState : TcpState → Option TcpState
  | .finWait1 => some .finWait2
  | .closing => some .timeWait
  | .lastAck => some .closed
  | _ => none

/-- The transition on the ack of our FIN, with the start of the 2 MSL wait. -/
def finAcked (newState : TcpState) (x : Session) : Session :=
  let x := x.transition newState
  if newState = .timeWait then
    x.modify fun c => { c with timeWaitMsRemaining := TcpConnection.timeWaitMs }
  else x

/-- The end of `_handle_ack`: send what fits now, and the FIN that was waiting. -/
def resumeSending (x : Session) : Session :=
  let x := x.sendQueuedWhileWindowAllows
  if x.conn.inFlight = [] ∧ x.conn.sendQueue = [] ∧ x.conn.finRequested then
    (x.modify fun c => { c with finRequested := false }).close
  else x

/-- The loop that retires what the ack covers, and the RTT sample it yields. -/
def retireAcked (segment : Tcp) (x : Session) : Session :=
  let ack := segment.acknowledgementNumber
  { x with
    conn := (x.conn.retire ack).sampleRtt segment (x.conn.ackTally ack)
    retired := x.retired ++ (x.conn.retiredBy ack).flatMap (·.payload) }

/-- An ack that retired nothing can still open the window. -/
def onWindowUpdate (x : Session) : Session :=
  if 0 < x.conn.peerWindow ∧ x.conn.inFlight = [] ∧ x.conn.sendQueue ≠ [] then
    x.sendQueuedWhileWindowAllows
  else x.modify (·.armOrDisarmPersist)

/-- What an ack that retired something leads to. -/
def onNewAck (finWasAcked : Bool) (x : Session) : Session :=
  match if finWasAcked then finAckedState x.conn.state else none with
  | some newState => x.finAcked newState
  | none => x.resumeSending

/-- The branch of `_handle_ack` for any other ack. -/
def advanceAck (segment : Tcp) (x : Session) : Session :=
  let x := x.modify clearDuplicateAcks
  let tally := x.conn.ackTally segment.acknowledgementNumber
  if !tally.ackedAnything then (x.retireAcked segment).onWindowUpdate
  else ((x.retireAcked segment).modify (afterNewAck tally)).onNewAck tally.finAcked

/-- The peer's window, which every ack updates. -/
def takeWindow (segment : Tcp) (c : TcpConnection) : TcpConnection :=
  { c with peerWindow := segment.window.toUInt32 <<< c.peerShift.toUInt32 }

/-- `_handle_ack`. -/
def handleAck (segment : Tcp) (x : Session) : Session :=
  let sackAdvanced := (x.conn.applySackBlocks segment).2
  let x := x.modify fun c => takeWindow segment (c.applySackBlocks segment).1
  if x.conn.inFlight ≠ [] ∧ segment.acknowledgementNumber = x.conn.sndUna then
    x.duplicateAck sackAdvanced
  else x.advanceAck segment

/-! ### `_handle_fin` -/

def advancePastFin (c : TcpConnection) : TcpConnection := { c with recvNext := c.recvNext + 1 }

/-- The FIN sits at `RCV.NXT`: it consumes one sequence number, is acknowledged,
and moves the state. -/
def consumeFin (x : Session) : Session :=
  match x.conn.state with
  | .established => ((x.modify advancePastFin).transition .closeWait).sendPureAck
  | .finWait2 =>
    ((x.modify advancePastFin).sendPureAck.transition .timeWait).modify
      fun c => { c with timeWaitMsRemaining := TcpConnection.timeWaitMs }
  | .finWait1 => (x.modify advancePastFin).sendPureAck.transition .closing
  | _ => x.modify advancePastFin

/-- `_handle_fin`. -/
def handleFin (finSeq : UInt32) (x : Session) : Session :=
  if x.conn.state = .timeWait then
    x.sendPureAck.modify fun c => { c with timeWaitMsRemaining := TcpConnection.timeWaitMs }
  else if finSeq ≠ x.conn.recvNext then x.sendPureAck
  else x.consumeFin

/-! ### `on_segment` -/

/-- A reset: ignored past the handshake when it is outside the window. -/
def handleRst (segment : Tcp) (x : Session) : Session :=
  let pastHandshake := x.conn.state = .established ∨ x.conn.state = .finWait1
    ∨ x.conn.state = .finWait2 ∨ x.conn.state = .closeWait ∨ x.conn.state = .closing
    ∨ x.conn.state = .lastAck
  if pastHandshake ∧ !x.conn.seqInReceiveWindow segment.sequenceNumber then x
  else x.transition .closed

/-- The assignments `SYN_SENT` makes on the SYN-ACK. -/
def recordSynAck (segment : Tcp) (c : TcpConnection) : TcpConnection :=
  let peerMss := segment.mssOption.getD TcpConnection.defaultPeerMss
  let effectiveMss := min c.localMss peerMss
  let peerWindowScale := segment.windowScaleOption.getD 0
  { c with
    recvNext := segment.sequenceNumber + 1
    inFlight := []
    unsackedInFlightBytes := 0
    peerMss := peerMss
    effectiveMss := effectiveMss
    windowScalingNegotiated := segment.windowScaleOption.isSome
    peerWindowScale := peerWindowScale
    sackPermitted := segment.sackPermittedOption
    timestampsNegotiated := segment.timestampOption.isSome
    tsRecent := (segment.timestampOption.map Prod.fst).getD c.tsRecent
    haveTsRecent := segment.timestampOption.isSome || c.haveTsRecent
    peerWindow := segment.window.toUInt32 <<< peerWindowScale.toUInt32
    congestion := c.congestion.onEstablished effectiveMss.toUInt32 }

/-- `SYN_SENT`: only the SYN-ACK for our SYN is of interest. -/
def handleSynSent (segment : Tcp) (x : Session) : Session :=
  if segment.syn && segment.ack && segment.acknowledgementNumber = x.conn.sendNext then
    ((x.modify (recordSynAck segment)).transition .established).sendPureAck
  else x

/-- The assignments `SYN_RECEIVED` makes on the ack of its SYN-ACK. -/
def recordHandshakeAck (segment : Tcp) (c : TcpConnection) : TcpConnection :=
  { c with
    inFlight := []
    unsackedInFlightBytes := 0
    peerWindow := segment.window.toUInt32 <<< c.peerShift.toUInt32
    congestion := c.congestion.onEstablished c.effectiveMss.toUInt32 }

/-- `SYN_RECEIVED`: only the ack of our SYN is of interest. -/
def handleSynReceived (segment : Tcp) (x : Session) : Session :=
  if segment.ack && segment.acknowledgementNumber = x.conn.sendNext then
    (x.modify (recordHandshakeAck segment)).transition .established
  else x

/-- PAWS: the segment's timestamp is older than the newest one accepted. -/
def pawsRejects (c : TcpConnection) (segment : Tcp) : Bool :=
  match c.timestampsNegotiated, segment.timestampOption with
  | true, some (theirs, _) => c.haveTsRecent && atOrBefore theirs c.tsRecent && theirs != c.tsRecent
  | _, _ => false

/-- The timestamp to echo advances with segments that arrive in sequence. -/
def recordTimestamp (segment : Tcp) (c : TcpConnection) : TcpConnection :=
  match c.timestampsNegotiated, segment.timestampOption with
  | true, some (theirs, _) =>
    if !c.haveTsRecent || segment.sequenceNumber = c.recvNext then
      { c with tsRecent := theirs, haveTsRecent := true }
    else c
  | _, _ => c

/-- The states in which the peer may still send data. -/
def receivesData (state : TcpState) : Bool :=
  state = .established || state = .finWait1 || state = .finWait2

/-- An out-of-order segment is kept if there is room and it is not there yet. -/
def bufferOutOfOrder (seq : UInt32) (payload : Bytes) (c : TcpConnection) : TcpConnection :=
  if (c.reorderBuffer.find? seq).isNone && c.seqInReceiveWindow seq then
    { c with reorderBuffer := c.reorderBuffer.insert seq payload, lastOutOfOrderSeq := seq }
  else c

/-- The payload of a segment.  Whether it is ahead of `RCV.NXT` is a plain
comparison of the two sequence numbers. -/
def handlePayload (seq : UInt32) (payload : Bytes) (x : Session) : Session :=
  if seq = x.conn.recvNext then (x.modify (·.deliverAndDrain payload)).scheduleOrSendAck
  else if seq > x.conn.recvNext then (x.modify (bufferOutOfOrder seq payload)).sendPureAck
  else
    let alreadySeen := (x.conn.recvNext - seq).toNat
    let x := if alreadySeen < payload.length then
      x.modify (·.deliverAndDrain (payload.drop alreadySeen)) else x
    x.sendPureAck

/-- The rest of `on_segment`, past the handshake. -/
def handleSynchronized (segment : Tcp) (x : Session) : Session :=
  if pawsRejects x.conn segment then x.sendPureAck
  else
    let x := x.modify (recordTimestamp segment)
    let x := if segment.ack then x.handleAck segment else x
    let x := if receivesData x.conn.state ∧ segment.payload ≠ [] then
      x.handlePayload segment.sequenceNumber segment.payload else x
    if segment.fin then
      x.handleFin (segment.sequenceNumber + UInt32.ofNat segment.payload.length)
    else x

/-- Whatever arrives, the connection is not idle. -/
def noteArrival (segment : Tcp) (x : Session) : Session :=
  { x.modify (·.resetKeepalive) with received := x.received ++ [segment] }

/-- The branches of `on_segment`. -/
def dispatch (segment : Tcp) (x : Session) : Session :=
  if segment.rst then x.handleRst segment
  else match x.conn.state with
    | .synSent => x.handleSynSent segment
    | .synReceived => x.handleSynReceived segment
    | .closed => x
    | _ => x.handleSynchronized segment

/-- `on_segment`. -/
def onSegment (segment : Tcp) (x : Session) : Session := (x.noteArrival segment).dispatch segment

end Session
end TcpIpStack
