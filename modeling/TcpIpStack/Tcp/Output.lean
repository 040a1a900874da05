/-
# A connection that sends

The functions of `src/src/tcp_connection.cpp` that hand segments to the
`_send_segment` callback.  They run on a `Session`: the connection together
with the record of what it has done so far, namely every call of the callback,
every segment it was fed, every state it entered, and three byte streams: what
`send` has accepted, what cumulative acks have retired, what `read` has
returned.  The connection never looks at the record.

A call of the callback is recorded with the connection as it stood at that
moment.  That is what a callback that throws leaves behind: the statements
after the call do not run, and the ones before it are not undone.
-/

import TcpIpStack.Tcp.Bookkeeping

namespace TcpIpStack

/-- Where in the source a call of `_send_segment` stands. -/
inductive CallSite
  | sendFlags
  | pureAck
  | fastRetransmit
  | timeoutRetransmit
  | zeroWindowProbe
  | keepaliveProbe
deriving DecidableEq

/-- One call of `_send_segment`, with the connection and its record as they
stood when it was made. -/
structure Call where
  site : CallSite
  conn : TcpConnection
  entered : List TcpState
  accepted : Bytes
  retired : Bytes
  header : Tcp
  payload : Bytes

/-- The segment a call puts on the wire. -/
def Call.segment (call : Call) : Tcp := call.header.carrying call.payload

/-- A connection and the record of what it has done. -/
structure Session where
  conn : TcpConnection
  sent : List Call := []
  received : List Tcp := []
  entered : List TcpState := []
  accepted : Bytes := []
  retired : Bytes := []
  returned : Bytes := []

namespace Session

/-- Change the connection and nothing else. -/
def modify (f : TcpConnection → TcpConnection) (x : Session) : Session := { x with conn := f x.conn }

/-- `_send_segment(header, payload)`. -/
def sendSegment (site : CallSite) (header : Tcp) (payload : Bytes) (x : Session) : Session :=
  { x with sent := x.sent ++ [⟨site, x.conn, x.entered, x.accepted, x.retired, header, payload⟩] }

/-- `_transition`. -/
def transition (newState : TcpState) (x : Session) : Session :=
  { x with conn := { x.conn with state := newState }, entered := x.entered ++ [newState] }

/-! ### Segments that are tracked -/

/-- The options `_send_flags` puts on a header: everything this stack offers on
a SYN, the timestamp and the SACK report on anything else. -/
def sendOptions (c : TcpConnection) (flags : UInt8) (header : Tcp) : Tcp :=
  if hasFlag flags flagSyn then
    { header with
      mssOption := some c.localMss
      windowScaleOption := some TcpConnection.windowScaleShift
      timestampOption := some (c.nowMs.toUInt32, if c.haveTsRecent then c.tsRecent else 0)
      sackPermittedOption := true }
  else
    { header with
      timestampOption := if c.timestampsNegotiated then some (c.nowMs.toUInt32, c.tsRecent) else none
      sackBlocks := if c.sackPermitted then c.sackBlocksToReport else [] }

/-- `_send_flags`. -/
def sendFlags (flags : UInt8) (payload : Bytes) (includeAck : Bool) (x : Session) : Session :=
  let fullFlags := if includeAck then flags ||| flagAck else flags
  let header := sendOptions x.conn flags (x.conn.buildHeader fullFlags x.conn.sendNext)
  (x.sendSegment .sendFlags header payload).modify (·.recordSent flags fullFlags payload)

/-! ### Acks -/

/-- `_send_pure_ack`. -/
def sendPureAck (x : Session) : Session :=
  let header := sendOptions x.conn 0 (x.conn.buildHeader flagAck x.conn.sendNext)
  (x.sendSegment .pureAck header []).modify
    fun c => { c with ackPending := false, ackDelayMsRemaining := 0 }

/-- `_schedule_or_send_ack`: the second segment in a row forces the ack out. -/
def scheduleOrSendAck (x : Session) : Session :=
  if x.conn.ackPending then x.sendPureAck
  else x.modify fun c =>
    { c with ackPending := true, ackDelayMsRemaining := TcpConnection.delayedAckMs }

/-! ### The send queue -/

/-- The tests of `_send_queued_while_window_allows` on the chunk at the front:
it fits under both windows, and Nagle's rule does not hold it back. -/
def mayDrain (c : TcpConnection) (front : Bytes) : Bool :=
  c.unsackedInFlightBytes.toNat + front.length ≤ (min c.congestion.cwnd c.peerWindow).toNat
    && !(front.length < c.effectiveMss.toNat && 0 < c.unsackedInFlightBytes)

/-- The chunk leaves the queue, then it is sent. -/
def sendFront (front : Bytes) (rest : List Bytes) (x : Session) : Session :=
  (x.modify fun c =>
    { c with sendQueue := rest, sendQueuedBytes := c.sendQueuedBytes - front.length }).sendFlags
      0 front true

/-- The loop of `_send_queued_while_window_allows`.  Each turn shortens the
queue, so `fuel` at its length is enough. -/
def drainLoop : ℕ → Session → Session
  | 0, x => x
  | fuel + 1, x =>
    match x.conn.sendQueue with
    | [] => x
    | front :: rest =>
      if mayDrain x.conn front then drainLoop fuel (x.sendFront front rest) else x

/-- `_send_queued_while_window_allows`. -/
def sendQueuedWhileWindowAllows (x : Session) : Session :=
  (x.drainLoop x.conn.sendQueue.length).modify (·.armOrDisarmPersist)

/-! ### Probes -/

/-- `_send_zero_window_probe`: one byte at `SND.NXT`, not tracked. -/
def sendZeroWindowProbe (x : Session) : Session :=
  match x.conn.sendQueue with
  | [] => x
  | front :: _ =>
    x.sendSegment .zeroWindowProbe (x.conn.buildHeader flagAck x.conn.sendNext) (front.take 1)

/-- `_send_keepalive_probe`: nothing, one before `SND.NXT`, not tracked. -/
def sendKeepaliveProbe (x : Session) : Session :=
  (x.sendSegment .keepaliveProbe (x.conn.buildHeader flagAck (x.conn.sendNext - 1)) []).modify
    fun c =>
      { c with
        keepaliveProbesSent := c.keepaliveProbesSent + 1
        keepaliveProbeMsRemaining := TcpConnection.keepaliveProbeIntervalMs }

/-- `_run_keepalive`. -/
def runKeepalive (elapsedMs : UInt32) (x : Session) : Session :=
  if !x.conn.keepaliveEnabled || x.conn.state ≠ .established then x
  else if 0 < x.conn.keepaliveProbesSent then
    let x := x.modify fun c =>
      { c with
        keepaliveProbeMsRemaining := c.keepaliveProbeMsRemaining - TcpConnection.asInt elapsedMs }
    if 0 < x.conn.keepaliveProbeMsRemaining then x
    else if TcpConnection.keepaliveMaxProbes ≤ x.conn.keepaliveProbesSent then x.transition .closed
    else x.sendKeepaliveProbe
  else
    let x := x.modify fun c =>
      { c with
        keepaliveIdleMsRemaining := c.keepaliveIdleMsRemaining - TcpConnection.asInt elapsedMs }
    if x.conn.keepaliveIdleMsRemaining ≤ 0 then x.sendKeepaliveProbe else x

/-! ### Opening and closing -/

/-- `initiate_connect`: a bare SYN, nothing to acknowledge yet. -/
def initiateConnect (x : Session) : Session :=
  (x.transition .synSent).sendFlags flagSyn [] false

/-- What `accept_incoming_syn` is told about the peer's SYN. -/
structure SynOptions where
  peerIsn : UInt32
  peerMss : UInt16 := 0
  peerSupportsWindowScaling : Bool := false
  peerWindowScale : UInt8 := 0
  peerSupportsTimestamps : Bool := false
  peerTimestamp : UInt32 := 0
  peerPermitsSack : Bool := false
deriving DecidableEq

/-- The assignments of `accept_incoming_syn`. -/
def recordSyn (o : SynOptions) (c : TcpConnection) : TcpConnection :=
  let peerMss := if o.peerMss ≠ 0 then o.peerMss else TcpConnection.defaultPeerMss
  { c with
    sackPermitted := o.peerPermitsSack
    recvNext := o.peerIsn + 1
    peerMss := peerMss
    effectiveMss := min c.localMss peerMss
    windowScalingNegotiated := o.peerSupportsWindowScaling
    peerWindowScale := o.peerWindowScale
    timestampsNegotiated := o.peerSupportsTimestamps
    tsRecent := if o.peerSupportsTimestamps then o.peerTimestamp else c.tsRecent
    haveTsRecent := o.peerSupportsTimestamps || c.haveTsRecent }

/-- `accept_incoming_syn`. -/
def acceptIncomingSyn (o : SynOptions) (x : Session) : Session :=
  ((x.modify (recordSyn o)).transition .synReceived).sendFlags flagSyn [] true

/-- `close`: the FIN waits until everything before it is acknowledged. -/
def close (x : Session) : Session :=
  if x.conn.state ≠ .established ∧ x.conn.state ≠ .closeWait then x
  else if x.conn.inFlight ≠ [] ∨ x.conn.sendQueue ≠ [] then
    x.modify fun c => { c with finRequested := true }
  else
    (x.transition (if x.conn.state = .established then .finWait1 else .lastAck)).sendFlags
      flagFin [] true

end Session
end TcpIpStack
