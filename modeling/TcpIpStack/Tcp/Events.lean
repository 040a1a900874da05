/-
# What can happen to a connection

The application's calls (`send`, `read`, `close` and the settings), the clock
(`on_time_passed`), and an arriving segment, as events on a session.

`send` with an effective MSS of zero never returns, so it is partial here.
Callbacks into the application do not call back into the connection.
-/

import TcpIpStack.Tcp.Input

namespace TcpIpStack
namespace Session

open TcpConnection (asInt)

/-! ### `on_time_passed` -/

/-- The delayed ack is due when its time has run out. -/
def runDelayedAck (elapsedMs : UInt32) (x : Session) : Session :=
  if x.conn.ackPending then
    let x := x.modify fun c =>
      { c with ackDelayMsRemaining := c.ackDelayMsRemaining - asInt elapsedMs }
    if x.conn.ackDelayMsRemaining ≤ 0 then x.sendPureAck else x
  else x

/-- Time passes for the persist timer. -/
def agePersist (elapsedMs : UInt32) (c : TcpConnection) : TcpConnection :=
  { c with persistMsRemaining := c.persistMsRemaining - asInt elapsedMs }

/-- The next probe comes after twice the time, up to a limit. -/
def rearmPersist (c : TcpConnection) : TcpConnection :=
  let backoff := min (c.persistBackoff + 1) TcpConnection.persistMaxBackoffShift
  { c with persistBackoff := backoff, persistMsRemaining := TcpConnection.persistBaseMs * 2 ^ backoff }

/-- The persist timer, which runs while nothing is in flight. -/
def runPersist (elapsedMs : UInt32) (x : Session) : Session :=
  if (agePersist elapsedMs x.conn).persistMsRemaining ≤ 0 then
    (x.modify (agePersist elapsedMs)).sendZeroWindowProbe.modify rearmPersist
  else x.modify (agePersist elapsedMs)

/-- A timeout: the congestion window collapses and the RTO doubles. -/
def backOff (c : TcpConnection) : TcpConnection :=
  { c with
    congestion := c.congestion.onRetransmitTimeout c.unsackedInFlightBytes
    inFastRecovery := false
    dupAckCount := 0
    rtoMs := min (c.rtoMs * 2) TcpConnection.maxRtoMs }

/-- The oldest unsacked segment has timed out: back off and send it again. -/
def retransmitOldest (oldest : InFlightSegment) (x : Session) : Session :=
  let x := x.modify backOff
  (x.sendSegment .timeoutRetransmit (x.conn.buildHeader oldest.flags oldest.seq)
    oldest.payload).modify fun c => c.updateOldest (TcpConnection.resent c.rtoMs)

/-- The countdown of a segment, and its attempts so far. -/
def aged (remaining : ℤ) (attempts : ℕ) (e : InFlightSegment) : InFlightSegment :=
  { e with retransmitMsRemaining := remaining, retransmitAttempts := attempts }

/-- The retransmission timer, which belongs to the oldest unsacked segment. -/
def runRetransmit (elapsedMs : UInt32) (x : Session) : Session :=
  match x.conn.oldestUnsackedSegment with
  | none => x
  | some oldest =>
    let remaining := oldest.retransmitMsRemaining - asInt elapsedMs
    let attempts := oldest.retransmitAttempts
    if 0 < remaining then x.modify (·.updateOldest (aged remaining attempts))
    else if TcpConnection.maxRetransmitAttempts < attempts + 1 then
      (x.modify (·.updateOldest (aged remaining (attempts + 1)))).transition .closed
    else (x.modify (·.updateOldest (aged remaining (attempts + 1)))).retransmitOldest oldest

/-- `on_time_passed`. -/
def onTimePassed (elapsedMs : UInt32) (x : Session) : Session :=
  if x.conn.state = .closed then x
  else
    let x := x.modify fun c => { c with nowMs := c.nowMs + elapsedMs.toUInt64 }
    if x.conn.state = .timeWait then
      let x := x.modify fun c =>
        { c with timeWaitMsRemaining := c.timeWaitMsRemaining - asInt elapsedMs }
      if x.conn.timeWaitMsRemaining ≤ 0 then x.transition .closed else x
    else
      let x := x.runDelayedAck elapsedMs
      if x.conn.inFlight = [] then
        if 0 < x.conn.persistMsRemaining then x.runPersist elapsedMs else x.runKeepalive elapsedMs
      else x.runRetransmit elapsedMs

/-! ### The application's calls -/

/-- `send_space_available`. -/
def sendSpaceAvailable (c : TcpConnection) : ℕ := TcpConnection.sendBufferCapacity - c.sendQueuedBytes

/-- One chunk of `send` must wait: others wait already, Nagle's rule holds it,
or a window is too small for it. -/
def mustQueue (c : TcpConnection) (chunk : Bytes) : Bool :=
  c.sendQueue ≠ [] || (chunk.length < c.effectiveMss.toNat && 0 < c.unsackedInFlightBytes)
    || (min c.congestion.cwnd c.peerWindow).toNat < c.unsackedInFlightBytes.toNat + chunk.length

/-- One turn of the loop of `send`. -/
def placeChunk (chunk : Bytes) (x : Session) : Session :=
  let x := if mustQueue x.conn chunk then
      x.modify fun c =>
        { c with
          sendQueuedBytes := c.sendQueuedBytes + chunk.length
          sendQueue := c.sendQueue ++ [chunk] }
    else x.sendFlags 0 chunk true
  { x with accepted := x.accepted ++ chunk }

/-- The loop of `send` on the bytes that are still to be placed.  Each turn
places at least one byte when the effective MSS is positive, and none when it
is zero: then no `fuel` is enough. -/
def sendLoop : ℕ → Bytes → Session → Option Session
  | 0, rest, x => if rest = [] then some x else none
  | fuel + 1, rest, x =>
    if rest = [] then some x
    else
      let chunkSize := x.conn.effectiveMss.toNat
      sendLoop fuel (rest.drop chunkSize) (x.placeChunk (rest.take chunkSize))

/-- `send`: how much was accepted, and the session after it. -/
def send (data : Bytes) (x : Session) : Option (ℕ × Session) :=
  if x.conn.state ≠ .established ∧ x.conn.state ≠ .closeWait then some (0, x)
  else
    let accepted := min data.length (sendSpaceAvailable x.conn)
    if accepted = 0 then some (0, x)
    else (x.sendLoop accepted (data.take accepted)).map
      fun y => (accepted, y.modify (·.armOrDisarmPersist))

/-- `read`: the bytes taken, and a window update if the window was shut. -/
def read (maxBytes : ℕ) (x : Session) : Session :=
  let windowBefore := x.conn.advertisedWindow
  let taken := (TcpConnection.takeFromQueue maxBytes x.conn.receiveQueue).1
  let x := x.modify fun c =>
    { c with
      receiveQueue := (TcpConnection.takeFromQueue maxBytes c.receiveQueue).2
      receiveQueuedBytes := c.receiveQueuedBytes - taken.length }
  let x := if windowBefore = 0 ∧ 0 < x.conn.advertisedWindow ∧ receivesData x.conn.state then
    x.sendPureAck else x
  { x with returned := x.returned ++ taken }

/-- `reduce_effective_mss`: never upward, never below the RFC 1122 floor. -/
def reduceEffectiveMss (pathMss : UInt16) (c : TcpConnection) : TcpConnection :=
  let candidate := if pathMss < TcpConnection.defaultPeerMss then TcpConnection.defaultPeerMss else pathMss
  if candidate ≥ c.effectiveMss then c else { c with effectiveMss := candidate }

/-- `set_keepalive`. -/
def setKeepalive (enabled : Bool) (c : TcpConnection) : TcpConnection :=
  { c with keepaliveEnabled := enabled }.resetKeepalive

end Session

/-! ### Events and runs -/

/-- What can happen to a connection once it is open. -/
inductive Event
  | segment (t : Tcp)
  | timePassed (elapsedMs : UInt32)
  | send (data : Bytes)
  | read (maxBytes : ℕ)
  | close
  | setKeepalive (enabled : Bool)
  | reduceEffectiveMss (pathMss : UInt16)
  | fail

/-- An event that returns. -/
def Event.run : Event → Session → Option Session
  | .segment t, x => some (x.onSegment t)
  | .timePassed elapsedMs, x => some (x.onTimePassed elapsedMs)
  | .send data, x => (x.send data).map Prod.snd
  | .read maxBytes, x => some (x.read maxBytes)
  | .close, x => some x.close
  | .setKeepalive enabled, x => some (x.modify (Session.setKeepalive enabled))
  | .reduceEffectiveMss pathMss, x => some (x.modify (Session.reduceEffectiveMss pathMss))
  | .fail, x => some (x.transition .closed)

/-- The two ways a connection is opened. -/
inductive Opener
  | active
  | passive (options : Session.SynOptions)

def Opener.run : Opener → Session → Session
  | .active, x => x.initiateConnect
  | .passive options, x => x.acceptIncomingSyn options

/-- A fresh connection, nothing done yet. -/
def Session.fresh (localPort remotePort : UInt16) (initialSeq : UInt32) (localMss : UInt16)
    (algorithm : CongestionControlAlgorithm) : Session :=
  { conn := TcpConnection.new localPort remotePort initialSeq localMss algorithm }

end TcpIpStack
