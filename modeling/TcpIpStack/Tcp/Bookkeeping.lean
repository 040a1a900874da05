/-
# Bookkeeping without sending

The parts of `src/src/tcp_connection.cpp` that change the connection and call
nobody: recording a segment that went out, the SACK scoreboard, retiring what a
cumulative ack covers, the RTO estimator (RFC 6298), the persist and keepalive
timers, and the delivery of data into the receive queue.
-/

import TcpIpStack.Tcp.Connection

namespace TcpIpStack
namespace TcpConnection

open Serial (atOrBefore)

/-! ### The segments in flight -/

/-- The end of `_send_flags`: the pending ack has been carried, `SND.NXT` moves
past what was sent, and the segment joins the window. -/
def recordSent (flags fullFlags : UInt8) (payload : Bytes) (c : TcpConnection) : TcpConnection :=
  let consumed := payload.length + (if hasFlag flags flagSyn then 1 else 0)
    + (if hasFlag flags flagFin then 1 else 0)
  let endSeq := c.sendNext + UInt32.ofNat consumed
  let entry : InFlightSegment :=
    { seq := c.sendNext, endSeq := endSeq, flags := fullFlags, payload := payload,
      retransmitMsRemaining := c.rtoMs, retransmitAttempts := 0, sentAtMs := c.nowMs,
      sacked := false, retransmitted := false }
  { c with
    ackPending := false, ackDelayMsRemaining := 0, sendNext := endSeq
    unsackedInFlightBytes := c.unsackedInFlightBytes + entry.size
    inFlight := c.inFlight ++ [entry] }

/-- The block covers a segment that is not marked yet. -/
def newlyCovers (block : SackBlock) (e : InFlightSegment) : Bool :=
  !e.sacked && (atOrBefore block.start e.seq && atOrBefore e.endSeq block.stop)

/-- The mark that `_apply_sack_blocks` sets. -/
def markCovered (block : SackBlock) (e : InFlightSegment) : InFlightSegment :=
  if newlyCovers block e then { e with sacked := true } else e

/-- A newly covered segment no longer counts as travelling. -/
def uncount (block : SackBlock) (bytes : UInt32) (e : InFlightSegment) : UInt32 :=
  if newlyCovers block e then bytes - e.size else bytes

/-- The inner loop of `_apply_sack_blocks`: one block against the whole window. -/
def applySackBlock (c : TcpConnection) (block : SackBlock) : TcpConnection :=
  { c with
    inFlight := c.inFlight.map (markCovered block)
    unsackedInFlightBytes := c.inFlight.foldl (uncount block) c.unsackedInFlightBytes }

/-- `_apply_sack_blocks`: the scoreboard after the segment's report, and whether
anything was newly marked. -/
def applySackBlocks (segment : Tcp) (c : TcpConnection) : TcpConnection × Bool :=
  if !c.sackPermitted then (c, false)
  else segment.sackBlocks.foldl
    (fun acc block => (acc.1.applySackBlock block, acc.2 || acc.1.inFlight.any (newlyCovers block)))
    (c, false)

/-- `_oldest_unsacked_segment`. -/
def oldestUnsackedSegment (c : TcpConnection) : Option InFlightSegment :=
  c.inFlight.find? fun e => !e.sacked

/-- Assign through the pointer `_oldest_unsacked_segment` returns. -/
def updateOldestUnsacked (f : InFlightSegment → InFlightSegment) :
    List InFlightSegment → List InFlightSegment
  | [] => []
  | e :: rest => if e.sacked then e :: updateOldestUnsacked f rest else f e :: rest

/-- The change, made to the oldest segment the peer has not reported. -/
def updateOldest (f : InFlightSegment → InFlightSegment) (c : TcpConnection) : TcpConnection :=
  { c with inFlight := updateOldestUnsacked f c.inFlight }

/-- What a retransmission leaves on the segment: no RTT sample may come from it
any more, and its countdown starts again. -/
def resent (rtoMs : ℤ) (e : InFlightSegment) : InFlightSegment :=
  { e with retransmitted := true, retransmitMsRemaining := rtoMs }

/-- `SND.UNA`. -/
def sndUna (c : TcpConnection) : UInt32 :=
  match c.inFlight with
  | [] => c.sendNext
  | front :: _ => front.seq

/-- The locals of the loop in `_handle_ack` that retires segments. -/
structure AckTally where
  bytesAcked : UInt32 := 0
  finAcked : Bool := false
  rttSampleMs : Option UInt32 := none
  ackedAnything : Bool := false
  unsackedBytes : UInt32

/-- One segment off the front.  A segment that was sent twice gives no sample
(Karn's rule); of the others the newest one wins. -/
def AckTally.add (nowMs : UInt64) (t : AckTally) (e : InFlightSegment) : AckTally where
  bytesAcked := t.bytesAcked + e.size
  finAcked := t.finAcked || hasFlag e.flags flagFin
  rttSampleMs := if e.retransmitted then t.rttSampleMs else some (nowMs - e.sentAtMs).toUInt32
  ackedAnything := true
  unsackedBytes := if e.sacked then t.unsackedBytes else t.unsackedBytes - e.size

/-- The cumulative ack covers the segment. -/
def coveredBy (ack : UInt32) (e : InFlightSegment) : Bool := atOrBefore e.endSeq ack

/-- What the loop takes off the front. -/
def retiredBy (ack : UInt32) (c : TcpConnection) : List InFlightSegment :=
  c.inFlight.takeWhile (coveredBy ack)

/-- What the loop of `_handle_ack` has counted when it stops. -/
def ackTally (ack : UInt32) (c : TcpConnection) : AckTally :=
  (c.retiredBy ack).foldl (AckTally.add c.nowMs) { unsackedBytes := c.unsackedInFlightBytes }

/-- The connection after the loop. -/
def retire (ack : UInt32) (c : TcpConnection) : TcpConnection :=
  { c with
    inFlight := c.inFlight.dropWhile (coveredBy ack)
    unsackedInFlightBytes := (c.ackTally ack).unsackedBytes }

/-! ### The RTO estimator -/

/-- `_update_rto_from_sample`. -/
def updateRtoFromSample (rttMs : UInt32) (c : TcpConnection) : TcpConnection :=
  let rttMs := if rttMs < rtoClockGranularityMs then rtoClockGranularityMs else rttMs
  let sampleScaled := rttMs * rtoScale
  let (srtt, rttvar) :=
    if !c.hasRttSample then (sampleScaled, sampleScaled / 2)
    else
      let error := if sampleScaled > c.srttScaled then sampleScaled - c.srttScaled
        else c.srttScaled - sampleScaled
      (c.srttScaled - (c.srttScaled >>> rttSmoothingShift) + (sampleScaled >>> rttSmoothingShift),
        c.rttvarScaled - (c.rttvarScaled >>> rttVarianceShift) + (error >>> rttVarianceShift))
  let varianceTerm := max (rtoClockGranularityMs * rtoScale) (rtoVarianceMultiplier * rttvar)
  let rtoScaled := srtt + varianceTerm
  let rto : ℤ := ((rtoScaled + rtoScale - 1) / rtoScale).toNat
  { c with
    srttScaled := srtt, rttvarScaled := rttvar, hasRttSample := true
    rtoMs := min (max rto minRtoMs) maxRtoMs }

/-- The sample `_handle_ack` feeds the estimator: the echoed timestamp where
there is one, the ack clock otherwise. -/
def sampleRtt (segment : Tcp) (tally : AckTally) (c : TcpConnection) : TcpConnection :=
  match c.timestampsNegotiated && tally.ackedAnything, segment.timestampOption with
  | true, some (_, echo) =>
    if echo ≠ 0 ∧ atOrBefore echo c.nowMs.toUInt32 then c.updateRtoFromSample (c.nowMs.toUInt32 - echo)
    else c
  | _, _ =>
    match tally.rttSampleMs with
    | some sample => c.updateRtoFromSample sample
    | none => c

/-! ### The timers -/

/-- `_arm_or_disarm_persist`. -/
def armOrDisarmPersist (c : TcpConnection) : TcpConnection :=
  if c.peerWindow = 0 ∧ c.sendQueue ≠ [] ∧ c.inFlight = [] then
    -- a timer that is running is never restarted
    if c.persistMsRemaining = 0 then
      { c with persistBackoff := 0, persistMsRemaining := persistBaseMs }
    else c
  else { c with persistMsRemaining := 0, persistBackoff := 0 }

/-- `_reset_keepalive`. -/
def resetKeepalive (c : TcpConnection) : TcpConnection :=
  { c with
    keepaliveIdleMsRemaining := keepaliveIdleMs, keepaliveProbeMsRemaining := 0
    keepaliveProbesSent := 0 }

/-- `static_cast<int>(elapsed_ms)`. -/
def asInt (elapsedMs : UInt32) : ℤ := elapsedMs.toInt32.toInt

/-- An elapsed time below `2^31` counts as itself. -/
theorem asInt_of_lt {elapsedMs : UInt32} (h : elapsedMs.toNat < 2 ^ 31) :
    asInt elapsedMs = elapsedMs.toNat := by
  have hint : elapsedMs.toInt32.toInt = elapsedMs.toBitVec.toInt := rfl
  rw [asInt, hint, BitVec.toInt_eq_toNat_cond, UInt32.toNat_toBitVec, if_pos (by omega)]

/-! ### Delivery -/

/-- `_deliver`: the bytes are acknowledged, and wait to be read. -/
def deliver (payload : Bytes) (c : TcpConnection) : TcpConnection :=
  { c with
    recvNext := c.recvNext + UInt32.ofNat payload.length
    receiveQueue := c.receiveQueue ++ [payload]
    receiveQueuedBytes := c.receiveQueuedBytes + payload.length }

/-- The loop that delivers what is now contiguous.  Each turn takes an entry out
of the buffer, so `fuel` at the number of entries is enough. -/
def drainReorderBuffer : ℕ → TcpConnection → TcpConnection
  | 0, c => c
  | fuel + 1, c =>
    match c.reorderBuffer.find? c.recvNext with
    | none => c
    | some buffered =>
      drainReorderBuffer fuel
        ({ c with reorderBuffer := c.reorderBuffer.erase c.recvNext }.deliver buffered)

/-- A delivery, and whatever it unblocks. -/
def deliverAndDrain (payload : Bytes) (c : TcpConnection) : TcpConnection :=
  let c := c.deliver payload
  c.drainReorderBuffer c.reorderBuffer.entries.length

/-- The loop of `read`: the bytes taken from the queue, and what is left of it. -/
def takeFromQueue : ℕ → List Bytes → Bytes × List Bytes
  | _, [] => ([], [])
  | room, front :: rest =>
    if room = 0 then ([], front :: rest)
    else if front.length ≤ room then
      let (taken, left) := takeFromQueue (room - front.length) rest
      (front ++ taken, left)
    else (front.take room, front.drop room :: rest)

end TcpConnection
end TcpIpStack
