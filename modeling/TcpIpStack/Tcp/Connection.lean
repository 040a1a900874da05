/-
# The state of a TCP connection

`src/include/tcp_connection.h`: the states of RFC 793, the segments in flight,
and the members of `TcpConnection`; and from `src/src/tcp_connection.cpp` the
functions that only read the connection or compute on it without sending
anything: the advertised window, the header every segment starts from, the SACK
report, the SACK scoreboard, the RTO estimator.

Sequence numbers, windows and byte counts of the source's `uint32_t` are
`UInt32` and wrap.  `size_t` counters are `ℕ`, and the `int` countdowns are `ℤ`.
`_remote_ip` and the connection's id are not used by any of these functions and
are left out, as are the callbacks: what a connection sends and which states it
enters is recorded by the session that runs it.
-/

import TcpIpStack.Lib.Serial
import TcpIpStack.Lib.OrderedMap
import TcpIpStack.Wire.Tcp
import TcpIpStack.Tcp.CongestionControl

namespace TcpIpStack

open Serial (atOrBefore)

/-- `TcpState`. -/
inductive TcpState
  | listen
  | synSent
  | synReceived
  | established
  | finWait1
  | finWait2
  | closeWait
  | closing
  | lastAck
  | timeWait
  | closed
deriving DecidableEq

def flagAck : UInt8 := 0x10
def flagRst : UInt8 := 0x04
def flagSyn : UInt8 := 0x02
def flagFin : UInt8 := 0x01

/-- `flags & mask` as a condition. -/
def hasFlag (flags mask : UInt8) : Bool := flags &&& mask != 0

@[simp] theorem hasFlag_zero_syn : hasFlag 0 flagSyn = false := by decide
@[simp] theorem hasFlag_zero_fin : hasFlag 0 flagFin = false := by decide
@[simp] theorem hasFlag_syn_syn : hasFlag flagSyn flagSyn = true := by decide
@[simp] theorem hasFlag_synAck_syn : hasFlag (flagSyn ||| flagAck) flagSyn = true := by decide
@[simp] theorem hasFlag_syn_fin : hasFlag flagSyn flagFin = false := by decide
@[simp] theorem hasFlag_fin_syn : hasFlag flagFin flagSyn = false := by decide
@[simp] theorem hasFlag_fin_fin : hasFlag flagFin flagFin = true := by decide
@[simp] theorem hasFlag_ack_fin : hasFlag flagAck flagFin = false := by decide
@[simp] theorem hasFlag_finAck_fin : hasFlag (flagFin ||| flagAck) flagFin = true := by decide

/-- `TcpConnection::InFlightSegment`: a segment sent and not yet acknowledged.
`endSeq` is `seq` plus the sequence numbers it consumed. -/
structure InFlightSegment where
  seq : UInt32
  endSeq : UInt32
  flags : UInt8
  payload : Bytes
  retransmitMsRemaining : ℤ
  retransmitAttempts : ℕ
  sentAtMs : UInt64
  sacked : Bool
  retransmitted : Bool
deriving DecidableEq

/-- The sequence numbers a segment in flight takes up. -/
def InFlightSegment.size (e : InFlightSegment) : UInt32 := e.endSeq - e.seq

/-- The members of `TcpConnection`. -/
structure TcpConnection where
  localPort : UInt16
  remotePort : UInt16
  state : TcpState
  /-- `SND.NXT`, the next sequence number to send. -/
  sendNext : UInt32
  /-- `RCV.NXT`, the next sequence number expected. -/
  recvNext : UInt32
  /-- The sliding window, oldest first: its front is `SND.UNA`. -/
  inFlight : List InFlightSegment
  unsackedInFlightBytes : UInt32
  sendQueue : List Bytes
  sendQueuedBytes : ℕ
  finRequested : Bool
  timeWaitMsRemaining : ℤ
  nowMs : UInt64
  srttScaled : UInt32
  rttvarScaled : UInt32
  hasRttSample : Bool
  rtoMs : ℤ
  persistMsRemaining : ℤ
  persistBackoff : ℕ
  ackPending : Bool
  ackDelayMsRemaining : ℤ
  keepaliveEnabled : Bool
  keepaliveIdleMsRemaining : ℤ
  keepaliveProbeMsRemaining : ℤ
  keepaliveProbesSent : ℕ
  sackPermitted : Bool
  lastOutOfOrderSeq : UInt32
  timestampsNegotiated : Bool
  tsRecent : UInt32
  haveTsRecent : Bool
  localMss : UInt16
  peerMss : UInt16
  effectiveMss : UInt16
  windowScalingNegotiated : Bool
  peerWindowScale : UInt8
  /-- `SND.WND`, shifted by the peer's scale. -/
  peerWindow : UInt32
  /-- Out-of-order segments by sequence number. -/
  reorderBuffer : OrderedMap UInt32 Bytes
  congestion : CongestionControl
  dupAckCount : UInt32
  inFastRecovery : Bool
  /-- In-order data the application has not read yet. -/
  receiveQueue : List Bytes
  receiveQueuedBytes : ℕ

namespace TcpConnection

def sendBufferCapacity : ℕ := 131072
def receiveBufferCapacity : UInt32 := 131072
def defaultPeerMss : UInt16 := 536
def windowScaleShift : UInt8 := 1
def dupAckFastRetransmitThreshold : UInt32 := 3
def initialRtoMs : ℤ := 1000
def rtoScale : UInt32 := 8
def rttSmoothingShift : UInt32 := 3
def rttVarianceShift : UInt32 := 2
def rtoVarianceMultiplier : UInt32 := 4
def rtoClockGranularityMs : UInt32 := 100
def minRtoMs : ℤ := 200
def maxRtoMs : ℤ := 60000
def maxRetransmitAttempts : ℕ := 5
def timeWaitMs : ℤ := 60000
def persistBaseMs : ℤ := 1000
def persistMaxBackoffShift : ℕ := 5
def delayedAckMs : ℤ := 200
def keepaliveIdleMs : ℤ := 7200000
def keepaliveProbeIntervalMs : ℤ := 75000
def keepaliveMaxProbes : ℕ := 9

/-- The constructor: a connection in `LISTEN` with the given first sequence
number and MSS. -/
def new (localPort remotePort : UInt16) (initialSeq : UInt32) (localMss : UInt16)
    (algorithm : CongestionControlAlgorithm) : TcpConnection where
  localPort := localPort
  remotePort := remotePort
  state := .listen
  sendNext := initialSeq
  recvNext := 0
  inFlight := []
  unsackedInFlightBytes := 0
  sendQueue := []
  sendQueuedBytes := 0
  finRequested := false
  timeWaitMsRemaining := 0
  nowMs := 1
  srttScaled := 0
  rttvarScaled := 0
  hasRttSample := false
  rtoMs := initialRtoMs
  persistMsRemaining := 0
  persistBackoff := 0
  ackPending := false
  ackDelayMsRemaining := 0
  keepaliveEnabled := false
  keepaliveIdleMsRemaining := keepaliveIdleMs
  keepaliveProbeMsRemaining := 0
  keepaliveProbesSent := 0
  sackPermitted := false
  lastOutOfOrderSeq := 0
  timestampsNegotiated := false
  tsRecent := 0
  haveTsRecent := false
  localMss := localMss
  peerMss := defaultPeerMss
  effectiveMss := min localMss defaultPeerMss
  windowScalingNegotiated := false
  peerWindowScale := 0
  peerWindow := localMss.toUInt32
  reorderBuffer := .empty
  congestion := (CongestionControl.make algorithm).onEstablished localMss.toUInt32
  dupAckCount := 0
  inFastRecovery := false
  receiveQueue := []
  receiveQueuedBytes := 0

/-! ### The receive window and the header -/

/-- `_receive_buffer_occupied`: what is buffered out of order or not read yet. -/
def receiveBufferOccupied (c : TcpConnection) : UInt32 :=
  c.reorderBuffer.entries.foldl (fun occupied entry => occupied + UInt32.ofNat entry.2.length) 0
    + UInt32.ofNat c.receiveQueuedBytes

/-- `_advertised_window`. -/
def advertisedWindow (c : TcpConnection) : UInt32 :=
  if c.receiveBufferOccupied < receiveBufferCapacity
  then receiveBufferCapacity - c.receiveBufferOccupied else 0

/-- `_seq_in_receive_window`. -/
def seqInReceiveWindow (c : TcpConnection) (seq : UInt32) : Bool :=
  if c.advertisedWindow = 0 then seq = c.recvNext else seq - c.recvNext < c.advertisedWindow

/-- The shift this side applies to the windows it advertises. -/
def ourShift (c : TcpConnection) : UInt8 := if c.windowScalingNegotiated then windowScaleShift else 0

/-- The shift this side applies to the windows the peer advertises. -/
def peerShift (c : TcpConnection) : UInt8 := if c.windowScalingNegotiated then c.peerWindowScale else 0

/-- `_build_header`: no options, the current `RCV.NXT` and window. -/
def buildHeader (c : TcpConnection) (flags : UInt8) (seq : UInt32) : Tcp :=
  let windowValue := min (c.advertisedWindow >>> c.ourShift.toUInt32) 0xFFFF
  Tcp.ofFlags c.localPort c.remotePort seq c.recvNext 5 flags windowValue.toUInt16 0 0

/-! ### The SACK report -/

/-- One entry of the reorder buffer on the way to the report: it extends the
last block if it starts where that one ends. -/
def pushBlock (blocks : List SackBlock) (entry : UInt32 × Bytes) : List SackBlock :=
  let start := entry.1
  let stop := start + UInt32.ofNat entry.2.length
  match blocks.getLast? with
  | some last =>
    if last.stop = start then blocks.dropLast ++ [{ last with stop := stop }]
    else blocks ++ [⟨start, stop⟩]
  | none => [⟨start, stop⟩]

/-- `std::swap(blocks[0], blocks[i])`. -/
def swapToFront (blocks : List SackBlock) (i : ℕ) : List SackBlock :=
  match blocks[0]?, blocks[i]? with
  | some first, some chosen => (blocks.set 0 chosen).set i first
  | _, _ => blocks

/-- The block of the most recent arrival goes first.  The test is a plain
comparison of the sequence numbers. -/
def mostRecentFirst (recent : UInt32) (blocks : List SackBlock) : List SackBlock :=
  match blocks.findIdx? (fun b => b.start ≤ recent && recent < b.stop) with
  | some i => swapToFront blocks i
  | none => blocks

/-- `_sack_blocks_to_report`. -/
def sackBlocksToReport (c : TcpConnection) : List SackBlock :=
  let blocks := c.reorderBuffer.entries.foldl pushBlock []
  let blocks := if blocks.length > 1 then mostRecentFirst c.lastOutOfOrderSeq blocks else blocks
  blocks.take (if c.timestampsNegotiated then Tcp.maxSackBlocksWithTimestamp else Tcp.maxSackBlocks)

end TcpConnection

end TcpIpStack
