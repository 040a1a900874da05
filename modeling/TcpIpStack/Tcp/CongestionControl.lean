/-
# Congestion control

`src/include/congestion_control.h` and `src/src/congestion_control.cpp`.  The
base class owns the window and everything the two algorithms agree on; what
they disagree on, the cut on congestion and the growth past `ssthresh`, are its
two virtual functions, and `algorithm` selects between them here.  The state
that only CUBIC has is kept beside the base fields; Reno never touches it.

CUBIC computes in `double`, which is `Float` here.  `Float` has no theory, so
nothing is proved about the values its curve takes; every theorem that holds
for an arbitrary window still covers it.
-/

import Mathlib

namespace TcpIpStack

/-- `CongestionControlAlgorithm`. -/
inductive CongestionControlAlgorithm
  | reno
  | cubic
deriving DecidableEq

/-- The private members of `CubicCongestionControl`: the curve and its epoch. -/
structure CubicState where
  wMax : Float
  wLastMax : Float
  k : Float
  wEst : Float
  epochStartMs : UInt64
  epochRunning : Bool

/-- `CongestionControl`: the window, its threshold and the segment size both are
counted in. -/
structure CongestionControl where
  algorithm : CongestionControlAlgorithm
  cwnd : UInt32
  ssthresh : UInt32
  mss : UInt32
  cubic : CubicState

namespace CongestionControl

def initialSsthresh : UInt32 := 65536
def maxCwnd : UInt32 := (1 : UInt32) <<< 30

/-- `RenoCongestionControl::_on_congestion_event`. -/
def renoOnCongestionEvent (bytesInFlight : UInt32) (g : CongestionControl) : CongestionControl :=
  { g with ssthresh := max (bytesInFlight / 2) (2 * g.mss) }

/-- `RenoCongestionControl::_grow_in_congestion_avoidance`. -/
def renoGrowInCongestionAvoidance (bytesAcked : UInt32) (g : CongestionControl) :
    CongestionControl :=
  { g with cwnd := g.cwnd + max 1 (g.mss * bytesAcked / g.cwnd) }

/-! ### CUBIC -/

/-- `CubicCongestionControl::C`. -/
def cubicC : Float := 0.4

/-- `CubicCongestionControl::BETA`. -/
def cubicBeta : Float := 0.7

def cubicInitial : CubicState :=
  { wMax := 0, wLastMax := 0, k := 0, wEst := 0, epochStartMs := 0, epochRunning := false }

/-- `_window_in_segments`: at least one segment. -/
def windowInSegments (g : CongestionControl) : Float :=
  let segments := g.cwnd.toFloat / g.mss.toFloat
  if segments < 1 then 1 else segments

/-- `CubicCongestionControl::_on_congestion_event`. -/
def cubicOnCongestionEvent (g : CongestionControl) : CongestionControl :=
  let cwndSegments := g.windowInSegments
  let wMax :=
    if cwndSegments < g.cubic.wLastMax then cwndSegments * (1 + cubicBeta) / 2 else cwndSegments
  let reduced := (cwndSegments * cubicBeta * g.mss.toFloat).toUInt32
  { g with
    cubic := { g.cubic with epochRunning := false, wLastMax := cwndSegments, wMax := wMax }
    ssthresh := max reduced (2 * g.mss) }

/-- The start of an epoch: the first acknowledgement after a congestion event
fixes where the curve begins. -/
def cubicStartEpoch (nowMs : UInt64) (g : CongestionControl) : CubicState :=
  let cwndSegments := g.windowInSegments
  if g.cubic.epochRunning then g.cubic
  else
    let started :=
      { g.cubic with epochRunning := true, epochStartMs := nowMs, wEst := cwndSegments }
    if cwndSegments < g.cubic.wMax then
      { started with k := Float.cbrt ((g.cubic.wMax - cwndSegments) / cubicC) }
    else { started with k := 0, wMax := cwndSegments }

/-- `CubicCongestionControl::_grow_in_congestion_avoidance`. -/
def cubicGrowInCongestionAvoidance (bytesAcked srttMs : UInt32) (nowMs : UInt64)
    (g : CongestionControl) : CongestionControl :=
  let cwndSegments := g.windowInSegments
  let q := g.cubicStartEpoch nowMs
  let t := (nowMs - q.epochStartMs).toFloat / 1000
  let rtt := srttMs.toFloat / 1000
  let offset := (t + rtt) - q.k
  let wEst := q.wEst + (3 * (1 - cubicBeta) / (1 + cubicBeta))
    * (bytesAcked.toFloat / g.mss.toFloat) / cwndSegments
  let curve := q.wMax + cubicC * offset * offset * offset
  let target := if curve < wEst then wEst else curve
  let growthSegments :=
    if target > cwndSegments then (target - cwndSegments) / cwndSegments else 0.01 / cwndSegments
  let growth := growthSegments * g.mss.toFloat
  -- capped at the window itself: one acknowledgement at most doubles it
  let growthBytes := if g.cwnd.toFloat < growth then g.cwnd.toFloat else growth
  { g with cubic := { q with wEst := wEst }, cwnd := g.cwnd + max 1 growthBytes.toUInt32 }

/-! ### The shared machinery -/

/-- The virtual `_on_congestion_event`. -/
def onCongestionEvent (bytesInFlight : UInt32) (g : CongestionControl) : CongestionControl :=
  match g.algorithm with
  | .reno => g.renoOnCongestionEvent bytesInFlight
  | .cubic => g.cubicOnCongestionEvent

/-- The virtual `_grow_in_congestion_avoidance`. -/
def growInCongestionAvoidance (bytesAcked srttMs : UInt32) (nowMs : UInt64)
    (g : CongestionControl) : CongestionControl :=
  match g.algorithm with
  | .reno => g.renoGrowInCongestionAvoidance bytesAcked
  | .cubic => g.cubicGrowInCongestionAvoidance bytesAcked srttMs nowMs

/-- `on_established`, with `_on_reset` (empty in Reno). -/
def onEstablished (mss : UInt32) (g : CongestionControl) : CongestionControl :=
  { g with mss := mss, cwnd := mss, ssthresh := initialSsthresh, cubic := cubicInitial }

/-- `on_ack`: slow start below the threshold, the algorithm's own law above. -/
def onAck (bytesAcked srttMs : UInt32) (nowMs : UInt64) (g : CongestionControl) :
    CongestionControl :=
  let g :=
    if g.cwnd < g.ssthresh then { g with cwnd := g.cwnd + bytesAcked }
    else g.growInCongestionAvoidance bytesAcked srttMs nowMs
  { g with cwnd := min g.cwnd maxCwnd }

/-- `on_fast_retransmit`. -/
def onFastRetransmit (bytesInFlight duplicateAcks : UInt32) (g : CongestionControl) :
    CongestionControl :=
  let g := g.onCongestionEvent bytesInFlight
  { g with cwnd := min (g.ssthresh + duplicateAcks * g.mss) maxCwnd }

/-- `on_retransmit_timeout`. -/
def onRetransmitTimeout (bytesInFlight : UInt32) (g : CongestionControl) : CongestionControl :=
  let g := g.onCongestionEvent bytesInFlight
  { g with cwnd := g.mss }

/-- `on_recovery_inflate`. -/
def onRecoveryInflate (g : CongestionControl) : CongestionControl :=
  { g with cwnd := min (g.cwnd + g.mss) maxCwnd }

/-- `on_recovery_end`. -/
def onRecoveryEnd (g : CongestionControl) : CongestionControl := { g with cwnd := g.ssthresh }

/-- `make_congestion_control`. -/
def make (algorithm : CongestionControlAlgorithm) : CongestionControl :=
  { algorithm := algorithm, cwnd := 0, ssthresh := 0, mss := 0, cubic := cubicInitial }

end CongestionControl

end TcpIpStack
