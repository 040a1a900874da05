/-
# TCP segments

`src/include/tcp.h`: the header fields of a segment, the options this stack
understands (MSS, window scale, SACK-permitted, SACK blocks, timestamps), and
the payload as the next layer.  An option's `_has_…` flag and its value are one
`Option` here.
-/

import TcpIpStack.Wire.Bytes

namespace TcpIpStack

/-- `Tcp::SackBlock`: the half-open range `[start, stop)` of sequence numbers. -/
structure SackBlock where
  start : UInt32
  stop : UInt32
deriving DecidableEq

/-- A TCP segment. -/
structure Tcp where
  srcPort : UInt16
  destPort : UInt16
  sequenceNumber : UInt32
  acknowledgementNumber : UInt32
  dataOffset : UInt8
  cwr : Bool
  ece : Bool
  urg : Bool
  ack : Bool
  psh : Bool
  rst : Bool
  syn : Bool
  fin : Bool
  window : UInt16
  checksum : UInt16
  urgentPtr : UInt16
  mssOption : Option UInt16 := none
  windowScaleOption : Option UInt8 := none
  sackPermittedOption : Bool := false
  sackBlocks : List SackBlock := []
  /-- The pair of the sender's clock and the echo of the receiver's. -/
  timestampOption : Option (UInt32 × UInt32) := none
  nextLayer : Option Bytes := none
deriving DecidableEq

namespace Tcp

def maxSackBlocks : ℕ := 4
def maxSackBlocksWithTimestamp : ℕ := 3

/-- The cap on a window scale shift that is read off the wire. -/
def maxWindowScale : UInt8 := 14

/-- The constructor that takes the eight flags as one byte. -/
def ofFlags (srcPort destPort : UInt16) (sequenceNumber acknowledgementNumber : UInt32)
    (dataOffset tcpFlags : UInt8) (window checksum urgentPtr : UInt16) : Tcp where
  srcPort := srcPort
  destPort := destPort
  sequenceNumber := sequenceNumber
  acknowledgementNumber := acknowledgementNumber
  dataOffset := dataOffset
  cwr := tcpFlags &&& 0x80 != 0
  ece := tcpFlags &&& 0x40 != 0
  urg := tcpFlags &&& 0x20 != 0
  ack := tcpFlags &&& 0x10 != 0
  psh := tcpFlags &&& 0x08 != 0
  rst := tcpFlags &&& 0x04 != 0
  syn := tcpFlags &&& 0x02 != 0
  fin := tcpFlags &&& 0x01 != 0
  window := window
  checksum := checksum
  urgentPtr := urgentPtr

/-- The bytes the segment carries: those of its next layer. -/
def payload (t : Tcp) : Bytes := t.nextLayer.getD []

/-- The header with a payload behind it, if there is one. -/
def carrying (header : Tcp) (payload : Bytes) : Tcp :=
  { header with nextLayer := if payload = [] then none else some payload }

@[simp] theorem payload_carrying (header : Tcp) (data : Bytes) : (header.carrying data).payload = data := by
  unfold carrying payload
  split_ifs with h <;> simp [h]

end Tcp

end TcpIpStack
