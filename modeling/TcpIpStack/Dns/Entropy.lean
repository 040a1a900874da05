/-
# The entropy of the resolver

`siphash_2_4` of `src/src/isn_generator.cpp` and the two streams that `DnsResolver` draws
transaction ids and source ports from.
-/

import TcpIpStack.Wire.Bytes

namespace TcpIpStack

/-- The four words of SipHash. -/
structure SipState where
  v0 : UInt64
  v1 : UInt64
  v2 : UInt64
  v3 : UInt64

/-- `rotate_left` -/
def rotateLeft (value bits : UInt64) : UInt64 := value <<< bits ||| value >>> (64 - bits)

/-- `sip_round` -/
def sipRound (s : SipState) : SipState :=
  let v0 := s.v0 + s.v1
  let v1 := rotateLeft s.v1 13 ^^^ v0
  let v0 := rotateLeft v0 32
  let v2 := s.v2 + s.v3
  let v3 := rotateLeft s.v3 16 ^^^ v2
  let v0 := v0 + v3
  let v3 := rotateLeft v3 21 ^^^ v0
  let v2 := v2 + v1
  let v1 := rotateLeft v1 17 ^^^ v2
  let v2 := rotateLeft v2 32
  ⟨v0, v1, v2, v3⟩

/-- One block: the word goes into `v3`, then two rounds, then into `v0`. -/
def sipBlock (s : SipState) (m : UInt64) : SipState :=
  let s := sipRound (sipRound { s with v3 := s.v3 ^^^ m })
  { s with v0 := s.v0 ^^^ m }

/-- A little-endian word. -/
def sipWord (octets : Bytes) : UInt64 := octets.foldr (fun octet m => m <<< 8 ||| octet.toUInt64) 0

/-- The whole blocks; the octets that are left stand behind. -/
def sipBlocks : ℕ → SipState → Bytes → SipState × Bytes
  | 0, s, data => (s, data)
  | blocks + 1, s, data => sipBlocks blocks (sipBlock s (sipWord (data.take 8))) (data.drop 8)

/-- `siphash_2_4`; the last block carries the length in its top octet. -/
def siphash24 (data : Bytes) (keyLow keyHigh : UInt64) : UInt64 :=
  let s : SipState :=
    ⟨0x736f6d6570736575 ^^^ keyLow, 0x646f72616e646f6d ^^^ keyHigh,
      0x6c7967656e657261 ^^^ keyLow, 0x7465646279746573 ^^^ keyHigh⟩
  let (s, rest) := sipBlocks (data.length / 8) s data
  let s := sipBlock s ((UInt64.ofNat data.length &&& 0xff) <<< 56 ||| sipWord rest)
  let s := sipRound (sipRound (sipRound (sipRound { s with v2 := s.v2 ^^^ 0xff })))
  s.v0 ^^^ s.v1 ^^^ s.v2 ^^^ s.v3

/-- The first reference vector: key `00 … 0f`, no octets. -/
example : siphash24 [] 0x0706050403020100 0x0f0e0d0c0b0a0908 = 0x726fdb47dd0e0e31 := by
  decide +kernel

def idKeyLow : UInt64 := 0x5344cafe12345678
def idKeyHigh : UInt64 := 0x4e53beef9abcdef0
def portKeyLow : UInt64 := 0x504f52541a2b3c4d
def portKeyHigh : UInt64 := 0x444e53005e6f7a8b

/-- `advance` -/
def advance (state : UInt32) (keyLow keyHigh : UInt64) : UInt32 :=
  (siphash24 (intToBytes32 state) keyLow keyHigh).toUInt32

end TcpIpStack
