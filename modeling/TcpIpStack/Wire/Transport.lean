/-
# UDP and ICMP

`src/src/udp.cpp` and `src/src/icmp.cpp`.  A UDP datagram has to be as long as
its length field says; an ICMP message has four octets whose meaning depends on
its type, and a checksum over all of it.
-/

import TcpIpStack.Wire.Checksum

namespace TcpIpStack

/-- A UDP datagram. -/
structure Udp where
  srcPort : UInt16
  destPort : UInt16
  length : UInt16
  checksum : UInt16
  nextLayer : Option Bytes
deriving DecidableEq

namespace Udp

/-- The constructor that takes the fields: an empty payload is no layer. -/
def ofData (srcPort destPort length checksum : UInt16) (data : Bytes) : Udp :=
  ⟨srcPort, destPort, length, checksum, if data = [] then none else some data⟩

/-- The bytes of the next layer. -/
def payload (u : Udp) : Bytes := u.nextLayer.getD []

/-- `from_bytes`: there is a next layer even when it is empty. -/
def fromBytes (data : Bytes) : Except String Udp := do
  let srcPort ← sliceInt16 data 0
  let destPort ← sliceInt16 data 2
  let length ← sliceInt16 data 4
  let checksum ← sliceInt16 data 6
  let payload ← sliceFrom data 8
  if length.toNat ≠ data.length then throw "Invalid UDP header size"
  return ⟨srcPort, destPort, length, checksum, some payload⟩

/-- `to_bytes`. -/
def toBytes (u : Udp) : Bytes :=
  intToBytes16 u.srcPort ++ (intToBytes16 u.destPort ++ (intToBytes16 u.length ++
    (intToBytes16 u.checksum ++ u.payload)))

@[simp] theorem payload_ofData (srcPort destPort length checksum : UInt16) (data : Bytes) :
    (ofData srcPort destPort length checksum data).payload = data := by
  unfold ofData payload
  split_ifs with h <;> simp [h]

theorem length_toBytes (u : Udp) : u.toBytes.length = 8 + u.payload.length := by
  simp only [toBytes, List.length_append, length_intToBytes16]
  omega

/-- **A datagram is read back as it was written**, if it says its length. -/
theorem fromBytes_toBytes (u : Udp) (h : u.length.toNat = 8 + u.payload.length) :
    fromBytes u.toBytes = .ok { u with nextLayer := some u.payload } := by
  have hfields : sliceInt16 u.toBytes 0 = .ok u.srcPort ∧ sliceInt16 u.toBytes 2 = .ok u.destPort ∧
      sliceInt16 u.toBytes 4 = .ok u.length ∧ sliceInt16 u.toBytes 6 = .ok u.checksum := by
    simp [toBytes, sliceInt16]
  have hpayload : sliceFrom u.toBytes 8 = .ok u.payload := by
    rw [sliceFrom, length_toBytes, Nat.add_sub_cancel_left]
    simp [toBytes]
  obtain ⟨h₁, h₂, h₃, h₄⟩ := hfields
  simp only [fromBytes, h₁, h₂, h₃, h₄, hpayload, ok_bind]
  rw [if_neg (by rw [length_toBytes, h, not_not])]
  rfl

end Udp

/-- An ICMP message. -/
structure Icmp where
  type : UInt8
  code : UInt8
  checksum : UInt16
  restOfHeader : UInt32
  nextLayer : Option Bytes
deriving DecidableEq

namespace Icmp

/-- The constructor that takes the fields. -/
def ofData (type code : UInt8) (checksum : UInt16) (restOfHeader : UInt32) (data : Bytes) : Icmp :=
  ⟨type, code, checksum, restOfHeader, if data = [] then none else some data⟩

/-- The bytes of the next layer. -/
def payload (m : Icmp) : Bytes := m.nextLayer.getD []

/-- `from_bytes`. -/
def fromBytes (data : Bytes) : Except String Icmp := do
  if data.length < 8 then throw "Invalid ICMP message length"
  let type ← sliceInt8 data 0
  let code ← sliceInt8 data 1
  let checksum ← sliceInt16 data 2
  let restOfHeader ← sliceInt32 data 4
  return ⟨type, code, checksum, restOfHeader, if 8 < data.length then some (data.drop 8) else none⟩

/-- `to_bytes`. -/
def toBytes (m : Icmp) : Bytes :=
  m.type :: m.code :: (intToBytes16 m.checksum ++ (intToBytes32 m.restOfHeader ++ m.payload))

@[simp] theorem payload_ofData (type code : UInt8) (checksum : UInt16) (restOfHeader : UInt32) (data : Bytes) :
    (ofData type code checksum restOfHeader data).payload = data := by
  unfold ofData payload
  split_ifs with h <;> simp [h]

theorem length_toBytes (m : Icmp) : m.toBytes.length = 8 + m.payload.length := by
  simp only [toBytes, List.length_cons, List.length_append, length_intToBytes16, length_intToBytes32]
  omega

/-- `compute_checksum`. -/
def computeChecksum (m : Icmp) : Icmp :=
  { m with checksum := internetChecksum ({ m with checksum := 0 } : Icmp).toBytes }

/-- `verify_checksum`. -/
def verifyChecksum (m : Icmp) : Bool := internetChecksum m.toBytes = 0

/-- The types and codes that the stack uses. -/
def echoReply : UInt8 := 0
def destinationUnreachable : UInt8 := 3
def echoRequest : UInt8 := 8
def timeExceeded : UInt8 := 11
def codeNone : UInt8 := 0
def codeNetUnreachable : UInt8 := 0
def codePortUnreachable : UInt8 := 3
def codeFragmentationNeeded : UInt8 := 4
def codeTtlExceeded : UInt8 := 0
def codeFragmentReassemblyTimeExceeded : UInt8 := 1

end Icmp

end TcpIpStack
