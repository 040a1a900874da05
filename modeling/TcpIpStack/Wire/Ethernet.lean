/-
# Ethernet frames and ARP packets

`src/src/ethernet.cpp` and `src/src/arp.cpp`.  A frame is read by its EtherType;
of an ARP packet only the binding of Ethernet to IPv4 addresses is accepted.

The frames with packets that this stack writes are read back
(`Ethernet.fromBytes_ip`).
-/

import TcpIpStack.Wire.Ip

namespace TcpIpStack

/-- An ARP packet.  The types and lengths of its addresses are fixed: nothing
else is accepted or built. -/
structure Arp where
  operation : UInt16
  senderHardwareAddress : MacAddress
  senderProtocolAddress : IPv4Address
  targetHardwareAddress : MacAddress
  targetProtocolAddress : IPv4Address
deriving DecidableEq

namespace Arp

def operationRequest : UInt16 := 1
def operationReply : UInt16 := 2

/-- The constructor of a request. -/
def request (senderMac : MacAddress) (senderIp targetIp : IPv4Address) : Arp :=
  ⟨operationRequest, senderMac, senderIp, MacAddress.zero, targetIp⟩

/-- `from_bytes`. -/
def fromBytes (data : Bytes) : Except String Arp := do
  if data.length < 28 then throw "Invalid ARP packet size"
  let hardwareType ← sliceInt16 data 0
  let protocolType ← sliceInt16 data 2
  let hardwareAddressLength ← sliceInt8 data 4
  let protocolAddressLength ← sliceInt8 data 5
  let operation ← sliceInt16 data 6
  if hardwareType ≠ 1 ∨ protocolType ≠ 0x0800 ∨ hardwareAddressLength ≠ 6 ∨
      protocolAddressLength ≠ 4 then
    throw "Unsupported ARP binding (not Ethernet/IPv4 with 6/4 address lengths)"
  let senderHardwareAddress ← sliceMac data 8
  let senderProtocolAddress ← sliceIp data 14
  let targetHardwareAddress ← sliceMac data 18
  let targetProtocolAddress ← sliceIp data 24
  return ⟨operation, senderHardwareAddress, senderProtocolAddress, targetHardwareAddress,
    targetProtocolAddress⟩

/-- `to_bytes`. -/
def toBytes (a : Arp) : Bytes :=
  intToBytes16 1 ++ (intToBytes16 0x0800 ++ 6 :: 4 :: (intToBytes16 a.operation ++
    (a.senderHardwareAddress.octets ++ (a.senderProtocolAddress.octets ++
      (a.targetHardwareAddress.octets ++ a.targetProtocolAddress.octets)))))

end Arp

/-- What a frame carries. -/
inductive EthernetLayer where
  | arp (packet : Arp)
  | ip (packet : Ip)
  | raw (data : Bytes)
deriving DecidableEq

/-- `to_bytes` of the layer. -/
def EthernetLayer.toBytes : EthernetLayer → Bytes
  | arp packet => packet.toBytes
  | ip packet => packet.toBytes
  | raw data => data

/-- An Ethernet frame. -/
structure Ethernet where
  src : MacAddress
  dest : MacAddress
  etherType : UInt16
  nextLayer : EthernetLayer
deriving DecidableEq

namespace Ethernet

def etherTypeArp : UInt16 := 0x0806
def etherTypeIPv4 : UInt16 := 0x0800

/-- The payload parsed by its EtherType: an ARP packet is the first 28 octets. -/
def parseLayer (etherType : UInt16) (data : Bytes) : Except String EthernetLayer :=
  if etherType = etherTypeArp then do
    let packet ← Arp.fromBytes (← slice data 14 28)
    return .arp packet
  else if etherType = etherTypeIPv4 then do
    let packet ← Ip.fromBytes (← sliceFrom data 14)
    return .ip packet
  else return .raw (← sliceFrom data 14)

/-- `from_bytes`. -/
def fromBytes (data : Bytes) : Except String Ethernet := do
  if data.length < 14 then throw "Ethernet header too short"
  let dest ← sliceMac data 0
  let src ← sliceMac data 6
  let etherType ← sliceInt16 data 12
  let nextLayer ← parseLayer etherType data
  return ⟨src, dest, etherType, nextLayer⟩

/-- `to_bytes`. -/
def toBytes (e : Ethernet) : Bytes :=
  e.dest.octets ++ (e.src.octets ++ (intToBytes16 e.etherType ++ e.nextLayer.toBytes))

/-- The header of a frame in front of any payload. -/
theorem fromBytes_append (src dest : MacAddress) (etherType : UInt16) (data : Bytes) :
    fromBytes (dest.octets ++ (src.octets ++ (intToBytes16 etherType ++ data))) =
      (parseLayer etherType (dest.octets ++ (src.octets ++ (intToBytes16 etherType ++ data)))).map
        fun layer => ⟨src, dest, etherType, layer⟩ := by
  have hlength : ¬ (dest.octets ++ (src.octets ++ (intToBytes16 etherType ++ data))).length < 14 := by
    simp only [List.length_append, dest.length, src.length, length_intToBytes16]
    omega
  have hfields :
      sliceMac (dest.octets ++ (src.octets ++ (intToBytes16 etherType ++ data))) 0 = .ok dest ∧
      sliceMac (dest.octets ++ (src.octets ++ (intToBytes16 etherType ++ data))) 6 = .ok src ∧
      sliceInt16 (dest.octets ++ (src.octets ++ (intToBytes16 etherType ++ data))) 12 =
        .ok etherType := by
    simp [sliceMac, sliceInt16]
  obtain ⟨h₁, h₂, h₃⟩ := hfields
  rw [fromBytes, if_neg hlength]
  simp only [h₁, h₂, h₃, ok_bind]
  cases parseLayer etherType _ <;> rfl

/-- **A frame with an IP packet is read back as its packet is.** -/
theorem fromBytes_ip (src dest : MacAddress) (ip : Ip) :
    fromBytes (toBytes ⟨src, dest, etherTypeIPv4, .ip ip⟩) =
      (Ip.fromBytes ip.toBytes).map fun packet => ⟨src, dest, etherTypeIPv4, .ip packet⟩ := by
  have hpayload : sliceFrom (dest.octets ++ (src.octets ++ (intToBytes16 etherTypeIPv4 ++ ip.toBytes)))
      14 = .ok ip.toBytes := by
    have h := sliceFrom_append ip.toBytes (dest.octets ++ (src.octets ++ intToBytes16 etherTypeIPv4))
    simpa [dest.length, src.length] using h
  rw [toBytes, EthernetLayer.toBytes, fromBytes_append, parseLayer,
    if_neg (show ¬ etherTypeIPv4 = etherTypeArp by decide), if_pos rfl,
    hpayload, ok_bind]
  cases Ip.fromBytes ip.toBytes <;> rfl

/-- The packet in a frame is all that follows the header. -/
theorem ip_of_fromBytes {data : Bytes} {src dest : MacAddress} {etherType : UInt16} {ip : Ip}
    (h : fromBytes data = .ok ⟨src, dest, etherType, .ip ip⟩) : Ip.fromBytes (data.drop 14) = .ok ip := by
  simp only [fromBytes, ite_throw_eq_ok, bind_eq_ok] at h
  obtain ⟨hlength, dest', -, src', -, etherType', -, layer, hlayer, hethernet⟩ := h
  obtain ⟨-, -, -, rfl⟩ := Ethernet.mk.inj (Except.ok.inj hethernet)
  unfold parseLayer at hlayer
  split_ifs at hlayer
  · simp only [bind_eq_ok] at hlayer
    obtain ⟨bytes, -, packet, -, harp⟩ := hlayer
    cases harp
  · simp only [bind_eq_ok] at hlayer
    obtain ⟨payload, hpayload, packet, hpacket, hlayer⟩ := hlayer
    obtain rfl : packet = ip := EthernetLayer.ip.inj (Except.ok.inj hlayer)
    rw [← hpacket, eq_drop_of_sliceFrom hpayload]
  · simp only [bind_eq_ok] at hlayer
    obtain ⟨payload, -, hlayer⟩ := hlayer
    cases hlayer

end Ethernet

end TcpIpStack
