/-
# IPv4 packets

`src/src/ip.cpp`.  The payload is cut to what the total length declares, and is
parsed by the protocol unless the packet is a fragment, which stays opaque until
the datagram is whole.  The header that is written has no options; its checksum
covers the header alone.

A packet that this stack writes is read back with its payload parsed
(`Ip.fromBytes_append`), and a header whose checksum was computed verifies
(`Ip.verifyChecksum_computeChecksum`).  What was read is written back as it was
(`Ip.headerToBytes_of_fromBytes`).
-/

import TcpIpStack.Wire.TcpCodec
import TcpIpStack.Wire.Transport

namespace TcpIpStack

/-- What an IP packet carries.  A TCP segment keeps the bytes it was parsed from
for its checksum. -/
inductive IpLayer where
  | raw (data : Bytes)
  | tcp (segment : Tcp) (received : Bytes)
  | udp (datagram : Udp)
  | icmp (message : Icmp)
deriving DecidableEq

/-- `to_bytes` of the layer. -/
def IpLayer.toBytes : IpLayer → Bytes
  | raw data => data
  | tcp segment _ => segment.toBytes
  | udp datagram => datagram.toBytes
  | icmp message => message.toBytes

/-- An IPv4 packet. -/
structure Ip where
  version : UInt8
  ihl : UInt8
  tos : UInt8
  totalLength : UInt16
  identification : UInt16
  flags : UInt8
  fragmentOffset : UInt16
  ttl : UInt8
  protocol : UInt8
  headerChecksum : UInt16
  srcAddress : IPv4Address
  destAddress : IPv4Address
  nextLayer : Option IpLayer := none
deriving DecidableEq

namespace Ip

def protocolIcmp : UInt8 := 1
def protocolTcp : UInt8 := 6
def protocolUdp : UInt8 := 17

def flagDontFragment : UInt8 := 0x40
def flagMoreFragments : UInt8 := 0x20

def getIpFlagD (ip : Ip) : Bool := ip.flags &&& flagDontFragment != 0
def getIpFlagM (ip : Ip) : Bool := ip.flags &&& flagMoreFragments != 0

/-- The payload parsed by its protocol. -/
def parsePayload (protocol : UInt8) (payload : Bytes) : Except String (Option IpLayer) :=
  if protocol = protocolTcp then (Tcp.fromBytes payload).map fun t => some (.tcp t payload)
  else if protocol = protocolUdp then (Udp.fromBytes payload).map fun u => some (.udp u)
  else if protocol = protocolIcmp then (Icmp.fromBytes payload).map fun m => some (.icmp m)
  else .ok (if payload = [] then none else some (.raw payload))

/-- The payload of a fragment is opaque. -/
def parseLayer (flags : UInt8) (fragmentOffset : UInt16) (protocol : UInt8) (payload : Bytes) :
    Except String (Option IpLayer) :=
  if flags &&& flagMoreFragments ≠ 0 ∨ fragmentOffset ≠ 0 then .ok (some (.raw payload))
  else parsePayload protocol payload

/-- `from_bytes`. -/
def fromBytes (data : Bytes) : Except String Ip := do
  if data.length < 20 then throw "Invalid IPv4 header length"
  let first ← sliceInt8 data 0
  let version := (first &&& 0xf0) >>> 4
  let ihl := first &&& 0x0f
  if ihl < 5 then throw "Invalid IHL (too small)"
  if 15 < ihl then throw "Invalid IHL (too big)"
  let headerBytes := ihl.toNat * 4
  if data.length < headerBytes then throw "Data shorter than IHL indicates"
  let tos ← sliceInt8 data 1
  let totalLength ← sliceInt16 data 2
  let identification ← sliceInt16 data 4
  let flags := (← sliceInt8 data 6) &&& 0xE0
  let fragmentOffset := (← sliceInt16 data 6) &&& 0x1fff
  let ttl ← sliceInt8 data 8
  let protocol ← sliceInt8 data 9
  let headerChecksum ← sliceInt16 data 10
  let srcAddress ← sliceIp data 12
  let destAddress ← sliceIp data 16
  if totalLength.toNat < headerBytes ∨ data.length < totalLength.toNat then
    throw "IP total_length inconsistent with the received frame"
  let payload ← slice data headerBytes (totalLength.toNat - headerBytes)
  let nextLayer ← parseLayer flags fragmentOffset protocol payload
  return ⟨version, ihl, tos, totalLength, identification, flags, fragmentOffset, ttl, protocol,
    headerChecksum, srcAddress, destAddress, nextLayer⟩

/-- The flags and the offset as the header has them. -/
def flagsAndOffset (ip : Ip) : UInt16 := ip.flags.toUInt16 <<< 8 ||| (ip.fragmentOffset &&& 0x1FFF)

/-- `_header_to_bytes`. -/
def headerToBytes (ip : Ip) : Bytes :=
  (ip.version <<< 4 ||| ip.ihl) :: ip.tos :: (intToBytes16 ip.totalLength ++
    (intToBytes16 ip.identification ++ (intToBytes16 ip.flagsAndOffset ++ ip.ttl :: ip.protocol ::
      (intToBytes16 ip.headerChecksum ++ (ip.srcAddress.octets ++ ip.destAddress.octets)))))

/-- The bytes of the next layer. -/
def payload (ip : Ip) : Bytes := (ip.nextLayer.map IpLayer.toBytes).getD []

/-- `to_bytes`. -/
def toBytes (ip : Ip) : Bytes := ip.headerToBytes ++ ip.payload

/-- `compute_checksum`. -/
def computeChecksum (ip : Ip) : Ip :=
  { ip with headerChecksum := internetChecksum ({ ip with headerChecksum := 0 } : Ip).headerToBytes }

/-- `verify_checksum`. -/
def verifyChecksum (ip : Ip) : Bool := internetChecksum ip.headerToBytes = 0

@[simp] theorem length_headerToBytes (ip : Ip) : ip.headerToBytes.length = 20 := by
  simp [headerToBytes]

/-- **A computed checksum verifies.** -/
theorem verifyChecksum_computeChecksum (ip : Ip) : ip.computeChecksum.verifyChecksum = true := by
  have hself := internetChecksum_self
    ((ip.version <<< 4 ||| ip.ihl) :: ip.tos :: (intToBytes16 ip.totalLength ++
      (intToBytes16 ip.identification ++ (intToBytes16 ip.flagsAndOffset ++ [ip.ttl, ip.protocol]))))
    (ip.srcAddress.octets ++ ip.destAddress.octets) (by simp) (by simp)
  rw [verifyChecksum, decide_eq_true_iff]
  simpa [computeChecksum, headerToBytes, flagsAndOffset] using hself

/-- What the bits of a header that this stack builds satisfy. -/
structure Plain (ip : Ip) : Prop where
  version : ip.version = 4
  ihl : ip.ihl = 5
  flags : ip.flags &&& 0xE0 = ip.flags
  fragmentOffset : ip.fragmentOffset.toNat < 2 ^ 13

theorem toNat_and_flags (b : UInt8) : (b &&& 0xE0).toNat = b.toNat / 32 * 32 := by
  have hall : ∀ n : Fin 256, (UInt8.ofNat n &&& 0xE0).toNat = n.val / 32 * 32 := by decide +kernel
  simpa using hall ⟨b.toNat, b.toNat_lt⟩

variable {ip : Ip}

theorem flags_mod (h : ip.flags &&& 0xE0 = ip.flags) : ip.flags.toNat % 32 = 0 := by
  have hmask := toNat_and_flags ip.flags
  rw [h] at hmask
  omega

theorem toNat_flagsAndOffset (hmask : ip.flags &&& 0xE0 = ip.flags)
    (hoffset : ip.fragmentOffset.toNat < 2 ^ 13) :
    ip.flagsAndOffset.toNat = ip.flags.toNat * 256 + ip.fragmentOffset.toNat := by
  have hflags := flags_mod hmask
  have hlow : ip.fragmentOffset.toNat &&& 0x1FFF = ip.fragmentOffset.toNat := by
    rw [Nat.and_two_pow_sub_one_eq_mod _ 13, Nat.mod_eq_of_lt hoffset]
  have hor := Nat.two_pow_add_eq_or_of_lt hoffset (ip.flags.toNat / 32)
  have hhigh : ip.flags.toNat * 256 = 2 ^ 13 * (ip.flags.toNat / 32) := by omega
  have hlt := ip.flags.toNat_lt
  rw [flagsAndOffset, UInt16.toNat_or, UInt16.toNat_shiftLeft, UInt16.toNat_and,
    UInt8.toNat_toUInt16, Nat.shiftLeft_eq]
  simp only [UInt16.reduceToNat, Nat.reduceMod, Nat.reducePow]
  rw [hlow, Nat.mod_eq_of_lt (by omega), hhigh, ← hor]

theorem flagsAndOffset_bits (hplain : ip.Plain) :
    UInt8.ofNat (ip.flagsAndOffset.toNat / 256) &&& 0xE0 = ip.flags ∧
      ip.flagsAndOffset &&& 0x1fff = ip.fragmentOffset := by
  have hflags := flags_mod hplain.flags
  have hoffset := hplain.fragmentOffset
  have hlt := ip.flags.toNat_lt
  have hlow := Nat.and_two_pow_sub_one_eq_mod (ip.flags.toNat * 256 + ip.fragmentOffset.toNat) 13
  simp only [Nat.reducePow, Nat.reduceSub] at hlow
  rw [← UInt8.toNat_inj, ← UInt16.toNat_inj, toNat_and_flags, UInt16.toNat_and,
    toNat_flagsAndOffset hplain.flags hoffset, UInt8.toNat_ofNat']
  simp only [UInt16.reduceToNat]
  omega

/-- **A packet is read back with its payload parsed**, if its header says how
long it is. -/
theorem fromBytes_append (ip : Ip) (data : Bytes) (hplain : ip.Plain)
    (hlength : ip.totalLength.toNat = 20 + data.length) : fromBytes (ip.headerToBytes ++ data) =
      (parseLayer ip.flags ip.fragmentOffset ip.protocol data).map
        fun layer => { ip with nextLayer := layer } := by
  obtain ⟨hflags, hoffset⟩ := flagsAndOffset_bits hplain
  have hbytes : (ip.headerToBytes ++ data).length = 20 + data.length := by
    rw [List.length_append, length_headerToBytes]
  have hfields :
      sliceInt8 (ip.headerToBytes ++ data) 0 = .ok 0x45 ∧
      sliceInt8 (ip.headerToBytes ++ data) 1 = .ok ip.tos ∧
      sliceInt16 (ip.headerToBytes ++ data) 2 = .ok ip.totalLength ∧
      sliceInt16 (ip.headerToBytes ++ data) 4 = .ok ip.identification ∧
      sliceInt8 (ip.headerToBytes ++ data) 6 = .ok (UInt8.ofNat (ip.flagsAndOffset.toNat / 256)) ∧
      sliceInt16 (ip.headerToBytes ++ data) 6 = .ok ip.flagsAndOffset ∧
      sliceInt8 (ip.headerToBytes ++ data) 8 = .ok ip.ttl ∧
      sliceInt8 (ip.headerToBytes ++ data) 9 = .ok ip.protocol ∧
      sliceInt16 (ip.headerToBytes ++ data) 10 = .ok ip.headerChecksum ∧
      sliceIp (ip.headerToBytes ++ data) 12 = .ok ip.srcAddress ∧
      sliceIp (ip.headerToBytes ++ data) 16 = .ok ip.destAddress ∧
      slice (ip.headerToBytes ++ data) 20 data.length = .ok data := by
    simp [headerToBytes, sliceInt8, sliceInt16, sliceIp, hplain.version, hplain.ihl]
  obtain ⟨h₁, h₂, h₃, h₄, h₅, h₆, h₇, h₈, h₉, h₁₀, h₁₁, h₁₂⟩ := hfields
  have hihl : (0x45 : UInt8) &&& 0x0f = 5 := rfl
  have hversion : ((0x45 : UInt8) &&& 0xf0) >>> 4 = 4 := rfl
  rw [fromBytes, if_neg (by omega)]
  simp only [h₁, h₂, h₃, h₄, h₅, h₆, h₇, h₈, h₉, h₁₀, h₁₁, ok_bind, hihl, hversion, hflags, hoffset]
  rw [if_neg (by decide), if_neg (by decide), if_neg (by rw [hbytes]; simp),
    if_neg (by rw [hbytes, hlength]; simp), hlength]
  simp only [UInt8.reduceToNat, Nat.reduceMul, Nat.add_sub_cancel_left, h₁₂, ok_bind]
  rw [← hplain.version, ← hplain.ihl]
  cases parseLayer ip.flags ip.fragmentOffset ip.protocol data <;> rfl

/-! ### What was read -/

theorem first_octet (b : UInt8) : ((b &&& 0xf0) >>> 4) <<< 4 ||| (b &&& 0x0f) = b := by
  have hall : ∀ n : Fin 256,
      ((UInt8.ofNat n &&& 0xf0) >>> 4) <<< 4 ||| (UInt8.ofNat n &&& 0x0f) = UInt8.ofNat n := by
    decide +kernel
  simpa using hall ⟨b.toNat, b.toNat_lt⟩

/-- The flags and the offset, taken apart and put together. -/
theorem flagsAndOffset_of_bits {v : UInt16} (hflags : ip.flags = UInt8.ofNat (v.toNat / 256) &&& 0xE0)
    (hoffset : ip.fragmentOffset = v &&& 0x1fff) : ip.flagsAndOffset = v := by
  have hv : v.toNat < 65536 := v.toNat_lt
  have hlow := Nat.and_two_pow_sub_one_eq_mod v.toNat 13
  simp only [Nat.reducePow, Nat.reduceSub] at hlow
  have hflags' : ip.flags.toNat = v.toNat / 256 / 32 * 32 := by
    rw [hflags, toNat_and_flags, UInt8.toNat_ofNat']
    omega
  have hoffset' : ip.fragmentOffset.toNat = v.toNat % 8192 := by
    rw [hoffset, UInt16.toNat_and]
    exact hlow
  have hmask : ip.flags &&& 0xE0 = ip.flags := by
    rw [hflags, UInt8.and_assoc, UInt8.and_self]
  rw [← UInt16.toNat_inj, toNat_flagsAndOffset hmask (by omega), hflags', hoffset']
  omega

/-- **What was read is written back**: the fields of a packet are the first twenty
octets it was parsed from. -/
theorem headerToBytes_of_fromBytes {data : Bytes} (h : fromBytes data = .ok ip) :
    20 ≤ data.length ∧ ip.headerToBytes = data.take 20 := by
  simp only [fromBytes, ite_throw_eq_ok, bind_eq_ok] at h
  obtain ⟨hlength, first, hfirst, -, -, -, tos, htos, total, htotal, id, hid, b, hb, v, hv, ttl, httl,
    protocol, hprotocol, checksum, hchecksum, src, hsrc, dest, hdest, -, -, -, layer, -, hip⟩ := h
  obtain rfl := Except.ok.inj hip
  have hv' := take_of_sliceInt16 hv
  -- the octet of the flags is the upper half of the word that holds the offset
  have hupper : b = UInt8.ofNat (v.toNat / 256) := by
    have hone := take_add_drop data 6 1 1
    rw [take_of_sliceInt8 hb, hv', intToBytes16, BigEndian.bytes] at hone
    exact (List.cons.inj hone).1.symm
  refine ⟨by omega, ?_⟩
  rw [headerToBytes, flagsAndOffset_of_bits (v := v) (by rw [hupper]) rfl, first_octet]
  symm
  calc data.take 20
      = (data.drop 0).take 1 ++ ((data.drop 1).take 1 ++ ((data.drop 2).take 2 ++
        ((data.drop 4).take 2 ++ ((data.drop 6).take 2 ++ ((data.drop 8).take 1 ++
          ((data.drop 9).take 1 ++ ((data.drop 10).take 2 ++ ((data.drop 12).take 4 ++
            (data.drop 16).take 4)))))))) := by
        rw [← take_add_drop data 12 4 4, ← take_add_drop data 10 2 8, ← take_add_drop data 9 1 10,
          ← take_add_drop data 8 1 11, ← take_add_drop data 6 2 12, ← take_add_drop data 4 2 14,
          ← take_add_drop data 2 2 16, ← take_add_drop data 1 1 18, ← take_add_drop data 0 1 19,
          List.drop_zero]
    _ = _ := by
        rw [take_of_sliceInt8 hfirst, take_of_sliceInt8 htos, take_of_sliceInt16 htotal,
          take_of_sliceInt16 hid, hv', take_of_sliceInt8 httl, take_of_sliceInt8 hprotocol,
          take_of_sliceInt16 hchecksum, take_of_sliceIp hsrc, take_of_sliceIp hdest]
        rfl

/-- What a packet that was read says about the buffer it came from. -/
theorem layer_of_fromBytes {data : Bytes} (h : fromBytes data = .ok ip) :
    5 ≤ ip.ihl.toNat ∧ ip.ihl.toNat * 4 ≤ ip.totalLength.toNat ∧ ip.totalLength.toNat ≤ data.length ∧
      parseLayer ip.flags ip.fragmentOffset ip.protocol
        ((data.drop (ip.ihl.toNat * 4)).take (ip.totalLength.toNat - ip.ihl.toNat * 4)) =
          .ok ip.nextLayer := by
  simp only [fromBytes, ite_throw_eq_ok, bind_eq_ok] at h
  obtain ⟨-, first, -, hihl, -, -, _, -, total, -, _, -, _, -, _, -, _, -, protocol, -, _, -, _, -, _, -,
    htotal, payload, hpayload, layer, hlayer, hip⟩ := h
  obtain rfl := Except.ok.inj hip
  rw [UInt8.not_lt, UInt8.le_iff_toNat_le] at hihl
  rw [not_or, not_lt, not_lt] at htotal
  refine ⟨hihl, htotal.1, htotal.2, ?_⟩
  unfold slice at hpayload
  split_ifs at hpayload
  rw [Except.ok.inj hpayload]
  exact hlayer

/-- What the payload was parsed as. -/
theorem parseLayer_cases {flags : UInt8} {fragmentOffset : UInt16} {protocol : UInt8} {payload : Bytes}
    {layer : IpLayer} (h : parseLayer flags fragmentOffset protocol payload = .ok (some layer)) :
    layer = .raw payload ∨ protocol = protocolTcp ∧ (∃ t, Tcp.fromBytes payload = .ok t ∧ layer = .tcp t payload) ∨
      (∃ u, Udp.fromBytes payload = .ok u ∧ layer = .udp u) ∨
      ∃ m, Icmp.fromBytes payload = .ok m ∧ layer = .icmp m := by
  unfold parseLayer parsePayload at h
  split_ifs at h with hfragment htcp hudp hicmp hempty
  · exact .inl (Option.some.inj (Except.ok.inj h)).symm
  · cases hread : Tcp.fromBytes payload <;> rw [hread] at h <;> cases h
    exact .inr (.inl ⟨htcp, _, rfl, rfl⟩)
  · cases hread : Udp.fromBytes payload <;> rw [hread] at h <;> cases h
    exact .inr (.inr (.inl ⟨_, rfl, rfl⟩))
  · cases hread : Icmp.fromBytes payload <;> rw [hread] at h <;> cases h
    exact .inr (.inr (.inr ⟨_, rfl, rfl⟩))
  · cases h
  · exact .inl (Option.some.inj (Except.ok.inj h)).symm

/-- An ICMP message that was received is no longer than a packet can say. -/
theorem length_icmp_of_fromBytes {data : Bytes} (h : fromBytes data = .ok ip) {message : Icmp}
    (hnext : ip.nextLayer = some (.icmp message)) : message.payload.length < 2 ^ 16 := by
  obtain ⟨-, -, -, hlayer⟩ := layer_of_fromBytes h
  have htotal := ip.totalLength.toNat_lt
  rw [hnext] at hlayer
  obtain hraw | ⟨-, _, -, htcp⟩ | ⟨_, -, hudp⟩ | ⟨m, hread, hicmp⟩ := parseLayer_cases hlayer
  · cases hraw
  · cases htcp
  · cases hudp
  obtain rfl := IpLayer.icmp.inj hicmp
  simp only [Icmp.fromBytes, ite_throw_eq_ok, bind_eq_ok] at hread
  obtain ⟨-, _, -, _, -, _, -, _, -, hread⟩ := hread
  obtain rfl := Except.ok.inj hread
  unfold Icmp.payload
  dsimp only
  split_ifs
  · rw [Option.getD_some, List.length_drop, List.length_take]
    omega
  · simp

theorem tcp_of_fromBytes {data : Bytes} (h : fromBytes data = .ok ip) {segment : Tcp}
    {received : Bytes} (hnext : ip.nextLayer = some (.tcp segment received)) :
    Tcp.fromBytes received = .ok segment ∧ received.length ≤ 65515 := by
  obtain ⟨hihl, -, -, hlayer⟩ := layer_of_fromBytes h
  have htotal := ip.totalLength.toNat_lt
  rw [hnext] at hlayer
  obtain hraw | ⟨-, t, hread, htcp⟩ | ⟨_, -, hudp⟩ | ⟨_, -, hicmp⟩ := parseLayer_cases hlayer
  · cases hraw
  · obtain ⟨rfl, hreceived⟩ := IpLayer.tcp.inj htcp
    refine ⟨hreceived ▸ hread, ?_⟩
    rw [hreceived, List.length_take]
    omega
  · cases hudp
  · cases hicmp

/-! ### The packets this stack builds -/

/-- The constructor with opaque data behind the header and the checksum
computed: how every packet is built. -/
def build (tos : UInt8) (identification : UInt16) (flags : UInt8) (fragmentOffset : UInt16)
    (ttl protocol : UInt8) (src dest : IPv4Address) (data : Bytes) : Ip :=
  ({ version := 4
     ihl := 5
     tos := tos
     totalLength := UInt16.ofNat (20 + data.length)
     identification := identification
     flags := flags &&& 0xE0
     fragmentOffset := fragmentOffset
     ttl := ttl
     protocol := protocol
     headerChecksum := 0
     srcAddress := src
     destAddress := dest
     nextLayer := some (.raw data) } : Ip).computeChecksum

section Build

variable {tos : UInt8} {identification : UInt16} {flags : UInt8} {fragmentOffset : UInt16}
  {ttl protocol : UInt8} {src dest : IPv4Address} {data : Bytes}

theorem length_toBytes_build :
    (build tos identification flags fragmentOffset ttl protocol src dest data).toBytes.length =
      20 + data.length := by
  rw [toBytes, List.length_append, length_headerToBytes]
  rfl

theorem plain_build (hoffset : fragmentOffset.toNat < 2 ^ 13) :
    (build tos identification flags fragmentOffset ttl protocol src dest data).Plain where
  version := rfl
  ihl := rfl
  flags := by
    show flags &&& 0xE0 &&& 0xE0 = flags &&& 0xE0
    rw [UInt8.and_assoc, UInt8.and_self]
  fragmentOffset := hoffset

/-- **A packet this stack builds is read back with its payload parsed.** -/
theorem fromBytes_build (hdata : data.length ≤ 65515) (hoffset : fragmentOffset.toNat < 2 ^ 13) :
    fromBytes (build tos identification flags fragmentOffset ttl protocol src dest data).toBytes =
      (parseLayer (flags &&& 0xE0) fragmentOffset protocol data).map fun layer =>
        { build tos identification flags fragmentOffset ttl protocol src dest data with
          nextLayer := layer } := by
  have hlength : (build tos identification flags fragmentOffset ttl protocol src dest
      data).totalLength.toNat = 20 + data.length := by
    show (UInt16.ofNat (20 + data.length)).toNat = _
    rw [UInt16.toNat_ofNat', Nat.mod_eq_of_lt (by omega)]
  exact fromBytes_append _ data (plain_build hoffset) hlength

theorem verifyChecksum_build (layer : Option IpLayer) :
    ({ build tos identification flags fragmentOffset ttl protocol src dest data with
      nextLayer := layer } : Ip).verifyChecksum = true :=
  verifyChecksum_computeChecksum _

end Build

end Ip

end TcpIpStack
