/-
# Addresses

`src/include/network_addresses.h`.  An IPv4 address is four octets; it is named
here by the number they spell (`ipv4_to_uint32`), and `get_address` gives the
octets back.  A MAC address is six octets, which its constructor checks.
-/

import TcpIpStack.Wire.Bytes

namespace TcpIpStack

/-- `IPv4Address`, by `ipv4_to_uint32`.  The default one is `0.0.0.0`. -/
structure IPv4Address where
  value : UInt32 := 0
deriving DecidableEq

/-- `IPv4Address::get_address`. -/
def IPv4Address.octets (ip : IPv4Address) : Bytes := intToBytes32 ip.value

theorem IPv4Address.octets_injective : Function.Injective IPv4Address.octets := by
  intro ip ip' h
  have hvalue := congrArg BigEndian.value h
  rw [octets, octets, value_intToBytes32, value_intToBytes32, UInt32.toNat_inj] at hvalue
  cases ip
  cases ip'
  exact congrArg IPv4Address.mk hvalue

/-- The four octets at a position, as an address. -/
def sliceIp (data : Bytes) (index : ℕ) : Except String IPv4Address :=
  (sliceInt 4 data index).map fun n => ⟨UInt32.ofNat n⟩

theorem take_of_sliceIp {data : Bytes} {index : ℕ} {ip : IPv4Address} (h : sliceIp data index = .ok ip) :
    (data.drop index).take 4 = ip.octets := by
  cases hn : sliceInt 4 data index with
  | error e => simp [sliceIp, hn, Except.map] at h
  | ok n =>
    rw [sliceIp, hn] at h
    cases h
    obtain ⟨htake, hlt⟩ := take_of_sliceInt hn
    have hmod : n % 2 ^ 32 = n := Nat.mod_eq_of_lt hlt
    rw [htake, IPv4Address.octets, intToBytes32, UInt32.toNat_ofNat', hmod]

/-- `MacAddress`: six octets. -/
structure MacAddress where
  octets : Bytes
  length : octets.length = 6
deriving DecidableEq

namespace MacAddress

/-- The zero address. -/
def zero : MacAddress := ⟨[0, 0, 0, 0, 0, 0], rfl⟩

/-- The address of six octets. -/
def of (a b c d e f : UInt8) : MacAddress := ⟨[a, b, c, d, e, f], rfl⟩

/-- `MacAddress::BROADCAST`. -/
def broadcast : MacAddress := ⟨[0xff, 0xff, 0xff, 0xff, 0xff, 0xff], rfl⟩

/-- The constructor that takes the octets. -/
def ofBytes (octets : Bytes) : Except String MacAddress :=
  if h : octets.length = 6 then .ok ⟨octets, h⟩ else .error "Invalid MAC address length"

/-- The group bit of IEEE 802: the low bit of the first octet. -/
def isGroup (mac : MacAddress) : Bool := mac.octets.headD 0 &&& 0x01 != 0

end MacAddress

/-- The six octets at a position, as an address. -/
def sliceMac (data : Bytes) (index : ℕ) : Except String MacAddress :=
  slice data index 6 >>= MacAddress.ofBytes

section Read

variable (index : ℕ) (mac : MacAddress) (ip : IPv4Address) (rest : Bytes)

@[simp] theorem length_ipOctets : ip.octets.length = 4 := length_intToBytes32 _

@[simp] theorem sliceInt_ip_append : sliceInt 4 (ip.octets ++ rest) 0 = .ok ip.value.toNat :=
  sliceInt_int32_append_zero _ _

@[simp] theorem sliceInt_ip_append_succ (width : ℕ) :
    sliceInt width (ip.octets ++ rest) (index + 4) = sliceInt width rest index :=
  sliceInt_int32_append width index _ rest

@[simp] theorem slice_ip_append (length : ℕ) :
    slice (ip.octets ++ rest) (index + 4) length = slice rest index length :=
  slice_int32_append index length _ rest

@[simp] theorem slice_mac_append_zero : slice (mac.octets ++ rest) 0 6 = .ok mac.octets := by
  have hlength : ¬ (mac.octets ++ rest).length < 0 + 6 := by
    rw [List.length_append, mac.length]
    omega
  rw [slice, if_neg hlength, List.drop_zero, ← mac.length, List.take_left]

@[simp] theorem slice_mac_append (length : ℕ) :
    slice (mac.octets ++ rest) (index + 6) length = slice rest index length := by
  rw [← mac.length, slice_append]

@[simp] theorem sliceInt_mac_append (width : ℕ) :
    sliceInt width (mac.octets ++ rest) (index + 6) = sliceInt width rest index := by
  rw [← mac.length, sliceInt_append]

@[simp] theorem MacAddress.ofBytes_octets : MacAddress.ofBytes mac.octets = .ok mac :=
  dif_pos mac.length

end Read

end TcpIpStack
