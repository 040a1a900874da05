/-
# Reassembly

`src/src/ip_reassembler.cpp`.  The fragments of a datagram are kept by offset
until they cover it from the start to the end that the last one declares.
Anything that contradicts what is already held drops the whole datagram.
-/

import TcpIpStack.Lib.OrderedMap
import TcpIpStack.Stack.Tables
import TcpIpStack.Wire.Ethernet

namespace TcpIpStack
namespace IpReassembler

/-- `IpReassembler::Key`. -/
structure Key where
  source : IPv4Address
  destination : IPv4Address
  identification : UInt16
  protocol : UInt8
deriving DecidableEq

/-- `IpReassembler::Partial`.  The total length is known once the last fragment
is there. -/
structure PartialDatagram where
  fragments : OrderedMap ℕ Bytes := OrderedMap.empty
  totalLength : ℕ := 0
  haveLast : Bool := false
  receivedBytes : ℕ := 0
  msRemaining : ℤ := 0
  source : IPv4Address := {}

/-- `IpReassembler::Result`, with the datagram that `out_datagram` gets. -/
inductive Result where
  | incomplete
  | complete (datagram : Bytes)
  | rejected
deriving DecidableEq

def maxDatagramBytes : ℕ := 65535 - 20
def maxPendingDatagrams : ℕ := 64
def maxBufferedBytes : ℕ := 1024 * 1024
def maxFragmentsPerDatagram : ℕ := 128

/-- The loop of `_is_complete`: how much the fragments cover without a hole. -/
def covered : ℕ → List (ℕ × Bytes) → Option ℕ
  | n, [] => some n
  | n, (start, payload) :: rest => if start ≠ n then none else covered (n + payload.length) rest

/-- `_is_complete`. -/
def PartialDatagram.isComplete (p : PartialDatagram) : Bool :=
  p.haveLast && covered 0 p.fragments.entries == some p.totalLength

/-- `_assemble`. -/
def PartialDatagram.assemble (p : PartialDatagram) : Bytes := p.fragments.entries.flatMap Prod.snd

/-- Some fragment that is held claims a byte of `[start, stop)`. -/
def PartialDatagram.overlaps (p : PartialDatagram) (start stop : ℕ) : Bool :=
  p.fragments.entries.any fun e => decide (start < e.1 + e.2.length ∧ e.1 < stop)

end IpReassembler

open IpReassembler

/-- `IpReassembler`. -/
structure IpReassembler where
  partials : Assoc Key PartialDatagram := ∅
  bufferedBytes : ℕ := 0
  timeoutMs : ℤ

namespace IpReassembler

/-- `_drop`. -/
def drop (key : Key) (r : IpReassembler) : IpReassembler :=
  match r.partials.lookup key with
  | none => r
  | some p =>
    { r with bufferedBytes := r.bufferedBytes - p.receivedBytes, partials := r.partials.erase key }

/-- A datagram of which nothing is held yet. -/
def PartialDatagram.fresh (timeoutMs : ℤ) (source : IPv4Address) : PartialDatagram :=
  { msRemaining := timeoutMs, source := source }

/-- The length that a last fragment declares is remembered. -/
def PartialDatagram.noteLast (moreFragments : Bool) (stop : ℕ) (p : PartialDatagram) : PartialDatagram :=
  if moreFragments then p else { p with haveLast := true, totalLength := stop }

/-- A fragment is kept. -/
def PartialDatagram.keep (start : ℕ) (payload : Bytes) (p : PartialDatagram) : PartialDatagram :=
  { p with
    fragments := p.fragments.insert start payload
    receivedBytes := p.receivedBytes + payload.length }

/-- The second half of `offer`, with the partial datagram found or made. -/
def offerTo (key : Key) (start : ℕ) (moreFragments : Bool) (payload : Bytes) (r : IpReassembler)
    (p : PartialDatagram) : Result × IpReassembler :=
  let stop := start + payload.length
  if maxFragmentsPerDatagram ≤ p.fragments.entries.length ∨
      maxBufferedBytes < r.bufferedBytes + payload.length then (.rejected, r.drop key)
  else if p.overlaps start stop then (.rejected, r.drop key)
  else if !moreFragments ∧ p.haveLast ∧ p.totalLength ≠ stop then (.rejected, r.drop key)
  else
    let p := p.noteLast moreFragments stop
    let r := { r with partials := r.partials.insert key p }
    if p.haveLast ∧ p.totalLength < stop then (.rejected, r.drop key)
    else
      let p := p.keep start payload
      let r := { r with
        partials := r.partials.insert key p
        bufferedBytes := r.bufferedBytes + payload.length }
      if p.isComplete then (.complete p.assemble, r.drop key) else (.incomplete, r)

/-- `offer`. -/
def offer (source destination : IPv4Address) (identification : UInt16) (protocol : UInt8)
    (fragmentOffset : UInt16) (moreFragments : Bool) (payload : Bytes) (r : IpReassembler) :
    Result × IpReassembler :=
  let start := fragmentOffset.toNat * 8
  if payload = [] ∨ maxDatagramBytes < start + payload.length then (.rejected, r)
  else
    let key : Key := ⟨source, destination, identification, protocol⟩
    match r.partials.lookup key with
    | some p => r.offerTo key start moreFragments payload p
    | none =>
      if maxPendingDatagrams ≤ r.partials.size ∨
          maxBufferedBytes < r.bufferedBytes + payload.length then (.rejected, r)
      else
        let p := PartialDatagram.fresh r.timeoutMs source
        { r with partials := r.partials.insert key p }.offerTo key start moreFragments payload p

/-- `age`: the sources of the datagrams that ran out of time, and the rest. -/
def age (elapsedMs : UInt32) (r : IpReassembler) : List IPv4Address × IpReassembler :=
  let expired (p : PartialDatagram) : Bool := p.msRemaining - TcpConnection.asInt elapsedMs ≤ 0
  let dropped := r.partials.entries.filter fun e => expired e.2
  (dropped.map fun e => e.2.source,
    { r with
      partials := Assoc.filterMap (fun _ p => if expired p then none
        else some { p with msRemaining := p.msRemaining - TcpConnection.asInt elapsedMs }) r.partials
      bufferedBytes := dropped.foldl (fun n e => n - e.2.receivedBytes) r.bufferedBytes })

end IpReassembler

/-! ### A fragment as it arrives -/

/-- `_handle_ip_fragment`'s offer of a packet, if it carries opaque data. -/
def Ip.offerTo (ip : Ip) (r : IpReassembler) : Option (Result × IpReassembler) :=
  match ip.nextLayer with
  | some (.raw data) => some (r.offer ip.srcAddress ip.destAddress ip.identification ip.protocol
      ip.fragmentOffset ip.getIpFlagM data)
  | _ => none

/-- The packet that `_handle_ip_fragment` builds when a fragment completes its
datagram. -/
def Ip.reassembled (ip : Ip) (datagram : Bytes) : Ip :=
  Ip.build ip.tos ip.identification 0 0 ip.ttl ip.protocol ip.srcAddress ip.destAddress datagram

end TcpIpStack
