/-
# Interfaces, routes and neighbours

`src/src/interface_config.cpp`, `src/src/route_table.cpp` and
`src/src/arp_table.cpp`: what an interface is called, how large its packets may
be, which addresses are broadcasts on it, which interface a destination is
reached by, and which MAC address a neighbour has.

`max_ip_payload` subtracts 20 from a 16-bit MTU in `int` and then masks the
result as a 64-bit `size_t`, so an MTU below 20 gives a huge number
(`maxIpPayload_of_lt`) and one below 28 gives zero.
-/

import TcpIpStack.Lib.Assoc
import TcpIpStack.Tcp.Bookkeeping
import TcpIpStack.Wire.Addresses

namespace TcpIpStack

/-- `ipv4_prefix_mask`. -/
def ipv4PrefixMask (prefixLength : UInt8) : UInt32 :=
  if prefixLength = 0 then 0
  else if 32 ≤ prefixLength then 0xFFFFFFFF
  else 0xFFFFFFFF <<< (32 - prefixLength).toUInt32

/-- `InterfaceConfig`. -/
structure InterfaceConfig where
  mac : MacAddress
  ip : IPv4Address := {}
  prefixLength : UInt8 := 24
  gateway : IPv4Address := {}
  mtu : UInt16 := 1500
deriving DecidableEq

namespace InterfaceConfig

def hasAddress (config : InterfaceConfig) : Bool := config.ip ≠ {}
def hasGateway (config : InterfaceConfig) : Bool := config.gateway ≠ {}

/-- `max_ip_payload`: `mtu - 20` as a `size_t`, without its lowest three bits. -/
def maxIpPayload (config : InterfaceConfig) : ℕ := (2 ^ 64 + config.mtu.toNat - 20) % 2 ^ 64 / 8 * 8

/-- `local_mss`. -/
def localMss (config : InterfaceConfig) : UInt16 := config.mtu - 20 - 20

theorem maxIpPayload_of_le (config : InterfaceConfig) (h : 20 ≤ config.mtu.toNat) :
    config.maxIpPayload = (config.mtu.toNat - 20) / 8 * 8 := by
  have hmtu := config.mtu.toNat_lt
  unfold maxIpPayload
  omega

theorem maxIpPayload_of_lt {config : InterfaceConfig} (h : config.mtu.toNat < 20) :
    2 ^ 64 - 24 ≤ config.maxIpPayload := by
  unfold maxIpPayload
  omega

end InterfaceConfig

/-- `limited_broadcast_address`. -/
def limitedBroadcastAddress : IPv4Address := ⟨0xFFFFFFFF⟩

/-- `is_broadcast_address`: the limited broadcast, or the directed one of the
network that the interface is on. -/
def isBroadcastAddress (ip : IPv4Address) (config : InterfaceConfig) : Bool :=
  if ip.value = 0xFFFFFFFF then true
  else if config.hasAddress then
    let mask := ipv4PrefixMask config.prefixLength
    ip.value = (config.ip.value &&& mask) ||| ~~~mask
  else false

/-- `RouteTable::Route`.  A zero next hop marks a network that is directly
reachable. -/
structure Route where
  destination : IPv4Address
  prefixLength : UInt8
  nextHop : IPv4Address
  interfaceIndex : ℕ
deriving DecidableEq

/-- `RouteTable`. -/
structure RouteTable where
  routes : List Route := []
deriving DecidableEq

namespace RouteTable

/-- The network of an address. -/
def masked (ip : IPv4Address) (prefixLength : UInt8) : IPv4Address :=
  ⟨ip.value &&& ipv4PrefixMask prefixLength⟩

/-- The loop of `add`: the first route to the same network is replaced. -/
def replaceOrAppend (route : Route) : List Route → List Route
  | [] => [route]
  | existing :: rest =>
    if existing.prefixLength = route.prefixLength ∧ existing.destination = route.destination then
      route :: rest
    else existing :: replaceOrAppend route rest

/-- `add`. -/
def add (destination : IPv4Address) (prefixLength : UInt8) (nextHop : IPv4Address)
    (interfaceIndex : ℕ) (table : RouteTable) : RouteTable :=
  let prefixLength := if 32 < prefixLength then 32 else prefixLength
  ⟨replaceOrAppend ⟨masked destination prefixLength, prefixLength, nextHop, interfaceIndex⟩
    table.routes⟩

/-- The loop of `lookup`: the longest matching prefix so far, the earlier one of
two that are equally long. -/
def best (destination : IPv4Address) (table : RouteTable) : Option Route :=
  table.routes.foldl (fun best route =>
    if destination.value &&& ipv4PrefixMask route.prefixLength = route.destination.value then
      match best with
      | none => some route
      | some b => if b.prefixLength < route.prefixLength then some route else some b
    else best) none

/-- `lookup`: the address to resolve, and the interface to send by. -/
def lookup (destination : IPv4Address) (table : RouteTable) : Option (IPv4Address × ℕ) :=
  (table.best destination).map fun r =>
    (if r.nextHop = {} then destination else r.nextHop, r.interfaceIndex)

/-- A route covers a destination. -/
def Covers (destination : IPv4Address) (route : Route) : Prop :=
  destination.value &&& ipv4PrefixMask route.prefixLength = route.destination.value

/-- A route covers a destination, and no other does so with a longer prefix. -/
structure Longest (destination : IPv4Address) (routes : List Route) (route : Route) : Prop where
  mem : route ∈ routes
  covers : Covers destination route
  longest : ∀ r ∈ routes, Covers destination r → r.prefixLength ≤ route.prefixLength

/-- **The loop finds the longest prefix**, or no route covers the destination. -/
theorem longest_of_best {destination : IPv4Address} {table : RouteTable} :
    (table.best destination = none → ∀ r ∈ table.routes, ¬ Covers destination r) ∧
      ∀ route, table.best destination = some route → Longest destination table.routes route := by
  obtain ⟨routes⟩ := table
  unfold best
  -- the invariant of the loop, on the routes it has passed
  induction routes using List.reverseRecOn with
  | nil => exact ⟨fun _ => by simp, by simp⟩
  | append_singleton routes r ih =>
    rw [List.foldl_append, List.foldl_cons, List.foldl_nil]
    generalize List.foldl _ none routes = found at ih ⊢
    obtain ⟨hnone, hsome⟩ := ih
    by_cases hr : destination.value &&& ipv4PrefixMask r.prefixLength = r.destination.value
    · rw [if_pos hr]
      cases found with
      | none =>
        refine ⟨nofun, ?_⟩
        rintro _ ⟨⟩
        exact ⟨by simp, hr, List.forall_mem_append.2
          ⟨fun r' hr' hcovers => absurd hcovers (hnone rfl r' hr'), by simp⟩⟩
      | some b =>
        obtain ⟨hmem, hcovers, hlongest⟩ := hsome b rfl
        by_cases hlt : b.prefixLength < r.prefixLength
        · simp only [if_pos hlt]
          refine ⟨nofun, ?_⟩
          rintro _ ⟨⟩
          exact ⟨by simp, hr, List.forall_mem_append.2
            ⟨fun r' hr' hcovers => UInt8.le_trans (hlongest r' hr' hcovers) (UInt8.le_of_lt hlt), by simp⟩⟩
        · simp only [if_neg hlt]
          refine ⟨nofun, ?_⟩
          rintro _ ⟨⟩
          exact ⟨List.mem_append_left _ hmem, hcovers, List.forall_mem_append.2
            ⟨hlongest, List.forall_mem_singleton.2 fun _ => UInt8.not_lt.1 hlt⟩⟩
    · rw [if_neg hr]
      refine ⟨fun h => List.forall_mem_append.2 ⟨hnone h, List.forall_mem_singleton.2 hr⟩,
        fun route hroute => ?_⟩
      obtain ⟨hmem, hcovers, hlongest⟩ := hsome route hroute
      exact ⟨List.mem_append_left _ hmem, hcovers, List.forall_mem_append.2
        ⟨hlongest, List.forall_mem_singleton.2 fun hcovers => absurd hcovers hr⟩⟩

end RouteTable

/-- `ArpTable::Entry`. -/
structure ArpEntry where
  mac : MacAddress
  msRemaining : ℤ
  isStatic : Bool
deriving DecidableEq

/-- `ArpTable`. -/
structure ArpTable where
  entries : Assoc IPv4Address ArpEntry := ∅
  defaultTtlMs : ℤ

namespace ArpTable

def maxEntries : ℕ := 1024

/-- `contains`. -/
def contains (table : ArpTable) (ip : IPv4Address) : Bool := (table.entries.lookup ip).isSome

/-- `lookup`. -/
def lookup (table : ArpTable) (ip : IPv4Address) : Option MacAddress :=
  (table.entries.lookup ip).map ArpEntry.mac

/-- `learn`: a mapping that is there is replaced, and a full table takes no new
one. -/
def learn (ip : IPv4Address) (mac : MacAddress) (table : ArpTable) : ArpTable :=
  if table.contains ip ∨ table.entries.size < maxEntries then
    { table with entries := table.entries.insert ip ⟨mac, table.defaultTtlMs, false⟩ }
  else table

/-- `add_static`. -/
def addStatic (ip : IPv4Address) (mac : MacAddress) (table : ArpTable) : ArpTable :=
  { table with entries := table.entries.insert ip ⟨mac, 0, true⟩ }

/-- `refresh`. -/
def refresh (ip : IPv4Address) (table : ArpTable) : ArpTable :=
  match table.entries.lookup ip with
  | some entry =>
    if entry.isStatic then table
    else { table with entries :=
      table.entries.insert ip { entry with msRemaining := table.defaultTtlMs } }
  | none => table

theorem lookup_refresh (ip : IPv4Address) (table : ArpTable) : (table.refresh ip).lookup = table.lookup := by
  funext other
  unfold refresh
  cases hentry : table.entries.lookup ip with
  | none => rfl
  | some entry =>
    dsimp only
    split_ifs
    · rfl
    · by_cases hother : other = ip
      · subst hother
        simp [lookup, hentry]
      · simp [lookup, AList.lookup_insert_ne hother]

/-- What a turn of the loop of `age` leaves of an entry. -/
def ageEntry (elapsedMs : UInt32) (entry : ArpEntry) : Option ArpEntry :=
  if entry.isStatic then some entry
  else
    let remaining := entry.msRemaining - TcpConnection.asInt elapsedMs
    if remaining ≤ 0 then none else some { entry with msRemaining := remaining }

/-- `age`. -/
def age (elapsedMs : UInt32) (table : ArpTable) : ArpTable :=
  { table with entries := Assoc.filterMap (fun _ => ageEntry elapsedMs) table.entries }

end ArpTable

end TcpIpStack
