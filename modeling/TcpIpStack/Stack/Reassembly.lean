/-
# Fragmentation and reassembly are inverse

The frames that `_send_ip_packet` writes for a large payload, parsed and offered
to a reassembler in any order, give the payload back with the last of them
(`fragments_reassemble`).

What makes the order irrelevant is that the map of fragments holds exactly the
tiles offered so far, whatever their order (`Holding`): tiles do not overlap, the
last one alone knows the length, and as long as one is missing the rest is too
short to be complete.
-/

import TcpIpStack.Stack.Fragmentation

namespace TcpIpStack

open Programs StackM IpReassembler Tiling

namespace IpReassembler

/-! ### Completeness -/

/-- The loop of `_is_complete` succeeds on contiguous fragments. -/
theorem covered_eq_some {n m : ℕ} {l : List (ℕ × Bytes)} :
    covered n l = some m ↔ Contiguous n l ∧ m = n + (join l).length := by
  induction l generalizing n with
  | nil => simp [covered, Contiguous, eq_comm]
  | cons t l ih =>
    rw [covered, Contiguous, join_cons, List.length_append]
    split_ifs with h
    · simp [h]
    · rw [not_not] at h
      rw [ih]
      simp only [h, true_and, Nat.add_assoc]

/-- What a reassembler knows of a datagram when the tiles `offered` have arrived. -/
structure Holding (total : ℕ) (offered : List (ℕ × Bytes)) (p : PartialDatagram) : Prop where
  fragments : p.fragments.entries.Perm offered
  last : p.haveLast = true ↔ ∃ t ∈ offered, t.1 + t.2.length = total
  totalLength : p.haveLast = true → p.totalLength = total
  receivedBytes : p.receivedBytes = (join offered).length

section Tiles

variable {tiles offered rest : List (ℕ × Bytes)} {t : ℕ × Bytes} {p : PartialDatagram}

/-- A fragment that was kept. -/
theorem Holding.keep {total : ℕ} (h : Holding total offered p) (hnew : ∀ u ∈ offered, u.1 ≠ t.1)
    (hend : t.1 + t.2.length ≤ total) : Holding total (t :: offered)
      ((p.noteLast (decide (t.1 + t.2.length < total)) (t.1 + t.2.length)).keep t.1 t.2) := by
  have hkeys : ∀ a ∈ p.fragments.entries, a.1 ≠ t.1 := fun a ha => hnew a (h.fragments.subset ha)
  have hperm : (p.fragments.insert t.1 t.2).entries.Perm (t :: offered) :=
    (OrderedMap.insertEntry_perm hkeys).trans (h.fragments.cons _)
  have hbytes : p.receivedBytes + t.2.length = (join (t :: offered)).length := by
    rw [h.receivedBytes, join_cons, List.length_append, Nat.add_comm]
  unfold PartialDatagram.noteLast
  rcases Nat.lt_or_ge (t.1 + t.2.length) total with hmore | hlast
  · rw [if_pos (decide_eq_true hmore)]
    refine ⟨hperm, ?_, h.totalLength, hbytes⟩
    rw [List.exists_mem_cons_iff, or_iff_right (by omega)]
    exact h.last
  · rw [if_neg (by simpa using hlast)]
    exact ⟨hperm, ⟨fun _ => ⟨t, List.mem_cons_self, by omega⟩, fun _ => rfl⟩, fun _ => by
      show t.1 + t.2.length = total
      omega, hbytes⟩

/-- As long as a tile is missing, the datagram is not complete. -/
theorem Holding.not_isComplete (hne : ∀ u ∈ tiles, u.2 ≠ []) (h : Holding (join tiles).length offered p)
    (hperm : (offered ++ rest).Perm tiles) (hrest : rest ≠ []) : p.isComplete = false := by
  rw [← Bool.not_eq_true]
  intro hcomplete
  rw [PartialDatagram.isComplete, Bool.and_eq_true, beq_iff_eq, covered_eq_some] at hcomplete
  obtain ⟨hlast, -, hlength⟩ := hcomplete
  obtain ⟨u, us, rfl⟩ := List.exists_cons_of_ne_nil hrest
  have hu : u.2 ≠ [] := hne u (hperm.subset (by simp))
  have htotal := length_join_perm hperm
  have hoffered := length_join_perm h.fragments
  have hsplit : (join (offered ++ u :: us)).length =
      (join offered).length + (u.2.length + (join us).length) := by
    simp [join]
  have hpos := List.length_pos_iff.2 hu
  rw [h.totalLength hlast] at hlength
  omega

variable (hcontiguous : Contiguous 0 tiles) (hne : ∀ u ∈ tiles, u.2 ≠ [])

include hcontiguous hne

theorem entries_eq_of_perm {m : OrderedMap ℕ Bytes} (hperm : m.entries.Perm tiles) : m.entries = tiles := by
  have hsorted : tiles.Pairwise fun a b => a.1 < b.1 := by
    refine hcontiguous.pairwise.imp_of_mem fun {a b} ha _ hle => ?_
    have hpos := List.length_pos_iff.2 (hne a ha)
    omega
  exact hperm.eq_of_pairwise (fun a b _ _ hab hba => absurd hab (by omega)) m.sorted hsorted

/-- Once every tile has come, in any order, the bytes are those of the datagram. -/
theorem Holding.isComplete (h : Holding (join tiles).length offered p) (hperm : offered.Perm tiles)
    (hsome : tiles ≠ []) : p.isComplete = true ∧ p.assemble = join tiles := by
  have hentries := entries_eq_of_perm hcontiguous hne (h.fragments.trans hperm)
  obtain ⟨u, hu, hstop⟩ := hcontiguous.exists_stop hsome
  rw [Nat.zero_add] at hstop
  have hlast : p.haveLast = true := h.last.2 ⟨u, hperm.symm.subset hu, hstop⟩
  refine ⟨?_, by rw [PartialDatagram.assemble, hentries]; rfl⟩
  rw [PartialDatagram.isComplete, Bool.and_eq_true, beq_iff_eq, covered_eq_some, hentries,
    h.totalLength hlast, Nat.zero_add]
  exact ⟨hlast, hcontiguous, rfl⟩

theorem disjoint_of_perm (hperm : (t :: offered ++ rest).Perm tiles) :
    ∀ u ∈ offered, t.1 + t.2.length ≤ u.1 ∨ u.1 + u.2.length ≤ t.1 := by
  intro u hu
  have hnodup : (t :: offered ++ rest).Nodup := hperm.nodup_iff.2 (hcontiguous.nodup hne)
  have htu : t ≠ u := by
    rintro rfl
    exact (List.nodup_cons.1 hnodup).1 (List.mem_append_left _ hu)
  exact hcontiguous.disjoint (hperm.subset List.mem_cons_self)
    (hperm.subset (List.mem_cons_of_mem _ (List.mem_append_left _ hu))) htu

theorem Holding.not_overlaps (h : Holding (join tiles).length offered p)
    (hperm : (t :: offered ++ rest).Perm tiles) : ¬ p.overlaps t.1 (t.1 + t.2.length) = true := by
  rw [PartialDatagram.overlaps, List.any_eq_true]
  rintro ⟨u, hu, hoverlap⟩
  have hdisjoint := disjoint_of_perm hcontiguous hne hperm u (h.fragments.subset hu)
  rw [decide_eq_true_iff] at hoverlap
  omega

theorem start_ne_of_perm (hperm : (t :: offered ++ rest).Perm tiles) : ∀ u ∈ offered, u.1 ≠ t.1 := by
  intro u hu hstart
  have hdisjoint := disjoint_of_perm hcontiguous hne hperm u hu
  have ht := List.length_pos_iff.2 (hne t (hperm.subset List.mem_cons_self))
  have hu' := List.length_pos_iff.2
    (hne u (hperm.subset (List.mem_cons_of_mem _ (List.mem_append_left _ hu))))
  omega

/-- **A tile that is offered is kept**, and the last one completes the datagram. -/
theorem offerTo_tile {r : IpReassembler} (key : Key) {other : ℕ}
    (h : Holding (join tiles).length offered p) (hperm : (t :: offered ++ rest).Perm tiles)
    (hcount : tiles.length ≤ maxFragmentsPerDatagram) (hbytes : r.bufferedBytes = other + (join offered).length)
    (hbudget : other + (join tiles).length ≤ maxBufferedBytes) :
    ∃ r', r.offerTo key t.1 (decide (t.1 + t.2.length < (join tiles).length)) t.2 p =
        (if rest = [] then .complete (join tiles) else .incomplete, r') ∧
      (rest ≠ [] → r'.bufferedBytes = other + (join (t :: offered)).length ∧
        ∃ p', r'.partials.lookup key = some p' ∧ Holding (join tiles).length (t :: offered) p') := by
  have hbounds := hcontiguous.bounds t (hperm.subset List.mem_cons_self)
  rw [Nat.zero_add] at hbounds
  have hkeep := h.keep (start_ne_of_perm hcontiguous hne hperm) hbounds.2
  have hheld : p.fragments.entries.length < maxFragmentsPerDatagram := by
    have hlength := hperm.length_eq
    rw [h.fragments.length_eq]
    simp only [List.length_append, List.length_cons] at hlength
    omega
  have hfits : r.bufferedBytes + t.2.length ≤ maxBufferedBytes := by
    have htotal := length_join_perm hperm
    simp only [join, List.flatMap_append, List.flatMap_cons, List.length_append] at htotal hbytes hbudget
    omega
  have hagree : ¬ ((!decide (t.1 + t.2.length < (join tiles).length)) = true ∧ p.haveLast = true ∧
      p.totalLength ≠ t.1 + t.2.length) := by
    rintro ⟨hlast, hhave, hother⟩
    rw [h.totalLength hhave] at hother
    simp at hlast
    omega
  unfold offerTo
  dsimp only
  rw [if_neg (by omega), if_neg (h.not_overlaps hcontiguous hne hperm), if_neg hagree]
  generalize hnoted : p.noteLast _ _ = noted at hkeep ⊢
  have hwithin : ¬ (noted.haveLast = true ∧ noted.totalLength < t.1 + t.2.length) := by
    rintro ⟨hhave, hlt⟩
    have htotal : noted.totalLength = (join tiles).length := hkeep.totalLength hhave
    omega
  rw [if_neg hwithin]
  by_cases hrest : rest = []
  · subst hrest
    rw [List.append_nil] at hperm
    obtain ⟨hcomplete, hassemble⟩ := hkeep.isComplete hcontiguous hne hperm
      (fun hnil => List.cons_ne_nil _ _ (List.perm_nil.1 (hnil ▸ hperm)))
    exact ⟨_, by rw [if_pos hcomplete, hassemble, if_pos rfl], fun hne => absurd rfl hne⟩
  · have hincomplete := hkeep.not_isComplete hne hperm hrest
    refine ⟨_, by rw [if_neg (by rw [hincomplete]; exact Bool.false_ne_true), if_neg hrest], fun _ => ⟨?_, ?_⟩⟩
    · dsimp only
      rw [hbytes, join_cons, List.length_append]
      omega
    · exact ⟨_, AList.lookup_insert _, hkeep⟩

/-- A reassembler that has been offered some of the tiles. -/
def Awaits (key : Key) (other total : ℕ) (offered : List (ℕ × Bytes)) (r : IpReassembler) : Prop :=
  r.bufferedBytes = other + (join offered).length ∧
    (offered = [] ∧ r.partials.lookup key = none ∧ r.partials.size < maxPendingDatagrams ∨
      ∃ p, r.partials.lookup key = some p ∧ Holding total offered p)

/-- The same for `offer`, which makes the partial datagram when it is not there. -/
theorem offer_tile {r : IpReassembler} {key : Key} {other : ℕ} {fragmentOffset : UInt16}
    (h : Awaits key other (join tiles).length offered r) (hperm : (t :: offered ++ rest).Perm tiles)
    (hcount : tiles.length ≤ maxFragmentsPerDatagram) (hbudget : other + (join tiles).length ≤ maxBufferedBytes)
    (hlength : (join tiles).length ≤ maxDatagramBytes) (hoffset : fragmentOffset.toNat * 8 = t.1) :
    ∃ r', r.offer key.source key.destination key.identification key.protocol fragmentOffset
        (decide (t.1 + t.2.length < (join tiles).length)) t.2 =
        (if rest = [] then .complete (join tiles) else .incomplete, r') ∧
      (rest ≠ [] → Awaits key other (join tiles).length (t :: offered) r') := by
  obtain ⟨hbytes, hpartial⟩ := h
  have hkey : (⟨key.source, key.destination, key.identification, key.protocol⟩ : Key) = key := rfl
  have hbounds := hcontiguous.bounds t (hperm.subset List.mem_cons_self)
  rw [Nat.zero_add] at hbounds
  have hstart : ¬ (t.2 = [] ∨ maxDatagramBytes < fragmentOffset.toNat * 8 + t.2.length) := by
    rw [not_or]
    exact ⟨hne t (hperm.subset List.mem_cons_self), by omega⟩
  unfold offer
  dsimp only
  rw [if_neg hstart, hoffset, hkey]
  rcases hpartial with ⟨rfl, hnone, hsize⟩ | ⟨p, hsome, hold⟩
  · have hroom : ¬ (maxPendingDatagrams ≤ r.partials.size ∨
        maxBufferedBytes < r.bufferedBytes + t.2.length) := by
      rw [join_nil, List.length_nil] at hbytes
      omega
    have hfresh : Holding (join tiles).length [] (.fresh r.timeoutMs key.source) :=
      ⟨List.Perm.refl _, by simp [PartialDatagram.fresh], nofun, rfl⟩
    have hmade : ({ r with partials := r.partials.insert key (.fresh r.timeoutMs key.source) } :
        IpReassembler).bufferedBytes = other + (join []).length := hbytes
    obtain ⟨r', hoffer, hkept⟩ :=
      offerTo_tile hcontiguous hne key hfresh hperm hcount hmade hbudget
    rw [hnone]
    dsimp only
    rw [if_neg hroom]
    exact ⟨r', hoffer, fun hrest => ⟨(hkept hrest).1, .inr (hkept hrest).2⟩⟩
  · obtain ⟨r', hoffer, hkept⟩ :=
      offerTo_tile hcontiguous hne key hold hperm hcount hbytes hbudget
    rw [hsome]
    exact ⟨r', hoffer, fun hrest => ⟨(hkept hrest).1, .inr (hkept hrest).2⟩⟩

end Tiles

end IpReassembler

/-! ### From the wire to the reassembler -/

/-- The IP packet of a frame. -/
def ipOfFrame (frame : Bytes) : Option Ip :=
  match Ethernet.fromBytes frame with
  | .ok ⟨_, _, _, .ip ip⟩ => some ip
  | _ => none

/-- Frames parsed and offered one after the other. -/
def offerFrames : List Bytes → IpReassembler → Option (List Result × IpReassembler)
  | [], r => some ([], r)
  | frame :: frames, r => do
    let ip ← ipOfFrame frame
    let (result, r) ← ip.offerTo r
    let (results, r) ← offerFrames frames r
    return (result :: results, r)

/-- What a receiver sees of a packet: its addresses, its protocol and TTL, and
what it carries. -/
def Ip.view (ip : Ip) : IPv4Address × IPv4Address × UInt8 × UInt8 × Option IpLayer :=
  (ip.srcAddress, ip.destAddress, ip.protocol, ip.ttl, ip.nextLayer)

section Wire

variable {src dest : IPv4Address} {protocol : UInt8} {identification : UInt16} {flags : UInt8}
  {fragmentOffset : UInt16} {payload : Bytes}

theorem ipOfFrame_ipPacket (srcMac destMac : MacAddress) (nextHop : IPv4Address)
    (hpayload : payload.length ≤ 65515) (hoffset : fragmentOffset.toNat < 2 ^ 13)
    (hfragment : flags &&& 0xE0 &&& Ip.flagMoreFragments ≠ 0 ∨ fragmentOffset ≠ 0) :
    ipOfFrame (ipFrame srcMac destMac nextHop
        (ipPacket src dest protocol identification flags fragmentOffset payload)).frame.toBytes =
      some (ipPacket src dest protocol identification flags fragmentOffset payload) := by
  rw [ipOfFrame, ipFrame, Ethernet.fromBytes_ip, ipPacket, Ip.fromBytes_build hpayload hoffset,
    Ip.parseLayer, if_pos hfragment]
  rfl

theorem view_reassembled (hpayload : payload.length ≤ 65515) (ip : Ip) (httl : ip.ttl = 64) :
    (Ip.fromBytes (ip.reassembled payload).toBytes).map Ip.view =
      (Ip.fromBytes (ipPacket ip.srcAddress ip.destAddress ip.protocol 0 0 0 payload).toBytes).map
        Ip.view := by
  rw [Ip.reassembled, ipPacket, Ip.fromBytes_build hpayload (by decide),
    Ip.fromBytes_build hpayload (by decide), httl]
  cases Ip.parseLayer (0 &&& 0xE0) 0 ip.protocol payload <;> rfl

theorem verifyChecksum_reassembled (hpayload : payload.length ≤ 65515) (ip : Ip) {complete : Ip}
    (h : Ip.fromBytes (ip.reassembled payload).toBytes = .ok complete) : complete.verifyChecksum = true := by
  rw [Ip.reassembled, Ip.fromBytes_build hpayload (by decide)] at h
  cases hlayer : Ip.parseLayer (0 &&& 0xE0) 0 ip.protocol payload with
  | error what =>
    rw [hlayer] at h
    cases h
  | ok layer =>
    rw [hlayer] at h
    cases h
    exact Ip.verifyChecksum_build layer

end Wire

/-! ### Any order -/

/-- The tiles of a datagram that `_send_ip_packet` fragments. -/
structure Fragmented (tiles : List (ℕ × Bytes)) : Prop where
  contiguous : Contiguous 0 tiles
  ne_nil : ∀ t ∈ tiles, t.2 ≠ []
  aligned : ∀ t ∈ tiles, 8 ∣ t.1
  length : (join tiles).length ≤ maxDatagramBytes
  several : 2 ≤ tiles.length
  count : tiles.length ≤ maxFragmentsPerDatagram

namespace Fragmented

variable {tiles : List (ℕ × Bytes)} {t : ℕ × Bytes}

theorem toNat_offset (h : Fragmented tiles) (ht : t ∈ tiles) :
    (UInt16.ofNat (t.1 / 8)).toNat * 8 = t.1 ∧ (UInt16.ofNat (t.1 / 8)).toNat < 2 ^ 13 := by
  have hbounds := h.contiguous.bounds t ht
  have hlength := h.length
  have haligned := h.aligned t ht
  unfold maxDatagramBytes at hlength
  rw [UInt16.toNat_ofNat', Nat.mod_eq_of_lt (by omega)]
  omega

/-- The last of several fragments does not start the datagram. -/
theorem start_ne_zero (h : Fragmented tiles) (ht : t ∈ tiles)
    (hstop : (join tiles).length ≤ t.1 + t.2.length) : t.1 ≠ 0 := by
  have hnodup := h.contiguous.nodup h.ne_nil
  obtain ⟨u, hu, hut⟩ : ∃ u ∈ tiles, u ≠ t := by
    by_contra hall
    push Not at hall
    have hlength := (List.nodup_iff_count_le_one.1 hnodup) t
    rw [List.count_eq_length.2 fun u hu => (hall u hu).symm] at hlength
    have hseveral := h.several
    omega
  have hdisjoint := h.contiguous.disjoint hu ht hut
  have hbounds := h.contiguous.bounds u hu
  have hpos := List.length_pos_iff.2 (h.ne_nil u hu)
  omega

theorem isFragment (h : Fragmented tiles) (ht : t ∈ tiles) :
    (if t.1 + t.2.length < (join tiles).length then Ip.flagMoreFragments else 0) &&& 0xE0 &&&
      Ip.flagMoreFragments ≠ 0 ∨ UInt16.ofNat (t.1 / 8) ≠ 0 := by
  rcases Nat.lt_or_ge (t.1 + t.2.length) (join tiles).length with hmore | hlast
  · rw [if_pos hmore]
    exact .inl (by decide)
  · refine .inr fun hzero => h.start_ne_zero ht hlast ?_
    have hoffset := (h.toNat_offset ht).1
    rw [hzero] at hoffset
    exact hoffset.symm

end Fragmented

section Order

variable {tiles : List (ℕ × Bytes)} {t : ℕ × Bytes} (src dest : IPv4Address) (protocol : UInt8)
  (identification : UInt16)

theorem ipOfFrame_fragmentPacket (h : Fragmented tiles) (ht : t ∈ tiles)
    (srcMac destMac : MacAddress) (nextHop : IPv4Address) : ipOfFrame (ipFrame srcMac destMac nextHop
        (fragmentPacket src dest protocol identification (join tiles).length t)).frame.toBytes =
      some (fragmentPacket src dest protocol identification (join tiles).length t) := by
  have hbounds := h.contiguous.bounds t ht
  have hlength := h.length
  unfold maxDatagramBytes at hlength
  exact ipOfFrame_ipPacket srcMac destMac nextHop (by omega) (h.toNat_offset ht).2 (h.isFragment ht)

theorem offerTo_fragmentPacket (r : IpReassembler) :
    (fragmentPacket src dest protocol identification (join tiles).length t).offerTo r =
      some (r.offer src dest identification protocol (UInt16.ofNat (t.1 / 8))
        (decide (t.1 + t.2.length < (join tiles).length)) t.2) := by
  rw [← getIpFlagM_fragmentPacket]
  rfl

/-- **The tiles that are left complete the datagram**, in whatever order they
come. -/
theorem offerFrames_tiles (h : Fragmented tiles) (srcMac destMac : MacAddress) (nextHop : IPv4Address)
    {other : ℕ} (hbudget : other + (join tiles).length ≤ maxBufferedBytes)
    {offered rest : List (ℕ × Bytes)} (hperm : (offered ++ rest).Perm tiles) (hrest : rest ≠ [])
    {r : IpReassembler} (hr : Awaits ⟨src, dest, identification, protocol⟩ other (join tiles).length offered r) :
    ∃ r', offerFrames (rest.map fun t => (ipFrame srcMac destMac nextHop
        (fragmentPacket src dest protocol identification (join tiles).length t)).frame.toBytes) r =
      some (List.replicate (rest.length - 1) .incomplete ++ [.complete (join tiles)], r') := by
  induction rest generalizing offered r with
  | nil => exact absurd rfl hrest
  | cons t rest ih =>
    have hperm' : (t :: offered ++ rest).Perm tiles := List.perm_middle.symm.trans hperm
    have ht : t ∈ tiles := hperm'.subset List.mem_cons_self
    obtain ⟨r₁, hoffer, hawaits⟩ := offer_tile h.contiguous h.ne_nil hr hperm' h.count hbudget h.length
      (h.toNat_offset ht).1
    rw [List.map_cons, offerFrames, ipOfFrame_fragmentPacket src dest protocol identification h ht]
    simp only [Option.bind_eq_bind, Option.bind_some, offerTo_fragmentPacket, hoffer]
    by_cases hlast : rest = []
    · subst hlast
      exact ⟨r₁, rfl⟩
    · obtain ⟨r', hrest⟩ := ih hperm' hlast (hawaits hlast)
      have hlength := List.length_pos_iff.2 hlast
      refine ⟨r', ?_⟩
      rw [hrest, if_neg hlast, Option.bind_some, List.length_cons, Nat.add_sub_cancel]
      conv_rhs => rw [← Nat.sub_add_cancel hlength, List.replicate_succ]
      rfl

end Order

section Send

variable {s : NetworkStack} {destIp nextHop : IPv4Address} {egress : ℕ} {interface : Interface}
  {mac : MacAddress}

/-- What `send_ip_packet` cuts is what the reassembler takes. -/
theorem fragmented_cut {maxIpPayload : ℕ} {payload : Bytes} (hmax : 0 < maxIpPayload)
    (haligned : 8 ∣ maxIpPayload) (hpayload : payload.length ≤ maxDatagramBytes)
    (hseveral : 2 ≤ (cut maxIpPayload payload).length)
    (hcount : (cut maxIpPayload payload).length ≤ maxFragmentsPerDatagram) :
    Fragmented (cut maxIpPayload payload) where
  contiguous := contiguous_cut hmax
  ne_nil _ ht := ne_nil_of_mem_cut hmax ht
  aligned _ ht := haligned.trans (mem_cut ht).2.2
  length := by rwa [join_cut hmax]
  several := hseveral
  count := hcount

/-- A fragment tells its datagram: what is rebuilt around the payload is read like
the payload sent whole, and its header checksum verifies. -/
def Rebuilds (src dest : IPv4Address) (protocol : UInt8) (payload : Bytes) (frame : Bytes) : Prop :=
  ∃ ip, ipOfFrame frame = some ip ∧
    (Ip.fromBytes (ip.reassembled payload).toBytes).map Ip.view =
      (Ip.fromBytes (ipPacket src dest protocol 0 0 0 payload).toBytes).map Ip.view ∧
    ∀ complete, Ip.fromBytes (ip.reassembled payload).toBytes = .ok complete →
      complete.verifyChecksum = true

/-- **Fragmentation and reassembly are inverse.**  A payload that does not fit one
frame, and fits 128, is cut into as many frames as it takes.  Offered in any order
to a reassembler that has room, the last one completes the payload. -/
theorem fragments_reassemble (hroute : s.routeFor destIp = some (nextHop, egress))
    (hinterface : s.interface? egress = some interface) (hmac : interface.resolve nextHop = some mac)
    (protocol : UInt8) (payload : Bytes) (hpayload : payload.length ≤ 65515)
    (hmtu : 28 ≤ interface.config.mtu.toNat) (hlarge : interface.config.maxIpPayload < payload.length)
    (hfew : payload.length ≤ 128 * interface.config.maxIpPayload) :
    ∃ s' frames, (sendIpPacket destIp protocol payload false).run s = .ok () s' ∧
      (s'.interface? egress).map Interface.written = some (interface.written ++ frames) ∧
      frames.length = (payload.length + interface.config.maxIpPayload - 1) /
        interface.config.maxIpPayload ∧
      (∀ order : List Written, order.Perm frames → ∀ r : IpReassembler,
        r.partials.lookup ⟨interface.config.ip, destIp, s.nextIpId, protocol⟩ = none →
        r.partials.size ≤ 63 → r.bufferedBytes + payload.length ≤ maxBufferedBytes →
        ∃ r', offerFrames (order.map fun w => w.frame.toBytes) r =
          some (List.replicate (frames.length - 1) .incomplete ++ [.complete payload], r')) ∧
      ∀ w ∈ frames, Rebuilds interface.config.ip destIp protocol payload w.frame.toBytes := by
  have hmax := interface.config.maxIpPayload_of_le (by omega)
  have hpos : 0 < interface.config.maxIpPayload := by omega
  have haligned : 8 ∣ interface.config.maxIpPayload := by omega
  have hlength := length_cut (l := payload) hpos
  have hseveral : 2 ≤ (cut interface.config.maxIpPayload payload).length := by
    rw [hlength, Nat.le_div_iff_mul_le hpos]
    omega
  have hcount : (cut interface.config.maxIpPayload payload).length ≤ maxFragmentsPerDatagram := by
    rw [hlength, ← Nat.lt_succ_iff, Nat.div_lt_iff_lt_mul hpos, maxFragmentsPerDatagram]
    omega
  have hrun := run_sendIpPacket hroute hinterface hmac protocol payload false
  rw [if_neg (by omega), if_neg Bool.false_ne_true, fragments_eq hpos (by omega)] at hrun
  refine ⟨_, ((cut interface.config.maxIpPayload payload).map (fragmentPacket interface.config.ip destIp
    protocol s.nextIpId payload.length)).map (ipFrame interface.config.mac mac nextHop), hrun, ?_, ?_⟩
  · exact written_append (s := { s with nextIpId := s.nextIpId + 1 }) hinterface _
  · rw [List.length_map, List.length_map]
    refine ⟨hlength, ?_⟩
    have htiles := fragmented_cut hpos haligned (by exact hpayload.trans (by decide)) hseveral hcount
    have hjoin : join (cut interface.config.maxIpPayload payload) = payload := join_cut hpos
    rw [List.map_map]
    constructor
    · intro order horder r hnone hsize hbudget
      obtain ⟨tiles, rfl, hperm⟩ := (congrFun₂ (List.eq_map_comp_perm _) order _).mpr horder
      have hrest : tiles ≠ [] := by
        rintro rfl
        rw [← hperm.length_eq] at hseveral
        exact absurd hseveral (by simp)
      have hawaits : Awaits ⟨interface.config.ip, destIp, s.nextIpId, protocol⟩ r.bufferedBytes
          (join (cut interface.config.maxIpPayload payload)).length [] r :=
        ⟨rfl, .inl ⟨rfl, hnone, by unfold maxPendingDatagrams; omega⟩⟩
      obtain ⟨r', hoffer⟩ := offerFrames_tiles interface.config.ip destIp protocol s.nextIpId htiles
        interface.config.mac mac nextHop (by rwa [hjoin]) (by exact hperm) hrest hawaits
      rw [hjoin, hperm.length_eq] at hoffer
      refine ⟨r', ?_⟩
      rw [List.map_map, ← hoffer]
      rfl
    · intro w hw
      obtain ⟨t, ht, rfl⟩ := List.mem_map.1 hw
      have hparse := ipOfFrame_fragmentPacket interface.config.ip destIp protocol s.nextIpId htiles ht
        interface.config.mac mac nextHop
      rw [hjoin] at hparse
      exact ⟨_, hparse, view_reassembled hpayload _ rfl,
        fun complete => verifyChecksum_reassembled hpayload _⟩

end Send

/-- Nine octets on the smallest link: two frames, offered in the wrong order. -/
theorem nine_octets_reassemble :
    ∃ s' frames r', (sendIpPacket limitedBroadcastAddress 253 [1, 2, 3, 4, 5, 6, 7, 8, 9] false).run
        (stackOnLink 28) = .ok () s' ∧
      s'.primary.written = frames ∧ frames.length = 2 ∧
      offerFrames (frames.reverse.map fun w => w.frame.toBytes) (stackOnLink 28).reassembler =
        some ([.incomplete, .complete [1, 2, 3, 4, 5, 6, 7, 8, 9]], r') := by
  have hroute : (stackOnLink 28).routeFor limitedBroadcastAddress = some (limitedBroadcastAddress, 0) := rfl
  have hprimary : (stackOnLink 28).interface? 0 = some (stackOnLink 28).primary := rfl
  obtain ⟨s', frames, hrun, hwritten, hlength, hoffered, -⟩ := fragments_reassemble hroute hprimary rfl
    253 [1, 2, 3, 4, 5, 6, 7, 8, 9] (by decide) (by decide) (by decide +kernel) (by decide +kernel)
  have htwo : frames.length = 2 := hlength.trans (by decide +kernel)
  obtain ⟨r', hoffer⟩ := hoffered frames.reverse frames.reverse_perm (stackOnLink 28).reassembler rfl
    (by decide) (by decide)
  rw [htwo] at hoffer
  exact ⟨s', frames, r', hrun, Option.some.inj hwritten, htwo, hoffer⟩

end TcpIpStack
