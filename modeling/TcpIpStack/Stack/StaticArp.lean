/-
# Static neighbours

`add_static_arp_entry` is for a neighbour whose MAC address must not change.
`refresh` and `age` leave a static entry alone, but `learn` replaces whatever is
there: one ARP packet for this host with the address of the neighbour in its
sender field takes the entry over (`static_entry_taken_over`).

Without such a packet the entry stays, and every packet that is handed to the
neighbour has its MAC address (`static_entry_kept`), unless the address is a
broadcast of the link, which is never looked up.
-/

import TcpIpStack.Stack.TableConsistency

namespace TcpIpStack

open Runs

namespace ArpTable

/-- The table has a static entry. -/
def HasStatic (ip : IPv4Address) (mac : MacAddress) (table : ArpTable) : Prop :=
  ∃ entry, table.entries.lookup ip = some entry ∧ entry.mac = mac ∧ entry.isStatic = true

section

variable {ip ip' : IPv4Address} {mac mac' : MacAddress} {table : ArpTable}

theorem hasStatic_addStatic (ip : IPv4Address) (mac : MacAddress) (table : ArpTable) :
    HasStatic ip mac (table.addStatic ip mac) :=
  ⟨⟨mac, 0, true⟩, AList.lookup_insert _, rfl, rfl⟩

theorem HasStatic.lookup (h : HasStatic ip mac table) : table.lookup ip = some mac := by
  obtain ⟨entry, hentry, rfl, -⟩ := h
  rw [ArpTable.lookup, hentry, Option.map_some]

theorem HasStatic.learn (h : HasStatic ip mac table) (hne : ip ≠ ip') :
    HasStatic ip mac (table.learn ip' mac') := by
  obtain ⟨entry, hentry, hmac, hstatic⟩ := h
  unfold ArpTable.learn
  split_ifs
  · exact ⟨entry, by rw [Assoc.lookup_insert_eq, if_neg hne, hentry], hmac, hstatic⟩
  · exact ⟨entry, hentry, hmac, hstatic⟩

theorem HasStatic.refresh (h : HasStatic ip mac table) (ip' : IPv4Address) :
    HasStatic ip mac (table.refresh ip') := by
  obtain ⟨entry, hentry, hmac, hstatic⟩ := h
  unfold ArpTable.refresh
  split
  · next entry' hentry' =>
    split_ifs with hother
    · exact ⟨entry, hentry, hmac, hstatic⟩
    · refine ⟨entry, ?_, hmac, hstatic⟩
      rw [Assoc.lookup_insert_eq, if_neg, hentry]
      rintro rfl
      rw [hentry] at hentry'
      cases hentry'
      exact hother hstatic
  · exact ⟨entry, hentry, hmac, hstatic⟩

theorem HasStatic.age (h : HasStatic ip mac table) (elapsedMs : UInt32) :
    HasStatic ip mac (table.age elapsedMs) := by
  obtain ⟨entry, hentry, hmac, hstatic⟩ := h
  refine ⟨entry, ?_, hmac, hstatic⟩
  rw [ArpTable.age, Assoc.lookup_filterMap, hentry, Option.bind_some, ageEntry, if_pos hstatic]

end

end ArpTable

/-- The primary interface has a static entry and its configuration, and what was
written since then to the neighbour has the MAC address of the entry. -/
structure KeepsStatic (ip : IPv4Address) (mac : MacAddress) (config : InterfaceConfig)
    (before : List Written) (s : NetworkStack) : Prop where
  entry : s.primary.arpTable.HasStatic ip mac
  config : s.primary.config = config
  frames : ∃ written, s.primary.written = before ++ written ∧
    ∀ w ∈ written, w.nextHop = some ip → w.frame.dest = mac

/-- The frame is for nobody in particular, or has the address of its next hop. -/
def Addressed (s : NetworkStack) (index : ℕ) (w : Written) : Prop :=
  ∀ ip, w.nextHop = some ip → ∃ interface, s.interface? index = some interface ∧
    (interface.resolve ip = some w.frame.dest ∨ interface.arpTable.lookup ip = some w.frame.dest)

section

variable {ip : IPv4Address} {mac : MacAddress} {config : InterfaceConfig} {before : List Written}
  {a : Step} {s₀ s s' : NetworkStack}

theorem Origin.addressed {index : ℕ} {w : Written} (h : Origin a s₀ s index w) : Addressed s index w := by
  cases h with
  | packet hop destIp protocol bytes dontFragment identification packet hhop hegress =>
    obtain ⟨-, interface, hinterface, -, hmac⟩ := NetworkStack.hopFor_eq_some.1 hhop
    rintro _ ⟨⟩
    exact ⟨interface, hegress ▸ hinterface, .inl hmac⟩
  | arp => exact nofun
  | passedOn packet ipBytes nextHop out mac hs hforwards hmac =>
    subst hs
    rintro _ ⟨⟩
    exact ⟨out, hforwards.interface, .inr hmac⟩

/-- A change of an interface that keeps the entry, the configuration and what was
written. -/
theorem KeepsStatic.modifyInterface (h : KeepsStatic ip mac config before s) (index : ℕ)
    {f : Interface → Interface} (hentry : (f s.primary).arpTable.HasStatic ip mac)
    (hconfig : (f s.primary).config = s.primary.config) (hwritten : (f s.primary).written = s.primary.written) :
    KeepsStatic ip mac config before (s.modifyInterface index f) := by
  cases index with
  | zero => exact ⟨hentry, hconfig.trans h.config, hwritten.symm ▸ h.frames⟩
  | succ index => exact ⟨h.entry, h.config, h.frames⟩

/-- Frames are written: those for the neighbour have its MAC address. -/
theorem KeepsStatic.append (h : KeepsStatic ip mac config before s)
    (hbroadcast : isBroadcastAddress ip config = false) {index : ℕ} {written : List Written}
    (haddressed : ∀ w ∈ written, Addressed s index w) :
    KeepsStatic ip mac config before (s.modifyInterface index (Interface.append written)) := by
  cases index with
  | succ index => exact ⟨h.entry, h.config, h.frames⟩
  | zero =>
    obtain ⟨old, hold, hframes⟩ := h.frames
    refine ⟨h.entry, h.config, old ++ written, ?_, fun w hw hnextHop => ?_⟩
    · change s.primary.written ++ written = _
      rw [hold, List.append_assoc]
    · rcases List.mem_append.1 hw with hw | hw
      · exact hframes w hw hnextHop
      · obtain ⟨interface, hinterface, hmac⟩ := haddressed w hw ip hnextHop
        obtain rfl : s.primary = interface := Option.some.inj hinterface
        have hlookup := h.entry.lookup
        rw [Interface.resolve, h.config, hbroadcast, if_neg Bool.false_ne_true, hlookup, or_self] at hmac
        exact (Option.some.inj hmac).symm

theorem KeepsStatic.change (h : KeepsStatic ip mac config before s)
    (hbroadcast : isBroadcastAddress ip config = false)
    (hsender : ∀ arp, a.Carries 0 arp → arp.targetProtocolAddress = config.ip →
      arp.senderProtocolAddress ≠ ip)
    (hchange : LinkChange a s₀ s s') : KeepsStatic ip mac config before s' := by
  cases hchange with
  | write index written horigin => exact h.append hbroadcast fun w hw => (horigin w hw).addressed
  | learn index interface arp hcarries hinterface htarget =>
    cases index with
    | succ index => exact ⟨h.entry, h.config, h.frames⟩
    | zero =>
      obtain rfl : s.primary = interface := Option.some.inj hinterface
      refine h.modifyInterface 0 (h.entry.learn ?_) rfl rfl
      exact (hsender arp hcarries (htarget.trans (congrArg _ h.config))).symm
  | refresh index ip' => exact h.modifyInterface index (h.entry.refresh ip') rfl rfl
  | age elapsedMs => exact ⟨h.entry.age elapsedMs, h.config, h.frames⟩
  | request index ip' request => exact h.modifyInterface index h.entry rfl rfl
  | waiting index f _ hf =>
    obtain ⟨hconfig, htable, hwritten, -⟩ := hf s.primary
    exact h.modifyInterface index (htable ▸ h.entry) hconfig hwritten
  | records | reassemble | budget | counters => exact ⟨h.entry, h.config, h.frames⟩

theorem KeepsStatic.path (h : KeepsStatic ip mac config before s)
    (hbroadcast : isBroadcastAddress ip config = false)
    (hsender : ∀ arp, a.Carries 0 arp → arp.targetProtocolAddress = config.ip →
      arp.senderProtocolAddress ≠ ip)
    (ha : ¬ a.Configures) (hpath : Path a s₀ s s') : KeepsStatic ip mac config before s' := by
  induction hpath with
  | refl => exact h
  | tail _ hchange ih =>
    cases hchange with
    | link _ hlink => exact ih.change hbroadcast hsender hlink
    | table f => exact ⟨ih.entry, ih.config, ih.frames⟩
    | configure _ hconfigures => exact absurd hconfigures ha

/-- **A static entry is kept** in every run without a configuration call, if its
address is not a broadcast of the link and no ARP packet for this host on the link
has the address in its sender field: the address is still mapped, and what was
written to that neighbour since has its MAC address. -/
theorem static_entry_kept {steps : List Step} (hconfigures : ∀ a ∈ steps, ¬ a.Configures)
    (hbroadcast : isBroadcastAddress ip s.primary.config = false)
    (hsender : ∀ a ∈ steps, ∀ arp, a.Carries 0 arp → arp.targetProtocolAddress = s.primary.config.ip →
      arp.senderProtocolAddress ≠ ip)
    (h : runs Step.run steps (s.addStaticArpEntry ip mac) = some s') :
    s'.primary.arpTable.lookup ip = some mac ∧
      ∃ written, s'.primary.written = s.primary.written ++ written ∧
        ∀ w ∈ written, w.nextHop = some ip → w.frame.dest = mac := by
  have hstart : KeepsStatic ip mac s.primary.config s.primary.written (s.addStaticArpEntry ip mac) :=
    ⟨ArpTable.hasStatic_addStatic .., rfl, [], (List.append_nil _).symm, by simp⟩
  have hsteps (a : Step) (ha : a ∈ steps) : ¬ a.Configures ∧ ∀ arp, a.Carries 0 arp →
      arp.targetProtocolAddress = s.primary.config.ip → arp.senderProtocolAddress ≠ ip :=
    ⟨hconfigures a ha, hsender a ha⟩
  have hkeeps := runs_invariant (I := KeepsStatic ip mac s.primary.config s.primary.written)
    (fun a s s' hs ha hrun => hs.path hbroadcast ha.1.2 ha.1.1 (Step.run_path hrun)) hstart
    (along_true.and_of_forall hsteps) h
  exact ⟨hkeeps.entry.lookup, hkeeps.frames⟩

end

/-- The MAC address that the neighbour is pinned to. -/
def pinnedMac : MacAddress := ⟨[2, 0, 0, 0, 0, 9], rfl⟩

/-- A minute passes, and a segment for a port where nothing listens is answered. -/
def pinnedSteps : List Step := [.timePassed 60000, neighbourSends 5000 80 flagSyn 7 0]

theorem pinned_neighbour_kept :
    ∃ s, runs Step.run pinnedSteps (host.addStaticArpEntry neighbourIp pinnedMac) = some s ∧
      s.primary.arpTable.lookup neighbourIp = some pinnedMac ∧
      s.primary.written.map (fun w => (w.nextHop, w.frame.dest)) = [(some neighbourIp, pinnedMac)] := by
  refine ⟨_, (Option.some_get (by decide +kernel)).symm,
    (static_entry_kept ?_ (by decide) ?_ (Option.some_get _).symm).1, by decide +kernel⟩
  · simp [pinnedSteps, neighbourSends, Step.Configures]
  · rintro a ha arp ⟨bytes, src, dest, etherType, rfl, hparse⟩
    have hframe : Step.frame 0 bytes = neighbourSends 5000 80 flagSyn 7 0 := by
      simpa [pinnedSteps] using ha
    have hnot : ((Ethernet.fromBytes bytes).toOption.any fun e =>
        match e.nextLayer with
        | .arp _ => true
        | _ => false) = false := by
      rw [(Step.frame.inj hframe).2]
      decide +kernel
    rw [hparse] at hnot
    cases hnot

/-- **An ARP request takes a static entry over**: the neighbour that was pinned asks
with another MAC address, and the next segment to it goes there. -/
theorem static_entry_taken_over :
    (runs Step.run [neighbourAsks, neighbourSends 5000 80 flagSyn 7 0]
      (host.addStaticArpEntry neighbourIp pinnedMac)).map (fun s =>
        (s.primary.arpTable.lookup neighbourIp,
          s.primary.written.filterMap fun w => w.nextHop.map fun nextHop => (nextHop, w.frame.dest))) =
      some (some neighbourMac, [(neighbourIp, neighbourMac)]) := by
  decide +kernel

end TcpIpStack
