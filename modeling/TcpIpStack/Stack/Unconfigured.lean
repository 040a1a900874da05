/-
# A host without an address

An interface whose address is `0.0.0.0` has none.  `_handle_ip` asks `has_address` before
it compares addresses and takes nothing but the limited broadcast; `_handle_arp` compares
at once, and takes `0.0.0.0` for an address of its own (`asked_for_zero`).
-/

import TcpIpStack.Stack.Forwarding

namespace TcpIpStack

open Programs StackM

/-- The only interface of the stack has this configuration without an address, and the stack
is no router. -/
structure NetworkStack.Unconfigured (config : InterfaceConfig) (s : NetworkStack) : Prop where
  only : s.others = []
  configured : s.primary.config = config
  address : config.ip = {}
  host : s.forwardingEnabled = false

/-- Nothing was written, no neighbour learned and no datagram delivered. -/
structure NetworkStack.Silent (s s' : NetworkStack) : Prop where
  written : (s'.interfaces.map Interface.written) = s.interfaces.map Interface.written
  neighbours : (s'.interfaces.map Interface.arpTable) = s.interfaces.map Interface.arpTable
  delivered : s'.delivered = s.delivered

/-- The frame carries a packet to `255.255.255.255`. -/
def ToLimitedBroadcast (bytes : Bytes) : Prop :=
  ∃ src dest etherType ip, Ethernet.fromBytes bytes = .ok ⟨src, dest, etherType, .ip ip⟩ ∧
    ip.destAddress = limitedBroadcastAddress

/-- The frame carries ARP for `0.0.0.0`, to the interface or a group. -/
def AsksForZero (config : InterfaceConfig) (bytes : Bytes) : Prop :=
  ∃ src dest etherType arp, Ethernet.fromBytes bytes = .ok ⟨src, dest, etherType, .arp arp⟩ ∧
    isAddressedToUs dest config.mac = true ∧ arp.targetProtocolAddress = {}

section

variable {config : InterfaceConfig} {s : NetworkStack} {bytes : Bytes}

theorem NetworkStack.Unconfigured.not_taken (h : s.Unconfigured config) {ip : IPv4Address}
    (hip : ip ≠ limitedBroadcastAddress) :
    (s.isOwnAddress ip || isBroadcastAddress ip s.primary.config) = false := by
  have hnone : config.hasAddress = false := by simp [InterfaceConfig.hasAddress, h.address]
  have hvalue : ip.value ≠ 0xFFFFFFFF := fun heq => hip (congrArg IPv4Address.mk heq)
  simp [NetworkStack.isOwnAddress, NetworkStack.interfaces, h.only, h.configured, isBroadcastAddress, hnone,
    hvalue]

theorem after_handleFrame_of_arp {ingress : ℕ} {inbound : Interface} {src dest : MacAddress}
    {etherType : UInt16} {arp : Arp} (hframe : Ethernet.fromBytes bytes = .ok ⟨src, dest, etherType, .arp arp⟩)
    (hinbound : s.interface? ingress = some inbound)
    (haddressed : isAddressedToUs dest inbound.config.mac = true) : after (handleFrame ingress bytes) s =
      if arp.targetProtocolAddress ≠ inbound.config.ip then s else after (handleArp ingress arp) s := by
  rw [handleFrame, after_catching, hframe, after_bind_ok (show (parsed (.ok _)).run s = .ok _ s from rfl),
    after_bind_ok (run_interfaceAt hinbound), haddressed, Bool.not_true, if_neg Bool.false_ne_true]
  split_ifs with htarget
  · show after (handleArp ingress arp) s = s
    rw [handleArp, after_bind_ok (run_interfaceAt hinbound), if_pos htarget]
    rfl
  · rfl

/-- **A frame that is not for the limited broadcast and does not ask for zero changes
nothing.** -/
theorem NetworkStack.Unconfigured.after_handleFrame (h : s.Unconfigured config)
    (hbroadcast : ¬ ToLimitedBroadcast bytes) (hzero : ¬ AsksForZero config bytes) :
    after (handleFrame 0 bytes) s = s := by
  have hinterface : s.interface? 0 = some s.primary := rfl
  cases hparse : Ethernet.fromBytes bytes with
  | error what =>
    rw [handleFrame, after_catching, hparse]
    rfl
  | ok ethernet =>
    cases haddressed : isAddressedToUs ethernet.dest s.primary.config.mac with
    | false => exact after_handleFrame_of_not_addressed hparse hinterface haddressed
    | true =>
      obtain ⟨src, dest, etherType, nextLayer⟩ := ethernet
      cases nextLayer with
      | raw data =>
        rw [handleFrame, after_catching, hparse, after_bind_ok (show (parsed (.ok _)).run s = .ok _ s from rfl),
          after_bind_ok (run_interfaceAt hinterface), haddressed]
        rfl
      | arp arp =>
        rw [after_handleFrame_of_arp hparse hinterface haddressed, if_pos]
        rw [h.configured] at haddressed
        rw [h.configured, h.address]
        exact fun htarget => hzero ⟨src, dest, etherType, arp, hparse, haddressed, htarget⟩
      | ip ip =>
        have hdest : ip.destAddress ≠ limitedBroadcastAddress := fun hdest =>
          hbroadcast ⟨src, dest, etherType, ip, hparse, hdest⟩
        rw [after_handleFrame_of_ip hparse hinterface haddressed, handleIp,
          after_bind_ok (run_interfaceAt hinterface), after, run_get_bind, h.not_taken hdest,
          if_neg Bool.false_ne_true, run_get_bind, h.host, if_neg Bool.false_ne_true]
        rfl

/-- A stack that has just been set up learns whoever asks for zero. -/
theorem not_silent_new (hip : config.ip = {}) (isn : ℕ → UInt32) (h : AsksForZero config bytes) :
    ¬ (NetworkStack.new config isn).Silent (after (handleFrame 0 bytes) (NetworkStack.new config isn)) := by
  obtain ⟨src, dest, etherType, arp, hparse, haddressed, htarget⟩ := h
  have hinterface : (NetworkStack.new config isn).interface? 0 = some (NetworkStack.newInterface config) := rfl
  have htarget' : ¬ arp.targetProtocolAddress ≠ (NetworkStack.newInterface config).config.ip :=
    not_not.2 (htarget.trans hip.symm)
  have hlearned : (after (handleFrame 0 bytes) (NetworkStack.new config isn)).primary.arpTable =
      (NetworkStack.newInterface config).arpTable.learn arp.senderProtocolAddress arp.senderHardwareAddress := by
    rw [after_handleFrame_of_arp hparse hinterface haddressed, if_neg htarget', handleArp,
      after_bind_ok (run_interfaceAt hinterface), if_neg htarget', replyArp]
    by_cases hrequest : arp.operation = Arp.operationRequest
    · simp only [if_pos hrequest]
      rfl
    · simp only [if_neg hrequest]
      rfl
  intro hsilent
  have htable := (List.cons.inj hsilent.neighbours).1
  rw [hlearned, ArpTable.learn, if_pos (.inr (by decide : (0 : ℕ) < 1024))] at htable
  have hlookup := congrArg (fun table => table.entries.lookup arp.senderProtocolAddress) htable
  cases (AList.lookup_insert _).symm.trans hlookup

/-- **A host without an address stays silent on a frame exactly if the frame does not ask for
`0.0.0.0`.** -/
theorem unconfigured_silent_iff (hip : config.ip = {}) (hbroadcast : ¬ ToLimitedBroadcast bytes) :
    (∀ s : NetworkStack, s.Unconfigured config → s.Silent (after (handleFrame 0 bytes) s)) ↔
      ¬ AsksForZero config bytes := by
  constructor
  · exact fun h hzero => not_silent_new hip (fun _ => 0) hzero (h _ ⟨rfl, rfl, hip, rfl⟩)
  · intro hzero s hs
    rw [hs.after_handleFrame hbroadcast hzero]
    exact ⟨rfl, rfl, rfl⟩

end

/-- A neighbour asks for an address. -/
def requestFor (target : IPv4Address) : Ethernet :=
  ⟨.of 2 0 0 0 0 2, .broadcast, Ethernet.etherTypeArp, .arp (Arp.request (.of 2 0 0 0 0 2) ⟨0x0A000002⟩ target)⟩

def unconfiguredHost : NetworkStack := .new { mac := .zero } fun _ => 0

/-- Somebody else is asked for. -/
theorem silent_on_other_request :
    unconfiguredHost.Silent
      (after (handleFrame 0 (requestFor ⟨0x0A000001⟩).toBytes) unconfiguredHost) := by
  have hparse : Ethernet.fromBytes (requestFor ⟨0x0A000001⟩).toBytes = .ok (requestFor ⟨0x0A000001⟩) := by
    decide +kernel
  refine (unconfigured_silent_iff (show ({ mac := .zero } : InterfaceConfig).ip = {} from rfl) ?_).2 ?_ _
    ⟨rfl, rfl, rfl, rfl⟩
  · rintro ⟨src, dest, etherType, ip, hip, -⟩
    cases hparse.symm.trans hip
  · rintro ⟨src, dest, etherType, arp, harp, -, hzero⟩
    cases hparse.symm.trans harp
    exact absurd hzero (by decide)

/-- **The host answers for `0.0.0.0`, and learns who asked.** -/
theorem asked_for_zero :
    ((after (handleFrame 0 (requestFor {}).toBytes) unconfiguredHost).primary.written.map
        fun w => w.frame.nextLayer) =
      [.arp ⟨Arp.operationReply, MacAddress.zero, {}, .of 2 0 0 0 0 2, ⟨0x0A000002⟩⟩] ∧
    (after (handleFrame 0 (requestFor {}).toBytes) unconfiguredHost).primary.arpTable.lookup ⟨0x0A000002⟩ =
      some (.of 2 0 0 0 0 2) := by
  decide +kernel

end TcpIpStack
