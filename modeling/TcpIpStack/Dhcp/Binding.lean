/-
# What a DHCP client binds

While the client waits for an answer, its last REQUEST was for the address it now asks
for: the offered one, or the one it holds (`Asked`).  An ACK is matched to the client by
transaction and hardware address only; `_apply_ack` takes the address and the server out
of it as they are.  So the lease is what was asked for exactly if the ACK says so
(`lease_is_as_asked`).
-/

import TcpIpStack.Dhcp.Moves

namespace TcpIpStack

open DhcpClient Runs

/-! ### The last REQUEST -/

/-- The REQUEST that an effect sends. -/
def DhcpEffect.request : DhcpEffect → Option Dhcp
  | send _ message => if message.getMessageType = Dhcp.request then some message else none
  | _ => none

/-- The last REQUEST among the effects. -/
def lastRequest (effects : List DhcpEffect) : Option Dhcp :=
  (effects.filterMap DhcpEffect.request).getLast?

theorem lastRequest_append_send {effects : List DhcpEffect} {dest : IPv4Address} {message : Dhcp}
    (h : message.getMessageType = Dhcp.request) :
    lastRequest (effects ++ [.send dest message]) = some message := by
  have hone : [DhcpEffect.send dest message].filterMap DhcpEffect.request = [message] := by
    simp [DhcpEffect.request, h]
  rw [lastRequest, List.filterMap_append, hone, List.getLast?_concat]

theorem requestedAddress_sendRequest (effects : List DhcpEffect) (c : DhcpClient)
    {unicastToServer : Bool} (h : unicastToServer → c.state ≠ .requesting) :
    (lastRequest (effects ++ c.sendRequest unicastToServer)).map Dhcp.requestedAddress =
      some c.target.ip := by
  obtain ⟨dest, message, heq, htype, -, haddress⟩ := sendRequest_eq c unicastToServer
  rw [heq, lastRequest_append_send htype, Option.map_some, haddress h]

/-! ### What the client asks for -/

/-- A client that waits has asked for its target, and the offer it asks for is the one it
took. -/
structure Asked (h : DhcpHistory) : Prop where
  address : h.client.Asking →
    (lastRequest h.effects).map Dhcp.requestedAddress = some h.client.target.ip
  server : h.client.state = .requesting →
    h.offerTaken.map (·.getOptionAddress .serverIdentifier) = some h.client.offer.server

theorem asked_new (mac : MacAddress) (randomSeed : UInt32) : Asked (.new mac randomSeed) :=
  ⟨fun h => absurd h (by rintro (h | h | h) <;> cases h), nofun⟩

section Step

variable {a : DhcpStep} {c c' : DhcpClient} {h h' : DhcpHistory}

theorem offerTaken_eq_none (hstate : c.state ≠ .selecting) : a.offerTaken c = none := by
  cases a with
  | datagram payload =>
    rw [DhcpStep.offerTaken]
    split
    · exact if_neg fun hno => hstate hno.2.2
    · rfl
  | start | timePassed => rfl

theorem offerTaken_of_brings {message : Dhcp} (ha : a.Brings c message)
    (htype : message.getMessageType = Dhcp.offer) (hstate : c.state = .selecting) :
    a.offerTaken c = some message := by
  obtain ⟨payload, rfl, hread⟩ := ha.datagram
  rw [DhcpStep.offerTaken, hread]
  exact if_pos ⟨ha.reply, htype, hstate⟩

variable {elapsedMs : UInt32}

theorem Aged.target (hc : Aged elapsedMs c c') : c'.target = c.target := by
  rw [DhcpClient.target, DhcpClient.target, hc.state, hc.lease, hc.offer]

theorem Aged.asking (hc : Aged elapsedMs c c') (h : c'.Asking) : c.Asking := by
  rwa [DhcpClient.Asking, hc.state] at h

theorem not_asking (hstate : c.state = .selecting ∨ c.state = .bound) : ¬ c.Asking := by
  rintro (h | h | h) <;> rcases hstate with hstate | hstate <;> cases h.symm.trans hstate

theorem Asked.of_not_asking (hasking : ¬ h.client.Asking) : Asked h :=
  ⟨fun hno => absurd hno hasking, fun hno => absurd (.inl hno) hasking⟩

theorem Asked.server_of_aged (h₀ : Asked h) (haged : Aged elapsedMs h.client c')
    (hstate : c'.state = .requesting) :
    ((a.offerTaken h.client).or h.offerTaken).map (·.getOptionAddress .serverIdentifier) =
      some c'.offer.server := by
  have hbefore : h.client.state = .requesting := haged.state.symm.trans hstate
  rw [offerTaken_eq_none (by rw [hbefore]; exact nofun), Option.none_or, haged.offer]
  exact h₀.server hbefore

theorem Asked.move {effects : List DhcpEffect} {sinceAckMs : ℕ} (h₀ : Asked h)
    (hmove : DhcpMove a h.client c' effects) :
    Asked ⟨c', h.effects ++ effects, (a.offerTaken h.client).or h.offerTaken, sinceAckMs⟩ := by
  cases hmove with
  | stay haged =>
    refine ⟨fun hasking => ?_, fun hstate => h₀.server_of_aged haged hstate⟩
    rw [List.append_nil, haged.target]
    exact h₀.address (haged.asking hasking)
  | repeatRequest haged hasking =>
    refine ⟨fun _ => ?_, fun hstate => h₀.server_of_aged haged hstate⟩
    refine requestedAddress_sendRequest h.effects c' fun hrenewing => ?_
    rw [of_decide_eq_true hrenewing]
    rintro ⟨⟩
  | offer ha htype hstate =>
    rw [onOffer, if_pos hstate, ask_snd]
    refine ⟨fun _ => requestedAddress_sendRequest h.effects _ (by simp), fun _ => ?_⟩
    rw [offerTaken_of_brings ha htype hstate]
    rfl
  | rebind haged hlease =>
    rw [ask_snd]
    exact ⟨fun _ => requestedAddress_sendRequest h.effects _ (by simp), by rintro ⟨⟩⟩
  | renew haged hlease =>
    rw [ask_snd]
    exact ⟨fun _ => requestedAddress_sendRequest h.effects _ (by rintro - ⟨⟩), by rintro ⟨⟩⟩
  | repeatDiscover haged hstate =>
    exact .of_not_asking (not_asking (.inl (haged.state.trans hstate)))
  | start | nak | expire => exact .of_not_asking (not_asking (.inl rfl))
  | ack => exact .of_not_asking (not_asking (.inr rfl))

theorem asked_of_runs {steps : List DhcpStep} {mac : MacAddress} {randomSeed : UInt32}
    (hrun : runs DhcpStep.run steps (.new mac randomSeed) = some h) : Asked h := by
  refine runs_induction (I := Asked) (fun a h h' h₀ ha => ?_) (asked_new mac randomSeed) hrun
  cases ha
  exact h₀.move (move_act a)

/-! ### What it binds -/

/-- The lease is what the client asked for: an address, the one in its last REQUEST, and
from the server whose OFFER it took if it was asking for one. -/
structure BindsAsked (h : DhcpHistory) (lease : DhcpLease) : Prop where
  nonzero : lease.ip ≠ {}
  target : lease.ip = h.client.target.ip
  address : (lastRequest h.effects).map Dhcp.requestedAddress = some lease.ip
  server : h.client.state = .requesting →
    h.offerTaken.map (·.getOptionAddress .serverIdentifier) = some lease.server

/-- The datagram of a step is an ACK for the address that the client asks for, and names
the server of the offer if the client asks for one. -/
def DhcpStep.AnswersAsked (a : DhcpStep) (c : DhcpClient) : Prop :=
  ∃ message, a.Brings c message ∧ message.yourIp ≠ {} ∧ message.yourIp = c.target.ip ∧
    (c.state = .requesting → message.getOptionAddress .serverIdentifier = c.offer.server)

/-- The callback is called by an ACK, with what it grants. -/
theorem granted_of_leaseAcquired {effects : List DhcpEffect} {lease : DhcpLease}
    (hmove : DhcpMove a c c' effects) (hlease : .leaseAcquired lease ∈ effects) :
    ∃ message, a.Brings c message ∧ c.Asking ∧ lease = c.granted message := by
  have hrequest : ∀ (c₁ : DhcpClient) (unicastToServer : Bool),
      .leaseAcquired lease ∉ c₁.sendRequest unicastToServer := by
    intro c₁ unicastToServer hmem
    obtain ⟨dest, message, heq, -⟩ := sendRequest_eq c₁ unicastToServer
    rw [heq] at hmem
    cases List.mem_singleton.1 hmem
  cases hmove with
  | stay => cases hlease
  | repeatDiscover | start => cases List.mem_singleton.1 hlease
  | repeatRequest => exact absurd hlease (hrequest _ _)
  | rebind | renew =>
    rw [ask_snd] at hlease
    exact absurd hlease (hrequest _ _)
  | offer _ _ hstate =>
    rw [onOffer, if_pos hstate, ask_snd] at hlease
    exact absurd hlease (hrequest _ _)
  | ack ha htype hasking =>
    cases List.mem_singleton.1 hlease
    exact ⟨_, ha, hasking, rfl⟩
  | nak =>
    rcases List.mem_append.1 hlease with hlost | hsent
    · split_ifs at hlost
      · cases List.mem_singleton.1 hlost
      · cases hlost
    · cases List.mem_singleton.1 hsent
  | expire =>
    rcases List.mem_cons.1 hlease with hlost | hsent
    · cases hlost
    · cases List.mem_singleton.1 hsent

theorem DhcpStep.Brings.unique {message message' : Dhcp} (ha : a.Brings c message)
    (ha' : a.Brings c message') : message = message' := by
  obtain ⟨payload, rfl, hread⟩ := ha.datagram
  obtain ⟨payload', heq, hread'⟩ := ha'.datagram
  cases heq
  exact Except.ok.inj (hread.symm.trans hread')

theorem server_granted {message : Dhcp} (hstate : c.state = .requesting) :
    (c.granted message).server = message.getOptionAddress .serverIdentifier := by
  have hnone : ¬ c.hasLease := by simp [hasLease, hstate]
  rw [granted, if_neg fun hno => hnone hno.2]

end Step

/-- **A client binds what it asked for exactly if the ACK says so.**  Whatever datagrams
and times came before: when a step calls the lease-acquired callback, the lease is the one
asked for if and only if the datagram is an ACK for that address and from that server. -/
theorem lease_is_as_asked {steps : List DhcpStep} {mac : MacAddress} {randomSeed : UInt32}
    {h : DhcpHistory} {a : DhcpStep} {lease : DhcpLease}
    (hrun : runs DhcpStep.run steps (.new mac randomSeed) = some h)
    (hlease : .leaseAcquired lease ∈ (a.act h.client).2) :
    BindsAsked h lease ↔ a.AnswersAsked h.client := by
  have hasked := asked_of_runs hrun
  obtain ⟨message, ha, hasking, rfl⟩ := granted_of_leaseAcquired (move_act a) hlease
  constructor
  · intro hbinds
    refine ⟨message, ha, hbinds.nonzero, hbinds.target, fun hstate => ?_⟩
    have hserver := (hbinds.server hstate).symm.trans (hasked.server hstate)
    rw [← server_granted hstate]
    exact Option.some.inj hserver
  · rintro ⟨message', ha', hnonzero, htarget, hserver⟩
    cases ha.unique ha'
    refine ⟨hnonzero, htarget, ?_, fun hstate => ?_⟩
    · rw [hasked.address hasking]
      exact congrArg some htarget.symm
    · rw [hasked.server hstate, server_granted hstate, hserver hstate]

/-! ### An exchange -/

/-- A reply of the server `10.0.0.1` in the transaction that `start` opens from seed 7. -/
def replyOf (type : UInt8) (yourIp : IPv4Address) : Dhcp :=
  (({ op := Dhcp.opBootReply, transactionId := 8, yourIp := yourIp } : Dhcp).setMessageType
    type).setOption .serverIdentifier [10, 0, 0, 1]

/-- The datagram with a message. -/
def datagramOf (message : Dhcp) : DhcpStep :=
  match message.toBytes with
  | .ok payload => .datagram payload
  | .error _ => .datagram []

/-- The client is offered `10.0.0.5` and asks for it. -/
def offered : List DhcpStep := [.start, datagramOf (replyOf Dhcp.offer ⟨0x0A000005⟩)]

theorem offered_runs : (runs DhcpStep.run offered (.new .zero 7)).isSome = true := rfl

theorem wellformed_replyOf (type : UInt8) (yourIp : IPv4Address) : (replyOf type yourIp).Wellformed := by
  have hempty : Dhcp.Wellformed
      { op := Dhcp.opBootReply, transactionId := 8, yourIp := yourIp } := ⟨rfl, nofun, nofun⟩
  exact (hempty.setOption .messageType (by simp)).setOption .serverIdentifier (by simp)

theorem brings_datagramOf {message : Dhcp} {c : DhcpClient} (hmessage : message.Wellformed)
    (hreply : c.isReply message = true) : (datagramOf message).Brings c message := by
  obtain ⟨payload, hwrite, hread⟩ := Dhcp.fromBytes_toBytes message hmessage
  exact ⟨⟨payload, by rw [datagramOf, hwrite], hread⟩, hreply⟩

/-- The ACK for `10.0.0.5` binds it. -/
theorem offered_address_bound :
    ∃ h, runs DhcpStep.run offered (.new .zero 7) = some h ∧
      BindsAsked h (h.client.granted (replyOf Dhcp.acknowledge ⟨0x0A000005⟩)) := by
  have hrun := (Option.some_get offered_runs).symm
  refine ⟨_, hrun, (lease_is_as_asked hrun (a := datagramOf (replyOf Dhcp.acknowledge ⟨0x0A000005⟩))
    ?_).2 ⟨replyOf Dhcp.acknowledge ⟨0x0A000005⟩, brings_datagramOf (wellformed_replyOf ..) ?_, ?_, ?_,
    ?_⟩⟩
  all_goals decide +kernel

/-- The server answers with `10.0.0.9`, and the client binds that. -/
theorem other_address_bound :
    ∃ h, runs DhcpStep.run offered (.new .zero 7) = some h ∧
      .leaseAcquired (h.client.granted (replyOf Dhcp.acknowledge ⟨0x0A000009⟩)) ∈
        ((datagramOf (replyOf Dhcp.acknowledge ⟨0x0A000009⟩)).act h.client).2 ∧
      ¬ BindsAsked h (h.client.granted (replyOf Dhcp.acknowledge ⟨0x0A000009⟩)) := by
  refine ⟨_, (Option.some_get offered_runs).symm, ?_, fun hbinds => absurd hbinds.target ?_⟩
  all_goals decide +kernel

end TcpIpStack
