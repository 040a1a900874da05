/-
# What a step does to a DHCP client

`DhcpMove` says once what a step can do, and everything about runs is derived from it.
A step leaves the client as it is, up to its timers; or asks once more for what it
asked for; or it is one of the transitions of the state machine.

Every message that a client sends can be written, and is read back as it was sent
(`fromBytes_of_sent`).
-/

import TcpIpStack.Dhcp.Client

namespace TcpIpStack

open DhcpClient TcpConnection

/-- How much time a step takes. -/
def DhcpStep.elapsedMs : DhcpStep → UInt32
  | timePassed elapsedMs => elapsedMs
  | _ => 0

/-- Nothing but timers has changed, and a lease has come closer to its end. -/
structure Aged (elapsedMs : UInt32) (c c' : DhcpClient) : Prop where
  mac : c'.mac = c.mac
  state : c'.state = c.state
  transactionId : c'.transactionId = c.transactionId
  lease : c'.lease = c.lease
  offer : c'.offer = c.offer
  expiry : c.hasLease → c'.expiryMsRemaining = c.expiryMsRemaining - asInt elapsedMs

/-- The client waits for the answer to a REQUEST. -/
def DhcpClient.Asking (c : DhcpClient) : Prop :=
  c.state = .requesting ∨ c.state = .renewing ∨ c.state = .rebinding

/-- A datagram that is read as a reply to the client's transaction. -/
structure DhcpStep.Brings (a : DhcpStep) (c : DhcpClient) (message : Dhcp) : Prop where
  datagram : ∃ payload, a = .datagram payload ∧ Dhcp.fromBytes payload = .ok message
  reply : c.isReply message = true

/-- What a step can do. -/
inductive DhcpMove (a : DhcpStep) (c : DhcpClient) : DhcpClient → List DhcpEffect → Prop
  | stay {c' : DhcpClient} (h : Aged a.elapsedMs c c') : DhcpMove a c c' []
  | repeatDiscover {c' : DhcpClient} (h : Aged a.elapsedMs c c') (hstate : c.state = .selecting) :
      DhcpMove a c c' c'.sendDiscover
  | repeatRequest {c' : DhcpClient} (h : Aged a.elapsedMs c c') (hstate : c.Asking) :
      DhcpMove a c c' (c'.sendRequest (c'.state = .renewing))
  | start (ha : a = .start) : DhcpMove a c c.restart.1 c.restart.2
  | offer {message : Dhcp} (ha : a.Brings c message)
      (htype : message.getMessageType = Dhcp.offer) (hstate : c.state = .selecting) :
      DhcpMove a c (c.onOffer message).1 (c.onOffer message).2
  | ack {message : Dhcp} (ha : a.Brings c message)
      (htype : message.getMessageType = Dhcp.acknowledge) (hstate : c.Asking) :
      DhcpMove a c (c.applyAck message).1 (c.applyAck message).2
  | nak {message : Dhcp} (ha : a.Brings c message) (htype : message.getMessageType = Dhcp.nak) :
      DhcpMove a c c.onNak.1 c.onNak.2
  | expire {c' : DhcpClient} (h : Aged a.elapsedMs c c') (hlease : c.hasLease)
      (hexpiry : c'.expiryMsRemaining ≤ 0) :
      DhcpMove a c c'.drop.1 (.leaseLost :: c'.drop.2)
  | rebind {c' : DhcpClient} (h : Aged a.elapsedMs c c') (hlease : c.hasLease) :
      DhcpMove a c (c'.ask .rebinding false).1 (c'.ask .rebinding false).2
  | renew {c' : DhcpClient} (h : Aged a.elapsedMs c c') (hlease : c.hasLease) :
      DhcpMove a c (c'.ask .renewing true).1 (c'.ask .renewing true).2

section Cases

variable {c : DhcpClient}

theorem aged_refl : Aged 0 c c := ⟨rfl, rfl, rfl, rfl, rfl, fun _ => (sub_zero _).symm⟩

theorem move_onReply {a : DhcpStep} {message : Dhcp} (ha : a.Brings c message) :
    DhcpMove a c (c.onReply message).1 (c.onReply message).2 := by
  have hignore : DhcpMove a c c [] := by
    obtain ⟨payload, rfl, -⟩ := ha.datagram
    exact .stay aged_refl
  unfold onReply
  split_ifs with hoffer hack hnak
  · by_cases hstate : c.state = .selecting
    · exact .offer ha hoffer hstate
    · rw [onOffer, if_neg hstate]
      exact hignore
  · unfold onAck
    split_ifs with hstate
    · exact hignore
    · refine .ack ha hack ?_
      by_contra hno
      exact hstate ⟨fun h => hno (.inl h), fun h => hno (.inr (.inl h)), fun h => hno (.inr (.inr h))⟩
  · exact .nak ha hnak
  · exact hignore

theorem move_onDatagram (payload : Bytes) :
    DhcpMove (.datagram payload) c (c.onDatagram payload).1 (c.onDatagram payload).2 := by
  unfold onDatagram
  split
  · exact .stay aged_refl
  · next message hread =>
    split_ifs with hreply
    · exact move_onReply ⟨⟨payload, rfl, hread⟩, hreply⟩
    · exact .stay aged_refl

/-- The countdown to a retransmission, after the deadlines of a lease have run down. -/
theorem move_retransmit {elapsedMs : UInt32} {c' : DhcpClient} (h : Aged elapsedMs c c')
    (hstate : c.state = .selecting ∨ c.Asking) :
    DhcpMove (.timePassed elapsedMs) c (c'.retransmit elapsedMs).1 (c'.retransmit elapsedMs).2 := by
  have htimers : ∀ interval remaining : ℤ, Aged elapsedMs c
      { c' with retransmitIntervalMs := interval, retransmitMsRemaining := remaining } :=
    fun _ _ => ⟨h.mac, h.state, h.transactionId, h.lease, h.offer, h.expiry⟩
  unfold retransmit
  dsimp only
  by_cases hremaining : c'.retransmitMsRemaining - asInt elapsedMs ≤ 0
  · rw [if_pos hremaining]
    have haged : Aged elapsedMs c ({ c' with
        retransmitMsRemaining := c'.retransmitMsRemaining - asInt elapsedMs } :
          DhcpClient).scheduleRetransmit := htimers _ _
    generalize DhcpClient.scheduleRetransmit _ = c₁ at haged ⊢
    by_cases hselecting : c₁.state = .selecting
    · rw [if_pos hselecting]
      exact .repeatDiscover haged (haged.state ▸ hselecting)
    · rw [if_neg hselecting]
      exact .repeatRequest haged (hstate.resolve_left fun hno => hselecting (haged.state.trans hno))
  · rw [if_neg hremaining]
    exact .stay (htimers _ _)

theorem move_onTimePassedHeld {elapsedMs : UInt32} {c' : DhcpClient} (hlease : c.hasLease) (h : Aged 0 c c') :
    DhcpMove (.timePassed elapsedMs) c (c'.onTimePassedHeld elapsedMs).1
      (c'.onTimePassedHeld elapsedMs).2 := by
  have haged : Aged elapsedMs c (c'.age elapsedMs) :=
    ⟨h.mac, h.state, h.transactionId, h.lease, h.offer, fun _ => by
      rw [age, h.expiry hlease, show asInt 0 = 0 from rfl, sub_zero]⟩
  unfold onTimePassedHeld
  generalize c'.age elapsedMs = c₁ at haged
  dsimp only
  split_ifs with hexpiry hrebind hrenew hretry
  · exact .expire haged hlease hexpiry
  · exact .rebind haged hlease
  · exact .renew haged hlease
  · exact move_retransmit haged (.inr (.inr (haged.state ▸ hretry)))
  · exact .stay haged

theorem move_onTimePassed (elapsedMs : UInt32) :
    DhcpMove (.timePassed elapsedMs) c (c.onTimePassed elapsedMs).1 (c.onTimePassed elapsedMs).2 := by
  have hnone : c.state = .init ∨ c.state = .selecting ∨ c.state = .requesting → ¬ c.hasLease := by
    rintro (h | h | h) <;> simp [hasLease, h]
  unfold onTimePassed
  by_cases hinit : c.state = .init
  · rw [if_pos hinit]
    exact .stay ⟨rfl, rfl, rfl, rfl, rfl, fun h => absurd h (hnone (.inl hinit))⟩
  rw [if_neg hinit]
  dsimp only
  by_cases hseeking : c.state = .selecting ∨ c.state = .requesting
  · rw [if_pos hseeking]
    refine move_retransmit ⟨rfl, rfl, rfl, rfl, rfl, fun h => absurd h (hnone (.inr hseeking))⟩ ?_
    exact hseeking.imp_right .inl
  · rw [if_neg hseeking]
    refine move_onTimePassedHeld ?_ ⟨rfl, rfl, rfl, rfl, rfl, fun _ => (sub_zero _).symm⟩
    rcases hstate : c.state with _ | _ | _ | _ | _ | _ <;> simp_all [hasLease]

theorem move_act (a : DhcpStep) : DhcpMove a c (a.act c).1 (a.act c).2 := by
  cases a with
  | start => exact .start rfl
  | datagram payload => exact move_onDatagram payload
  | timePassed elapsedMs => exact move_onTimePassed elapsedMs

end Cases

/-! ### Messages -/

section Messages

variable {m : Dhcp} {c : DhcpClient}

theorem Dhcp.Wellformed.setOption (h : m.Wellformed) (option : DhcpOption) {value : Bytes}
    (hvalue : value.length ≤ 255) : (m.setOption option value).Wellformed := by
  refine ⟨h.hardwareLength, fun entry hentry => ?_, fun entry hentry => ?_⟩
  · rcases OrderedMap.mem_insert hentry with rfl | hold
    · exact option.code_ne
    · exact h.code entry hold
  · rcases OrderedMap.mem_insert hentry with rfl | hold
    · exact hvalue
    · exact h.length entry hold

theorem wellformed_fillMessage (c : DhcpClient) (type : UInt8) : (c.fillMessage type).Wellformed := by
  have hempty : Dhcp.Wellformed
      { op := Dhcp.opBootRequest
        transactionId := c.transactionId
        clientMac := c.mac
        secondsElapsed := (min (c.secondsElapsedMs / msPerSecond) 0xffff).toUInt16 } :=
    ⟨rfl, nofun, nofun⟩
  refine ((hempty.setOption .messageType ?_).setOption .clientIdentifier ?_).setOption
    .parameterRequestList ?_
  · simp
  · simp [c.mac.length]
  · simp

theorem Dhcp.Wellformed.setBroadcastFlag (h : m.Wellformed) (broadcast : Bool) :
    (m.setBroadcastFlag broadcast).Wellformed :=
  ⟨h.hardwareLength, h.code, h.length⟩

theorem Dhcp.Wellformed.setClientIp (h : m.Wellformed) (ip : IPv4Address) :
    ({ m with clientIp := ip } : Dhcp).Wellformed :=
  ⟨h.hardwareLength, h.code, h.length⟩

theorem wellformed_broadcastRequest (c : DhcpClient) : c.broadcastRequest.Wellformed := by
  have hip : c.target.ip.octets.length ≤ 255 := by simp
  have hmessage := ((wellformed_fillMessage c Dhcp.request).setBroadcastFlag true).setOption
    .requestedIp hip
  unfold broadcastRequest
  dsimp only
  split_ifs
  · exact hmessage.setOption _ (by simp)
  · exact hmessage.setClientIp _

theorem getMessageType_setOption (m : Dhcp) {option : DhcpOption} (value : Bytes)
    (h : option ≠ .messageType) : (m.setOption option value).getMessageType = m.getMessageType := by
  rw [Dhcp.getMessageType, Dhcp.getOption_setOption, if_neg h]
  rfl

theorem getMessageType_fillMessage (c : DhcpClient) (type : UInt8) :
    (c.fillMessage type).getMessageType = type := by
  rw [fillMessage, getMessageType_setOption _ _ (by decide), getMessageType_setOption _ _ (by decide),
    Dhcp.setMessageType, Dhcp.getMessageType, Dhcp.getOption_setOption, if_pos rfl]

theorem getMessageType_broadcastRequest (c : DhcpClient) :
    c.broadcastRequest.getMessageType = Dhcp.request := by
  have hmessage : (((c.fillMessage Dhcp.request).setBroadcastFlag true).setOption .requestedIp
      c.target.ip.octets).getMessageType = Dhcp.request :=
    (getMessageType_setOption _ _ (by decide)).trans (getMessageType_fillMessage c Dhcp.request)
  unfold broadcastRequest
  dsimp only
  split_ifs
  · exact (getMessageType_setOption _ _ (by decide)).trans hmessage
  · exact hmessage

/-- The address that a REQUEST is for: option 50, or `ciaddr` without it. -/
def Dhcp.requestedAddress (message : Dhcp) : IPv4Address :=
  if message.hasOption .requestedIp then message.getOptionAddress .requestedIp else message.clientIp

theorem getOptionAddress_of_octets {option : DhcpOption} {ip : IPv4Address}
    (h : m.getOption option = ip.octets) : m.getOptionAddress option = ip := by
  rw [Dhcp.getOptionAddress, h, if_pos (length_ipOctets ip), Dhcp.addressOf_octets]

theorem requestedAddress_broadcastRequest (c : DhcpClient) :
    c.broadcastRequest.requestedAddress = c.target.ip := by
  have hmessage : (((c.fillMessage Dhcp.request).setBroadcastFlag true).setOption .requestedIp
      c.target.ip.octets).hasOption .requestedIp = true ∧
      (((c.fillMessage Dhcp.request).setBroadcastFlag true).setOption .requestedIp
        c.target.ip.octets).getOption .requestedIp = c.target.ip.octets := by
    simp
  have hboth : c.broadcastRequest.hasOption .requestedIp = true ∧
      c.broadcastRequest.getOption .requestedIp = c.target.ip.octets := by
    unfold broadcastRequest
    dsimp only
    split_ifs
    · simp
    · exact hmessage
  rw [Dhcp.requestedAddress, if_pos hboth.1, getOptionAddress_of_octets hboth.2]

theorem not_hasOption_fillMessage (c : DhcpClient) (type : UInt8) :
    ¬ (c.fillMessage type).hasOption .requestedIp = true := by
  simp only [fillMessage, Dhcp.setMessageType, Dhcp.hasOption_setOption, reduceCtorEq, false_or]
  rintro ⟨⟩

/-- `_send_request` sends one message, a REQUEST for what the client asks for. -/
theorem sendRequest_eq (c : DhcpClient) (unicastToServer : Bool) :
    ∃ dest message, c.sendRequest unicastToServer = [.send dest message] ∧
      message.getMessageType = Dhcp.request ∧ message.transactionId = c.transactionId ∧
      ((unicastToServer → c.state ≠ .requesting) → message.requestedAddress = c.target.ip) := by
  unfold sendRequest
  split_ifs with hunicast
  · refine ⟨_, _, rfl, getMessageType_fillMessage c Dhcp.request, rfl, fun hstate => ?_⟩
    rw [target, if_neg (hstate hunicast)]
    exact if_neg (not_hasOption_fillMessage c _)
  · refine ⟨_, _, rfl, getMessageType_broadcastRequest c, ?_, fun _ =>
      requestedAddress_broadcastRequest c⟩
    unfold broadcastRequest
    dsimp only
    split_ifs <;> rfl

variable {dest : IPv4Address}

theorem wellformed_of_mem_sendDiscover (h : .send dest m ∈ c.sendDiscover) :
    m.Wellformed := by
  cases List.mem_singleton.1 h
  exact (wellformed_fillMessage ..).setBroadcastFlag _

theorem wellformed_of_mem_sendRequest {unicastToServer : Bool}
    (h : .send dest m ∈ c.sendRequest unicastToServer) : m.Wellformed := by
  unfold sendRequest at h
  split_ifs at h
  · cases List.mem_singleton.1 h
    exact (wellformed_fillMessage ..).setClientIp _
  · cases List.mem_singleton.1 h
    exact wellformed_broadcastRequest c

theorem wellformed_of_sent {a : DhcpStep} {c' : DhcpClient} {effects : List DhcpEffect}
    (hmove : DhcpMove a c c' effects) (h : .send dest m ∈ effects) : m.Wellformed := by
  cases hmove with
  | stay => cases h
  | repeatDiscover | start => exact wellformed_of_mem_sendDiscover h
  | repeatRequest => exact wellformed_of_mem_sendRequest h
  | rebind | renew =>
    rw [ask_snd] at h
    exact wellformed_of_mem_sendRequest h
  | offer _ _ hstate =>
    rw [onOffer, if_pos hstate, ask_snd] at h
    exact wellformed_of_mem_sendRequest h
  | ack => cases List.mem_singleton.1 h
  | nak =>
    rcases List.mem_append.1 h with hlost | hsent
    · split_ifs at hlost
      · cases List.mem_singleton.1 hlost
      · cases hlost
    · exact wellformed_of_mem_sendDiscover hsent
  | expire =>
    rcases List.mem_cons.1 h with hlost | hsent
    · cases hlost
    · exact wellformed_of_mem_sendDiscover hsent

/-- **What a client sends can be written**, and whoever reads it has the message. -/
theorem fromBytes_of_sent {a : DhcpStep} {dest : IPv4Address} (h : .send dest m ∈ (a.act c).2) :
    ∃ data, m.toBytes = .ok data ∧ Dhcp.fromBytes data = .ok m :=
  Dhcp.fromBytes_toBytes m (wellformed_of_sent (move_act a) h)

/-- The first DISCOVER. -/
theorem fromBytes_of_first_sent :
    ∃ dest m, .send dest m ∈ (DhcpStep.start.act { mac := .zero, transactionId := 7 }).2 ∧
      ∃ data, m.toBytes = .ok data ∧ Dhcp.fromBytes data = .ok m :=
  ⟨_, _, List.mem_singleton_self _, fromBytes_of_sent (a := .start) (List.mem_singleton_self _)⟩

end Messages

/-! ### Histories -/

/-- The OFFER that a step takes. -/
def DhcpStep.offerTaken : DhcpStep → DhcpClient → Option Dhcp
  | datagram payload, c =>
    match Dhcp.fromBytes payload with
    | .ok message =>
      if c.isReply message ∧ message.getMessageType = Dhcp.offer ∧ c.state = .selecting then
        some message
      else none
    | .error _ => none
  | _, _ => none

def DhcpEffect.isLeaseAcquired : DhcpEffect → Bool
  | leaseAcquired _ => true
  | _ => false

/-- A client, what it has done so far, the OFFER it took last, and the time since the
lease-acquired callback was called last. -/
structure DhcpHistory where
  client : DhcpClient
  effects : List DhcpEffect := []
  offerTaken : Option Dhcp := none
  sinceAckMs : ℕ := 0

/-- The constructor of the client. -/
def DhcpHistory.new (mac : MacAddress) (randomSeed : UInt32) : DhcpHistory where
  client := { mac := mac, transactionId := randomSeed }

/-- The history after a step. -/
def DhcpStep.run (a : DhcpStep) (h : DhcpHistory) : Option DhcpHistory :=
  some {
    client := (a.act h.client).1
    effects := h.effects ++ (a.act h.client).2
    offerTaken := (a.offerTaken h.client).or h.offerTaken
    sinceAckMs :=
      if (a.act h.client).2.any DhcpEffect.isLeaseAcquired then 0
      else h.sinceAckMs + a.elapsedMs.toNat }

end TcpIpStack
