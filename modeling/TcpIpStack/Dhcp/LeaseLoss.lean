/-
# When a lease is given up

The owner of a client is told of a lease by two callbacks.  `leaseLog` is what the owner
can know from them: whether there is a lease, which one was granted last, and what the
client has done since.  The client agrees with it, and gives the lease up only at its end
or on an answer to a REQUEST, along every run in which the client is not started anew
while it holds a lease, gets no NAK that it did not ask for, and is granted no lease that
`lease_seconds_to_ms` cuts (`lease_lost_for_a_reason`).
-/

import TcpIpStack.Dhcp.Binding
import TcpIpStack.Dhcp.LeaseTimers

namespace TcpIpStack

open DhcpClient Runs TcpConnection

/-! ### What the owner knows -/

/-- Whether the lease-acquired callback has been called and the lease-lost callback not
since, the lease it was called with last, and what was done since then. -/
structure LeaseLog where
  held : Bool := false
  lease : Option DhcpLease := none
  since : List DhcpEffect := []

/-- One more effect. -/
def LeaseLog.add (log : LeaseLog) : DhcpEffect → LeaseLog
  | .leaseAcquired lease => { held := true, lease := some lease }
  | .leaseLost => { log with held := false, since := log.since ++ [.leaseLost] }
  | .send dest message => { log with since := log.since ++ [.send dest message] }

/-- The log of everything a client has done. -/
def leaseLog (effects : List DhcpEffect) : LeaseLog := effects.foldl LeaseLog.add {}

theorem leaseLog_append (effects more : List DhcpEffect) :
    leaseLog (effects ++ more) = more.foldl LeaseLog.add (leaseLog effects) := List.foldl_append

theorem exists_of_append_eq {effects before after : List DhcpEffect} {last : DhcpEffect}
    {lease : DhcpLease} (h : effects ++ [last] = before ++ .leaseAcquired lease :: after)
    (hlast : last ≠ .leaseAcquired lease) :
    ∃ rest, after = rest ++ [last] ∧ effects = before ++ .leaseAcquired lease :: rest := by
  rcases List.eq_nil_or_concat after with rfl | ⟨rest, last', rfl⟩
  · exact absurd (List.append_inj_right' h rfl) (by simpa using hlast)
  · rw [List.concat_eq_append] at h ⊢
    rw [← List.cons_append, ← List.append_assoc] at h
    obtain ⟨heffects, heq⟩ := List.append_inj' h rfl
    cases heq
    exact ⟨rest, rfl, heffects⟩

/-- What `held` says. -/
theorem held_leaseLog_iff (effects : List DhcpEffect) : (leaseLog effects).held = true ↔
      ∃ before lease after, effects = before ++ .leaseAcquired lease :: after ∧ .leaseLost ∉ after := by
  induction effects using List.reverseRecOn with
  | nil => simp [leaseLog]
  | append_singleton effects last ih =>
    rw [leaseLog_append, List.foldl_cons, List.foldl_nil]
    cases last with
    | leaseAcquired lease => exact ⟨fun _ => ⟨effects, lease, [], rfl, nofun⟩, fun _ => rfl⟩
    | leaseLost =>
      refine ⟨nofun, ?_⟩
      rintro ⟨before, lease, after, heq, hlost⟩
      obtain ⟨rest, rfl, -⟩ := exists_of_append_eq heq nofun
      exact absurd (List.mem_append_right _ (List.mem_singleton_self _)) hlost
    | send dest message =>
      refine ih.trans ⟨?_, ?_⟩
      · rintro ⟨before, lease, after, rfl, hlost⟩
        refine ⟨before, lease, after ++ [.send dest message], by simp, ?_⟩
        simpa using hlost
      · rintro ⟨before, lease, after, heq, hlost⟩
        obtain ⟨rest, rfl, heffects⟩ := exists_of_append_eq heq nofun
        exact ⟨before, lease, rest, heffects, fun hmem => hlost (List.mem_append_left _ hmem)⟩

theorem leaseLog_append_send (effects : List DhcpEffect) (dest : IPv4Address) (message : Dhcp) :
    leaseLog (effects ++ [.send dest message]) =
      { leaseLog effects with since := (leaseLog effects).since ++ [.send dest message] } := by
  rw [leaseLog_append]
  rfl

/-! ### What the runs must not bring -/

instance (c : DhcpClient) : Decidable c.Asking := inferInstanceAs (Decidable (_ ∨ _))

/-- A reply is expected if it is no NAK, or the client asks for something; an ACK that the
client asks for grants no more than `MAX_LEASE_SECONDS`. -/
def DhcpClient.Expects (c : DhcpClient) (message : Dhcp) : Prop :=
  (message.getMessageType = Dhcp.nak → c.Asking) ∧
    (message.getMessageType = Dhcp.acknowledge → c.Asking →
      (grantedSeconds message).toNat ≤ 2147483)

instance (c : DhcpClient) (message : Dhcp) : Decidable (c.Expects message) :=
  inferInstanceAs (Decidable (_ ∧ _))

/-- What is read off a datagram is expected, if it is a reply at all. -/
def DhcpClient.ExpectsDatagram (c : DhcpClient) : Except String Dhcp → Prop
  | .ok message => c.isReply message = true → c.Expects message
  | .error _ => True

instance (c : DhcpClient) : (read : Except String Dhcp) → Decidable (c.ExpectsDatagram read)
  | .ok _ => inferInstanceAs (Decidable (_ → _))
  | .error _ => inferInstanceAs (Decidable True)

/-- The client is not started anew while it holds a lease, its replies are expected, and
elapsed times are below `2^31`. -/
def DhcpStep.Expected : DhcpStep → DhcpHistory → Prop
  | start, h => h.client.hasLease = false
  | timePassed elapsedMs, _ => elapsedMs.toNat < 2 ^ 31
  | datagram payload, h => h.client.ExpectsDatagram (Dhcp.fromBytes payload)

instance : (a : DhcpStep) → (h : DhcpHistory) → Decidable (a.Expected h)
  | .start, h => inferInstanceAs (Decidable (h.client.hasLease = false))
  | .timePassed elapsedMs, _ => inferInstanceAs (Decidable (elapsedMs.toNat < 2 ^ 31))
  | .datagram payload, h =>
    inferInstanceAs (Decidable (h.client.ExpectsDatagram (Dhcp.fromBytes payload)))

section Step

variable {a : DhcpStep} {c c' : DhcpClient} {h : DhcpHistory} {effects : List DhcpEffect}
  {message : Dhcp}

theorem DhcpStep.Expected.expects (ha : a.Expected h)
    (hbrings : a.Brings h.client message) : h.client.Expects message := by
  obtain ⟨payload, rfl, hread⟩ := hbrings.datagram
  rw [Expected, hread] at ha
  exact ha hbrings.reply

theorem DhcpStep.Expected.elapsed (ha : a.Expected h) : asInt a.elapsedMs = a.elapsedMs.toNat := by
  cases a with
  | timePassed elapsedMs => exact asInt_of_lt ha
  | start | datagram => rfl

/-! ### The invariant -/

/-- The client agrees with its owner.  The countdown to the expiry and the time since the
ACK make up the lease, and a client that renews has asked since. -/
structure Agrees (h : DhcpHistory) : Prop where
  held : h.client.hasLease = (leaseLog h.effects).held
  lease : h.client.hasLease → ∃ lease, (leaseLog h.effects).lease = some lease ∧
    h.client.expiryMsRemaining + h.sinceAckMs = (lease.leaseSeconds.toNat * 1000 : ℕ)
  asked : h.client.state = .renewing ∨ h.client.state = .rebinding →
    ∃ dest request, .send dest request ∈ (leaseLog h.effects).since ∧
      request.getMessageType = Dhcp.request ∧ request.transactionId = h.client.transactionId

theorem agrees_new (mac : MacAddress) (randomSeed : UInt32) : Agrees (.new mac randomSeed) :=
  ⟨rfl, nofun, fun h => absurd h (by rintro (h | h) <;> cases h)⟩

theorem Aged.hasLease {elapsedMs : UInt32} (haged : Aged elapsedMs c c') : c'.hasLease = c.hasLease := by
  rw [DhcpClient.hasLease, DhcpClient.hasLease, haged.state]

variable {offerTaken : Option Dhcp}

theorem Agrees.of_not_held {sinceAckMs : ℕ}
    (hclient : c'.hasLease = false) (hlog : (leaseLog effects).held = false) :
    Agrees ⟨c', effects, offerTaken, sinceAckMs⟩ := by
  refine ⟨hclient.trans hlog.symm, fun hno => ?_, fun hno => ?_⟩
  · cases hclient.symm.trans hno
  · have hlease : c'.hasLease = true := decide_eq_true (.inr hno)
    cases hclient.symm.trans hlease

theorem Agrees.of_aged (h₀ : Agrees h) (ha : a.Expected h) (haged : Aged a.elapsedMs h.client c') :
    Agrees ⟨c', h.effects, offerTaken, h.sinceAckMs + a.elapsedMs.toNat⟩ := by
  refine ⟨haged.hasLease.trans h₀.held, fun hlease => ?_, fun hstate => ?_⟩
  · have hbefore : h.client.hasLease = true := haged.hasLease ▸ hlease
    obtain ⟨lease, hlog, hexpiry⟩ := h₀.lease hbefore
    refine ⟨lease, hlog, ?_⟩
    have hrest := haged.expiry hbefore
    rw [ha.elapsed] at hrest
    dsimp only
    push_cast
    omega
  · rw [haged.transactionId]
    exact h₀.asked (haged.state ▸ hstate)

/-- The client sends something and changes to a state in which it holds a lease as before;
if it asks for a renewal then it has just sent the REQUEST. -/
theorem Agrees.send {c₁ : DhcpClient} {sinceAckMs : ℕ}
    {dest : IPv4Address} (h₁ : Agrees ⟨c₁, effects, offerTaken, sinceAckMs⟩)
    (hlease : c'.hasLease = c₁.hasLease) (hexpiry : c'.expiryMsRemaining = c₁.expiryMsRemaining)
    (hrequest : c'.state = .renewing ∨ c'.state = .rebinding →
      message.getMessageType = Dhcp.request ∧ message.transactionId = c'.transactionId) :
    Agrees ⟨c', effects ++ [.send dest message], offerTaken, sinceAckMs⟩ := by
  have hlog := leaseLog_append_send effects dest message
  refine ⟨?_, fun hheld => ?_, fun hstate => ?_⟩
  · rw [hlog]
    exact hlease.trans h₁.held
  · rw [hlog, hexpiry]
    exact h₁.lease (hlease ▸ hheld)
  · rw [hlog]
    exact ⟨dest, message, List.mem_append_right _ (List.mem_singleton_self _), hrequest hstate⟩

theorem hasLease_of_state {state : DhcpClientState} (hstate : c.state = state) :
    c.hasLease = decide (state = .bound ∨ state = .renewing ∨ state = .rebinding) := by
  rw [hasLease, hstate]

/-- An ACK that is expected: the countdown to the expiry is the lease it grants. -/
theorem Agrees.ack
    (hseconds : (grantedSeconds message).toNat ≤ 2147483) :
    Agrees ⟨(c.applyAck message).1, effects ++ (c.applyAck message).2, offerTaken, 0⟩ := by
  have hlog : leaseLog (effects ++ (c.applyAck message).2) =
      { held := true, lease := some (c.granted message) } := by
    rw [leaseLog_append]
    rfl
  have hstate : (c.applyAck message).1.state = .bound := rfl
  have hexpiry : (c.applyAck message).1.expiryMsRemaining =
      ((c.granted message).leaseSeconds.toNat * 1000 : ℕ) := by
    rw [applyAck_expiryMsRemaining, leaseSecondsToMs_eq, min_eq_left hseconds, granted]
  generalize (c.applyAck message).1 = c₁ at hstate hexpiry ⊢
  refine ⟨?_, fun _ => ⟨c.granted message, ?_, ?_⟩, fun hno => ?_⟩
  · rw [hlog]
    exact hasLease_of_state hstate
  · rw [hlog]
  · rw [hexpiry, Nat.cast_zero, add_zero]
  · rcases hno with hno | hno <;> cases hno.symm.trans hstate

theorem held_append_send (dest : IPv4Address) (message : Dhcp) :
    (leaseLog (effects ++ [.send dest message])).held = (leaseLog effects).held := by
  rw [leaseLog_append_send]

theorem held_append_lost (dest : IPv4Address) (message : Dhcp) :
    (leaseLog (effects ++ [.leaseLost, .send dest message])).held = false := by
  rw [leaseLog_append]
  rfl

theorem Agrees.move (h₀ : Agrees h) (ha : a.Expected h) (hmove : DhcpMove a h.client c' effects) :
    Agrees ⟨c', h.effects ++ effects, offerTaken,
      if effects.any DhcpEffect.isLeaseAcquired then 0
      else h.sinceAckMs + a.elapsedMs.toNat⟩ := by
  cases hmove with
  | stay haged =>
    rw [List.append_nil]
    exact h₀.of_aged ha haged
  | repeatDiscover haged hstate =>
    refine (h₀.of_aged ha haged).send rfl rfl fun hno => ?_
    rw [haged.state, hstate] at hno
    rcases hno with hno | hno <;> cases hno
  | repeatRequest haged hasking =>
    obtain ⟨dest, message, heq, htype, hid, -⟩ := sendRequest_eq c' (c'.state = .renewing)
    rw [heq]
    exact (h₀.of_aged ha haged).send rfl rfl fun _ => ⟨htype, hid⟩
  | start ha' =>
    subst ha'
    refine .of_not_held rfl ((held_append_send ..).trans ?_)
    exact h₀.held.symm.trans ha
  | offer hbrings htype hstate =>
    rw [onOffer, if_pos hstate, ask_snd]
    obtain ⟨dest, message, heq, -⟩ := sendRequest_eq (ask _ .requesting false).1 false
    rw [heq]
    refine .of_not_held rfl ((held_append_send ..).trans ?_)
    exact h₀.held.symm.trans (hasLease_of_state hstate)
  | ack hbrings htype hasking => exact .ack ((ha.expects hbrings).2 htype hasking)
  | nak hbrings htype =>
    unfold onNak
    dsimp only
    by_cases hlease : h.client.hasLease = true
    · rw [if_pos hlease]
      exact .of_not_held rfl (held_append_lost ..)
    · rw [if_neg hlease]
      refine .of_not_held rfl ((held_append_send ..).trans ?_)
      exact h₀.held.symm.trans (Bool.eq_false_iff.2 hlease)
  | expire haged hlease hexpiry => exact .of_not_held rfl (held_append_lost ..)
  | rebind haged hlease =>
    rw [ask_snd]
    obtain ⟨dest, message, heq, htype, hid, -⟩ := sendRequest_eq (ask _ .rebinding false).1 false
    rw [heq]
    refine (h₀.of_aged ha haged).send ?_ rfl fun _ => ⟨htype, hid⟩
    exact (haged.hasLease.trans hlease).symm
  | renew haged hlease =>
    rw [ask_snd]
    obtain ⟨dest, message, heq, htype, hid, -⟩ := sendRequest_eq (ask _ .renewing true).1 true
    rw [heq]
    refine (h₀.of_aged ha haged).send ?_ rfl fun _ => ⟨htype, hid⟩
    exact (haged.hasLease.trans hlease).symm

theorem agrees_of_runs {steps : List DhcpStep} {mac : MacAddress} {randomSeed : UInt32}
    (hok : Along DhcpStep.run DhcpStep.Expected steps (.new mac randomSeed))
    (hrun : runs DhcpStep.run steps (.new mac randomSeed) = some h) : Agrees h := by
  refine runs_invariant (I := Agrees) (fun a h h' h₀ ha hstep => ?_) (agrees_new mac randomSeed) hok
    hrun
  cases hstep
  exact h₀.move ha (move_act a)

/-! ### What a step gives up -/

/-- The reason to give a lease up: the time of the last ACK is over, or the step brings a
NAK in the transaction of a REQUEST that was sent since. -/
def LostForAReason (h : DhcpHistory) (a : DhcpStep) : Prop :=
  ∃ lease, (leaseLog h.effects).lease = some lease ∧
    (lease.leaseSeconds.toNat * 1000 ≤ h.sinceAckMs + a.elapsedMs.toNat ∨
      ∃ nak dest request, a.Brings h.client nak ∧ nak.getMessageType = Dhcp.nak ∧
        .send dest request ∈ (leaseLog h.effects).since ∧
        request.getMessageType = Dhcp.request ∧ request.transactionId = nak.transactionId)

/-- The lease-lost callback is called by a NAK while a lease is held, or at the expiry. -/
theorem lost_cases (hmove : DhcpMove a c c' effects) (hlost : .leaseLost ∈ effects) : c.hasLease = true ∧
      ((∃ message, a.Brings c message ∧ message.getMessageType = Dhcp.nak) ∨
        ∃ c₁, Aged a.elapsedMs c c₁ ∧ c₁.expiryMsRemaining ≤ 0) := by
  have hrequest : ∀ (c₁ : DhcpClient) (unicastToServer : Bool),
      .leaseLost ∉ c₁.sendRequest unicastToServer := by
    intro c₁ unicastToServer hmem
    obtain ⟨dest, message, heq, -⟩ := sendRequest_eq c₁ unicastToServer
    rw [heq] at hmem
    cases List.mem_singleton.1 hmem
  cases hmove with
  | stay => cases hlost
  | repeatDiscover | start | ack => cases List.mem_singleton.1 hlost
  | repeatRequest => exact absurd hlost (hrequest _ _)
  | rebind | renew =>
    rw [ask_snd] at hlost
    exact absurd hlost (hrequest _ _)
  | offer _ _ hstate =>
    rw [onOffer, if_pos hstate, ask_snd] at hlost
    exact absurd hlost (hrequest _ _)
  | nak hbrings htype =>
    rcases List.mem_append.1 hlost with hlost | hsent
    · split_ifs at hlost with hlease
      · exact ⟨hlease, .inl ⟨_, hbrings, htype⟩⟩
      · cases hlost
    · cases List.mem_singleton.1 hsent
  | expire haged hlease hexpiry => exact ⟨hlease, .inr ⟨_, haged, hexpiry⟩⟩

theorem Agrees.lostForAReason (h₀ : Agrees h) (ha : a.Expected h)
    (hlost : .leaseLost ∈ (a.act h.client).2) : LostForAReason h a := by
  obtain ⟨hlease, hreason⟩ := lost_cases (move_act a) hlost
  obtain ⟨lease, hlog, hexpiry⟩ := h₀.lease hlease
  refine ⟨lease, hlog, ?_⟩
  rcases hreason with ⟨nak, hbrings, htype⟩ | ⟨c₁, haged, hover⟩
  · -- a NAK is expected while the client asks, and it holds a lease: so it renews
    have hrenewing : h.client.state = .renewing ∨ h.client.state = .rebinding := by
      refine ((ha.expects hbrings).1 htype).resolve_left fun hrequesting => ?_
      cases hlease.symm.trans (hasLease_of_state hrequesting)
    obtain ⟨dest, request, hsent, hrequest, hid⟩ := h₀.asked hrenewing
    have hreply : nak.transactionId = h.client.transactionId := (of_decide_eq_true hbrings.reply).2.1
    exact .inr ⟨nak, dest, request, hbrings, htype, hsent, hrequest, hid.trans hreply.symm⟩
  · have hrest := haged.expiry hlease
    rw [ha.elapsed] at hrest
    left
    omega

theorem act_of_nak {payload : Bytes} (ha : DhcpStep.Expected (.datagram payload) h)
    (hread : Dhcp.fromBytes payload = .ok message) (htype : message.getMessageType = Dhcp.nak)
    (hstate : ¬ h.client.Asking) : h.client.onDatagram payload = (h.client, []) := by
  have hreply : ¬ h.client.isReply message = true := by
    intro hreply
    exact hstate ((ha.expects ⟨⟨payload, rfl, hread⟩, hreply⟩).1 htype)
  rw [onDatagram, hread]
  exact if_neg hreply

end Step

/-- **A lease is given up only for a reason, and the owner knows**, along every run whose
steps are as expected: the client is not started anew while it holds a lease, no NAK comes
that answers nothing, and no lease is granted that is cut.  In each state the client holds a
lease exactly when the owner was told so last; the lease-lost callback is called only when
the time of the last ACK is over or on a NAK to a REQUEST sent since; and a NAK in INIT,
SELECTING or BOUND changes nothing. -/
theorem lease_lost_for_a_reason {steps : List DhcpStep} {mac : MacAddress} {randomSeed : UInt32}
    {h : DhcpHistory} (hok : Along DhcpStep.run DhcpStep.Expected steps (.new mac randomSeed))
    (hrun : runs DhcpStep.run steps (.new mac randomSeed) = some h) :
    (h.client.hasLease = true ↔ ∃ before lease after,
        h.effects = before ++ .leaseAcquired lease :: after ∧ .leaseLost ∉ after) ∧
      ∀ a : DhcpStep, a.Expected h →
        (.leaseLost ∈ (a.act h.client).2 → LostForAReason h a) ∧
        (∀ payload message, a = .datagram payload → Dhcp.fromBytes payload = .ok message →
          message.getMessageType = Dhcp.nak →
          h.client.state = .init ∨ h.client.state = .selecting ∨ h.client.state = .bound →
          a.act h.client = (h.client, [])) := by
  have hagrees := agrees_of_runs hok hrun
  refine ⟨?_, fun a ha => ⟨hagrees.lostForAReason ha, ?_⟩⟩
  · rw [hagrees.held, held_leaseLog_iff]
  · rintro payload message rfl hread htype hstate
    refine act_of_nak ha hread htype ?_
    rintro (hno | hno | hno) <;> rcases hstate with hstate | hstate | hstate <;>
      cases hno.symm.trans hstate

/-- The offered address is bound, for an hour. -/
def boundForAnHour : List DhcpStep := offered ++ [datagramOf (replyOf Dhcp.acknowledge ⟨0x0A000005⟩)]

theorem boundForAnHour_runs : (runs DhcpStep.run boundForAnHour (.new .zero 7)).isSome = true := rfl

/-- Half an hour later the client renews. -/
def renewingAfterHalf : List DhcpStep := boundForAnHour ++ [.timePassed 1800000]

theorem renewingAfterHalf_runs : (runs DhcpStep.run renewingAfterHalf (.new .zero 7)).isSome = true := rfl

theorem renewal_refused_for_a_reason :
    ∃ h, runs DhcpStep.run renewingAfterHalf (.new .zero 7) = some h ∧
      .leaseLost ∈ ((datagramOf (replyOf Dhcp.nak {})).act h.client).2 ∧
      LostForAReason h (datagramOf (replyOf Dhcp.nak {})) := by
  have hrun := (Option.some_get renewingAfterHalf_runs).symm
  have hlost : .leaseLost ∈ ((datagramOf (replyOf Dhcp.nak {})).act
      ((runs DhcpStep.run renewingAfterHalf (.new .zero 7)).get renewingAfterHalf_runs).client).2 := by
    decide +kernel
  have hall := (lease_lost_for_a_reason (by decide +kernel) hrun).2
    (datagramOf (replyOf Dhcp.nak {})) (by decide +kernel)
  exact ⟨_, hrun, hlost, hall.1 hlost⟩

/-- A client that is bound is started anew: it holds no lease, and the owner was not told.
Or it gets a NAK: the lease is lost with its time not over and nothing asked. -/
theorem bound_lease_given_up :
    ∃ h, runs DhcpStep.run boundForAnHour (.new .zero 7) = some h ∧ h.client.state = .bound ∧
      (DhcpStep.start.act h.client).1.hasLease = false ∧
      (leaseLog (h.effects ++ (DhcpStep.start.act h.client).2)).held = true ∧
      .leaseLost ∈ ((datagramOf (replyOf Dhcp.nak {})).act h.client).2 ∧
      ¬ LostForAReason h (datagramOf (replyOf Dhcp.nak {})) := by
  refine ⟨_, (Option.some_get boundForAnHour_runs).symm, ?_, ?_, ?_, ?_, ?_⟩
  · decide +kernel
  · decide +kernel
  · decide +kernel
  · decide +kernel
  · rintro ⟨lease, hlease, htime | ⟨nak, dest, request, -, -, hsent, -⟩⟩
    · have hhour : (leaseLog ((runs DhcpStep.run boundForAnHour (.new .zero 7)).get
          boundForAnHour_runs).effects).lease.map DhcpLease.leaseSeconds = some 3600 := by
        decide +kernel
      rw [hlease, Option.map_some, Option.some.injEq] at hhour
      rw [hhour] at htime
      exact absurd htime (by decide +kernel)
    · have hnothing : (leaseLog ((runs DhcpStep.run boundForAnHour (.new .zero 7)).get
          boundForAnHour_runs).effects).since = [] := by
        decide +kernel
      rw [hnothing] at hsent
      cases hsent

end TcpIpStack
