/-
# The three deadlines of a lease

`_apply_ack` sets the countdowns to renewal, rebinding and expiry, and `on_time_passed`
runs them down.  A lease time is cut to `MAX_LEASE_SECONDS` after T1 and T2 are taken
from it, and T2 is a product of `uint32_t`.  So the deadlines stand in order exactly up to
twice `MAX_LEASE_SECONDS` (`lease_renewed_before_lost`): beyond that the renewal falls
together with the expiry, and an infinite lease is lost without having been renewed.
-/

import TcpIpStack.Dhcp.Moves

namespace TcpIpStack

open DhcpClient TcpConnection

/-! ### Lease times in milliseconds -/

theorem toNat_min32 (a b : UInt32) : (min a b).toNat = min a.toNat b.toNat := by
  change (if a ≤ b then a else b).toNat = _
  split_ifs with h
  · exact (min_eq_left (UInt32.le_iff_toNat_le.1 h)).symm
  · exact (min_eq_right (Nat.le_of_not_le fun hle => h (UInt32.le_iff_toNat_le.2 hle))).symm

theorem leaseSecondsToMs_eq (seconds : UInt32) :
    leaseSecondsToMs seconds = (min seconds.toNat 2147483 * 1000 : ℕ) := by
  have hmin : (min seconds maxLeaseSeconds).toNat = min seconds.toNat 2147483 := toNat_min32 ..
  have hproduct : (min seconds maxLeaseSeconds * msPerSecond).toNat =
      min seconds.toNat 2147483 * 1000 := by
    rw [UInt32.toNat_mul, hmin, show msPerSecond.toNat = 1000 from rfl]
    exact Nat.mod_eq_of_lt (by omega)
  rw [leaseSecondsToMs, asInt_of_lt (by rw [hproduct]; omega), hproduct]

section Granted

variable {c : DhcpClient} {message : Dhcp} {seconds : UInt32}

theorem grantedSeconds_eq (hlease : message.getOptionUInt32 .leaseTime 0 = seconds)
    (hseconds : seconds ≠ 0) : grantedSeconds message = seconds := by
  rw [grantedSeconds, hlease, if_neg hseconds]

theorem getOptionUInt32_of_not_hasOption {option : DhcpOption} (fallback : UInt32)
    (h : message.hasOption option = false) : message.getOptionUInt32 option fallback = fallback := by
  have hnone : message.options.find? option.code = none := by
    rw [Dhcp.hasOption] at h
    exact Option.not_isSome_iff_eq_none.1 (Bool.eq_false_iff.1 h)
  rw [Dhcp.getOptionUInt32, Dhcp.getOption, hnone]
  rfl

/-- The countdowns after an ACK without T1 and T2. -/
theorem applyAck_deadlines (hlease : message.getOptionUInt32 .leaseTime 0 = seconds)
    (hseconds : seconds ≠ 0) (hrenewal : message.hasOption .renewalTime = false)
    (hrebinding : message.hasOption .rebindingTime = false) :
    (c.applyAck message).1.renewalMsRemaining = (min (seconds.toNat / 2) 2147483 * 1000 : ℕ) ∧
      (c.applyAck message).1.rebindingMsRemaining =
        (min (seconds.toNat * 7 % 2 ^ 32 / 8) 2147483 * 1000 : ℕ) ∧
      (c.applyAck message).1.expiryMsRemaining = (min seconds.toNat 2147483 * 1000 : ℕ) := by
  have hgranted := grantedSeconds_eq hlease hseconds
  have hhalf : (seconds * 1 / 2).toNat = seconds.toNat / 2 := by
    rw [UInt32.mul_one, UInt32.toNat_div]
    rfl
  have hpart : (seconds * 7 / 8).toNat = seconds.toNat * 7 % 2 ^ 32 / 8 := by
    rw [UInt32.toNat_div, UInt32.toNat_mul]
    rfl
  refine ⟨?_, ?_, ?_⟩
  · rw [applyAck, hgranted, getOptionUInt32_of_not_hasOption _ hrenewal]
    exact (leaseSecondsToMs_eq _).trans (by rw [hhalf])
  · rw [applyAck, hgranted, getOptionUInt32_of_not_hasOption _ hrebinding]
    exact (leaseSecondsToMs_eq _).trans (by rw [hpart])
  · rw [applyAck_expiryMsRemaining, hgranted, leaseSecondsToMs_eq]

end Granted

/-! ### Time that passes without an answer -/

/-- What a client does while time passes in these steps and nothing arrives. -/
def DhcpClient.elapse : List UInt32 → DhcpClient → List DhcpEffect
  | [], _ => []
  | elapsedMs :: rest, c => (c.onTimePassed elapsedMs).2 ++ elapse rest (c.onTimePassed elapsedMs).1

/-- Before the lease is lost, a REQUEST is sent. -/
def RequestedBeforeLost (effects : List DhcpEffect) : Prop :=
  ∀ before after, effects = before ++ .leaseLost :: after →
    ∃ dest message, .send dest message ∈ before ∧ message.getMessageType = Dhcp.request

theorem requestedBeforeLost_cons {dest : IPv4Address} {message : Dhcp} (rest : List DhcpEffect)
    (h : message.getMessageType = Dhcp.request) : RequestedBeforeLost (.send dest message :: rest) := by
  intro before after heq
  cases before with
  | nil => cases heq
  | cons first before =>
    cases heq
    exact ⟨dest, message, List.mem_cons_self, h⟩

theorem requestedBeforeLost_ask (c : DhcpClient) (state : DhcpClientState) (unicastToServer : Bool)
    (rest : List DhcpEffect) : RequestedBeforeLost ((c.ask state unicastToServer).2 ++ rest) := by
  obtain ⟨dest, message, heq, hrequest, -⟩ :=
    sendRequest_eq (c.ask state unicastToServer).1 unicastToServer
  rw [ask_snd, heq]
  exact requestedBeforeLost_cons _ hrequest

/-- A client that holds a lease and has more than a second from its renewal to its
expiry. -/
structure DhcpClient.RenewsInTime (c : DhcpClient) : Prop where
  state : c.state = .bound
  renewal : 0 < c.renewalMsRemaining
  rebinding : c.renewalMsRemaining ≤ c.rebindingMsRemaining
  expiry : c.renewalMsRemaining + 1000 ≤ c.expiryMsRemaining

theorem onTimePassed_of_bound {c : DhcpClient} (hstate : c.state = .bound) (elapsedMs : UInt32) :
    c.onTimePassed elapsedMs =
      { c with secondsElapsedMs := c.secondsElapsedMs + elapsedMs }.onTimePassedHeld elapsedMs := by
  rw [onTimePassed, if_neg (by rw [hstate]; exact nofun)]
  exact if_neg (by rw [hstate]; exact nofun)

/-- Within a second of the renewal the client has asked, or the deadlines are still ahead. -/
theorem DhcpClient.RenewsInTime.step {c : DhcpClient} (h : c.RenewsInTime) {elapsedMs : UInt32}
    (helapsed : elapsedMs ≤ 1000) : (∃ c' state unicastToServer,
        (c.onTimePassed elapsedMs).2 = (ask c' state unicastToServer).2) ∨
      (c.onTimePassed elapsedMs).2 = [] ∧ (c.onTimePassed elapsedMs).1.RenewsInTime := by
  have hle : elapsedMs.toNat ≤ 1000 := UInt32.le_iff_toNat_le.1 helapsed
  have hint : asInt elapsedMs = elapsedMs.toNat := asInt_of_lt (by omega)
  rw [onTimePassed_of_bound h.state, onTimePassedHeld]
  obtain ⟨c₁, hc₁⟩ : ∃ c₁, c₁ = age
      { c with secondsElapsedMs := c.secondsElapsedMs + elapsedMs } elapsedMs := ⟨_, rfl⟩
  have hstate : c₁.state = .bound := by rw [hc₁, age_state, h.state]
  have hrenewal : c₁.renewalMsRemaining = c.renewalMsRemaining - elapsedMs.toNat := by
    rw [hc₁, age_renewalMsRemaining, hint]
  have hrebinding : c₁.rebindingMsRemaining = c.rebindingMsRemaining - elapsedMs.toNat := by
    rw [hc₁, age_rebindingMsRemaining, hint]
  have hexpiry : c₁.expiryMsRemaining = c.expiryMsRemaining - elapsedMs.toNat := by
    rw [hc₁, age_expiryMsRemaining, hint]
  rw [← hc₁]
  obtain ⟨-, hrenewal₀, hrebinding₀, hexpiry₀⟩ := h
  rw [if_neg (by omega)]
  by_cases hrebind : c₁.rebindingMsRemaining ≤ 0
  · rw [if_pos ⟨hrebind, by rw [hstate]; exact nofun⟩]
    exact .inl ⟨_, _, _, rfl⟩
  rw [if_neg fun hno => hrebind hno.1]
  by_cases hrenew : c₁.renewalMsRemaining ≤ 0
  · rw [if_pos ⟨Int.not_le.1 hrebind, hrenew, hstate⟩]
    exact .inl ⟨_, _, _, rfl⟩
  · rw [if_neg fun hno => hrenew hno.2.1, if_neg (by rw [hstate]; exact nofun)]
    exact .inr ⟨rfl, hstate, Int.not_le.1 hrenew, by dsimp only; omega, by dsimp only; omega⟩

theorem DhcpClient.RenewsInTime.requestedBeforeLost {c : DhcpClient} (h : c.RenewsInTime)
    {steps : List UInt32} (hsteps : ∀ elapsedMs ∈ steps, elapsedMs ≤ 1000) :
    RequestedBeforeLost (c.elapse steps) := by
  induction steps generalizing c with
  | nil => exact fun before after heq => absurd heq (by simp [elapse])
  | cons elapsedMs rest ih =>
    obtain ⟨hfirst, hrest⟩ := List.forall_mem_cons.1 hsteps
    rw [elapse]
    rcases h.step hfirst with ⟨c', state, unicastToServer, heq⟩ | ⟨hnothing, hnext⟩
    · rw [heq]
      exact requestedBeforeLost_ask c' state unicastToServer _
    · rw [hnothing]
      exact ih hnext hrest

/-- **A lease is renewed before it is lost, exactly below twice `MAX_LEASE_SECONDS`.**
After an ACK without T1 and T2 the deadlines stand in order, with the renewal before the
expiry; and while time passes in steps of a second at most, a lease of eight seconds or
more is lost only after a REQUEST. -/
theorem lease_renewed_before_lost (c : DhcpClient) (message : Dhcp) (seconds : UInt32)
    (hlease : message.getOptionUInt32 .leaseTime 0 = seconds) (hseconds : seconds ≠ 0)
    (hrenewal : message.hasOption .renewalTime = false)
    (hrebinding : message.hasOption .rebindingTime = false) :
    ((c.applyAck message).1.renewalMsRemaining ≤ (c.applyAck message).1.rebindingMsRemaining ∧
      (c.applyAck message).1.rebindingMsRemaining ≤ (c.applyAck message).1.expiryMsRemaining ∧
      (2 ≤ seconds → (c.applyAck message).1.renewalMsRemaining <
        (c.applyAck message).1.expiryMsRemaining) ∧
      (8 ≤ seconds → ∀ steps : List UInt32, (∀ elapsedMs ∈ steps, elapsedMs ≤ 1000) →
        RequestedBeforeLost ((c.applyAck message).1.elapse steps))) ↔
      seconds < 4294966 := by
  obtain ⟨h₁, h₂, h₃⟩ := applyAck_deadlines (c := c) hlease hseconds hrenewal hrebinding
  have hpos : seconds.toNat ≠ 0 := fun h => hseconds (UInt32.toNat_inj.1 h)
  rw [UInt32.lt_iff_toNat_lt, show (4294966 : UInt32).toNat = 4294966 from rfl]
  constructor
  · rintro ⟨-, -, hbefore, -⟩
    by_contra hlarge
    have htwo : 2 ≤ seconds := UInt32.le_iff_toNat_le.2 (show 2 ≤ seconds.toNat by omega)
    have hlt := hbefore htwo
    rw [h₁, h₃] at hlt
    omega
  · intro hsmall
    -- the product is below 2^32
    have hmod : seconds.toNat * 7 % 2 ^ 32 = seconds.toNat * 7 := Nat.mod_eq_of_lt (by omega)
    rw [hmod] at h₂
    refine ⟨?_, ?_, fun htwo => ?_, fun height steps hsteps => ?_⟩
    · rw [h₁, h₂]
      omega
    · rw [h₂, h₃]
      omega
    · have htwo : 2 ≤ seconds.toNat := UInt32.le_iff_toNat_le.1 htwo
      rw [h₁, h₃]
      omega
    · have height : 8 ≤ seconds.toNat := UInt32.le_iff_toNat_le.1 height
      refine DhcpClient.RenewsInTime.requestedBeforeLost ⟨rfl, ?_, ?_, ?_⟩ hsteps
      · rw [h₁]
        omega
      · rw [h₁, h₂]
        omega
      · rw [h₁, h₃]
        omega

/-- An ACK that names a lease time and neither T1 nor T2. -/
def ackFor (seconds : UInt32) : Dhcp :=
  (({ op := Dhcp.opBootReply, transactionId := 8, yourIp := ⟨0x0A000005⟩ } : Dhcp).setMessageType
    Dhcp.acknowledge).setOption .leaseTime (intToBytes32 seconds)

/-- A client that waits for it. -/
def requestingClient : DhcpClient where
  mac := .zero
  state := .requesting
  transactionId := 8
  offer := { ip := ⟨0x0A000005⟩ }

theorem hour_lease_renewed_before_lost :
    (ackFor 3600).getOptionUInt32 .leaseTime 0 = 3600 ∧
      (requestingClient.applyAck (ackFor 3600)).1.renewalMsRemaining <
        (requestingClient.applyAck (ackFor 3600)).1.expiryMsRemaining ∧
      RequestedBeforeLost
        ((requestingClient.applyAck (ackFor 3600)).1.elapse (List.replicate 3600 1000)) := by
  have hlease : (ackFor 3600).getOptionUInt32 .leaseTime 0 = 3600 := by decide +kernel
  obtain ⟨-, -, hbefore, hasked⟩ := (lease_renewed_before_lost requestingClient (ackFor 3600) 3600
    hlease (by decide) (by decide +kernel) (by decide +kernel)).2 (by decide)
  refine ⟨hlease, hbefore (by decide), hasked (by decide) _ fun elapsedMs helapsed => ?_⟩
  rw [List.eq_of_mem_replicate helapsed]
  exact UInt32.le_refl _

/-- When the three deadlines fall together, the lease is lost and nothing was asked. -/
theorem not_requestedBeforeLost_of_eq {c : DhcpClient} (k : ℕ) (hstate : c.state = .bound)
    (hrenewal : c.renewalMsRemaining = (k + 1) * 1000) (hrebinding : c.rebindingMsRemaining = (k + 1) * 1000)
    (hexpiry : c.expiryMsRemaining = (k + 1) * 1000) :
    ¬ RequestedBeforeLost (c.elapse (List.replicate (k + 1) 1000)) := by
  have hint : asInt 1000 = 1000 := rfl
  induction k generalizing c with
  | zero =>
    intro h
    rw [List.replicate_one, elapse, onTimePassed_of_bound hstate, onTimePassedHeld] at h
    obtain ⟨dest, message, hsent, -⟩ := h [] _ (by
      rw [if_pos (by rw [age_expiryMsRemaining, hint, hexpiry]; rfl)]
      rfl)
    cases hsent
  | succ k ih =>
    rw [List.replicate_succ, elapse, onTimePassed_of_bound hstate, onTimePassedHeld]
    obtain ⟨c₁, hc₁⟩ : ∃ c₁, c₁ = age
        { c with secondsElapsedMs := c.secondsElapsedMs + 1000 } 1000 := ⟨_, rfl⟩
    have hstate₁ : c₁.state = .bound := by rw [hc₁, age_state, hstate]
    have hrenewal₁ : c₁.renewalMsRemaining = (k + 1) * 1000 := by
      rw [hc₁, age_renewalMsRemaining, hint, hrenewal]
      push_cast
      ring
    have hrebinding₁ : c₁.rebindingMsRemaining = (k + 1) * 1000 := by
      rw [hc₁, age_rebindingMsRemaining, hint, hrebinding]
      push_cast
      ring
    have hexpiry₁ : c₁.expiryMsRemaining = (k + 1) * 1000 := by
      rw [hc₁, age_expiryMsRemaining, hint, hexpiry]
      push_cast
      ring
    rw [← hc₁, if_neg (by omega), if_neg (by omega), if_neg (by omega), if_neg (by
      rw [hstate₁]
      exact nofun)]
    exact ih hstate₁ hrenewal₁ hrebinding₁ hexpiry₁

/-- An infinite lease: the three deadlines fall together, about 25 days ahead, and the
lease is lost there without a REQUEST. -/
theorem infinite_lease_not_renewed :
    ¬ (requestingClient.applyAck (ackFor 0xffffffff)).1.renewalMsRemaining <
        (requestingClient.applyAck (ackFor 0xffffffff)).1.expiryMsRemaining ∧
      ∃ steps : List UInt32, (∀ elapsedMs ∈ steps, elapsedMs ≤ 1000) ∧
        ¬ RequestedBeforeLost ((requestingClient.applyAck (ackFor 0xffffffff)).1.elapse steps) := by
  -- kept apart from its value, so that the list is not computed
  obtain ⟨k, hk⟩ : ∃ k : ℕ, k = 2147482 := ⟨_, rfl⟩
  refine ⟨by decide +kernel, List.replicate (k + 1) 1000, fun elapsedMs helapsed => ?_,
    not_requestedBeforeLost_of_eq k rfl ?_ ?_ ?_⟩
  · rw [List.eq_of_mem_replicate helapsed]
    exact UInt32.le_refl _
  all_goals
    rw [hk]
    decide +kernel

end TcpIpStack
