/-
# The timestamp on what a connection sends

Once timestamps are negotiated, every segment but a SYN should carry one
(RFC 7323).  Two of the six places that call `_send_segment` see to it:
`_send_flags` and `_send_pure_ack` attach the options.  The other four, the two
retransmissions and the two probes, send the header of `_build_header` as it is.

`Event.repeats` says which events lead to one of those four, and it is exact
(`Event.run_sites`).  So the segments of a run all carry their timestamp just
when no such event occurs past the handshake (`every_segment_stamped_iff`).
-/

import TcpIpStack.Tcp.AckDuty
import TcpIpStack.Tcp.Options
import TcpIpStack.Tcp.WindowUpdate

namespace TcpIpStack

open TcpConnection Session Runs

/-- The call is made where the options are attached. -/
def Call.attaches (call : Call) : Prop := call.site = .sendFlags ∨ call.site = .pureAck

/-- The segment carries the clock of the connection, and the newest timestamp
of the peer. -/
def Call.Stamped (call : Call) : Prop :=
  call.header.timestampOption = some (call.conn.nowMs.toUInt32, call.conn.tsRecent)

/-- The segment has to carry a timestamp. -/
def Call.OwesStamp (call : Call) : Prop :=
  call.conn.timestampsNegotiated = true ∧ call.header.syn = false

/-- Every segment that has to carry a timestamp does. -/
def Session.Stamped (x : Session) : Prop := ∀ call ∈ x.sent, call.OwesStamp → call.Stamped

instance (call : Call) : Decidable call.attaches := inferInstanceAs (Decidable (_ ∨ _))
instance (call : Call) : Decidable call.Stamped := inferInstanceAs (Decidable (_ = _))
instance (call : Call) : Decidable call.OwesStamp := inferInstanceAs (Decidable (_ ∧ _))
instance (x : Session) : Decidable x.Stamped := inferInstanceAs (Decidable (∀ _ ∈ _, _ → _))

/-! ### The events that send something as it is -/

/-- The clock runs out on the persist timer with something to send, on an idle
connection, or on the oldest segment that the peer has not reported. -/
def ClockRepeats (elapsedMs : UInt32) (c : TcpConnection) : Prop :=
  c.state ≠ .closed ∧ c.state ≠ .timeWait ∧
    if c.inFlight = [] then
      if 0 < c.persistMsRemaining then
        c.persistMsRemaining - asInt elapsedMs ≤ 0 ∧ c.sendQueue ≠ []
      else c.keepaliveEnabled = true ∧ c.state = .established ∧
        if 0 < c.keepaliveProbesSent then
          c.keepaliveProbeMsRemaining - asInt elapsedMs ≤ 0 ∧ c.keepaliveProbesSent < keepaliveMaxProbes
        else c.keepaliveIdleMsRemaining - asInt elapsedMs ≤ 0
    else ∃ oldest ∈ c.oldestUnsackedSegment,
      oldest.retransmitMsRemaining - asInt elapsedMs ≤ 0 ∧
        oldest.retransmitAttempts + 1 ≤ maxRetransmitAttempts

/-- The event leads to a probe or a retransmission. -/
def Event.repeats : Event → Session → Prop
  | .segment t, x => ThirdDuplicate t x.conn
  | .timePassed elapsedMs, x => ClockRepeats elapsedMs x.conn
  | _, _ => False

/-- It does so past the handshake, with timestamps negotiated. -/
def Event.sendsPlain (e : Event) (x : Session) : Prop :=
  x.conn.timestampsNegotiated = true ∧ ¬ opening x.conn.state ∧ e.repeats x

instance (elapsedMs : UInt32) (c : TcpConnection) : Decidable (ClockRepeats elapsedMs c) :=
  inferInstanceAs (Decidable (_ ∧ _ ∧ ite _ (ite _ (_ ∧ _) (_ ∧ _ ∧ ite _ (_ ∧ _) _)) (∃ _ ∈ _, _ ∧ _)))

instance (state : TcpState) : Decidable (opening state) := inferInstanceAs (Decidable (_ ∨ _))

instance (e : Event) (x : Session) : Decidable (e.repeats x) :=
  match e with
  | .segment t => inferInstanceAs (Decidable (ThirdDuplicate t x.conn))
  | .timePassed elapsedMs => inferInstanceAs (Decidable (ClockRepeats elapsedMs x.conn))
  | .send _ | .read _ | .close | .setKeepalive _ | .reduceEffectiveMss _ | .fail => isFalse id

instance (e : Event) (x : Session) : Decidable (e.sendsPlain x) := inferInstanceAs (Decidable (_ ∧ _ ∧ _))

section Sites

variable {e : Event} {x y : Session} {t : Tcp}

/-- What a stretch of code sends: `calls`, of which some are made where no
option is attached just when `r` holds. -/
structure Sends (r : Prop) (x y : Session) (calls : List Call) : Prop where
  sent : y.sent = x.sent ++ calls
  plain : (∃ call ∈ calls, ¬ call.attaches) ↔ r

variable {r : Prop}

theorem Sends.of_attaches {calls : List Call} (hsent : y.sent = x.sent ++ calls)
    (hcalls : ∀ call ∈ calls, call.attaches) (hr : ¬ r) : Sends r x y calls :=
  ⟨hsent, iff_of_false (fun ⟨call, hcall, hplain⟩ => hplain (hcalls call hcall)) hr⟩

theorem Sends.of_eq (hsent : y.sent = x.sent) (hr : ¬ r) : Sends r x y [] :=
  .of_attaches (by rw [hsent, List.append_nil]) (fun _ hcall => absurd hcall List.not_mem_nil) hr

theorem Sends.of_plain {calls : List Call} {call : Call} (hsent : y.sent = x.sent ++ calls)
    (hcall : call ∈ calls) (hplain : ¬ call.attaches) (hr : r) : Sends r x y calls :=
  ⟨hsent, iff_of_true ⟨call, hcall, hplain⟩ hr⟩

theorem Sends.after {z : Session} {acks calls : List Call} (hsent : y.sent = x.sent ++ acks)
    (hacks : ∀ call ∈ acks, call.attaches) (h : Sends r y z calls) : Sends r x z (acks ++ calls) where
  sent := by rw [h.sent, hsent, List.append_assoc]
  plain := by
    rw [← h.plain]
    refine ⟨fun ⟨call, hcall, hplain⟩ => ?_, fun ⟨call, hcall, hplain⟩ =>
      ⟨call, List.mem_append_right _ hcall, hplain⟩⟩
    rcases List.mem_append.1 hcall with hack | hcall
    · exact absurd (hacks call hack) hplain
    · exact ⟨call, hcall, hplain⟩

/-! ### The clock -/

theorem not_attaches {call : Call} (site : CallSite) (hsite : call.site = site)
    (hne : site ≠ .sendFlags ∧ site ≠ .pureAck) : ¬ call.attaches := by
  rintro (h | h)
  · exact hne.1 (hsite.symm.trans h)
  · exact hne.2 (hsite.symm.trans h)

theorem runPersist_sends (elapsedMs : UInt32) (x : Session) : ∃ calls,
    Sends (x.conn.persistMsRemaining - asInt elapsedMs ≤ 0 ∧ x.conn.sendQueue ≠ []) x
      (x.runPersist elapsedMs) calls := by
  unfold runPersist sendZeroWindowProbe
  split_ifs with hdue
  · have hdue : x.conn.persistMsRemaining - asInt elapsedMs ≤ 0 := hdue
    split
    · next hempty => exact ⟨[], .of_eq rfl fun h => h.2 hempty⟩
    · next front rest hqueue =>
      have hqueue : x.conn.sendQueue = front :: rest := hqueue
      exact ⟨_, .of_plain rfl List.mem_cons_self (not_attaches .zeroWindowProbe rfl (by decide)) ⟨hdue, by simp [hqueue]⟩⟩
  · exact ⟨[], .of_eq rfl fun h => hdue h.1⟩

theorem runKeepalive_sends (elapsedMs : UInt32) (x : Session) : ∃ calls,
    Sends (x.conn.keepaliveEnabled = true ∧ x.conn.state = .established ∧
      if 0 < x.conn.keepaliveProbesSent then
        x.conn.keepaliveProbeMsRemaining - asInt elapsedMs ≤ 0 ∧
          x.conn.keepaliveProbesSent < keepaliveMaxProbes
      else x.conn.keepaliveIdleMsRemaining - asInt elapsedMs ≤ 0) x (x.runKeepalive elapsedMs) calls := by
  unfold runKeepalive
  by_cases hoff : !x.conn.keepaliveEnabled || x.conn.state ≠ .established
  · rw [if_pos hoff]
    refine ⟨[], .of_eq rfl fun ⟨henabled, hstate, _⟩ => ?_⟩
    simp [henabled, hstate] at hoff
  · rw [if_neg hoff]
    obtain ⟨henabled, hstate⟩ : x.conn.keepaliveEnabled = true ∧ x.conn.state = .established := by
      simpa using hoff
    simp only [henabled, hstate, true_and]
    split_ifs with hprobing hleft hmany hdue
    · exact ⟨[], .of_eq rfl fun h => absurd h.1 (not_le.2 hleft)⟩
    · exact ⟨[], .of_eq rfl fun h => absurd h.2 (not_lt.2 hmany)⟩
    · exact ⟨_, .of_plain rfl List.mem_cons_self (not_attaches .keepaliveProbe rfl (by decide))
        ⟨not_lt.1 hleft, not_le.1 hmany⟩⟩
    · exact ⟨_, .of_plain rfl List.mem_cons_self (not_attaches .keepaliveProbe rfl (by decide)) hdue⟩
    · exact ⟨[], .of_eq rfl hdue⟩

theorem runRetransmit_sends (elapsedMs : UInt32) (x : Session) : ∃ calls,
    Sends (∃ oldest ∈ x.conn.oldestUnsackedSegment,
      oldest.retransmitMsRemaining - asInt elapsedMs ≤ 0 ∧
        oldest.retransmitAttempts + 1 ≤ maxRetransmitAttempts) x (x.runRetransmit elapsedMs) calls := by
  unfold runRetransmit
  cases x.conn.oldestUnsackedSegment with
  | none => exact ⟨[], .of_eq rfl fun ⟨_, hmem, _⟩ => nomatch hmem⟩
  | some oldest =>
    simp only [Option.mem_some_iff, exists_eq_left']
    split_ifs with hleft hmany
    · exact ⟨[], .of_eq rfl fun h => absurd h.1 (not_le.2 hleft)⟩
    · exact ⟨[], .of_eq rfl fun h => absurd h.2 (not_le.2 hmany)⟩
    · exact ⟨_, .of_plain rfl List.mem_cons_self (not_attaches .timeoutRetransmit rfl (by decide))
        ⟨not_lt.1 hleft, not_lt.1 hmany⟩⟩

theorem runDelayedAck_sends (elapsedMs : UInt32) (x : Session) :
    ∃ acks pending remaining, (x.runDelayedAck elapsedMs).sent = x.sent ++ acks ∧
      (∀ call ∈ acks, call.attaches) ∧ (x.runDelayedAck elapsedMs).conn =
        { x.conn with ackPending := pending, ackDelayMsRemaining := remaining } := by
  unfold runDelayedAck
  dsimp only
  split_ifs
  · exact ⟨_, _, _, rfl, fun call hcall => .inr (by rw [List.mem_singleton.1 hcall]), rfl⟩
  · exact ⟨[], _, _, (List.append_nil _).symm, fun _ hcall => absurd hcall List.not_mem_nil, rfl⟩
  · exact ⟨[], _, _, (List.append_nil _).symm, fun _ hcall => absurd hcall List.not_mem_nil, rfl⟩

theorem onTimePassed_sends (elapsedMs : UInt32) (x : Session) : ∃ calls,
    Sends (ClockRepeats elapsedMs x.conn) x (x.onTimePassed elapsedMs) calls := by
  unfold onTimePassed
  by_cases hclosed : x.conn.state = .closed
  · rw [if_pos hclosed]
    exact ⟨[], .of_eq rfl fun h => h.1 hclosed⟩
  rw [if_neg hclosed]
  dsimp only
  obtain ⟨acks, pending, remaining, hsent, hacks, hconn⟩ := runDelayedAck_sends elapsedMs
    (x.modify fun c => { c with nowMs := c.nowMs + elapsedMs.toUInt64 })
  generalize (x.modify fun c => { c with nowMs := c.nowMs + elapsedMs.toUInt64 }).runDelayedAck elapsedMs
    = y at hsent hconn ⊢
  split_ifs with hwait _ hempty hpersist
  · exact ⟨[], .of_eq rfl fun h => h.2.1 hwait⟩
  · exact ⟨[], .of_eq rfl fun h => h.2.1 hwait⟩
  all_goals
    unfold ClockRepeats
    have hwait : x.conn.state ≠ .timeWait := hwait
    rw [show y.conn.inFlight = x.conn.inFlight by rw [hconn]; rfl] at hempty
  · rw [show y.conn.persistMsRemaining = x.conn.persistMsRemaining by rw [hconn]; rfl] at hpersist
    rw [if_pos hempty, if_pos hpersist, and_iff_right hclosed, and_iff_right hwait]
    obtain ⟨calls, hcalls⟩ := runPersist_sends elapsedMs y
    rw [hconn] at hcalls
    exact ⟨_, hcalls.after hsent hacks⟩
  · rw [show y.conn.persistMsRemaining = x.conn.persistMsRemaining by rw [hconn]; rfl] at hpersist
    rw [if_pos hempty, if_neg hpersist, and_iff_right hclosed, and_iff_right hwait]
    obtain ⟨calls, hcalls⟩ := runKeepalive_sends elapsedMs y
    rw [hconn] at hcalls
    exact ⟨_, hcalls.after hsent hacks⟩
  · rw [if_neg hempty, and_iff_right hclosed, and_iff_right hwait]
    obtain ⟨calls, hcalls⟩ := runRetransmit_sends elapsedMs y
    rw [hconn] at hcalls
    exact ⟨_, hcalls.after hsent hacks⟩

/-! ### A segment -/

theorem onSegment_resends (h : ThirdDuplicate t x.conn) :
    ∃ call calls, call.site = .fastRetransmit ∧ (x.onSegment t).sent = x.sent ++ call :: calls := by
  obtain ⟨y, oldest, hsent, hrest⟩ := (undisturbed_frame (r := False)).toFinFrame.third h
  obtain ⟨calls, hmore, -⟩ := hrest.sent
  exact ⟨_, calls, rfl, by rw [hmore, fastRetransmit, ← hsent]; exact List.append_assoc ..⟩

theorem Undisturbed.sends (h : Undisturbed r x y) (hr : ¬ r) : ∃ calls, Sends r x y calls := by
  obtain ⟨calls, hsent, hcalls⟩ := h.sent
  refine ⟨calls, .of_attaches hsent (fun call hcall => ?_) hr⟩
  rcases hcalls call hcall with hsite | hsite | ⟨hresent, -⟩
  · exact .inl hsite
  · exact .inr hsite
  · exact absurd hresent hr

/-- **Where an event sends from.** -/
theorem Event.run_sites (he : e.run x = some y) : ∃ calls, Sends (e.repeats x) x y calls := by
  cases e with
  | segment t =>
    obtain rfl := Option.some.inj he
    by_cases hthird : ThirdDuplicate t x.conn
    · obtain ⟨call, calls, hsite, hsent⟩ := onSegment_resends hthird
      exact ⟨_, .of_plain hsent List.mem_cons_self (not_attaches _ hsite (by decide)) hthird⟩
    · exact (undisturbed_onSegment t x).sends hthird
  | timePassed elapsedMs => exact Option.some.inj he ▸ onTimePassed_sends elapsedMs x
  | send data => exact (undisturbed_send he).sends id
  | read maxBytes => exact Option.some.inj he ▸ (undisturbed_read maxBytes x).sends id
  | close =>
    obtain rfl := Option.some.inj he
    unfold Session.close
    split_ifs
    · exact ⟨[], .of_eq rfl id⟩
    · exact ⟨[], .of_eq rfl id⟩
    all_goals
      exact ⟨_, .of_attaches rfl (fun call hcall => .inl (by rw [List.mem_singleton.1 hcall])) id⟩
  | setKeepalive | reduceEffectiveMss | fail => exact Option.some.inj he ▸ ⟨[], .of_eq rfl id⟩

end Sites

/-! ### What the segments carry -/

/-- The options by the place of the call: where they are attached, the timestamp
is the right one; elsewhere there is none.  The options that are offered in a
handshake are on a segment without data. -/
structure Call.Optioned (call : Call) : Prop where
  stamped : call.attaches → call.OwesStamp → call.Stamped
  plain : ¬ call.attaches → call.header.timestampOption = none
  clock : ∀ value echo, call.header.timestampOption = some (value, echo) → value = call.conn.nowMs.toUInt32
  offers : call.header.mssOption = none ∧ call.header.windowScaleOption = none ∨
    call.header.windowScaleOption = some windowScaleShift ∧ call.payload = []

/-- A segment from the other places repeats the SYN during the handshake, and is
past it otherwise. -/
structure Call.Repeats (x : Session) (call : Call) : Prop where
  negotiated : call.conn.timestampsNegotiated = x.conn.timestampsNegotiated
  syn : call.header.syn = true ↔ opening x.conn.state
  alive : x.conn.state ≠ .closed

section Headers

variable {e : Event} {s₀ : TcpState} {x y : Session} {isn : UInt32}

theorem sendOptions_syn (c : TcpConnection) (flags : UInt8) (header : Tcp) :
    (sendOptions c flags header).syn = header.syn := by
  unfold sendOptions
  split_ifs <;> rfl

theorem sendOptions_clock {c : TcpConnection} {flags : UInt8} {header : Tcp} {value echo : UInt32}
    (h : (sendOptions c flags header).timestampOption = some (value, echo)) : value = c.nowMs.toUInt32 := by
  unfold sendOptions at h
  by_cases hsyn : hasFlag flags flagSyn = true
  · rw [if_pos hsyn] at h
    exact (congrArg Prod.fst (Option.some.inj h)).symm
  · rw [if_neg hsyn] at h
    have h : (if c.timestampsNegotiated then some (c.nowMs.toUInt32, c.tsRecent) else none) =
        some (value, echo) := h
    split_ifs at h
    exact (congrArg Prod.fst (Option.some.inj h)).symm

/-- A segment other than a SYN gets its timestamp. -/
theorem optioned_sendOptions {call : Call} {flags fullFlags : UInt8} {seq : UInt32} (hsite : call.attaches)
    (hsyn : hasFlag fullFlags flagSyn = hasFlag flags flagSyn)
    (hoffers : hasFlag flags flagSyn = false ∨ call.payload = [])
    (hheader : call.header = sendOptions call.conn flags (call.conn.buildHeader fullFlags seq)) :
    call.Optioned where
  stamped _ := by
    rintro ⟨hnegotiated, hnot⟩
    rw [hheader, sendOptions_syn] at hnot
    have hnot : hasFlag flags flagSyn = false := hsyn ▸ hnot
    unfold Call.Stamped
    rw [hheader]
    unfold sendOptions
    rw [if_neg (by simp [hnot]), if_pos hnegotiated]
  plain h := absurd hsite h
  clock value echo hstamp := sendOptions_clock (hheader ▸ hstamp)
  offers := by
    rw [hheader]
    unfold sendOptions
    by_cases hflag : hasFlag flags flagSyn = true
    · rw [if_pos hflag]
      exact .inr ⟨rfl, hoffers.resolve_left (by simp [hflag])⟩
    · rw [if_neg hflag]
      exact .inl ⟨rfl, rfl⟩

theorem optioned_buildHeader {call : Call} {flags : UInt8} {seq : UInt32} (hsite : ¬ call.attaches)
    (hheader : call.header = call.conn.buildHeader flags seq) : call.Optioned where
  stamped h := absurd h hsite
  plain _ := by rw [hheader]; rfl
  clock _ _ h := by rw [hheader] at h; cases h
  offers := .inl (by rw [hheader]; exact ⟨rfl, rfl⟩)

theorem flight_syn (h : x.Kept isn) (hclosed : x.conn.state ≠ .closed) {s : Flight}
    (hs : s ∈ x.conn.core.flight) : hasFlag s.flags flagSyn = true ↔ opening x.conn.state := by
  have hphase := h.phase
  have hstate : x.conn.core.state = x.conn.state := rfl
  unfold Phase at hphase
  rw [hstate] at hphase
  cases hx : x.conn.state <;> simp only [hx, sendPhase] at hphase
  case closed => exact absurd hx hclosed
  case synSent =>
    rw [hphase.flight, List.mem_singleton] at hs
    rw [hs]
    exact (by decide : hasFlag flagSyn flagSyn = true ↔ opening .synSent)
  case synReceived =>
    rw [hphase.flight, List.mem_singleton] at hs
    rw [hs]
    exact (by decide : hasFlag (flagSyn ||| flagAck) flagSyn = true ↔ opening .synReceived)
  case established | closeWait =>
    obtain ⟨-, -, -, hflags⟩ := hphase.tiles.mem hs
    rw [hflags]
    decide
  case finWait1 | closing | lastAck =>
    obtain ⟨sacked, hflight⟩ := hphase.flight
    rw [hflight, List.mem_singleton] at hs
    rw [hs]
    exact iff_of_false (by decide : ¬ hasFlag (flagFin ||| flagAck) flagSyn = true) (by decide)
  case finWait2 | timeWait =>
    rw [hphase.flight] at hs
    exact absurd hs List.not_mem_nil

theorem not_opening_of_queued (h : x.Kept isn) (hqueue : x.conn.sendQueue ≠ []) : ¬ opening x.conn.state := by
  have hphase := h.phase
  rintro (hstate | hstate)
  · rw [Phase, show x.conn.core.state = .synSent from hstate] at hphase
    exact hqueue hphase.queue
  · rw [Phase, show x.conn.core.state = .synReceived from hstate] at hphase
    exact hqueue hphase.queue

theorem Effect.calls_optioned (isn : UInt32) (he : Effect e s₀ x y) :
    Calls (fun call => call.Optioned ∧ (x.Kept isn → ¬ call.attaches → call.Repeats x)) x y := by
  have hattached {call : Call} {flags fullFlags : UInt8} {seq : UInt32} (hsite : call.attaches)
      (hsyn : hasFlag fullFlags flagSyn = hasFlag flags flagSyn) (hnot : hasFlag flags flagSyn = false)
      (hheader : call.header = sendOptions call.conn flags (call.conn.buildHeader fullFlags seq)) :
      call.Optioned ∧ (x.Kept isn → ¬ call.attaches → call.Repeats x) :=
    ⟨optioned_sendOptions hsite hsyn (.inl hnot) hheader, fun _ hnot => absurd hsite hnot⟩
  refine he.calls fun call hcall => ?_
  cases hcall with
  | ack | finAck =>
    exact hattached (.inr rfl) (by decide : hasFlag flagAck flagSyn = hasFlag 0 flagSyn) (by decide) rfl
  | probe front rest hqueue hclosed =>
    refine ⟨optioned_buildHeader (not_attaches .zeroWindowProbe rfl (by decide)) rfl, fun h _ => ?_⟩
    have hnot := not_opening_of_queued h (by simp [hqueue])
    exact ⟨rfl, iff_of_false (by decide : ¬ hasFlag flagAck flagSyn = true) hnot, hclosed⟩
  | keepalive hstate =>
    have hnot : ¬ opening x.conn.state := by rw [hstate]; decide
    exact ⟨optioned_buildHeader (not_attaches .keepaliveProbe rfl (by decide)) rfl,
      fun _ _ => ⟨rfl, iff_of_false (by decide : ¬ hasFlag flagAck flagSyn = true) hnot, by simp [hstate]⟩⟩
  | retransmit site s hsite hs _ hclosed =>
    have hplain : site ≠ .sendFlags ∧ site ≠ .pureAck := by rcases hsite with rfl | rfl <;> decide
    exact ⟨optioned_buildHeader (not_attaches site rfl hplain) rfl,
      fun h _ => ⟨rfl, flight_syn h hclosed hs, hclosed⟩⟩
  | drain | place =>
    exact hattached (.inl rfl) (by decide : hasFlag (0 ||| flagAck) flagSyn = hasFlag 0 flagSyn) (by decide) rfl
  | fin =>
    exact hattached (.inl rfl)
      (by decide : hasFlag (flagFin ||| flagAck) flagSyn = hasFlag flagFin flagSyn) (by decide) rfl

/-- The event finds a handshake that it does not end, or none. -/
def SettledAt (e : Event) (x : Session) : Prop := (∃ t, e = .segment t) → ¬ opening x.conn.state

theorem Event.settledAt_of_repeats (h : e.repeats x) : SettledAt e x := by
  cases e with
  | segment t => exact fun _ hopening => hopening.elim h.2.1.1 h.2.1.2.1
  | timePassed => exact fun ⟨_, he⟩ => nomatch he
  | send | read | close | setKeepalive | reduceEffectiveMss | fail => exact h.elim

/-- The same handshake, or none, or the end. -/
structure SameStage (x y : Session) : Prop where
  negotiated : y.conn.timestampsNegotiated = x.conn.timestampsNegotiated
  opening : y.conn.state ≠ .closed → (TcpIpStack.opening y.conn.state ↔ TcpIpStack.opening x.conn.state)

theorem Effect.sameStage (he : Effect e s₀ x y) (hsettled : SettledAt e x)
    (hmtu : ∀ pathMss, e ≠ .reduceEffectiveMss pathMss) : SameStage x y := by
  have hunsettling := he.unsettling (fun t ht hsent => hsettled ⟨t, ht⟩ (.inl hsent)) hmtu
  refine ⟨congrArg Negotiated.timestamps hunsettling.negotiated, fun hclosed => ⟨?_, fun hx => ?_⟩⟩
  · rintro (hy | hy)
    · by_contra hx
      exact hunsettling.notSent (fun h => hx (.inl h)) hy
    · by_contra hx
      exact hunsettling.notReceived (fun h => hx (.inr h)) hy
  · rcases he.transition_cases with ⟨hsame, -⟩ | ⟨-, hend | ⟨hedge, hestablished⟩ | ⟨-, t, ht, -⟩⟩
    · rwa [hsame]
    · exact absurd hend hclosed
    · -- the edges out of the handshake are those of a segment
      have hnot : ¬ ∃ t, e = .segment t := fun hsegment => hsettled hsegment hx
      rcases hx with hx | hx <;> rw [hx] at hedge <;>
        exact absurd (hestablished (by simpa [ownEdges] using hedge)) hnot
    · exact absurd hx (hsettled ⟨t, ht⟩)

/-- **What the segments of an event carry.** -/
theorem Event.run_optioned (he : e.run x = some y) (h : x.Kept isn) :
    ∃ calls, y.sent = x.sent ++ calls ∧ ∀ call ∈ calls, call.Optioned ∧
      (e.repeats x → ¬ call.attaches →
        (call.OwesStamp ↔ x.conn.timestampsNegotiated = true ∧ ¬ opening x.conn.state)) := by
  refine ((Event.run_steps he).preserves (P := fun z => z.Kept isn ∧
    (e.repeats x → SettledAt e z ∧ SameStage x z ∨ z.conn.state = .closed) ∧
    ∃ calls, z.sent = x.sent ++ calls ∧ ∀ call ∈ calls, call.Optioned ∧
      (e.repeats x → ¬ call.attaches →
        (call.OwesStamp ↔ x.conn.timestampsNegotiated = true ∧ ¬ opening x.conn.state)))
    (fun z w heff ⟨hkept, hstage, calls, hsent, hcalls⟩ => ?_)
    ⟨h, fun hrepeats => .inl ⟨Event.settledAt_of_repeats hrepeats, rfl, fun _ => Iff.rfl⟩, [],
      (List.append_nil _).symm, fun _ hcall => absurd hcall List.not_mem_nil⟩).2.2
  refine ⟨hkept.effect heff, fun hrepeats => ?_, ?_⟩
  · rcases hstage hrepeats with ⟨hsettled, hsame⟩ | hclosed
    · by_cases hw : w.conn.state = .closed
      · exact .inr hw
      · have hstep := heff.sameStage hsettled fun pathMss hp => by rw [hp] at hrepeats; exact hrepeats
        have hz : z.conn.state ≠ .closed := fun hz => hw (heff.stays_closed hz)
        refine .inl ⟨fun hsegment => ?_, hstep.negotiated.trans hsame.negotiated,
          fun _ => (hstep.opening hw).trans (hsame.opening hz)⟩
        rw [hstep.opening hw]
        exact hsettled hsegment
    · exact .inr (heff.stays_closed hclosed)
  · obtain ⟨new, hnew, hoptioned⟩ := heff.calls_optioned isn
    refine ⟨calls ++ new, by rw [hnew, hsent, List.append_assoc], fun call hcall => ?_⟩
    rcases List.mem_append.1 hcall with hcall | hcall
    · exact hcalls call hcall
    · obtain ⟨hopt, hplain⟩ := hoptioned call hcall
      refine ⟨hopt, fun hrepeats hnot => ?_⟩
      obtain ⟨hnegotiated, hsyn, halive⟩ := hplain hkept hnot
      obtain ⟨-, hsame⟩ := (hstage hrepeats).resolve_right halive
      rw [Call.OwesStamp, hnegotiated, hsame.negotiated, ← hsame.opening halive, ← hsyn, Bool.not_eq_true]

theorem Opener.run_sent (o : Opener) (x : Session) :
    ∃ call, (o.run x).sent = x.sent ++ [call] ∧ call.Optioned ∧ call.payload = [] := by
  cases o with
  | active =>
    exact ⟨_, rfl, optioned_sendOptions (.inl rfl)
      (rfl : hasFlag flagSyn flagSyn = hasFlag flagSyn flagSyn) (.inr rfl) rfl, rfl⟩
  | passive =>
    exact ⟨_, rfl, optioned_sendOptions (.inl rfl)
      (by decide : hasFlag (flagSyn ||| flagAck) flagSyn = hasFlag flagSyn flagSyn) (.inr rfl) rfl, rfl⟩

theorem optioned_open (o : Opener) (hsent : x.sent = []) : ∀ call ∈ (o.run x).sent, call.Optioned := by
  obtain ⟨syn, hsyn, hoptioned, -⟩ := o.run_sent x
  rw [hsyn, hsent]
  exact List.forall_mem_singleton.2 hoptioned

theorem Event.run_all_optioned (he : e.run x = some y) (hkept : x.Kept isn)
    (h : ∀ call ∈ x.sent, call.Optioned) : ∀ call ∈ y.sent, call.Optioned := by
  obtain ⟨calls, hsent, hcalls⟩ := Event.run_optioned he hkept
  intro call hcall
  rw [hsent] at hcall
  exact (List.mem_append.1 hcall).elim (h call) fun hnew => (hcalls call hnew).1

/-- **What the segments of a run carry.** -/
theorem optioned_of_runs {o : Opener} {localPort remotePort : UInt16} {initialSeq : UInt32} {localMss : UInt16}
    {algorithm : CongestionControlAlgorithm} {events : List Event}
    (h : runs Event.run events (o.run (.fresh localPort remotePort initialSeq localMss algorithm)) = some x) :
    ∀ call ∈ x.sent, call.Optioned :=
  (runs_induction (I := fun z => z.Kept initialSeq ∧ ∀ call ∈ z.sent, call.Optioned)
    (fun _ _ _ hz he => ⟨hz.1.run he, Event.run_all_optioned he hz.1 hz.2⟩)
    ⟨kept_open o localPort remotePort initialSeq localMss algorithm, optioned_open o rfl⟩ h).2

end Headers

/-! ### Every run -/

section Runs

variable {e : Event} {x y : Session} {isn : UInt32}

theorem Session.Stamped.event (h : x.Stamped) (hkept : x.Kept isn) (he : e.run x = some y)
    (hplain : ¬ e.sendsPlain x) : y.Stamped := by
  obtain ⟨calls, hsends⟩ := Event.run_sites he
  obtain ⟨calls', hsent, hcalls⟩ := Event.run_optioned he hkept
  obtain rfl : calls' = calls := List.append_cancel_left (hsent.symm.trans hsends.sent)
  intro call hcall howes
  rw [hsent] at hcall
  rcases List.mem_append.1 hcall with hcall | hcall
  · exact h call hcall howes
  · obtain ⟨hopt, hrepeated⟩ := hcalls call hcall
    by_cases hattaches : call.attaches
    · exact hopt.stamped hattaches howes
    · have hrepeats : e.repeats x := hsends.plain.1 ⟨call, hcall, hattaches⟩
      obtain ⟨hnegotiated, hopening⟩ := (hrepeated hrepeats hattaches).1 howes
      exact absurd ⟨hnegotiated, hopening, hrepeats⟩ hplain

theorem Session.Stamped.of_event (h : y.Stamped) (he : e.run x = some y) : x.Stamped := by
  obtain ⟨calls, hsends⟩ := Event.run_sites he
  exact fun call hcall => h call (by rw [hsends.sent]; exact List.mem_append_left _ hcall)

theorem not_stamped_of_sendsPlain (hkept : x.Kept isn) (he : e.run x = some y) (hplain : e.sendsPlain x) :
    ¬ y.Stamped := by
  obtain ⟨hnegotiated, hopening, hrepeats⟩ := hplain
  obtain ⟨calls, hsends⟩ := Event.run_sites he
  obtain ⟨calls', hsent, hcalls⟩ := Event.run_optioned he hkept
  obtain rfl : calls' = calls := List.append_cancel_left (hsent.symm.trans hsends.sent)
  obtain ⟨call, hcall, hnot⟩ := hsends.plain.2 hrepeats
  obtain ⟨hopt, hrepeated⟩ := hcalls call hcall
  intro hall
  have hstamped : call.Stamped := hall call (by rw [hsent]; exact List.mem_append_right _ hcall)
    ((hrepeated hrepeats hnot).2 ⟨hnegotiated, hopening⟩)
  rw [Call.Stamped, hopt.plain hnot] at hstamped
  cases hstamped

/-- **Every segment carries its timestamp just when nothing is sent again and
nothing is probed** past the handshake, with timestamps negotiated. -/
theorem every_segment_stamped_iff (localPort remotePort : UInt16) (initialSeq : UInt32) (localMss : UInt16)
    (algorithm : CongestionControlAlgorithm) (o : Opener) (events : List Event)
    (h : runs Event.run events (o.run (.fresh localPort remotePort initialSeq localMss algorithm)) = some x) :
    x.Stamped ↔ Along Event.run (fun e y => ¬ e.sendsPlain y) events
      (o.run (.fresh localPort remotePort initialSeq localMss algorithm)) := by
  have hopen := kept_open o localPort remotePort initialSeq localMss algorithm
  have hkept : x.Kept initialSeq :=
    runs_induction (fun _ _ _ hk he => hk.run he) hopen h
  have hstart : (o.run (.fresh localPort remotePort initialSeq localMss algorithm)).Stamped := by
    intro call hcall howes
    have hsyn : call.header.syn = true := by
      cases o <;> rw [List.mem_singleton.1 hcall] <;> exact (sendOptions_syn _ _ _).trans rfl
    rw [howes.2] at hsyn
    cases hsyn
  rw [← runs_iff_along (I := fun z => z.Kept initialSeq ∧ z.Stamped)
    (B := fun z => z.Kept initialSeq ∧ ¬ z.Stamped)
    (fun e z w hz hok he => ⟨hz.1.run he, hz.2.event hz.1 he hok⟩)
    (fun e z w hz hok he => ⟨hz.1.run he, not_stamped_of_sendsPlain hz.1 he (not_not.1 hok)⟩)
    (fun e z w hz he => ⟨hz.1.run he, fun hw => hz.2 (hw.of_event he)⟩)
    (fun z hz hz' => hz.2 hz'.2) ⟨hopen, hstart⟩ h]
  exact (and_iff_right hkept).symm

/-- A server with timestamps, past its handshake, sends two bytes.  They are
acknowledged before anything else happens, and the FIN of `close` goes out. -/
theorem every_segment_stamped_exchange : ∃ x, runs Event.run
    [.segment (Tcp.ofFlags 9000 80 8 101 5 flagAck 8 0 0), .send [1, 2],
      .segment (Tcp.ofFlags 9000 80 8 103 5 flagAck 8 0 0), .close]
    ((Opener.passive { peerIsn := 7, peerSupportsTimestamps := true, peerTimestamp := 5 }).run
      (.fresh 80 9000 100 4 .reno)) = some x ∧ x.Stamped :=
  ⟨_, rfl, (every_segment_stamped_iff 80 9000 100 4 .reno
    (.passive { peerIsn := 7, peerSupportsTimestamps := true, peerTimestamp := 5 })
    [.segment (Tcp.ofFlags 9000 80 8 101 5 flagAck 8 0 0), .send [1, 2],
      .segment (Tcp.ofFlags 9000 80 8 103 5 flagAck 8 0 0), .close] rfl).2 (by decide +kernel)⟩

/-- The same server, but the ack does not come: after a second the two bytes go
out again, without a timestamp. -/
theorem retransmission_without_timestamp : ∃ x, runs Event.run
    [.segment (Tcp.ofFlags 9000 80 8 101 5 flagAck 8 0 0), .send [1, 2], .timePassed 1000]
    ((Opener.passive { peerIsn := 7, peerSupportsTimestamps := true, peerTimestamp := 5 }).run
      (.fresh 80 9000 100 4 .reno)) = some x ∧
    ∃ call ∈ x.sent, call.site = .timeoutRetransmit ∧ call.conn.timestampsNegotiated = true ∧
      call.header.syn = false ∧ call.payload = [1, 2] ∧ call.header.timestampOption = none :=
  ⟨_, rfl, _, List.mem_cons_of_mem _ (List.mem_cons_of_mem _ List.mem_cons_self), rfl, rfl, by decide +kernel,
    rfl, rfl⟩

end Runs

end TcpIpStack
