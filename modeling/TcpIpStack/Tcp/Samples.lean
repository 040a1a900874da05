/-
# The samples that the RTO estimator is given

`_handle_ack` calls `_update_rto_from_sample` at most once.  The value is the
distance of the clock from the timestamp that the segment echoes, where
timestamps are negotiated, and otherwise the time since the newest segment that
the ack retires and that was never sent again.

`Event.sample` is that value, and `Event.run_estimator` says that the estimator
changes by it and by nothing else.  The clock only adds up what
`on_time_passed` reports (`Clocked`), so a sample from the ack clock is never
longer than the connection is old.  A sample from an echo is, if the echo is a
timestamp the connection has sent (`samples_are_real`); any other echo in the
past of the clock is believed as well (`forged_echo_wraps`).
-/

import TcpIpStack.Tcp.Estimator
import TcpIpStack.Tcp.Flights
import TcpIpStack.Tcp.Stamps

namespace TcpIpStack

open Serial TcpConnection Session Runs

/-! ### The sample of an event -/

namespace TcpConnection

/-- The value that `_handle_ack` passes on, if it calls the estimator. -/
def rttSample (segment : Tcp) (tally : AckTally) (c : TcpConnection) : Option UInt32 :=
  match c.timestampsNegotiated && tally.ackedAnything, segment.timestampOption with
  | true, some (_, echo) =>
    if echo ≠ 0 ∧ atOrBefore echo c.nowMs.toUInt32 then some (c.nowMs.toUInt32 - echo) else none
  | _, _ => tally.rttSampleMs

theorem sampleRtt_eq (t : Tcp) (tally : AckTally) (c : TcpConnection) :
    c.sampleRtt t tally = (c.rttSample t tally).elim c (c.updateRtoFromSample ·) := by
  unfold sampleRtt rttSample
  cases c.timestampsNegotiated && tally.ackedAnything with
  | false => cases tally.rttSampleMs <;> rfl
  | true =>
    cases t.timestampOption with
    | none => cases tally.rttSampleMs <;> rfl
    | some stamp =>
      dsimp only
      split_ifs <;> rfl

/-- The members of the estimator. -/
structure Estimator where
  hasRttSample : Bool
  srttScaled : UInt32
  rttvarScaled : UInt32

def estimator (c : TcpConnection) : Estimator := ⟨c.hasRttSample, c.srttScaled, c.rttvarScaled⟩

/-- The connection as the loop of `_handle_ack` that retires segments finds it. -/
def atRetirement (t : Tcp) (c : TcpConnection) : TcpConnection :=
  clearDuplicateAcks (noteAck t (recordTimestamp t c.resetKeepalive))

end TcpConnection

instance (state : TcpState) : Decidable (handlesAcks state) := inferInstanceAs (Decidable (_ ∧ _ ∧ _))

/-- The segment gets as far as the loop. -/
def Retires (t : Tcp) (c : TcpConnection) : Prop :=
  t.rst = false ∧ handlesAcks c.state ∧ pawsRejects c t = false ∧ t.ack = true ∧
    ¬ (c.inFlight ≠ [] ∧ t.acknowledgementNumber = c.sndUna)

instance (t : Tcp) (c : TcpConnection) : Decidable (Retires t c) :=
  inferInstanceAs (Decidable (_ ∧ _ ∧ _ ∧ _ ∧ ¬ (_ ∧ _)))

/-- What `_update_rto_from_sample` is called with during the event. -/
def Event.sample : Event → Session → Option UInt32
  | .segment t, x =>
    if Retires t x.conn then
      ((x.conn.atRetirement t).retire t.acknowledgementNumber).rttSample t
        ((x.conn.atRetirement t).ackTally t.acknowledgementNumber)
    else none
  | _, _ => none

/-! ### Nothing else touches the estimator -/

/-- The estimator and the RTO stay. -/
structure Unsampled (x y : Session) : Prop where
  estimator : y.conn.estimator = x.conn.estimator
  rto : y.conn.rtoMs = x.conn.rtoMs

section Unsampled

variable {x y z : Session} {t : Tcp}

theorem Unsampled.refl (x : Session) : Unsampled x x := ⟨rfl, rfl⟩

theorem Unsampled.trans (h : Unsampled x y) (h' : Unsampled y z) : Unsampled x z :=
  ⟨h'.estimator.trans h.estimator, h'.rto.trans h.rto⟩

theorem unsampled_armOrDisarmPersist (x : Session) : Unsampled x (x.modify (·.armOrDisarmPersist)) := by
  unfold Session.modify armOrDisarmPersist
  dsimp only
  split_ifs <;> exact ⟨rfl, rfl⟩

theorem unsampled_close (x : Session) : Unsampled x x.close := by
  unfold close
  split_ifs <;> exact ⟨rfl, rfl⟩

theorem unsampled_afterNewAck (tally : AckTally) (x : Session) : Unsampled x (x.modify (afterNewAck tally)) := by
  unfold Session.modify afterNewAck
  dsimp only
  split_ifs <;> exact ⟨rfl, rfl⟩

theorem unsampled_noteAck (t : Tcp) (x : Session) : Unsampled x (x.modify (noteAck t)) := by
  obtain ⟨flight, bytes, happlied⟩ := applySackBlocks_eq t x.conn
  have hnoted : noteAck t x.conn =
      takeWindow t { x.conn with inFlight := flight, unsackedInFlightBytes := bytes } := by
    rw [noteAck, happlied]
  constructor
  · show (noteAck t x.conn).estimator = _
    rw [hnoted]
    rfl
  · show (noteAck t x.conn).rtoMs = _
    rw [hnoted]
    rfl

theorem unsampled_recordTimestamp (t : Tcp) (x : Session) : Unsampled x (x.modify (recordTimestamp t)) := by
  unfold Session.modify recordTimestamp
  split
  · split_ifs <;> exact ⟨rfl, rfl⟩
  · exact .refl x

theorem unsampled_ack : AckFrame True Unsampled where
  refl := .refl
  trans := .trans
  front _ _ _ := ⟨rfl, rfl⟩
  persist := unsampled_armOrDisarmPersist
  note := unsampled_noteAck
  count _ := ⟨rfl, rfl⟩
  inflate _ := ⟨rfl, rfl⟩
  fast _ _ := ⟨rfl, rfl⟩
  clear _ := ⟨rfl, rfl⟩
  after := unsampled_afterNewAck

theorem unsampled_ends (h : AckEnds x y) : Unsampled x y := by
  cases h with
  | stop => exact .refl x
  | acked => exact ⟨rfl, rfl⟩
  | close _ _ _ => exact ⟨(unsampled_close _).estimator, (unsampled_close _).rto⟩

theorem unsampled_fin : FinFrame Unsampled where
  toFrame := unsampled_ack.toFrame
  pureAck _ := ⟨rfl, rfl⟩
  hold _ := ⟨rfl, rfl⟩
  deliver _ _ := ⟨rfl, rfl⟩
  unblock _ _ := ⟨rfl, rfl⟩
  buffer _ _ _ := by
    unfold Session.modify bufferOutOfOrder
    split_ifs <;> exact ⟨rfl, rfl⟩
  pastFin _ := ⟨rfl, rfl⟩
  enter _ _ _ _ := ⟨rfl, rfl⟩
  wait _ := ⟨rfl, rfl⟩

end Unsampled

/-! ### One call during an ack -/

/-- The estimator is called with `r`, or not at all. -/
structure SampledBy (r : Option UInt32) (x y : Session) : Prop where
  estimator : y.conn.estimator = (r.elim x.conn (x.conn.updateRtoFromSample ·)).estimator
  rto : y.conn.rtoMs = (r.elim x.conn (x.conn.updateRtoFromSample ·)).rtoMs

section SampledBy

variable {r : Option UInt32} {x y z : Session} {t : Tcp}

theorem Unsampled.sampledBy (h : Unsampled x y) : SampledBy none x y := ⟨h.estimator, h.rto⟩

theorem SampledBy.trans (h : SampledBy r x y) (h' : Unsampled y z) : SampledBy r x z :=
  ⟨h'.estimator.trans h.estimator, h'.rto.trans h.rto⟩

theorem filtered_congr {c c' : TcpConnection} (h : c'.estimator = c.estimator) (rttMs : UInt32) :
    c'.filtered rttMs = c.filtered rttMs := by
  have hhas : c'.hasRttSample = c.hasRttSample := congrArg Estimator.hasRttSample h
  have hsrtt : c'.srttScaled = c.srttScaled := congrArg Estimator.srttScaled h
  have hrttvar : c'.rttvarScaled = c.rttvarScaled := congrArg Estimator.rttvarScaled h
  unfold filtered
  rw [hhas, hsrtt, hrttvar]

theorem Unsampled.update (h : Unsampled x y) (r : Option UInt32) :
    SampledBy r x { y with conn := r.elim y.conn (y.conn.updateRtoFromSample ·) } := by
  cases r with
  | none => exact ⟨h.estimator, h.rto⟩
  | some r =>
    constructor
    · show (y.conn.updateRtoFromSample r).estimator = (x.conn.updateRtoFromSample r).estimator
      rw [updateRtoFromSample_eq, updateRtoFromSample_eq, filtered_congr h.estimator]
      rfl
    · show (y.conn.updateRtoFromSample r).rtoMs = (x.conn.updateRtoFromSample r).rtoMs
      rw [updateRtoFromSample_eq, updateRtoFromSample_eq, filtered_congr h.estimator]

theorem sampledBy_advanceAck (t : Tcp) (x : Session) :
    SampledBy (((clearDuplicateAcks x.conn).retire t.acknowledgementNumber).rttSample t
      ((clearDuplicateAcks x.conn).ackTally t.acknowledgementNumber)) x (x.advanceAck t) := by
  have hretired : SampledBy (((clearDuplicateAcks x.conn).retire t.acknowledgementNumber).rttSample t
      ((clearDuplicateAcks x.conn).ackTally t.acknowledgementNumber)) x
      ((x.modify clearDuplicateAcks).retireAcked t) := by
    have hcleared : Unsampled x
        (x.modify fun c => (clearDuplicateAcks c).retire t.acknowledgementNumber) := ⟨rfl, rfl⟩
    have hupdate := hcleared.update (((clearDuplicateAcks x.conn).retire t.acknowledgementNumber).rttSample t
      ((clearDuplicateAcks x.conn).ackTally t.acknowledgementNumber))
    have heq := sampleRtt_eq t ((clearDuplicateAcks x.conn).ackTally t.acknowledgementNumber)
      ((clearDuplicateAcks x.conn).retire t.acknowledgementNumber)
    exact ⟨(congrArg TcpConnection.estimator heq).trans hupdate.estimator,
      (congrArg TcpConnection.rtoMs heq).trans hupdate.rto⟩
  obtain ⟨y, hresumed, hend⟩ := unsampled_ack.resume unsampled_ack.after t x
  exact hretired.trans (hresumed.trans (unsampled_ends hend))

theorem SampledBy.after {r : Option UInt32} (h : Unsampled x y) (h' : SampledBy r y z) : SampledBy r x z := by
  have hupdate := h.update r
  exact ⟨h'.estimator.trans hupdate.estimator, h'.rto.trans hupdate.rto⟩

theorem sampledBy_handleAck (t : Tcp) (x : Session) :
    SampledBy (if x.conn.inFlight ≠ [] ∧ t.acknowledgementNumber = x.conn.sndUna then none
      else ((clearDuplicateAcks (noteAck t x.conn)).retire t.acknowledgementNumber).rttSample t
        ((clearDuplicateAcks (noteAck t x.conn)).ackTally t.acknowledgementNumber)) x (x.handleAck t) := by
  rw [handleAck_eq]
  refine .after (unsampled_noteAck t x) ?_
  by_cases hdup : x.conn.inFlight ≠ [] ∧ t.acknowledgementNumber = x.conn.sndUna
  · rw [if_pos hdup, if_pos ((duplicate_noteAck t x.conn).2 hdup)]
    exact (unsampled_ack.duplicateAck _ _ fun _ _ => trivial).sampledBy
  · rw [if_neg hdup, if_neg (mt (duplicate_noteAck t x.conn).1 hdup)]
    exact sampledBy_advanceAck t (x.modify (noteAck t))

theorem duplicate_recordTimestamp (t : Tcp) (c : TcpConnection) :
    (recordTimestamp t c).inFlight = c.inFlight ∧ (recordTimestamp t c).sndUna = c.sndUna := by
  unfold recordTimestamp
  split
  · split_ifs <;> exact ⟨rfl, rfl⟩
  · exact ⟨rfl, rfl⟩

theorem sampledBy_handleSynchronized (t : Tcp) (x : Session) :
    SampledBy (if pawsRejects x.conn t = false ∧ t.ack = true ∧
        ¬ (x.conn.inFlight ≠ [] ∧ t.acknowledgementNumber = x.conn.sndUna) then
      ((clearDuplicateAcks (noteAck t (recordTimestamp t x.conn))).retire t.acknowledgementNumber).rttSample t
        ((clearDuplicateAcks (noteAck t (recordTimestamp t x.conn))).ackTally t.acknowledgementNumber)
      else none) x (x.handleSynchronized t) := by
  cases hpaws : pawsRejects x.conn t with
  | true =>
    unfold handleSynchronized
    rw [if_pos hpaws, if_neg (by simp)]
    exact ⟨rfl, rfl⟩
  | false =>
    refine SampledBy.trans (.after (unsampled_recordTimestamp t x) ?_) (unsampled_fin.rest hpaws)
    unfold ackStage
    dsimp only
    by_cases hack : t.ack = true
    · rw [if_pos hack]
      have hsampled := sampledBy_handleAck t (x.modify (recordTimestamp t))
      obtain ⟨hflight, hund⟩ := duplicate_recordTimestamp t x.conn
      rw [show (x.modify (recordTimestamp t)).conn.inFlight = x.conn.inFlight from hflight,
        show (x.modify (recordTimestamp t)).conn.sndUna = x.conn.sndUna from hund] at hsampled
      by_cases hdup : x.conn.inFlight ≠ [] ∧ t.acknowledgementNumber = x.conn.sndUna
      · rw [if_neg fun h => h.2.2 hdup]
        rwa [if_pos hdup] at hsampled
      · rw [if_pos ⟨rfl, hack, hdup⟩]
        rwa [if_neg hdup] at hsampled
    · rw [if_neg hack, if_neg fun h => hack h.2.1]
      exact ⟨rfl, rfl⟩

theorem sampledBy_onSegment (t : Tcp) (x : Session) :
    SampledBy ((Event.segment t).sample x) x (x.onSegment t) := by
  have harrived : Unsampled x (x.noteArrival t) := ⟨rfl, rfl⟩
  have hnone {y : Session} (hnot : ¬ Retires t x.conn) (h : Unsampled x y) :
      SampledBy ((Event.segment t).sample x) x y := by
    rw [Event.sample, if_neg hnot]
    exact h.sampledBy
  unfold onSegment dispatch
  by_cases hrst : t.rst = true
  · rw [if_pos hrst]
    refine hnone (fun h => Bool.false_ne_true (h.1.symm.trans hrst)) ?_
    unfold handleRst
    dsimp only
    split_ifs <;> exact ⟨rfl, rfl⟩
  rw [if_neg hrst]
  split
  · next hstate =>
    refine hnone (fun h => h.2.1.1 hstate) ?_
    unfold handleSynSent
    split_ifs <;> exact ⟨rfl, rfl⟩
  · next hstate =>
    refine hnone (fun h => h.2.1.2.1 hstate) ?_
    unfold handleSynReceived
    split_ifs <;> exact ⟨rfl, rfl⟩
  · next hstate => exact hnone (fun h => h.2.1.2.2 hstate) harrived
  · next h₁ h₂ h₃ =>
    have hiff : Retires t x.conn ↔ pawsRejects x.conn t = false ∧ t.ack = true ∧
        ¬ (x.conn.inFlight ≠ [] ∧ t.acknowledgementNumber = x.conn.sndUna) :=
      ⟨fun h => h.2.2, fun h => ⟨Bool.eq_false_iff.2 hrst, ⟨h₁, h₂, h₃⟩, h⟩⟩
    refine .after harrived ?_
    rw [Event.sample]
    simp only [hiff]
    exact sampledBy_handleSynchronized t (x.noteArrival t)

theorem unsampled_placeChunk (chunk : Bytes) (x : Session) : Unsampled x (x.placeChunk chunk) := by
  unfold placeChunk
  dsimp only
  split_ifs <;> exact ⟨rfl, rfl⟩

/-- A timeout changes the RTO and not what it is computed from. -/
theorem estimator_onTimePassed (elapsedMs : UInt32) (x : Session) :
    (x.onTimePassed elapsedMs).conn.estimator = x.conn.estimator := by
  have hdelayed (y : Session) : (y.runDelayedAck elapsedMs).conn.estimator = y.conn.estimator := by
    unfold runDelayedAck
    dsimp only
    split_ifs <;> rfl
  have hpersist (y : Session) : (y.runPersist elapsedMs).conn.estimator = y.conn.estimator := by
    unfold runPersist sendZeroWindowProbe
    split_ifs
    · split <;> rfl
    · rfl
  have hkeepalive (y : Session) : (y.runKeepalive elapsedMs).conn.estimator = y.conn.estimator := by
    unfold runKeepalive
    dsimp only
    split_ifs <;> rfl
  have hretransmit (y : Session) : (y.runRetransmit elapsedMs).conn.estimator = y.conn.estimator := by
    unfold runRetransmit
    split
    · rfl
    · dsimp only
      split_ifs <;> rfl
  unfold onTimePassed
  dsimp only
  split_ifs
  · rfl
  · rfl
  · rfl
  · rw [hpersist, hdelayed]; rfl
  · rw [hkeepalive, hdelayed]; rfl
  · rw [hretransmit, hdelayed]; rfl

/-- **What an event does to the estimator**: one call with its sample, or
nothing. -/
theorem Event.run_estimator {e : Event} (he : e.run x = some y) :
    y.conn.estimator = ((e.sample x).elim x.conn (x.conn.updateRtoFromSample ·)).estimator := by
  cases e with
  | segment t => exact Option.some.inj he ▸ (sampledBy_onSegment t x).estimator
  | timePassed elapsedMs => exact Option.some.inj he ▸ estimator_onTimePassed elapsedMs x
  | send data => exact (unsampled_ack.send unsampled_placeChunk he).estimator
  | read maxBytes =>
    obtain rfl := Option.some.inj he
    show (x.read maxBytes).conn.estimator = _
    unfold Session.read
    dsimp only
    split_ifs <;> rfl
  | close => exact Option.some.inj he ▸ (unsampled_close x).estimator
  | reduceEffectiveMss pathMss =>
    obtain rfl := Option.some.inj he
    show (Session.reduceEffectiveMss pathMss x.conn).estimator = _
    unfold Session.reduceEffectiveMss
    dsimp only
    split_ifs <;> rfl
  | setKeepalive | fail => exact Option.some.inj he ▸ rfl

end SampledBy

/-! ### The clock -/

/-- The clock moved from `past` to `now` in at most `n` milliseconds. -/
def Since (n : ℕ) (past now : UInt64) : Prop := ∃ k ≤ n, now = past + UInt64.ofNat k

/-- Everything in flight and everything sent was sent at most `n` milliseconds
ago. -/
structure Clocked (n : ℕ) (f : Flying) : Prop where
  flight : ∀ s ∈ f.inFlight, Since n s.sentAtMs f.nowMs
  calls : ∀ call ∈ f.sent, Since n call.conn.nowMs f.nowMs

section Clocked

variable {m n : ℕ} {past now : UInt64} {f g : Flying}

theorem Since.refl (n : ℕ) (now : UInt64) : Since n now now := ⟨0, Nat.zero_le n, (UInt64.add_zero now).symm⟩

theorem Since.mono (h : Since m past now) (hn : m ≤ n) : Since n past now := by
  obtain ⟨k, hk, hnow⟩ := h
  exact ⟨k, hk.trans hn, hnow⟩

theorem Since.tick (h : Since n past now) (elapsedMs : UInt32) :
    Since (n + elapsedMs.toNat) past (now + elapsedMs.toUInt64) := by
  obtain ⟨k, hk, hnow⟩ := h
  refine ⟨k + elapsedMs.toNat, Nat.add_le_add_right hk _, ?_⟩
  have helapsed : elapsedMs.toUInt64 = UInt64.ofNat elapsedMs.toNat := by
    rw [← UInt64.toNat_inj, UInt32.toNat_toUInt64, UInt64.toNat_ofNat_of_lt']
    exact elapsedMs.toNat_lt.trans (by decide)
  rw [hnow, helapsed, UInt64.ofNat_add, UInt64.add_assoc]

theorem Since.toUInt32_le (h : Since n past now) : (now - past).toUInt32.toNat ≤ n := by
  obtain ⟨k, hk, rfl⟩ := h
  rw [UInt64.add_comm, UInt64.add_sub_cancel, UInt64.toNat_toUInt32, UInt64.toNat_ofNat']
  exact ((Nat.mod_le _ _).trans (Nat.mod_le _ _)).trans hk

theorem Since.sub_toUInt32_le (h : Since n past now) : (now.toUInt32 - past.toUInt32).toNat ≤ n := by
  rw [← UInt64.toUInt32_sub]
  exact h.toUInt32_le

theorem Clocked.flightStep (h : Clocked m f) (hstep : FlightStep n f g) : Clocked (m + n) g := by
  have hcall {call : Call} (hover : call.Over f) : ∀ other ∈ f.sent ++ [call], Since m other.conn.nowMs f.nowMs := by
    intro other hother
    rcases List.mem_append.1 hother with hother | hother
    · exact h.calls other hother
    · rw [List.mem_singleton.1 hother, hover.nowMs]
      exact .refl _ _
  have hupdate {u : InFlightSegment → InFlightSegment} (hu : ∀ s, (u s).sentAtMs = s.sentAtMs) :
      ∀ s ∈ updateOldestUnsacked u f.inFlight, Since m s.sentAtMs f.nowMs := by
    intro s hs
    rcases updateOldestUnsacked_mem hs with hs | ⟨s', hs', rfl⟩
    · exact h.flight s hs
    · rw [hu]
      exact h.flight s' hs'
  cases hstep with
  | ack _ call _ _ hover => exact ⟨h.flight, hcall hover⟩
  | probe _ call _ _ _ hover => exact ⟨h.flight, hcall hover⟩
  | send _ call s _ hover _ _ _ hsent =>
    refine ⟨fun s' hs' => ?_, hcall hover⟩
    rcases List.mem_append.1 hs' with hs' | hs'
    · exact h.flight s' hs'
    · rw [List.mem_singleton.1 hs', hsent]
      exact .refl _ _
  | resend _ call s rtoMs _ hover => exact ⟨hupdate fun _ => rfl, hcall hover⟩
  | mark _ sacked =>
    refine ⟨fun s hs => ?_, h.calls⟩
    obtain ⟨s', hs', rfl⟩ := List.mem_map.1 hs
    exact h.flight s' hs'
  | age => exact ⟨hupdate fun _ => rfl, h.calls⟩
  | retire => exact ⟨fun s hs => h.flight s ((List.dropWhile_sublist _).mem hs), h.calls⟩
  | establish => exact ⟨nofun, h.calls⟩
  | tick _ elapsedMs =>
    exact ⟨fun s hs => (h.flight s hs).tick elapsedMs, fun call hcall => (h.calls call hcall).tick elapsedMs⟩

theorem Clocked.mono (h : Clocked m f) (hn : m ≤ n) : Clocked n f :=
  ⟨fun s hs => (h.flight s hs).mono hn, fun call hcall => (h.calls call hcall).mono hn⟩

theorem Clocked.event {e : Event} {x y : Session} (h : Clocked m x.flying) (hopens : OpensEmpty x.conn)
    (he : e.run x = some y) : Clocked (m + e.elapsed) y.flying := by
  obtain ⟨n, hn, hflights⟩ := Event.run_flights he hopens
  have hmoved : Clocked (m + n) y.flying :=
    hflights.preserves (P := Clocked) (fun hstep hk => hk.flightStep hstep) h
  exact hmoved.mono (Nat.add_le_add_left hn m)

end Clocked

/-! ### Where a sample comes from -/

section Origin

variable {t : Tcp} {c : TcpConnection} {x y : Session} {e : Event} {r : UInt32} {n : ℕ}

theorem foldl_rttSampleMs {nowMs : UInt64} {retired : List InFlightSegment} {tally : AckTally}
    (h : (retired.foldl (AckTally.add nowMs) tally).rttSampleMs = some r) : tally.rttSampleMs = some r ∨
      ∃ s ∈ retired, s.retransmitted = false ∧ r = (nowMs - s.sentAtMs).toUInt32 := by
  induction retired generalizing tally with
  | nil => exact .inl h
  | cons front rest ih =>
    rcases ih h with hfront | ⟨s, hs, hsample⟩
    · unfold AckTally.add at hfront
      dsimp only at hfront
      split_ifs at hfront with hresent
      · exact .inl hfront
      · exact .inr ⟨front, List.mem_cons_self, Bool.eq_false_iff.2 hresent, (Option.some.inj hfront).symm⟩
    · exact .inr ⟨s, List.mem_cons_of_mem _ hs, hsample⟩

theorem ackTally_rttSampleMs {ack : UInt32} (h : (c.ackTally ack).rttSampleMs = some r) :
    ∃ s ∈ c.retiredBy ack, s.retransmitted = false ∧ r = (c.nowMs - s.sentAtMs).toUInt32 :=
  (foldl_rttSampleMs h).resolve_left nofun

/-- On the way to the loop the window is only marked. -/
theorem atRetirement_eq (t : Tcp) (c : TcpConnection) : (c.atRetirement t).nowMs = c.nowMs ∧
      (c.atRetirement t).timestampsNegotiated = c.timestampsNegotiated ∧
      ∃ mark : InFlightSegment → Bool,
        (c.atRetirement t).inFlight = c.inFlight.map fun s => { s with sacked := mark s } := by
  have hrecorded : (recordTimestamp t c.resetKeepalive).nowMs = c.nowMs ∧
      (recordTimestamp t c.resetKeepalive).timestampsNegotiated = c.timestampsNegotiated ∧
      (recordTimestamp t c.resetKeepalive).inFlight = c.inFlight := by
    unfold recordTimestamp
    split
    · split_ifs <;> exact ⟨rfl, rfl, rfl⟩
    · exact ⟨rfl, rfl, rfl⟩
  obtain ⟨hnow, hnegotiated, hflight⟩ := hrecorded
  obtain ⟨mark, -, hmarked⟩ := applySackBlocks_inFlight t (recordTimestamp t c.resetKeepalive)
  obtain ⟨flight, bytes, happlied⟩ := applySackBlocks_eq t (recordTimestamp t c.resetKeepalive)
  unfold atRetirement clearDuplicateAcks noteAck takeWindow
  dsimp only
  rw [hmarked, hflight, happlied]
  exact ⟨hnow, hnegotiated, mark, rfl⟩

theorem retiredBy_atRetirement (t : Tcp) (c : TcpConnection) (ack : UInt32) : ∃ mark : InFlightSegment → Bool,
      (c.atRetirement t).retiredBy ack = (c.retiredBy ack).map fun s => { s with sacked := mark s } := by
  obtain ⟨-, -, mark, hflight⟩ := atRetirement_eq t c
  refine ⟨mark, ?_⟩
  unfold retiredBy
  rw [hflight, List.takeWhile_map]
  rfl

/-- **Where a sample comes from**: an echo, or the age of a segment that the ack
retires and that was never sent again. -/
theorem Event.sample_origin (h : e.sample x = some r) : ∃ t, e = .segment t ∧ handlesAcks x.conn.state ∧
    ((x.conn.timestampsNegotiated = true ∧ ∃ stamp ∈ t.timestampOption, stamp.2 ≠ 0 ∧
        r = x.conn.nowMs.toUInt32 - stamp.2) ∨
      ∃ s ∈ x.conn.retiredBy t.acknowledgementNumber, s.retransmitted = false ∧
        r = (x.conn.nowMs - s.sentAtMs).toUInt32) := by
  cases e with
  | send | timePassed | read | close | setKeepalive | reduceEffectiveMss | fail => cases h
  | segment t =>
    rw [Event.sample] at h
    split_ifs at h with hretires
    refine ⟨t, rfl, hretires.2.1, ?_⟩
    obtain ⟨hnow, hnegotiated, -⟩ := atRetirement_eq t x.conn
    have hclock (hsample : ((x.conn.atRetirement t).ackTally t.acknowledgementNumber).rttSampleMs = some r) :
        ∃ s ∈ x.conn.retiredBy t.acknowledgementNumber, s.retransmitted = false ∧
          r = (x.conn.nowMs - s.sentAtMs).toUInt32 := by
      obtain ⟨s, hs, hresent, hr⟩ := ackTally_rttSampleMs hsample
      obtain ⟨mark, hretired⟩ := retiredBy_atRetirement t x.conn t.acknowledgementNumber
      rw [hretired] at hs
      obtain ⟨s', hs', rfl⟩ := List.mem_map.1 hs
      exact ⟨s', hs', hresent, hnow ▸ hr⟩
    unfold rttSample at h
    split at h
    · next value echo hboth hstamp =>
      split_ifs at h with hecho
      refine .inl ⟨?_, (value, echo), hstamp, hecho.1, ?_⟩
      · rw [← hnegotiated]
        exact (Bool.and_eq_true_iff.1 hboth).1
      · rw [← hnow]
        exact (Option.some.inj h).symm
    · exact .inr (hclock h)

/-- The timestamp that a segment echoes is one that the connection has sent. -/
def Session.HasSent (x : Session) : Option (UInt32 × UInt32) → Prop
  | some (_, echo) => x.conn.timestampsNegotiated = true → echo ≠ 0 →
      ∃ call ∈ x.sent, call.header.timestampOption.map Prod.fst = some echo
  | none => True

/-- A timestamp that the peer echoes is one this side has sent. -/
def Event.echoesOwn : Event → Session → Prop
  | .segment t, x => x.HasSent t.timestampOption
  | _, _ => True

instance (x : Session) (stamp : Option (UInt32 × UInt32)) : Decidable (x.HasSent stamp) :=
  match stamp with
  | some _ => inferInstanceAs (Decidable (_ → _ → ∃ _ ∈ _, _))
  | none => isTrue trivial

instance (e : Event) (x : Session) : Decidable (e.echoesOwn x) :=
  match e with
  | .segment t => inferInstanceAs (Decidable (x.HasSent t.timestampOption))
  | .send _ | .timePassed _ | .read _ | .close | .setKeepalive _ | .reduceEffectiveMss _ | .fail => isTrue trivial

/-- **No sample is longer than the connection is old.** -/
theorem Event.sample_le (h : Clocked n x.flying) (hstamps : ∀ call ∈ x.sent, call.Optioned)
    (hecho : e.echoesOwn x) (hr : e.sample x = some r) : r.toNat ≤ n := by
  obtain ⟨t, rfl, -, ⟨hnegotiated, stamp, hstamp, hzero, rfl⟩ | ⟨s, hs, -, rfl⟩⟩ := Event.sample_origin hr
  · have hsent : x.HasSent (some stamp) := Option.mem_def.1 hstamp ▸ hecho
    obtain ⟨call, hcall, hown⟩ := hsent hnegotiated hzero
    obtain ⟨own, hown, hsame⟩ := Option.map_eq_some_iff.1 hown
    have hclock := (hstamps call hcall).clock own.1 own.2 hown
    rw [← hsame, hclock]
    exact (h.calls call hcall).sub_toUInt32_le
  · exact (h.flight s ((List.takeWhile_prefix _).subset hs)).toUInt32_le

end Origin

/-! ### Every run -/

/-- What a connection that is `n` milliseconds old has seen. -/
structure Realistic (isn : UInt32) (n : ℕ) (x : Session) : Prop where
  kept : x.Kept isn
  clocked : Clocked n x.flying
  optioned : ∀ call ∈ x.sent, call.Optioned
  within : n < 2 ^ 26 → ∀ e ∈ x.conn.estimate, e.Within 100 (2 ^ 26 - 1)

section Realistic

variable {isn : UInt32} {n : ℕ} {x y : Session} {e : Event} {r : UInt32}

theorem estimate_congr {c c' : TcpConnection} (h : c'.estimator = c.estimator) : c'.estimate = c.estimate := by
  unfold estimate
  rw [show c'.hasRttSample = c.hasRttSample from congrArg Estimator.hasRttSample h,
    show c'.srttScaled = c.srttScaled from congrArg Estimator.srttScaled h,
    show c'.rttvarScaled = c.rttvarScaled from congrArg Estimator.rttvarScaled h]

theorem sampleWithin_of_lt (hr : r.toNat ≤ n) (hn : n < 2 ^ 26) : SampleWithin 100 (2 ^ 26 - 1) r :=
  ⟨Nat.le_max_right .., Nat.max_le.2 ⟨by omega, by decide⟩⟩

theorem Realistic.event (h : Realistic isn n x) (hecho : e.echoesOwn x) (he : e.run x = some y) :
    Realistic isn (n + e.elapsed) y where
  kept := h.kept.run he
  clocked := h.clocked.event h.kept.opensEmpty he
  optioned := Event.run_all_optioned he h.kept h.optioned
  within hyoung := by
    have hn : n < 2 ^ 26 := (Nat.le_add_right ..).trans_lt hyoung
    rw [estimate_congr (Event.run_estimator he)]
    cases hr : e.sample x with
    | none => exact h.within hn
    | some r =>
      have hle := Event.sample_le h.clocked h.optioned hecho hr
      obtain ⟨-, estimate, htaken, hwithin, -⟩ :=
        within_update (h.within hn) (by decide) (sampleWithin_of_lt hle hn)
      intro e he
      rw [Option.elim_some, htaken] at he
      rwa [← Option.mem_some.1 he]

theorem Realistic.runs {events : List Event} (h : Realistic isn n x)
    (hecho : Along Event.run (fun e z => e.echoesOwn z) events x) (hruns : Runs.runs Event.run events x = some y) :
    Realistic isn (n + totalElapsed events) y := by
  induction events generalizing n x with
  | nil =>
    obtain rfl : x = y := Option.some.inj hruns
    exact h
  | cons e events ih =>
    obtain ⟨z, he, hrest⟩ := Option.bind_eq_some_iff.1 hruns
    obtain ⟨hecho₁, hecho₂⟩ := hecho
    rw [he] at hecho₂
    rw [totalElapsed, List.map_cons, List.sum_cons, ← Nat.add_assoc]
    exact ih (h.event hecho₁ he) hecho₂ hrest

/-- A fresh connection whose clock has been running. -/
def Session.freshAt (clock : UInt64) (localPort remotePort : UInt16) (initialSeq : UInt32) (localMss : UInt16)
    (algorithm : CongestionControlAlgorithm) : Session :=
  (Session.fresh localPort remotePort initialSeq localMss algorithm).modify fun c => { c with nowMs := clock }

theorem realistic_open (o : Opener) (clock : UInt64) (localPort remotePort : UInt16) (initialSeq : UInt32)
    (localMss : UInt16) (algorithm : CongestionControlAlgorithm) :
    Realistic initialSeq 0 (o.run (.freshAt clock localPort remotePort initialSeq localMss algorithm)) := by
  have hkept := kept_open o localPort remotePort initialSeq localMss algorithm
  refine ⟨by cases o <;> exact hkept, ⟨?_, ?_⟩, ?_, ?_⟩
  · cases o <;> exact fun s hs => List.mem_singleton.1 hs ▸ .refl _ _
  · cases o <;> exact fun call hcall => List.mem_singleton.1 hcall ▸ .refl _ _
  · exact optioned_open o rfl
  · cases o <;> exact fun _ _ he => nomatch he

/-- **Samples are real** where every echo is a timestamp the connection has sent:
no sample is longer than the time that was reported since the handshake started,
the estimator does not wrap in the first `2^26` milliseconds, and the RTO that
follows from a first sample is not below it. -/
theorem samples_are_real (o : Opener) (clock : UInt64) (localPort remotePort : UInt16) (initialSeq : UInt32)
    (localMss : UInt16) (algorithm : CongestionControlAlgorithm) (events : List Event)
    (hechoes : Along Event.run (fun e z => e.echoesOwn z) events
      (o.run (.freshAt clock localPort remotePort initialSeq localMss algorithm)))
    (h : Runs.runs Event.run events
      (o.run (.freshAt clock localPort remotePort initialSeq localMss algorithm)) = some x)
    (hecho : e.echoesOwn x) (he : e.run x = some y) (hr : e.sample x = some r) :
    r.toNat ≤ totalElapsed events ∧ (totalElapsed events < 2 ^ 26 →
      x.conn.updateRtoChecked r = some (x.conn.updateRtoFromSample r) ∧
        (x.conn.hasRttSample = false → min 60000 (max 200 (r.toNat : ℤ)) ≤ y.conn.rtoMs)) := by
  have hreal := (realistic_open o clock localPort remotePort initialSeq localMss algorithm).runs hechoes h
  rw [Nat.zero_add] at hreal
  have hle := Event.sample_le hreal.clocked hreal.optioned hecho hr
  refine ⟨hle, fun hyoung => ?_⟩
  obtain ⟨hchecked, estimate, -, -, htaken, hrto⟩ :=
    within_update (hreal.within hyoung) (by decide) (sampleWithin_of_lt hle hyoung)
  refine ⟨hchecked, fun hfirst => ?_⟩
  obtain ⟨t, rfl, -⟩ := Event.sample_origin hr
  obtain rfl := Option.some.inj he
  have hafter := (sampledBy_onSegment t x).rto
  rw [hr, Option.elim_some, hrto, htaken] at hafter
  rw [hafter, TcpConnection.estimate, if_neg (by simp [hfirst]), Estimate.take, Estimate.rto, Estimate.first]
  push_cast
  omega

/-- Two bytes are acknowledged after 10 ms, and the ack echoes the timestamp they
carried. -/
theorem samples_are_real_echoed : ∃ x y,
    Runs.runs Event.run [.segment (Tcp.ofFlags 9000 80 8 101 5 flagAck 8 0 0), .send [1, 2], .timePassed 10]
      ((Opener.passive { peerIsn := 7, peerSupportsTimestamps := true, peerTimestamp := 5 }).run
        (.freshAt 1000 80 9000 100 4 .reno)) = some x ∧
    (Event.segment { Tcp.ofFlags 9000 80 8 103 5 flagAck 8 0 0 with timestampOption := some (6, 1000) }).run x =
      some y ∧
    (10 : UInt32).toNat ≤ 10 ∧ x.conn.updateRtoChecked 10 = some (x.conn.updateRtoFromSample 10) ∧
      min 60000 (max 200 ((10 : UInt32).toNat : ℤ)) ≤ y.conn.rtoMs := by
  refine ⟨_, _, rfl, rfl, ?_⟩
  obtain ⟨hle, hyoung⟩ := samples_are_real
    (.passive { peerIsn := 7, peerSupportsTimestamps := true, peerTimestamp := 5 }) 1000 80 9000 100 4 .reno
    [.segment (Tcp.ofFlags 9000 80 8 101 5 flagAck 8 0 0), .send [1, 2], .timePassed 10]
    (e := .segment { Tcp.ofFlags 9000 80 8 103 5 flagAck 8 0 0 with timestampOption := some (6, 1000) })
    (r := 10) (by decide +kernel) rfl (by decide +kernel) rfl (by decide +kernel)
  obtain ⟨hchecked, hrto⟩ := hyoung (by decide)
  exact ⟨hle, hchecked, hrto rfl⟩

/-- The same, but the ack echoes a timestamp from six days before.  The sample is
`2^29` ms on a connection that is 10 ms old; eight times that is zero in 32 bits,
and the RTO comes out as the shortest there is. -/
theorem forged_echo_wraps : ∃ x y,
    Runs.runs Event.run [.segment (Tcp.ofFlags 9000 80 8 101 5 flagAck 8 0 0), .send [1, 2], .timePassed 10]
      ((Opener.passive { peerIsn := 7, peerSupportsTimestamps := true, peerTimestamp := 5 }).run
        (.freshAt 1000 80 9000 100 4 .reno)) = some x ∧
    (Event.segment { Tcp.ofFlags 9000 80 8 103 5 flagAck 8 0 0 with
      timestampOption := some (6, 3758097394) }).run x = some y ∧
    (Event.segment { Tcp.ofFlags 9000 80 8 103 5 flagAck 8 0 0 with
      timestampOption := some (6, 3758097394) }).sample x = some 536870912 ∧
    x.conn.hasRttSample = false ∧ x.conn.updateRtoChecked 536870912 = none ∧ y.conn.rtoMs = 200 :=
  ⟨_, _, rfl, rfl, by decide +kernel, rfl, by decide +kernel, by decide +kernel⟩

end Realistic

end TcpIpStack
