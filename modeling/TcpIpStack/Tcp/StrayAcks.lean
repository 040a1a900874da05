/-
# Acks of what was never sent

RFC 793 lets an ack have an effect only if it lies between `SND.UNA` and
`SND.NXT`, one further while a zero-window probe is out.  `_handle_ack` compares
it with the ends of the segments in flight instead, and with nothing else, so
that half of the sequence space counts as an ack of the first of them.

`strayAck_ignored_iff` says for every ack outside the interval when it has no
effect on the window, the RTT estimator, the congestion window and the state:
when nothing is in flight, or the ack lies in the half of the sequence space
before the end of the first segment in flight.
-/

import TcpIpStack.Lib.Runs
import TcpIpStack.Tcp.Sender
import TcpIpStack.Tcp.Timers

namespace TcpIpStack

open Serial TcpConnection Session Runs

/-- The ack lies in the interval from `SND.UNA` to `SND.NXT + 1`, the last number
being that of the byte of a zero-window probe. -/
def TcpConnection.ackInInterval (c : TcpConnection) (ack : UInt32) : Prop :=
  ack - c.sndUna ≤ c.sendNext + 1 - c.sndUna

instance (c : TcpConnection) (ack : UInt32) : Decidable (c.ackInInterval ack) :=
  inferInstanceAs (Decidable (_ ≤ _))

/-- How many segments have been sent that are tracked. -/
def Session.tracked (x : Session) : ℕ := x.sent.countP (·.site = .sendFlags)

/-- From `x` to `y` no ack has had an effect: SACK marks apart, what was in flight
is still in flight, followed by the segments sent since; the RTT estimator and
the state are the same, and the congestion window has not grown. -/
structure AckIgnored (x y : Session) : Prop where
  kept : x.conn.core.flight.map Flight.unmarked <+: y.conn.core.flight.map Flight.unmarked
  counted : y.conn.inFlight.length + x.tracked = x.conn.inFlight.length + y.tracked
  retired : y.retired = x.retired
  estimator : (y.conn.hasRttSample, y.conn.srttScaled, y.conn.rttvarScaled, y.conn.rtoMs) =
    (x.conn.hasRttSample, x.conn.srttScaled, x.conn.rttvarScaled, x.conn.rtoMs)
  congestion : y.conn.congestion.cwnd ≤ x.conn.congestion.cwnd
  state : y.conn.state = x.conn.state
  entered : y.entered = x.entered

section StrayAcks

variable {x y z : Session} {t : Tcp}

theorem AckIgnored.trans (h : AckIgnored x y) (h' : AckIgnored y z) : AckIgnored x z where
  kept := h.kept.trans h'.kept
  counted := by
    have hxy := h.counted
    have hyz := h'.counted
    omega
  retired := h'.retired.trans h.retired
  estimator := h'.estimator.trans h.estimator
  congestion := UInt32.le_trans h'.congestion h.congestion
  state := h'.state.trans h.state
  entered := h'.entered.trans h.entered

variable {c : TcpConnection}

theorem AckIgnored.of_conn (hflight : c.inFlight = x.conn.inFlight)
    (hestimator : (c.hasRttSample, c.srttScaled, c.rttvarScaled, c.rtoMs) =
      (x.conn.hasRttSample, x.conn.srttScaled, x.conn.rttvarScaled, x.conn.rtoMs))
    (hcongestion : c.congestion = x.conn.congestion) (hstate : c.state = x.conn.state) :
    AckIgnored x { x with conn := c } := by
  refine ⟨?_, ?_, rfl, hestimator, ?_, hstate, rfl⟩
  · simp only [core, hflight]
    exact List.prefix_refl _
  · rw [hflight]
    rfl
  · rw [hcongestion]
    exact UInt32.le_refl _

theorem AckIgnored.refl (x : Session) : AckIgnored x x := .of_conn rfl rfl rfl rfl

/-! ### Sending what waits -/

theorem ackIgnored_sendFlags (flags : UInt8) (payload : Bytes) (x : Session) :
    AckIgnored x (x.sendFlags flags payload true) where
  kept := by
    simp only [core, sendFlags, Session.modify, sendSegment, recordSent, List.map_append]
    exact List.prefix_append ..
  counted := by
    simp [Session.tracked, sendFlags, Session.modify, sendSegment, recordSent, List.countP_append]
    omega
  retired := rfl
  estimator := rfl
  congestion := UInt32.le_refl _
  state := rfl
  entered := rfl

theorem ackIgnored_sendFront (front : Bytes) (rest : List Bytes) (x : Session) :
    AckIgnored x (x.sendFront front rest) := by
  have hqueue : AckIgnored x (x.modify fun c =>
      { c with sendQueue := rest, sendQueuedBytes := c.sendQueuedBytes - front.length }) :=
    .of_conn rfl rfl rfl rfl
  exact hqueue.trans (ackIgnored_sendFlags 0 front _)

theorem ackIgnored_armOrDisarmPersist (x : Session) : AckIgnored x (x.modify (·.armOrDisarmPersist)) := by
  unfold Session.modify armOrDisarmPersist
  dsimp only
  split_ifs <;> exact .of_conn rfl rfl rfl rfl

theorem ackIgnored_queue : QueueFrame AckIgnored where
  refl := .refl
  trans := .trans
  front := ackIgnored_sendFront
  persist := ackIgnored_armOrDisarmPersist

/-! ### An ack that covers nothing -/

/-- The first segment in flight, if there is one, ends after the ack. -/
def TcpConnection.coversNothing (c : TcpConnection) (ack : UInt32) : Prop :=
  ∀ front ∈ c.inFlight.head?, coveredBy ack front = false

instance (c : TcpConnection) (ack : UInt32) : Decidable (c.coversNothing ack) :=
  inferInstanceAs (Decidable (∀ front ∈ c.inFlight.head?, _ = false))

theorem coversNothing_iff {ack : UInt32} : c.coversNothing ack ↔ c.retiredBy ack = [] := by
  unfold TcpConnection.coversNothing retiredBy
  cases c.inFlight with
  | nil => simp
  | cons front rest => simp

/-- The loop of `_handle_ack` finds nothing to retire, and leaves no sample. -/
theorem retireAcked_of_coversNothing (h : x.conn.coversNothing t.acknowledgementNumber) :
    x.retireAcked t = x := by
  have hnone := coversNothing_iff.1 h
  have htally : x.conn.ackTally t.acknowledgementNumber =
      { unsackedBytes := x.conn.unsackedInFlightBytes } := by
    rw [ackTally, hnone, List.foldl_nil]
  have hretire : x.conn.retire t.acknowledgementNumber = x.conn := by
    have hflight : x.conn.inFlight.dropWhile (coveredBy t.acknowledgementNumber) = x.conn.inFlight := by
      have hsplit := List.takeWhile_append_dropWhile (p := coveredBy t.acknowledgementNumber)
        (l := x.conn.inFlight)
      rwa [show x.conn.inFlight.takeWhile (coveredBy t.acknowledgementNumber) = [] from hnone,
        List.nil_append] at hsplit
    rw [retire, htally, hflight]
  unfold retireAcked
  dsimp only
  rw [hretire, htally, hnone, List.flatMap_nil, List.append_nil]
  have hsample : x.conn.sampleRtt t { unsackedBytes := x.conn.unsackedInFlightBytes } = x.conn := by
    simp [sampleRtt]
  rw [hsample]

theorem ackIgnored_noteAck (t : Tcp) (x : Session) : AckIgnored x (x.modify (noteAck t)) := by
  obtain ⟨flight, bytes, happlied⟩ := applySackBlocks_eq t x.conn
  obtain ⟨mark, -, hflight⟩ := applySackBlocks_inFlight t x.conn
  have hflight : flight = x.conn.inFlight.map fun s => { s with sacked := mark s } := by
    rwa [happlied] at hflight
  have hnote : noteAck t x.conn = takeWindow t
      { x.conn with inFlight := flight, unsackedInFlightBytes := bytes } := by
    rw [noteAck, happlied]
  unfold Session.modify
  rw [hnote]
  refine ⟨?_, ?_, rfl, rfl, UInt32.le_refl _, rfl, rfl⟩
  · simp only [core, takeWindow, hflight, List.map_map]
    exact List.prefix_refl _
  · simp [takeWindow, hflight, Session.tracked]

theorem retiredBy_noteAck (t : Tcp) (c : TcpConnection) (ack : UInt32) :
    (noteAck t c).coversNothing ack ↔ c.coversNothing ack := by
  obtain ⟨mark, -, hflight⟩ := applySackBlocks_inFlight t c
  have hflight : (noteAck t c).inFlight = c.inFlight.map fun s => { s with sacked := mark s } := hflight
  unfold TcpConnection.coversNothing
  rw [hflight]
  cases c.inFlight with
  | nil => simp
  | cons front rest => simp [coveredBy]

theorem ackIgnored_advanceAck (h : x.conn.coversNothing t.acknowledgementNumber) :
    AckIgnored x (x.advanceAck t) := by
  have hcleared : AckIgnored x (x.modify clearDuplicateAcks) := .of_conn rfl rfl rfl rfl
  refine hcleared.trans ?_
  have h : (x.modify clearDuplicateAcks).conn.coversNothing t.acknowledgementNumber := h
  unfold advanceAck
  dsimp only
  generalize x.modify clearDuplicateAcks = y at h
  rw [ackTally_ackedAnything, coversNothing_iff.1 h, if_pos (by simp), retireAcked_of_coversNothing h]
  exact ackIgnored_queue.onWindowUpdate y

/-! ### An ack that covers something -/

/-- What is in flight and what has been sent, tracked, since. -/
def Session.surplus (x : Session) : ℤ := x.conn.inFlight.length - x.tracked

theorem AckIgnored.surplus (h : AckIgnored x y) : y.surplus = x.surplus := by
  have hcounted := h.counted
  unfold Session.surplus
  omega

theorem surplus_close (x : Session) : x.close.surplus = x.surplus := by
  unfold close
  split_ifs
  · rfl
  · rfl
  · exact (ackIgnored_sendFlags flagFin [] (x.transition _)).surplus
  · exact (ackIgnored_sendFlags flagFin [] (x.transition _)).surplus

theorem surplus_ends (h : AckEnds x y) : y.surplus = x.surplus := by
  cases h with
  | stop => rfl
  | acked => rfl
  | close _ _ _ => exact surplus_close _

theorem surplus_frame : AckFrame False fun x y => y.surplus = x.surplus where
  toFrame := .of_eq Session.surplus
  front front rest x := (ackIgnored_sendFront front rest x).surplus
  persist x := (ackIgnored_armOrDisarmPersist x).surplus
  note t x := (ackIgnored_noteAck t x).surplus
  count _ := rfl
  inflate _ := rfl
  fast h _ := h.elim
  clear _ := rfl
  after _ _ := by
    unfold Session.modify afterNewAck
    split <;> rfl

theorem surplus_retireAcked (t : Tcp) (x : Session) :
    (x.retireAcked t).surplus + (x.conn.retiredBy t.acknowledgementNumber).length = x.surplus := by
  have hlen : (x.retireAcked t).conn.inFlight =
      x.conn.inFlight.dropWhile (coveredBy t.acknowledgementNumber) := by
    rcases sampleRtt_cases t (x.conn.ackTally t.acknowledgementNumber)
      (x.conn.retire t.acknowledgementNumber) with h | ⟨rttMs, h⟩
    · exact (congrArg TcpConnection.inFlight h :)
    · exact (congrArg TcpConnection.inFlight h :)
  have hsplit := congrArg List.length (List.takeWhile_append_dropWhile
    (p := coveredBy t.acknowledgementNumber) (l := x.conn.inFlight))
  rw [List.length_append] at hsplit
  unfold Session.surplus retiredBy
  rw [hlen]
  have htracked : (x.retireAcked t).tracked = x.tracked := rfl
  omega

theorem surplus_advanceAck (h : ¬ x.conn.coversNothing t.acknowledgementNumber) :
    (x.advanceAck t).surplus < x.surplus := by
  rw [coversNothing_iff] at h
  have hpos := List.length_pos_iff.2 h
  have hretired := surplus_retireAcked t (x.modify clearDuplicateAcks)
  obtain ⟨y, hresumed, hend⟩ := surplus_frame.resume surplus_frame.after t x
  rw [surplus_ends hend, hresumed]
  have hcleared : (x.modify clearDuplicateAcks).surplus = x.surplus := rfl
  have hsame : (x.modify clearDuplicateAcks).conn.retiredBy t.acknowledgementNumber =
    x.conn.retiredBy t.acknowledgementNumber := rfl
  rw [hsame] at hretired
  omega

/-! ### When a stray ack has no effect -/

/-- An ack outside the interval does not repeat `SND.UNA`. -/
theorem ne_sndUna_of_not_ackInInterval {ack : UInt32} (h : ¬ c.ackInInterval ack) :
    ack ≠ c.sndUna := by
  rintro rfl
  refine h ?_
  rw [TcpConnection.ackInInterval, UInt32.sub_self]
  exact UInt32.zero_le

theorem handleAck_of_stray (h : ¬ x.conn.ackInInterval t.acknowledgementNumber) :
    x.handleAck t = (x.modify (noteAck t)).advanceAck t := by
  rw [handleAck_eq, if_neg]
  rw [duplicate_noteAck]
  exact fun hdup => ne_sndUna_of_not_ackInInterval h hdup.2

/-- **When an ack outside the interval has no effect**: if and only if nothing is
in flight, or the ack is in the half of the sequence space before the end of the
first segment in flight. -/
theorem strayAck_ignored_iff (x : Session) (t : Tcp)
    (hstray : ¬ x.conn.ackInInterval t.acknowledgementNumber) :
    AckIgnored x (x.handleAck t) ↔ x.conn.coversNothing t.acknowledgementNumber := by
  have hnoted := ackIgnored_noteAck t x
  have hcovers : (x.modify (noteAck t)).conn.coversNothing t.acknowledgementNumber ↔ _ :=
    retiredBy_noteAck t x.conn t.acknowledgementNumber
  rw [handleAck_of_stray hstray]
  constructor
  · intro hignored
    by_contra hnot
    have hless := surplus_advanceAck (mt hcovers.1 hnot)
    rw [hignored.surplus, hnoted.surplus] at hless
    exact lt_irrefl _ hless
  · intro hnothing
    exact hnoted.trans (ackIgnored_advanceAck (hcovers.2 hnothing))

end StrayAcks

/-- Three bytes are in flight from 101 on, and an old ack arrives. -/
theorem strayAck_ignored_old :
    ∃ y, runs Event.run [.segment (Tcp.ofFlags 9000 80 8 101 5 flagAck 8 0 0), .send [1, 2, 3]]
        ((Opener.passive { peerIsn := 7 }).run (.fresh 80 9000 100 4 .reno)) = some y ∧
      y.conn.sndUna = 101 ∧ ¬ y.conn.ackInInterval 50 ∧
      AckIgnored y (y.handleAck (Tcp.ofFlags 9000 80 8 50 5 flagAck 8 0 0)) :=
  ⟨_, rfl, by decide +kernel, by decide +kernel,
    (strayAck_ignored_iff _ (Tcp.ofFlags 9000 80 8 50 5 flagAck 8 0 0) (by decide +kernel)).2
      (by decide +kernel)⟩

/-- The three bytes are in flight, or our FIN is, and an ack arrives of data that
is far from having been sent.  It retires the bytes, and takes the FIN for
acknowledged. -/
theorem strayAck_retires :
    (∃ y, runs Event.run [.segment (Tcp.ofFlags 9000 80 8 101 5 flagAck 8 0 0), .send [1, 2, 3]]
        ((Opener.passive { peerIsn := 7 }).run (.fresh 80 9000 100 4 .reno)) = some y ∧
      y.conn.state = .established ∧ ¬ y.conn.ackInInterval 5000 ∧
      (y.handleAck (Tcp.ofFlags 9000 80 8 5000 5 flagAck 8 0 0)).retired = [1, 2, 3] ∧
      ¬ AckIgnored y (y.handleAck (Tcp.ofFlags 9000 80 8 5000 5 flagAck 8 0 0))) ∧
    ∃ y, runs Event.run [.segment (Tcp.ofFlags 9000 80 8 101 5 flagAck 8 0 0), .close]
        ((Opener.passive { peerIsn := 7 }).run (.fresh 80 9000 100 4 .reno)) = some y ∧
      y.conn.state = .finWait1 ∧ ¬ y.conn.ackInInterval 5000 ∧
      (y.handleAck (Tcp.ofFlags 9000 80 8 5000 5 flagAck 8 0 0)).conn.state = .finWait2 ∧
      ¬ AckIgnored y (y.handleAck (Tcp.ofFlags 9000 80 8 5000 5 flagAck 8 0 0)) := by
  refine ⟨⟨_, rfl, ?_, ?_, ?_, fun h => absurd h.retired ?_⟩,
    ⟨_, rfl, ?_, ?_, ?_, fun h => absurd h.state ?_⟩⟩ <;> decide +kernel

end TcpIpStack
