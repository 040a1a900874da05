/-
# The bookkeeping of the sender

Whatever the peer sends, the send side of a connection keeps its accounts:
the bytes `send` has accepted are the ones retired by cumulative acks, followed
by the ones in flight, followed by the ones in the queue (`Bookkeeping.stream`),
and what is in flight depends on the state alone (`Phase`).  Before the
handshake is over it is the SYN; while data may be sent it is a tiling of the
stream from the first unacknowledged byte on; after `close` has sent the FIN it
is the FIN, and then nothing.

Sequence numbers are named by their distance from the initial one: the SYN is
at distance 0, byte `n` of the stream at `1 + n`, the FIN one past the last
byte.  Nothing here bounds the stream: the numbers may wrap any number of times.
-/

import TcpIpStack.Lib.Chunk
import TcpIpStack.Tcp.Refinement

namespace TcpIpStack

open Serial TcpConnection Session

/-! ### The accounts -/

/-- The bytes in flight. -/
def flightBytes (flight : List Flight) : Bytes := flight.flatMap (·.payload)

/-- The segments in flight are the stream from byte `n` on, one after the
other, each with data and no other flag than ACK. -/
def Tiles (isn : UInt32) : ℕ → List Flight → Prop
  | _, [] => True
  | n, s :: rest =>
    s.seq = after isn (1 + n) ∧ s.endSeq = after isn (1 + n + s.payload.length) ∧
      s.flags = flagAck ∧ s.payload ≠ [] ∧ Tiles isn (n + s.payload.length) rest

/-- The sequence numbers of a segment, if no SACK block has named it. -/
def Flight.unsackedSize (s : Flight) : UInt32 := if s.sacked then 0 else s.endSeq - s.seq

/-- The sequence numbers of the segments that no SACK block has named. -/
def unsackedBytes : List Flight → UInt32
  | [] => 0
  | s :: rest => s.unsackedSize + unsackedBytes rest

/-- The handshake is not over: the SYN is in flight. -/
structure Opening (isn : UInt32) (flags : UInt8) (n : ℕ) (k : Core) : Prop where
  flight : k.flight = [⟨isn, after isn 1, flags, [], false⟩]
  queue : k.sendQueue = []
  sendNext : k.sendNext = after isn 1
  retired : n = 0

/-- Data may be sent. -/
structure Streaming (isn : UInt32) (n : ℕ) (k : Core) : Prop where
  tiles : Tiles isn n k.flight
  sendNext : k.sendNext = after isn (1 + n + (flightBytes k.flight).length)

/-- Our FIN is in flight. -/
structure Closing (isn : UInt32) (n : ℕ) (k : Core) : Prop where
  flight : ∃ sacked, k.flight =
    [⟨after isn (1 + n), after isn (1 + n + 1), flagFin ||| flagAck, [], sacked⟩]
  queue : k.sendQueue = []
  sendNext : k.sendNext = after isn (1 + n + 1)

/-- Our FIN is acknowledged. -/
structure Finished (isn : UInt32) (n : ℕ) (k : Core) : Prop where
  flight : k.flight = []
  queue : k.sendQueue = []
  sendNext : k.sendNext = after isn (1 + n + 1)

/-- The states as the send side sees them: the peer's FIN makes no difference
to it. -/
inductive SendPhase
  | unopened
  | opening (flags : UInt8)
  | streaming
  | closing
  | finished
  | closed

/-- The phase of the sending half in each state. -/
def sendPhase : TcpState → SendPhase
  | .listen => .unopened
  | .synSent => .opening flagSyn
  | .synReceived => .opening (flagSyn ||| flagAck)
  | .established | .closeWait => .streaming
  | .finWait1 | .closing | .lastAck => .closing
  | .finWait2 | .timeWait => .finished
  | .closed => .closed

/-- What the send side holds when `n` bytes have been retired. -/
def Phase (isn : UInt32) (n : ℕ) (k : Core) : Prop :=
  match sendPhase k.state with
  | .unopened => False
  | .opening flags => Opening isn flags n k
  | .streaming => Streaming isn n k
  | .closing => Closing isn n k
  | .finished => Finished isn n k
  | .closed => True

/-- The accounts of the send side: `accepted` is what `send` took, `retired`
what cumulative acks have covered. -/
structure Bookkeeping (isn : UInt32) (k : Core) (accepted retired : Bytes) : Prop where
  phase : Phase isn retired.length k
  stream : accepted = retired ++ flightBytes k.flight ++ k.sendQueue.flatten
  queued : k.sendQueuedBytes = k.sendQueue.flatten.length
  chunks : ∀ chunk ∈ k.sendQueue, chunk ≠ []
  unsacked : k.unsackedInFlightBytes = unsackedBytes k.flight

/-- The accounts of a session. -/
def Session.Kept (isn : UInt32) (x : Session) : Prop :=
  Bookkeeping isn x.conn.core x.accepted x.retired

/-- The accounts are about these six members. -/
theorem Bookkeeping.congr {isn : UInt32} {k k' : Core} {accepted retired : Bytes}
    (h : Bookkeeping isn k accepted retired) (hstate : sendPhase k'.state = sendPhase k.state)
    (hnext : k'.sendNext = k.sendNext) (hflight : k'.flight = k.flight)
    (hqueue : k'.sendQueue = k.sendQueue) (hqueued : k'.sendQueuedBytes = k.sendQueuedBytes)
    (hunsacked : k'.unsackedInFlightBytes = k.unsackedInFlightBytes) : Bookkeeping isn k' accepted retired := by
  obtain ⟨phase, stream, queued, chunks, unsacked⟩ := h
  refine ⟨?_, by rw [hflight, hqueue, stream], by rw [hqueued, hqueue, queued], hqueue ▸ chunks,
    by rw [hunsacked, hflight, unsacked]⟩
  revert phase
  unfold Phase
  rw [hstate]
  cases sendPhase k.state with
  | unopened => exact id
  | opening flags => exact fun ⟨a, b, c, d⟩ => ⟨hflight ▸ a, hqueue ▸ b, hnext ▸ c, d⟩
  | streaming => exact fun ⟨a, b⟩ => ⟨hflight ▸ a, by rw [hnext, hflight, b]⟩
  | closing => exact fun ⟨a, b, c⟩ => ⟨hflight ▸ a, hqueue ▸ b, hnext ▸ c⟩
  | finished => exact fun ⟨a, b, c⟩ => ⟨hflight ▸ a, hqueue ▸ b, hnext ▸ c⟩
  | closed => exact id

/-! ### Tilings -/

theorem flightBytes_append (a b : List Flight) :
    flightBytes (a ++ b) = flightBytes a ++ flightBytes b := List.flatMap_append ..

theorem tiles_append (isn : UInt32) (n : ℕ) (a b : List Flight) :
    Tiles isn n (a ++ b) ↔ Tiles isn n a ∧ Tiles isn (n + (flightBytes a).length) b := by
  induction a generalizing n with
  | nil => simp [Tiles, flightBytes]
  | cons s rest ih =>
    have hlen : n + (flightBytes (s :: rest)).length =
        n + s.payload.length + (flightBytes rest).length := by
      simp [flightBytes]; omega
    rw [List.cons_append, Tiles, Tiles, ih, hlen]
    tauto

theorem unsackedBytes_append (a b : List Flight) :
    unsackedBytes (a ++ b) = unsackedBytes a + unsackedBytes b := by
  induction a with
  | nil => simp [unsackedBytes]
  | cons s rest ih => simp only [List.cons_append, unsackedBytes, ih, UInt32.add_assoc]

theorem Tiles.mem {isn : UInt32} {n : ℕ} {flight : List Flight} (h : Tiles isn n flight)
    {s : Flight} (hs : s ∈ flight) :
    ∃ m, s.seq = after isn (1 + n + m) ∧ Chunk.At (flightBytes flight) m s.payload ∧
      s.flags = flagAck := by
  induction flight generalizing n with
  | nil => cases hs
  | cons s' rest ih =>
    obtain ⟨hseq, -, hflags, -, hrest⟩ := h
    rcases List.mem_cons.1 hs with rfl | hs
    · exact ⟨0, hseq, Chunk.at_middle [] _ _, hflags⟩
    · obtain ⟨m, hseq, hat, hflags⟩ := ih hrest hs
      refine ⟨s'.payload.length + m, ?_, ?_, hflags⟩
      · rw [hseq]; congr 1; omega
      · rw [Chunk.At] at hat ⊢
        rwa [flightBytes, List.flatMap_cons, ← List.drop_drop, List.drop_left]

/-- The end of a tiling is the end of its last segment. -/
theorem Tiles.last {isn : UInt32} {n : ℕ} {flight : List Flight} (h : Tiles isn n flight) (hne : flight ≠ []) :
    ∃ s ∈ flight, s.endSeq = after isn (1 + n + (flightBytes flight).length) := by
  induction flight generalizing n with
  | nil => exact absurd rfl hne
  | cons s rest ih =>
    obtain ⟨-, hend, -, -, hrest⟩ := h
    have hlen : (flightBytes (s :: rest)).length = s.payload.length + (flightBytes rest).length := by
      simp [flightBytes]
    by_cases hnil : rest = []
    · refine ⟨s, List.mem_cons_self .., ?_⟩
      rw [hend, hlen, hnil]
      rfl
    · obtain ⟨s', hs', hend'⟩ := ih hrest hnil
      refine ⟨s', List.mem_cons_of_mem _ hs', ?_⟩
      rw [hend', hlen]
      congr 1
      omega

/-! ### SACK marks -/

def Flight.unmarked (s : Flight) : Flight := { s with sacked := false }

/-- Two windows that differ in their SACK marks only. -/
def SameUnmarked (a b : List Flight) : Prop := a.map Flight.unmarked = b.map Flight.unmarked

theorem SameUnmarked.flightBytes_eq {a b : List Flight} (h : SameUnmarked a b) :
    flightBytes a = flightBytes b := by
  have hbytes (l : List Flight) : flightBytes (l.map Flight.unmarked) = flightBytes l := by
    rw [flightBytes, List.flatMap_map]; rfl
  rw [← hbytes a, ← hbytes b, h]

theorem tiles_unmarked (isn : UInt32) (n : ℕ) (flight : List Flight) :
    Tiles isn n (flight.map Flight.unmarked) ↔ Tiles isn n flight := by
  induction flight generalizing n with
  | nil => rfl
  | cons s rest ih => simp only [List.map_cons, Tiles, ih]; rfl

theorem SameUnmarked.tiles_iff {a b : List Flight} (h : SameUnmarked a b) (isn : UInt32) (n : ℕ) :
    Tiles isn n a ↔ Tiles isn n b := by
  rw [← tiles_unmarked isn n a, ← tiles_unmarked isn n b, h]

/-- **Past the handshake, marks do not disturb the accounts.** -/
theorem Bookkeeping.mark {isn : UInt32} {k k' : Core} {accepted retired : Bytes}
    (h : Bookkeeping isn k accepted retired) (hacks : handlesAcks k.state)
    (hstate : k'.state = k.state) (hnext : k'.sendNext = k.sendNext)
    (hqueue : k'.sendQueue = k.sendQueue) (hqueued : k'.sendQueuedBytes = k.sendQueuedBytes)
    (hflight : SameUnmarked k'.flight k.flight)
    (hunsacked : k'.unsackedInFlightBytes = unsackedBytes k'.flight) : Bookkeeping isn k' accepted retired := by
  obtain ⟨phase, stream, queued, chunks, -⟩ := h
  have hbytes := hflight.flightBytes_eq
  refine ⟨?_, by rw [hbytes, hqueue, stream], by rw [hqueued, hqueue, queued], hqueue ▸ chunks,
    hunsacked⟩
  have hstreaming : Streaming isn retired.length k → Streaming isn retired.length k' :=
    fun ⟨a, b⟩ => ⟨(hflight.tiles_iff _ _).2 a, by rw [hnext, hbytes, b]⟩
  have hclosing : Closing isn retired.length k → Closing isn retired.length k' := by
    rintro ⟨⟨sacked, hfin⟩, hq, hn⟩
    refine ⟨?_, hqueue ▸ hq, hnext ▸ hn⟩
    rw [SameUnmarked, hfin] at hflight
    obtain ⟨s, hs, hunmarked⟩ := List.map_eq_singleton_iff.1 hflight
    refine ⟨s.sacked, ?_⟩
    simp only [Flight.unmarked, Flight.mk.injEq] at hunmarked
    rw [hs, ← hunmarked.1, ← hunmarked.2.1, ← hunmarked.2.2.1, ← hunmarked.2.2.2.1]
  have hfinished : Finished isn retired.length k → Finished isn retired.length k' := by
    rintro ⟨hnil, hq, hn⟩
    refine ⟨?_, hqueue ▸ hq, hnext ▸ hn⟩
    rw [SameUnmarked, hnil] at hflight
    simpa using hflight
  revert phase
  unfold Phase
  obtain ⟨hacks₁, hacks₂, -⟩ := hacks
  rw [hstate]
  cases hk : k.state <;> first | exact hstreaming | exact hclosing | exact hfinished | tauto

theorem markCovered_unmarked (block : SackBlock) (e : InFlightSegment) :
    (markCovered block e).flight.unmarked = e.flight.unmarked := by
  unfold markCovered
  split_ifs <;> rfl

theorem uncount_eq (block : SackBlock) (bytes : UInt32) (e : InFlightSegment) : uncount block bytes e =
      bytes - e.flight.unsackedSize + (markCovered block e).flight.unsackedSize := by
  unfold uncount markCovered
  split_ifs with h
  · have hs : e.sacked = false := by
      rw [newlyCovers, Bool.and_eq_true] at h
      simpa using h.1
    simp [Flight.unsackedSize, InFlightSegment.size, hs]
  · grind

theorem foldl_uncount (block : SackBlock) (l : List InFlightSegment) (bytes : UInt32) :
    l.foldl (uncount block) bytes = bytes - unsackedBytes (l.map InFlightSegment.flight)
      + unsackedBytes ((l.map (markCovered block)).map InFlightSegment.flight) := by
  induction l generalizing bytes with
  | nil => simp [unsackedBytes]
  | cons e rest ih =>
    simp only [List.foldl_cons, List.map_cons, unsackedBytes, ih, uncount_eq]
    grind

theorem applySackBlock_flight (block : SackBlock) {c : TcpConnection}
    (h : c.unsackedInFlightBytes = unsackedBytes c.core.flight) :
    SameUnmarked (c.applySackBlock block).core.flight c.core.flight ∧
      (c.applySackBlock block).unsackedInFlightBytes =
        unsackedBytes (c.applySackBlock block).core.flight := by
  constructor
  · simp only [SameUnmarked, core, applySackBlock, List.map_map]
    exact List.map_congr_left fun e _ => markCovered_unmarked block e
  · have hfold := foldl_uncount block c.inFlight c.unsackedInFlightBytes
    simp only [core] at h
    simp only [applySackBlock, core]
    rw [hfold, h]
    grind

/-- **A SACK report changes marks, and the count of what is not marked.** -/
theorem applySackBlocks_flight (t : Tcp) (c : TcpConnection)
    (h : c.unsackedInFlightBytes = unsackedBytes c.core.flight) :
    SameUnmarked (c.applySackBlocks t).1.core.flight c.core.flight ∧
      (c.applySackBlocks t).1.unsackedInFlightBytes =
        unsackedBytes (c.applySackBlocks t).1.core.flight := by
  unfold applySackBlocks
  split_ifs
  · exact ⟨rfl, h⟩
  · clear * - h
    generalize false = marked
    induction t.sackBlocks generalizing c marked with
    | nil => exact ⟨rfl, h⟩
    | cons block rest ih =>
      obtain ⟨hblock, hcount⟩ := applySackBlock_flight block h
      obtain ⟨hrest, hsum⟩ := ih (c.applySackBlock block) hcount
        (marked || c.inFlight.any (newlyCovers block))
      exact ⟨hrest.trans hblock, hsum⟩

/-! ### Sending -/

/-- The core after a tracked segment went out that takes `consumed` sequence
numbers. -/
def Core.transmit (k : Core) (flags : UInt8) (payload : Bytes) (consumed : ℕ) : Core :=
  { k with
    sendNext := k.sendNext + UInt32.ofNat consumed
    flight := k.flight ++
      [⟨k.sendNext, k.sendNext + UInt32.ofNat consumed, flags, payload, false⟩]
    unsackedInFlightBytes := k.unsackedInFlightBytes
      + (k.sendNext + UInt32.ofNat consumed - k.sendNext)
    ackPending := false }

theorem core_sendFlags_data (payload : Bytes) (x : Session) :
    (x.sendFlags 0 payload true).conn.core = x.conn.core.transmit flagAck payload payload.length := by
  simp [sendFlags, recordSent, core, Core.transmit, Session.modify, sendSegment,
    InFlightSegment.flight, InFlightSegment.size]

theorem core_sendFlags_fin (x : Session) :
    (x.sendFlags flagFin [] true).conn.core = x.conn.core.transmit (flagFin ||| flagAck) [] 1 := by
  simp [sendFlags, recordSent, core, Core.transmit, Session.modify, sendSegment,
    InFlightSegment.flight, InFlightSegment.size]

section Sending

variable {isn : UInt32} {k : Core} {accepted retired chunk : Bytes}

theorem unsackedBytes_transmit (h : k.unsackedInFlightBytes = unsackedBytes k.flight) (flags : UInt8)
    (payload : Bytes) (consumed : ℕ) : (k.transmit flags payload consumed).unsackedInFlightBytes =
      unsackedBytes (k.transmit flags payload consumed).flight := by
  simp [Core.transmit, unsackedBytes_append, unsackedBytes, Flight.unsackedSize, h]

variable {n : ℕ}

theorem Streaming.transmit (h : Streaming isn n k) (hchunk : chunk ≠ []) :
    Streaming isn n (k.transmit flagAck chunk chunk.length) := by
  obtain ⟨htiles, hsend⟩ := h
  have hend : k.sendNext + UInt32.ofNat chunk.length =
      after isn (1 + n + (flightBytes k.flight).length + chunk.length) := by
    rw [hsend, ← after_add]
  refine ⟨?_, ?_⟩
  · rw [Core.transmit, tiles_append]
    refine ⟨htiles, ?_, ?_, rfl, hchunk, trivial⟩
    · rw [hsend, Nat.add_assoc]
    · rw [hend, Nat.add_assoc 1 n]
  · simp only [Core.transmit, hend, flightBytes_append, List.length_append]
    simp [flightBytes, Nat.add_assoc]

theorem Streaming.phase (h : Streaming isn n k) (hstate : acceptsData k.state) : Phase isn n k := by
  rcases hstate with hstate | hstate <;> simpa [Phase, sendPhase, hstate] using h

theorem Phase.streaming (h : Phase isn n k) (hstate : acceptsData k.state) : Streaming isn n k := by
  rcases hstate with hstate | hstate <;> simpa [Phase, sendPhase, hstate] using h

theorem Phase.opening {flags : UInt8} (h : Phase isn n k)
    (hstate : sendPhase k.state = .opening flags) : Opening isn flags n k := by
  simpa only [Phase, hstate] using h

theorem Phase.closing (h : Phase isn n k) (hstate : sendPhase k.state = .closing) :
    Closing isn n k := by
  simpa only [Phase, hstate] using h

theorem Phase.finished (h : Phase isn n k) (hstate : sendPhase k.state = .finished) :
    Finished isn n k := by
  simpa only [Phase, hstate] using h

theorem Bookkeeping.acceptsData_of_queue (h : Bookkeeping isn k accepted retired)
    (hclosed : k.state ≠ .closed) (hqueue : k.sendQueue ≠ []) : acceptsData k.state := by
  obtain ⟨phase, -⟩ := h
  unfold Phase at phase
  unfold acceptsData
  cases hk : k.state <;> simp only [hk, sendPhase] at phase hclosed <;>
    first
    | exact absurd phase.queue hqueue
    | tauto

/-- A chunk of `send` goes out at once. -/
theorem Bookkeeping.transmit (h : Bookkeeping isn k accepted retired) (hstate : acceptsData k.state)
    (hqueue : k.sendQueue = []) (hchunk : chunk ≠ []) :
    Bookkeeping isn (k.transmit flagAck chunk chunk.length) (accepted ++ chunk) retired := by
  obtain ⟨phase, stream, queued, chunks, unsacked⟩ := h
  refine ⟨?_, ?_, queued, chunks, unsackedBytes_transmit unsacked _ _ _⟩
  · exact ((phase.streaming hstate).transmit hchunk).phase hstate
  · simp [stream, hqueue, Core.transmit, flightBytes]

/-- A chunk of `send` has to wait. -/
theorem Bookkeeping.enqueue (h : Bookkeeping isn k accepted retired) (hstate : acceptsData k.state)
    (hchunk : chunk ≠ []) : Bookkeeping isn
      { k with
        sendQueuedBytes := k.sendQueuedBytes + chunk.length, sendQueue := k.sendQueue ++ [chunk] }
      (accepted ++ chunk) retired := by
  obtain ⟨phase, stream, queued, chunks, unsacked⟩ := h
  refine ⟨?_, ?_, ?_, ?_, unsacked⟩
  · obtain ⟨htiles, hsend⟩ := phase.streaming hstate
    exact Streaming.phase ⟨htiles, hsend⟩ hstate
  · simp [stream]
  · simp [queued]
  · intro c hc
    rcases List.mem_append.1 hc with hc | hc
    · exact chunks c hc
    · rwa [List.mem_singleton.1 hc]

theorem Bookkeeping.drain {rest : List Bytes} (h : Bookkeeping isn k accepted retired)
    (hacks : handlesAcks k.state) (hqueue : k.sendQueue = chunk :: rest) : Bookkeeping isn
      (({ k with sendQueue := rest, sendQueuedBytes := k.sendQueuedBytes - chunk.length } :
        Core).transmit flagAck chunk chunk.length) accepted retired := by
  have hstate := h.acceptsData_of_queue hacks.2.2 (by simp [hqueue])
  obtain ⟨phase, stream, queued, chunks, unsacked⟩ := h
  rw [hqueue] at stream queued chunks
  refine ⟨?_, ?_, ?_, fun c hc => chunks c (List.mem_cons_of_mem _ hc),
    unsackedBytes_transmit unsacked _ _ _⟩
  · obtain ⟨htiles, hsend⟩ := phase.streaming hstate
    exact Streaming.phase (Streaming.transmit ⟨htiles, hsend⟩ (chunks chunk (List.mem_cons_self ..)))
      hstate
  · simp [stream, Core.transmit, flightBytes]
  · simp [queued, Core.transmit]

theorem Bookkeeping.fin (h : Bookkeeping isn k accepted retired) (hstate : acceptsData k.state)
    (hflight : k.flight = []) (hqueue : k.sendQueue = []) {newState : TcpState}
    (hnew : newState = .finWait1 ∨ newState = .lastAck) :
    Bookkeeping isn (({ k with state := newState } : Core).transmit (flagFin ||| flagAck) [] 1)
      accepted retired := by
  obtain ⟨phase, stream, queued, chunks, unsacked⟩ := h
  refine ⟨?_, ?_, queued, chunks, unsackedBytes_transmit unsacked _ _ _⟩
  · have hsend := (phase.streaming hstate).sendNext
    rw [hflight] at hsend
    have hclosing : Closing isn retired.length
        (({ k with state := newState } : Core).transmit (flagFin ||| flagAck) [] 1) :=
      ⟨⟨false, by simp [Core.transmit, hflight, hsend, flightBytes, after_add]⟩, hqueue,
        by simp [Core.transmit, hsend, flightBytes, after_add]⟩
    rcases hnew with rfl | rfl <;> exact hclosing
  · simp [stream, hflight, Core.transmit, flightBytes]

end Sending

/-! ### The window slides -/

/-- The state after the segments `popped` have been acknowledged. -/
def stateAfterAck (state : TcpState) (popped : List Flight) : TcpState :=
  if popped.any fun s => hasFlag s.flags flagFin then (finAckedState state).getD state else state

/-- The segments `popped` are acknowledged, `rest` stays in flight. -/
def Core.retire (k : Core) (popped rest : List Flight) : Core :=
  { k with
    state := stateAfterAck k.state popped
    flight := rest
    unsackedInFlightBytes := k.unsackedInFlightBytes - unsackedBytes popped }

theorem foldl_add_unsackedBytes (nowMs : UInt64) (l : List InFlightSegment) (tally : AckTally) :
    (l.foldl (AckTally.add nowMs) tally).unsackedBytes =
      tally.unsackedBytes - unsackedBytes (l.map InFlightSegment.flight) := by
  induction l generalizing tally with
  | nil => simp [unsackedBytes]
  | cons s rest ih =>
    have hadd : (tally.add nowMs s).unsackedBytes = tally.unsackedBytes - s.flight.unsackedSize := by
      cases hs : s.sacked <;> simp [AckTally.add, Flight.unsackedSize, InFlightSegment.size, hs]
    simp only [List.foldl_cons, List.map_cons, unsackedBytes, ih, hadd]
    grind

theorem core_retireAcked (t : Tcp) (x : Session) : (x.retireAcked t).conn.core =
      { x.conn.core with
        flight := (x.conn.inFlight.dropWhile (coveredBy t.acknowledgementNumber)).map
          InFlightSegment.flight
        unsackedInFlightBytes := x.conn.core.unsackedInFlightBytes -
          unsackedBytes ((x.conn.retiredBy t.acknowledgementNumber).map InFlightSegment.flight) } := by
  have hbytes : (x.conn.ackTally t.acknowledgementNumber).unsackedBytes =
      x.conn.core.unsackedInFlightBytes -
        unsackedBytes ((x.conn.retiredBy t.acknowledgementNumber).map InFlightSegment.flight) :=
    foldl_add_unsackedBytes _ _ _
  rw [← hbytes]
  exact core_sampleRtt t _ (x.conn.retire t.acknowledgementNumber)

/-- What the ack takes off the front, and what it leaves. -/
theorem core_slide (t : Tcp) (x : Session) : ∃ popped rest, x.conn.core.flight = popped ++ rest ∧
      (∀ s ∈ popped, atOrBefore s.endSeq t.acknowledgementNumber) ∧
      (x.slide t).conn.core = x.conn.core.retire popped rest ∧
      (x.slide t).retired = x.retired ++ flightBytes popped ∧
      (x.slide t).accepted = x.accepted ∧ (x.slide t).sent = x.sent := by
  set ack := t.acknowledgementNumber with hack
  refine ⟨(x.conn.retiredBy ack).map InFlightSegment.flight,
    (x.conn.inFlight.dropWhile (coveredBy ack)).map InFlightSegment.flight, ?_, ?_, ?_⟩
  · rw [retiredBy, ← List.map_append, List.takeWhile_append_dropWhile]
    rfl
  · intro s hs
    obtain ⟨e, he, rfl⟩ := List.mem_map.1 hs
    have : coveredBy ack e = true := List.mem_takeWhile_imp he
    simpa [coveredBy] using this
  · have hfin : ((x.conn.retiredBy ack).map InFlightSegment.flight).any
        (fun s => hasFlag s.flags flagFin) = (x.conn.ackTally ack).finAcked := by
      rw [ackTally_finAcked, List.any_map]; rfl
    have hretired : (x.retireAcked t).retired =
        x.retired ++ flightBytes ((x.conn.retiredBy ack).map InFlightSegment.flight) := by
      simp only [retireAcked, flightBytes, List.flatMap_map]; rfl
    have hcore := core_retireAcked t x
    unfold slide Core.retire stateAfterAck
    rw [hfin, ← hack]
    cases hfa : (x.conn.ackTally ack).finAcked with
    | false => exact ⟨hcore, hretired, rfl, rfl⟩
    | true =>
      cases hstate : finAckedState x.conn.state with
      | none =>
        simp only [hstate, if_true, Option.getD_none, core]
        exact ⟨hcore, hretired, rfl, rfl⟩
      | some newState =>
        simp only [hstate, if_true, Option.getD_some, core]
        exact ⟨congrArg (fun k => ({ k with state := newState } : Core)) hcore, hretired, rfl, rfl⟩

section Slide

variable {isn : UInt32} {k : Core} {accepted retired : Bytes} {popped rest : List Flight}

theorem Tiles.no_fin {n : ℕ} {flight : List Flight} (h : Tiles isn n flight) :
    (flight.any fun s => hasFlag s.flags flagFin) = false := by
  rw [List.any_eq_false]
  intro s hs
  obtain ⟨-, -, -, hflags⟩ := h.mem hs
  simp [hflags]

theorem Streaming.retire {n : ℕ} (h : Streaming isn n k) (hflight : k.flight = popped ++ rest) :
    Streaming isn (n + (flightBytes popped).length) (k.retire popped rest) := by
  obtain ⟨htiles, hsend⟩ := h
  rw [hflight, tiles_append] at htiles
  refine ⟨htiles.2, ?_⟩
  simp only [Core.retire, hsend, hflight, flightBytes_append, List.length_append, Nat.add_assoc]

theorem Closing.retire {n : ℕ} (h : Closing isn n k) (hflight : k.flight = popped ++ rest) :
    flightBytes popped = [] ∧
      (popped = [] ∧ k.retire popped rest = k ∨
        (popped.any fun s => hasFlag s.flags flagFin) ∧ Finished isn n (k.retire popped rest)) := by
  obtain ⟨⟨sacked, hfin⟩, hqueue, hsend⟩ := h
  rw [hfin] at hflight
  rcases popped with _ | ⟨s, popped⟩
  · refine ⟨rfl, .inl ⟨rfl, ?_⟩⟩
    simp only [List.nil_append] at hflight
    simp [Core.retire, stateAfterAck, unsackedBytes, ← hflight, ← hfin]
  · simp only [List.cons_append, List.cons.injEq, List.nil_eq, List.append_eq_nil_iff] at hflight
    obtain ⟨rfl, rfl, rfl⟩ := hflight
    exact ⟨rfl, .inr ⟨by simp, rfl, hqueue, hsend⟩⟩

/-- **The window slides and the accounts move with it**: what is taken off the
front of the window is added to what has been retired. -/
theorem Bookkeeping.slide (h : Bookkeeping isn k accepted retired) (hacks : handlesAcks k.state)
    (hflight : k.flight = popped ++ rest) :
    Bookkeeping isn (k.retire popped rest) accepted (retired ++ flightBytes popped) := by
  obtain ⟨phase, stream, queued, chunks, unsacked⟩ := h
  obtain ⟨h₁, h₂, h₃⟩ := hacks
  refine ⟨?_, ?_, queued, chunks, ?_⟩
  · rw [List.length_append]
    have hstreaming (hstate : acceptsData k.state) :
        Phase isn (retired.length + (flightBytes popped).length) (k.retire popped rest) := by
      have hk := phase.streaming hstate
      have hsame : (k.retire popped rest).state = k.state := by
        have htiles := hk.tiles
        rw [hflight, tiles_append] at htiles
        simp [Core.retire, stateAfterAck, htiles.1.no_fin]
      exact (hk.retire hflight).phase (hsame ▸ hstate)
    have hclosing (hk : Closing isn retired.length k)
        (hstate : k.state = .finWait1 ∨ k.state = .closing ∨ k.state = .lastAck) :
        Phase isn (retired.length + (flightBytes popped).length) (k.retire popped rest) := by
      obtain ⟨hbytes, ⟨-, hsame⟩ | ⟨hfin, hfinished⟩⟩ := hk.retire hflight
      · rwa [hbytes, hsame]
      · rw [hbytes]
        rcases hstate with hstate | hstate | hstate <;>
          simp_all [Phase, sendPhase, Core.retire, stateAfterAck, finAckedState]
    have hfinished (hk : Finished isn retired.length k)
        (hstate : k.state = .finWait2 ∨ k.state = .timeWait) :
        Phase isn (retired.length + (flightBytes popped).length) (k.retire popped rest) := by
      obtain ⟨hnil, hqueue, hsend⟩ := hk
      obtain ⟨rfl, rfl⟩ : popped = [] ∧ rest = [] := by
        rw [hnil] at hflight
        simpa using hflight
      rcases hstate with hstate | hstate <;>
        · simp only [Phase, sendPhase, Core.retire, stateAfterAck, List.any_nil, hstate]
          exact ⟨rfl, hqueue, hsend⟩
    cases hstate : k.state <;> simp only [Phase, sendPhase, hstate] at phase h₁ h₂ h₃
    case established => exact hstreaming (.inl hstate)
    case closeWait => exact hstreaming (.inr hstate)
    case finWait1 => exact hclosing phase (.inl hstate)
    case closing => exact hclosing phase (.inr (.inl hstate))
    case lastAck => exact hclosing phase (.inr (.inr hstate))
    case finWait2 => exact hfinished phase (.inl hstate)
    case timeWait => exact hfinished phase (.inr hstate)
    all_goals tauto
  · rw [stream, hflight, flightBytes_append]
    simp [Core.retire]
  · simp only [Core.retire, unsacked, hflight, unsackedBytes_append]
    grind

end Slide

/-! ### Every effect keeps the accounts -/

section Kept

variable {isn : UInt32} {x y : Session} {e : Event} {s₀ : TcpState}

theorem Session.Kept.not_listen (h : x.Kept isn) : x.conn.state ≠ .listen := by
  intro hstate
  have hphase := h.phase
  rwa [Phase, core, hstate] at hphase

theorem Bookkeeping.establish {k k' : Core} {accepted retired : Bytes}
    (h : Bookkeeping isn k accepted retired) {flags : UInt8} (hopen : Opening isn flags retired.length k)
    (hstate : k'.state = .established) (hnext : k'.sendNext = k.sendNext) (hflight : k'.flight = [])
    (hqueue : k'.sendQueue = k.sendQueue) (hqueued : k'.sendQueuedBytes = k.sendQueuedBytes)
    (hunsacked : k'.unsackedInFlightBytes = 0) : Bookkeeping isn k' accepted retired := by
  obtain ⟨-, stream, queued, chunks, -⟩ := h
  obtain ⟨hsyn, hnil, hsend, hzero⟩ := hopen
  refine ⟨Streaming.phase ⟨by rw [hflight]; trivial, ?_⟩ (.inl hstate), ?_, by rw [hqueued, hqueue, queued],
    hqueue ▸ chunks, by rw [hunsacked, hflight]; rfl⟩
  · rw [hnext, hsend, hflight, hzero]; rfl
  · rw [stream, hsyn, hflight, hqueue]; rfl

theorem sendPhase_stateAfterFin (state : TcpState) : sendPhase (stateAfterFin state) = sendPhase state := by
  cases state <;> rfl

theorem Session.Kept.consumeFin (h : x.Kept isn) : x.consumeFin.Kept isn := by
  obtain ⟨-, heq⟩ | ⟨c, entered, -, -, hcore, heq⟩ := consumeFin_cases x
  · rw [heq]
    exact Bookkeeping.congr h rfl rfl rfl rfl rfl rfl
  · rw [heq, Session.Kept, hcore]
    exact Bookkeeping.congr h (sendPhase_stateAfterFin _) rfl rfl rfl rfl rfl

theorem Session.Kept.scoreboard (h : x.Kept isn) (hacks : handlesAcks x.conn.state) (t : Tcp) :
    (x.modify fun c => (c.applySackBlocks t).1).Kept isn := by
  obtain ⟨hsame, hcount⟩ := applySackBlocks_flight t x.conn h.unsacked
  obtain ⟨flight, bytes, heq⟩ := applySackBlocks_eq t x.conn
  refine Bookkeeping.mark h hacks ?_ ?_ ?_ ?_ hsame hcount <;>
    simp only [Session.modify, core, heq]

/-- **Every effect of every event keeps the accounts of the send side.** -/
theorem Session.Kept.effect (h : x.Kept isn) (he : Effect e s₀ x y) : y.Kept isn := by
  cases he with
  | quiet c hcore => unfold Session.Kept at *; exact hcore ▸ h
  | drain _ front rest _ hqueue _ hacks =>
    have := Bookkeeping.drain h hacks hqueue
    rw [Session.Kept, sendFront, core_sendFlags_data]
    exact this
  | place chunk _ _ hstate hchunk _ =>
    unfold placeChunk
    split_ifs with hq
    · exact Bookkeeping.enqueue h hstate hchunk
    · have hqueue : x.conn.core.sendQueue = [] := by simp [mustQueue] at hq; exact hq.1.1
      have := Bookkeeping.transmit h hstate hqueue hchunk
      rw [Session.Kept]
      simp only [core_sendFlags_data]
      exact this
  | fin _ hstate hflight hqueue =>
    have hnil : x.conn.core.flight = [] := by simp [core, hflight]
    have hnew : (if x.conn.state = .established then TcpState.finWait1 else .lastAck) = .finWait1 ∨
        (if x.conn.state = .established then TcpState.finWait1 else .lastAck) = .lastAck := by
      split_ifs <;> simp
    rw [Session.Kept, sendFin, core_sendFlags_fin]
    exact Bookkeeping.fin h hstate hnil hqueue hnew
  | scoreboard t _ _ hacks => exact h.scoreboard hacks t
  | slide t _ _ hacks =>
    obtain ⟨popped, rest, hflight, -, hcore, hretired, haccepted, -⟩ := core_slide t x
    rw [Session.Kept, hcore, hretired, haccepted]
    exact Bookkeeping.slide h hacks hflight
  | consumeFin => exact h.consumeFin
  | establishActive t _ hstate _ _ _ =>
    exact Bookkeeping.establish h (h.phase.opening (by rw [core, hstate]; rfl)) rfl rfl rfl rfl rfl rfl
  | establishPassive t _ hstate _ _ =>
    exact Bookkeeping.establish h (h.phase.opening (by rw [core, hstate]; rfl)) rfl rfl rfl rfl rfl rfl
  | abort => exact ⟨trivial, h.stream, h.queued, h.chunks, h.unsacked⟩
  | buffer t _ _ _ =>
    simp only [Session.modify, bufferOutOfOrder]
    split_ifs <;> exact Bookkeeping.congr h rfl rfl rfl rfl rfl rfl
  | lowerMss pathMss _ =>
    simp only [Session.modify, reduceEffectiveMss]
    split_ifs <;> exact Bookkeeping.congr h rfl rfl rfl rfl rfl rfl
  | receive | ack | holdAck | probe | keepalive | retransmit | window | deliver | unblock | take =>
    exact Bookkeeping.congr h rfl rfl rfl rfl rfl rfl

/-- **Every event keeps the accounts of the send side.** -/
theorem Session.Kept.run (h : x.Kept isn) (he : e.run x = some y) : y.Kept isn :=
  Steps.preserves (fun _ _ heff hx => Session.Kept.effect hx heff) (Event.run_steps he) h

theorem core_sendFlags_syn (includeAck : Bool) (x : Session) : (x.sendFlags flagSyn [] includeAck).conn.core =
      x.conn.core.transmit (if includeAck then flagSyn ||| flagAck else flagSyn) [] 1 := by
  simp [sendFlags, recordSent, core, Core.transmit, Session.modify, sendSegment,
    InFlightSegment.flight, InFlightSegment.size]

theorem Session.kept_open (o : Opener) (localPort remotePort : UInt16) (initialSeq : UInt32)
    (localMss : UInt16) (algorithm : CongestionControlAlgorithm) :
    (o.run (.fresh localPort remotePort initialSeq localMss algorithm)).Kept initialSeq := by
  cases o with
  | active =>
    rw [Session.Kept, Opener.run, initiateConnect, core_sendFlags_syn]
    refine ⟨⟨rfl, rfl, rfl, rfl⟩, rfl, rfl, by simp [Core.transmit, core, transition, Session.fresh,
      TcpConnection.new], unsackedBytes_transmit rfl _ _ _⟩
  | passive o =>
    rw [Session.Kept, Opener.run, acceptIncomingSyn, core_sendFlags_syn]
    refine ⟨⟨rfl, rfl, rfl, rfl⟩, rfl, rfl, by simp [Core.transmit, core, transition, Session.fresh,
      TcpConnection.new, Session.modify, recordSyn], unsackedBytes_transmit rfl _ _ _⟩

end Kept

end TcpIpStack
