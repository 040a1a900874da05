/-
# The counters of a connection

A connection counts what it holds: `_unsacked_in_flight_bytes` for the window,
`_send_queued_bytes` for the send queue, `_receive_queued_bytes` for what has not
been read.  Whatever the peer acknowledges and reports, the segments in flight
follow one another up to `SND.NXT`, each takes up the sequence numbers of what it
carries, and each counter is the sum it stands for, in every state (`Counters`).

The sums are sums of natural numbers: what travels is bounded by the two
windows, so it stays below `2^32`, and no subtraction on a counter wraps.
`NoWrap` says so for every subtraction of the source, at whatever point of an
event it is performed.

`bytes_unacked` is the sum of two of them.  It is zero when every byte that was
accepted has been retired, and also when the peer has reported by SACK all that
is in flight (`bytes_unacked_zero_iff`).
-/

import TcpIpStack.Lib.Runs
import TcpIpStack.Tcp.Sender

namespace TcpIpStack

open Serial TcpConnection Session Runs

/-! ### The sums -/

/-- The sequence numbers of what a segment in flight carries. -/
def Flight.Sized (s : Flight) : Prop :=
  (s.endSeq - s.seq).toNat = s.payload.length + (if hasFlag s.flags flagSyn then 1 else 0) +
    (if hasFlag s.flags flagFin then 1 else 0)

/-- The sequence numbers of the segments that no SACK block has named, as a
natural number. -/
def unsackedTotal (flight : List Flight) : ℕ := (flight.map (·.unsackedSize.toNat)).sum

@[simp] theorem unsackedTotal_nil : unsackedTotal [] = 0 := rfl

@[simp] theorem unsackedTotal_cons (s : Flight) (flight : List Flight) :
    unsackedTotal (s :: flight) = s.unsackedSize.toNat + unsackedTotal flight := List.sum_cons

@[simp] theorem unsackedTotal_append (a b : List Flight) :
    unsackedTotal (a ++ b) = unsackedTotal a + unsackedTotal b := by
  simp [unsackedTotal]

/-- Below `2^32` the counter is the sum. -/
theorem toNat_unsackedBytes {flight : List Flight} (h : unsackedTotal flight < 2 ^ 32) :
    (unsackedBytes flight).toNat = unsackedTotal flight := by
  induction flight with
  | nil => rfl
  | cons s rest ih =>
    rw [unsackedTotal_cons] at h ⊢
    rw [unsackedBytes, UInt32.toNat_add, ih (by omega), Nat.mod_eq_of_lt h]

theorem unsackedTotal_marked (l : List InFlightSegment) (mark : InFlightSegment → Bool)
    (h : ∀ s, s.sacked → mark s) :
    unsackedTotal ((l.map fun s => { s with sacked := mark s }).map InFlightSegment.flight) ≤
      unsackedTotal (l.map InFlightSegment.flight) := by
  induction l with
  | nil => exact le_rfl
  | cons s rest ih =>
    simp only [List.map_cons, unsackedTotal_cons]
    refine Nat.add_le_add ?_ ih
    cases hs : s.sacked with
    | true => simp [Flight.unsackedSize, h s hs]
    | false =>
      cases mark s <;> simp [Flight.unsackedSize, InFlightSegment.flight, hs]

/-- Data in a queue. -/
def queuedTotal (queue : List Bytes) : ℕ := (queue.map List.length).sum

theorem length_flatten (queue : List Bytes) : queue.flatten.length = queuedTotal queue :=
  List.length_flatten

theorem length_takeFromQueue (room : ℕ) (queue : List Bytes) :
    (takeFromQueue room queue).1.length + queuedTotal (takeFromQueue room queue).2 =
      queuedTotal queue := by
  induction queue generalizing room with
  | nil => simp [takeFromQueue]
  | cons front rest ih =>
    rw [takeFromQueue]
    split_ifs with hroom hfits
    · simp
    · have hrest := ih (room - front.length)
      simp only [queuedTotal, List.map_cons, List.sum_cons, List.length_append] at hrest ⊢
      omega
    · simp only [queuedTotal, List.map_cons, List.sum_cons, List.length_take, List.length_drop]
      omega

/-! ### The invariant -/

/-- The window is one run of sequence numbers up to `SND.NXT`, and the counters
fit. -/
structure Ledger (k : Core) : Prop where
  contiguous : k.flight.IsChain fun s s' => s.endSeq = s'.seq
  last : ∀ s ∈ k.flight.getLast?, s.endSeq = k.sendNext
  sized : ∀ s ∈ k.flight, s.Sized
  small : unsackedTotal k.flight < 2 ^ 32
  unread : k.receiveQueuedBytes = queuedTotal k.receiveQueue

section Ledger

variable {isn : UInt32} {k k' : Core} {x y : Session} {e : Event} {s₀ : TcpState}

theorem Ledger.congr (h : Ledger k) (hflight : k'.flight = k.flight) (hnext : k'.sendNext = k.sendNext)
    (hunread : k'.receiveQueuedBytes = queuedTotal k'.receiveQueue) : Ledger k' :=
  ⟨hflight ▸ h.contiguous, hflight ▸ hnext ▸ h.last, hflight ▸ h.sized, hflight ▸ h.small, hunread⟩

theorem Ledger.of_nil (hflight : k.flight = [])
    (hunread : k.receiveQueuedBytes = queuedTotal k.receiveQueue) : Ledger k := by
  refine ⟨?_, ?_, ?_, ?_, hunread⟩ <;> rw [hflight]
  · exact List.isChain_nil
  · nofun
  · nofun
  · decide

/-- A segment joins the window, at `SND.NXT`. -/
theorem Ledger.transmit (h : Ledger k) {flags : UInt8} {payload : Bytes} {consumed : ℕ}
    (hconsumed : consumed = payload.length + (if hasFlag flags flagSyn then 1 else 0) +
      (if hasFlag flags flagFin then 1 else 0))
    (hsmall : unsackedTotal k.flight + consumed < 2 ^ 32) : Ledger (k.transmit flags payload consumed) := by
  obtain ⟨hcontiguous, hlast, hsized, -, hunread⟩ := h
  have hsize : (k.sendNext + UInt32.ofNat consumed - k.sendNext).toNat = consumed := by
    rw [UInt32.add_comm, UInt32.add_sub_cancel, UInt32.toNat_ofNat_of_lt' (show consumed < 2 ^ 32 by omega)]
  refine ⟨?_, ?_, ?_, ?_, hunread⟩
  · rw [Core.transmit, List.isChain_append]
    refine ⟨hcontiguous, List.isChain_singleton _, fun s hs s' hs' => ?_⟩
    rw [hlast s hs, ← Option.mem_some.1 hs']
  · intro s hs
    rw [Core.transmit, List.getLast?_concat] at hs
    rw [← Option.mem_some.1 hs]
    rfl
  · intro s hs
    rcases List.mem_append.1 hs with hs | hs
    · exact hsized s hs
    · rw [List.mem_singleton.1 hs, Flight.Sized, hsize, hconsumed]
  · have hnew : unsackedTotal (k.transmit flags payload consumed).flight =
        unsackedTotal k.flight + consumed := by
      simp only [Core.transmit, unsackedTotal_append, unsackedTotal_cons, unsackedTotal_nil,
        Flight.unsackedSize, Bool.false_eq_true, if_false, hsize, Nat.add_zero]
    rwa [hnew]

/-- Marks change nothing but the sum, which they make smaller. -/
theorem Ledger.mark {flight : List Flight} (bytes : UInt32) (h : Ledger k)
    (hsame : SameUnmarked flight k.flight) (hle : unsackedTotal flight ≤ unsackedTotal k.flight) :
    Ledger { k with flight := flight, unsackedInFlightBytes := bytes } := by
  have hunmarked {P : Flight → Prop} (hP : ∀ s, P s.unmarked ↔ P s) {l l' : List Flight}
      (hl : SameUnmarked l l') (hl' : ∀ s ∈ l', P s) : ∀ s ∈ l, P s := by
    intro s hs
    have hmem : s.unmarked ∈ l'.map Flight.unmarked := hl ▸ List.mem_map_of_mem hs
    obtain ⟨s', hs', heq⟩ := List.mem_map.1 hmem
    exact (hP s).1 (heq ▸ (hP s').2 (hl' s' hs'))
  have hlast : (flight.getLast?).map Flight.unmarked = (k.flight.getLast?).map Flight.unmarked := by
    rw [← List.getLast?_map, ← List.getLast?_map, hsame]
  have hchain (l : List Flight) : (l.map Flight.unmarked).IsChain (fun s s' => s.endSeq = s'.seq) ↔
      l.IsChain fun s s' => s.endSeq = s'.seq := List.isChain_map _
  refine ⟨(hchain flight).1 (hsame ▸ (hchain k.flight).2 h.contiguous), fun s hs => ?_,
    hunmarked (fun _ => Iff.rfl) hsame h.sized, hle.trans_lt h.small, h.unread⟩
  rw [Option.mem_def.1 hs] at hlast
  obtain ⟨s', hs', heq⟩ := Option.map_eq_some_iff.1 hlast.symm
  rw [← h.last s' hs']
  exact (congrArg Flight.endSeq heq).symm

theorem Ledger.retire {popped rest : List Flight} (h : Ledger k) (hflight : k.flight = popped ++ rest) :
    Ledger (k.retire popped rest) := by
  obtain ⟨hcontiguous, hlast, hsized, hsmall, hunread⟩ := h
  rw [hflight] at hcontiguous hlast hsized hsmall
  refine ⟨(List.isChain_append.1 hcontiguous).2.1, fun s hs => hlast s ?_,
    fun s hs => hsized s (List.mem_append_right _ hs), ?_, hunread⟩
  · rw [List.getLast?_append, Option.mem_def.1 (show s ∈ rest.getLast? from hs)]
    rfl
  · rw [unsackedTotal_append] at hsmall
    exact lt_of_le_of_lt (Nat.le_add_left ..) hsmall

theorem Ledger.transmit_data (h : Ledger x.conn.core) (hkept : x.Kept isn) {chunk : Bytes}
    (hfits : x.conn.unsackedInFlightBytes.toNat + chunk.length ≤
      (min x.conn.congestion.cwnd x.conn.peerWindow).toNat) :
    Ledger (x.conn.core.transmit flagAck chunk chunk.length) := by
  have hbytes : x.conn.unsackedInFlightBytes.toNat = unsackedTotal x.conn.core.flight :=
    (congrArg UInt32.toNat hkept.unsacked).trans (toNat_unsackedBytes h.small)
  refine h.transmit rfl ?_
  have hlt := (min x.conn.congestion.cwnd x.conn.peerWindow).toNat_lt
  omega

theorem Ledger.consumeFin (h : Ledger x.conn.core) : Ledger x.consumeFin.conn.core := by
  obtain ⟨-, heq⟩ | ⟨c, entered, -, -, hcore, heq⟩ := consumeFin_cases x
  · rw [heq]
    exact h.congr rfl rfl h.unread
  · rw [hcore]
    exact h.congr rfl rfl h.unread

theorem Ledger.scoreboard (h : Ledger x.conn.core) (hkept : x.Kept isn) (t : Tcp) :
    Ledger (x.conn.applySackBlocks t).1.core := by
  obtain ⟨hsame, -⟩ := applySackBlocks_flight t x.conn hkept.unsacked
  obtain ⟨flight, bytes, heq⟩ := applySackBlocks_eq t x.conn
  obtain ⟨mark, hmark, hflight⟩ := applySackBlocks_inFlight t x.conn
  have hle := unsackedTotal_marked x.conn.inFlight mark hmark
  rw [← hflight] at hle
  have hledger := h.mark bytes hsame hle
  rw [heq] at hledger ⊢
  exact hledger

/-- **Every effect keeps the counters in order.** -/
theorem Ledger.effect (h : Ledger x.conn.core) (hkept : x.Kept isn) (he : Effect e s₀ x y) :
    Ledger y.conn.core := by
  cases he with
  | quiet c hcore => exact hcore ▸ h
  | drain _ front rest _ hqueue hdrain hacks =>
    have hfits : x.conn.unsackedInFlightBytes.toNat + front.length ≤
        (min x.conn.congestion.cwnd x.conn.peerWindow).toNat := by
      rw [mayDrain, Bool.and_eq_true, decide_eq_true_eq] at hdrain
      exact hdrain.1
    rw [sendFront, core_sendFlags_data]
    exact (h.transmit_data hkept hfits).congr rfl rfl h.unread
  | place chunk _ _ hstate hchunk _ =>
    unfold placeChunk
    split_ifs with hqueued
    · exact h.congr rfl rfl h.unread
    · have hfits : x.conn.unsackedInFlightBytes.toNat + chunk.length ≤
          (min x.conn.congestion.cwnd x.conn.peerWindow).toNat := by
        rw [mustQueue] at hqueued
        simp only [Bool.or_eq_true, decide_eq_true_eq, not_or, not_lt] at hqueued
        exact hqueued.2
      simp only [core_sendFlags_data]
      exact h.transmit_data hkept hfits
  | fin _ hstate hflight hqueue =>
    have hnil : x.conn.core.flight = [] := by simp [core, hflight]
    rw [sendFin, core_sendFlags_fin]
    generalize (if x.conn.state = .established then TcpState.finWait1 else .lastAck) = newState
    have hledger : Ledger (x.transition newState).conn.core := h.congr rfl rfl h.unread
    refine hledger.transmit (by decide) ?_
    show unsackedTotal x.conn.core.flight + 1 < 2 ^ 32
    rw [hnil]
    decide
  | scoreboard t => exact h.scoreboard hkept t
  | slide t =>
    obtain ⟨popped, rest, hflight, -, hcore, -⟩ := core_slide t x
    rw [hcore]
    exact h.retire hflight
  | consumeFin => exact h.consumeFin
  | establishActive | establishPassive => exact .of_nil rfl h.unread
  | deliver t | unblock buffered =>
    refine h.congr rfl rfl ?_
    have hunread := h.unread
    simp only [core] at hunread
    simp [core, Session.modify, Session.unblock, TcpConnection.deliver, queuedTotal, hunread]
  | take maxBytes =>
    refine h.congr rfl rfl ?_
    have htaken := length_takeFromQueue maxBytes x.conn.receiveQueue
    have hunread := h.unread
    simp only [core] at hunread
    simp only [core, Session.take]
    omega
  | buffer t =>
    simp only [Session.modify, bufferOutOfOrder]
    split_ifs <;> exact h.congr rfl rfl h.unread
  | lowerMss pathMss =>
    simp only [Session.modify, reduceEffectiveMss]
    split_ifs <;> exact h.congr rfl rfl h.unread
  | receive | ack | holdAck | probe | keepalive | retransmit | window | abort =>
    exact h.congr rfl rfl h.unread

theorem Ledger.steps (h : Ledger x.conn.core) (hkept : x.Kept isn) (hsteps : Steps e s₀ x y) :
    Ledger y.conn.core ∧ y.Kept isn :=
  hsteps.preserves (P := fun y => Ledger y.conn.core ∧ y.Kept isn)
    (fun _ _ heff hy => ⟨hy.1.effect hy.2 heff, hy.2.effect heff⟩) ⟨h, hkept⟩

end Ledger

/-! ### Subtractions -/

/-- No subtraction on a counter wraps: not the one a SACK block makes for a
segment it newly covers, whatever the earlier blocks and the earlier segments
have taken off; not the one the loop of `_handle_ack` makes for a segment it
retires; not the one for a chunk that leaves the send queue; not the one for what
is read. -/
structure NoWrap (c : TcpConnection) : Prop where
  scoreboard : ∀ (done : List SackBlock) (block : SackBlock) (pre : List InFlightSegment)
    (s : InFlightSegment) (post : List InFlightSegment),
    (done.foldl applySackBlock c).inFlight = pre ++ s :: post → newlyCovers block s →
      s.size ≤ pre.foldl (uncount block) (done.foldl applySackBlock c).unsackedInFlightBytes
  retire : ∀ (ack : UInt32) (pre : List InFlightSegment) (s : InFlightSegment)
    (post : List InFlightSegment), c.retiredBy ack = pre ++ s :: post → s.sacked = false →
      s.size ≤ (pre.foldl (AckTally.add c.nowMs)
        { unsackedBytes := c.unsackedInFlightBytes }).unsackedBytes
  queue : ∀ front rest, c.sendQueue = front :: rest → front.length ≤ c.sendQueuedBytes
  read : ∀ maxBytes, (takeFromQueue maxBytes c.receiveQueue).1.length ≤ c.receiveQueuedBytes

section NoWrap

variable {c : TcpConnection}

variable {s : InFlightSegment}

theorem unsackedSize_of_unsacked (h : s.sacked = false) :
    s.flight.unsackedSize = s.size := by
  simp [Flight.unsackedSize, InFlightSegment.size, h]

theorem sacked_of_newlyCovers {block : SackBlock} (h : newlyCovers block s) :
    s.sacked = false := by
  rw [newlyCovers, Bool.and_eq_true] at h
  simpa using h.1

theorem toNat_sub_unsackedSize {bytes : UInt32} {n : ℕ}
    (h : s.flight.unsackedSize.toNat + n ≤ bytes.toNat) (hs : s.sacked = false) :
    n ≤ (bytes - s.size).toNat := by
  rw [unsackedSize_of_unsacked hs] at h
  have hle : s.size ≤ bytes := UInt32.le_iff_toNat_le.2 (by omega)
  rw [UInt32.toNat_sub_of_le _ _ hle]
  omega

theorem unsackedTotal_le_uncount (block : SackBlock) (pre post : List InFlightSegment) {bytes : UInt32}
    (h : unsackedTotal ((pre ++ post).map InFlightSegment.flight) ≤ bytes.toNat) :
    unsackedTotal (post.map InFlightSegment.flight) ≤ (pre.foldl (uncount block) bytes).toNat := by
  induction pre generalizing bytes with
  | nil => exact h
  | cons s pre ih =>
    rw [List.cons_append, List.map_cons, unsackedTotal_cons] at h
    rw [List.foldl_cons]
    refine ih ?_
    unfold uncount
    split_ifs with hcovers
    · exact toNat_sub_unsackedSize h (sacked_of_newlyCovers hcovers)
    · omega

/-- While segments are retired, the counter covers what is ahead. -/
theorem unsackedTotal_le_add (nowMs : UInt64) (pre post : List InFlightSegment) (tally : AckTally)
    (h : unsackedTotal ((pre ++ post).map InFlightSegment.flight) ≤ tally.unsackedBytes.toNat) :
    unsackedTotal (post.map InFlightSegment.flight) ≤
      (pre.foldl (AckTally.add nowMs) tally).unsackedBytes.toNat := by
  induction pre generalizing tally with
  | nil => exact h
  | cons s pre ih =>
    rw [List.cons_append, List.map_cons, unsackedTotal_cons] at h
    rw [List.foldl_cons]
    refine ih _ ?_
    cases hs : s.sacked with
    | true =>
      simp only [AckTally.add, hs, if_true]
      omega
    | false =>
      simp only [AckTally.add, hs, Bool.false_eq_true, if_false]
      exact toNat_sub_unsackedSize h hs

theorem size_le_of_unsackedTotal {post : List InFlightSegment} {bytes : UInt32}
    (h : unsackedTotal ((s :: post).map InFlightSegment.flight) ≤ bytes.toNat)
    (hs : s.sacked = false) : s.size ≤ bytes := by
  rw [List.map_cons, unsackedTotal_cons, unsackedSize_of_unsacked hs] at h
  exact UInt32.le_iff_toNat_le.2 (by omega)

/-- The counter of the window is exact. -/
def Exact (c : TcpConnection) : Prop :=
  c.unsackedInFlightBytes = unsackedBytes c.core.flight ∧ unsackedTotal c.core.flight < 2 ^ 32

theorem Exact.toNat_eq (h : Exact c) :
    c.unsackedInFlightBytes.toNat = unsackedTotal (c.inFlight.map InFlightSegment.flight) := by
  rw [h.1]
  exact toNat_unsackedBytes h.2

theorem exact_applySackBlock (h : Exact c) (block : SackBlock) : Exact (c.applySackBlock block) := by
  refine ⟨(applySackBlock_flight block h.1).2, lt_of_le_of_lt ?_ h.2⟩
  have hmap : markCovered block = fun s => { s with sacked := s.sacked || newlyCovers block s } := by
    funext s
    unfold markCovered
    split_ifs with hcovers <;> simp [hcovers]
  have hle := unsackedTotal_marked c.inFlight (fun s => s.sacked || newlyCovers block s)
    fun s hs => by simp [hs]
  rwa [← hmap] at hle

theorem exact_applySackBlocks (h : Exact c) (blocks : List SackBlock) :
    Exact (blocks.foldl applySackBlock c) := by
  induction blocks generalizing c with
  | nil => exact h
  | cons block rest ih => exact ih (exact_applySackBlock h block)

/-- **Where the counters are the sums, nothing wraps.** -/
theorem noWrap_of_exact (h : Exact c) (hqueued : c.sendQueuedBytes = queuedTotal c.sendQueue)
    (hunread : c.receiveQueuedBytes = queuedTotal c.receiveQueue) : NoWrap c where
  scoreboard done block pre s post hflight hcovers := by
    have hexact := (exact_applySackBlocks h done).toNat_eq
    rw [hflight] at hexact
    have hahead := unsackedTotal_le_uncount block pre (s :: post) hexact.ge
    exact size_le_of_unsackedTotal hahead (sacked_of_newlyCovers hcovers)
  retire ack pre s post hretired hs := by
    have hflight : c.inFlight = pre ++ (s :: post ++ c.inFlight.dropWhile (coveredBy ack)) := by
      rw [← List.append_assoc, ← hretired, retiredBy, List.takeWhile_append_dropWhile]
    have hexact := h.toNat_eq
    rw [hflight] at hexact
    have hahead := unsackedTotal_le_add c.nowMs pre _
      { unsackedBytes := c.unsackedInFlightBytes } hexact.ge
    exact size_le_of_unsackedTotal hahead hs
  queue front rest hqueue := by
    rw [hqueued, hqueue, queuedTotal, List.map_cons, List.sum_cons]
    exact Nat.le_add_right ..
  read maxBytes := by
    have htaken := length_takeFromQueue maxBytes c.receiveQueue
    omega

end NoWrap

/-! ### The capacity of the send queue -/

section Capacity

variable {x y : Session} {e : Event} {s₀ : TcpState}

/-- Only `send` makes the queue longer. -/
theorem Effect.sendQueuedBytes_le (he : Effect e s₀ x y) (hsend : ∀ data, e ≠ .send data) :
    y.conn.sendQueuedBytes ≤ x.conn.sendQueuedBytes := by
  have hcore {c c' : TcpConnection} (h : c.core.sendQueuedBytes = c'.core.sendQueuedBytes) :
      c.sendQueuedBytes ≤ c'.sendQueuedBytes := h.le
  cases he with
  | quiet c hc => exact hcore (congrArg Core.sendQueuedBytes hc).symm
  | place chunk data he => exact absurd he (hsend data)
  | drain _ front rest =>
    show x.conn.sendQueuedBytes - front.length ≤ x.conn.sendQueuedBytes
    exact Nat.sub_le ..
  | scoreboard t =>
    obtain ⟨flight, bytes, heq⟩ := applySackBlocks_eq t x.conn
    exact hcore (by simp only [Session.modify, heq]; rfl)
  | slide t =>
    obtain ⟨popped, rest, -, -, hslide, -⟩ := core_slide t x
    exact hcore (congrArg Core.sendQueuedBytes hslide :)
  | consumeFin =>
    obtain ⟨-, heq⟩ | ⟨c, entered, -, -, hfin, heq⟩ := consumeFin_cases x
    · rw [heq]
      exact le_rfl
    · exact hcore (congrArg Core.sendQueuedBytes hfin :)
  | buffer t =>
    simp only [Session.modify, bufferOutOfOrder]
    split_ifs <;> exact le_rfl
  | lowerMss pathMss =>
    simp only [Session.modify, reduceEffectiveMss]
    split_ifs <;> exact le_rfl
  | receive | ack | holdAck | probe | keepalive | retransmit | fin | window | deliver | unblock
  | establishActive | establishPassive | abort | take => exact le_rfl

theorem sendLoop_sendQueuedBytes (fuel : ℕ) {rest : Bytes} (h : x.sendLoop fuel rest = some y) :
    y.conn.sendQueuedBytes ≤ x.conn.sendQueuedBytes + rest.length := by
  induction fuel generalizing x rest with
  | zero =>
    rw [sendLoop] at h
    split_ifs at h
    exact Option.some.inj h ▸ Nat.le_add_right ..
  | succ fuel ih =>
    rw [sendLoop] at h
    split_ifs at h with hrest
    · exact Option.some.inj h ▸ Nat.le_add_right ..
    · have hplaced (chunk : Bytes) :
          (x.placeChunk chunk).conn.sendQueuedBytes ≤ x.conn.sendQueuedBytes + chunk.length := by
        unfold placeChunk
        split_ifs
        · exact le_rfl
        · exact Nat.le_add_right ..
      have hchunk := hplaced (rest.take x.conn.effectiveMss.toNat)
      have hle := ih h
      rw [List.length_take] at hchunk
      rw [List.length_drop] at hle
      omega

/-- `send` takes no more than the queue has room for. -/
theorem send_sendQueuedBytes {data : Bytes} {n : ℕ} (h : x.send data = some (n, y))
    (hx : x.conn.sendQueuedBytes ≤ sendBufferCapacity) : y.conn.sendQueuedBytes ≤ sendBufferCapacity := by
  unfold send at h
  dsimp only at h
  split_ifs at h
  · rwa [← (Prod.mk.inj (Option.some.inj h)).2]
  · rwa [← (Prod.mk.inj (Option.some.inj h)).2]
  · obtain ⟨z, hz, heq⟩ := Option.map_eq_some_iff.1 h
    have hle := sendLoop_sendQueuedBytes _ hz
    have hsame : y.conn.sendQueuedBytes = z.conn.sendQueuedBytes := by
      rw [← (Prod.mk.inj heq).2]
      exact congrArg Core.sendQueuedBytes (core_armOrDisarmPersist z.conn)
    rw [hsame]
    rw [List.length_take, sendSpaceAvailable] at hle
    omega

theorem Event.run_sendQueuedBytes (h : e.run x = some y) (hx : x.conn.sendQueuedBytes ≤ sendBufferCapacity) :
    y.conn.sendQueuedBytes ≤ sendBufferCapacity := by
  by_cases hsend : ∃ data, e = .send data
  · obtain ⟨data, rfl⟩ := hsend
    obtain ⟨⟨n, z⟩, hz, rfl⟩ := Option.map_eq_some_iff.1 h
    exact send_sendQueuedBytes hz hx
  · exact (Event.run_steps h).preserves (P := fun y => y.conn.sendQueuedBytes ≤ sendBufferCapacity)
      (fun _ _ heff hy => (heff.sendQueuedBytes_le fun data hd => hsend ⟨data, hd⟩).trans hy) hx

end Capacity

/-! ### Every run -/

/-- What a connection holds and counts. -/
structure Counters (c : TcpConnection) : Prop where
  contiguous : c.core.flight.IsChain fun s s' => s.endSeq = s'.seq
  last : ∀ s ∈ c.core.flight.getLast?, s.endSeq = c.sendNext
  sized : ∀ s ∈ c.core.flight, s.Sized
  unsacked : c.unsackedInFlightBytes.toNat = unsackedTotal c.core.flight
  queued : c.sendQueuedBytes = queuedTotal c.sendQueue
  capacity : c.sendQueuedBytes ≤ sendBufferCapacity
  unread : c.receiveQueuedBytes = queuedTotal c.receiveQueue

theorem ledger_open (o : Opener) (localPort remotePort : UInt16) (initialSeq : UInt32)
    (localMss : UInt16) (algorithm : CongestionControlAlgorithm) :
    Ledger (o.run (.fresh localPort remotePort initialSeq localMss algorithm)).conn.core := by
  cases o with
  | active =>
    rw [Opener.run, initiateConnect, core_sendFlags_syn]
    exact (Ledger.of_nil rfl rfl).transmit (by decide) (show unsackedTotal [] + 1 < 2 ^ 32 by decide)
  | passive o =>
    rw [Opener.run, acceptIncomingSyn, core_sendFlags_syn]
    exact (Ledger.of_nil rfl rfl).transmit (by decide) (show unsackedTotal [] + 1 < 2 ^ 32 by decide)

theorem noWrap_of_ledger {isn : UInt32} {x : Session} (h : Ledger x.conn.core) (hkept : x.Kept isn) :
    NoWrap x.conn :=
  noWrap_of_exact ⟨hkept.unsacked, h.small⟩ (hkept.queued.trans (length_flatten _)) h.unread

theorem ledger_of_runs (o : Opener) (localPort remotePort : UInt16) (initialSeq : UInt32)
    (localMss : UInt16) (algorithm : CongestionControlAlgorithm) (events : List Event) {y : Session}
    (h : runs Event.run events (o.run (.fresh localPort remotePort initialSeq localMss algorithm)) =
      some y) : (Ledger y.conn.core ∧ y.Kept initialSeq) ∧ y.conn.sendQueuedBytes ≤ sendBufferCapacity := by
  refine runs_induction (I := fun y => (Ledger y.conn.core ∧ y.Kept initialSeq) ∧
    y.conn.sendQueuedBytes ≤ sendBufferCapacity) (fun e x y hx he => ?_) ⟨⟨?_, ?_⟩, ?_⟩ h
  · exact ⟨hx.1.1.steps hx.1.2 (Event.run_steps he), Event.run_sendQueuedBytes he hx.2⟩
  · exact ledger_open ..
  · exact kept_open ..
  · cases o <;> exact Nat.zero_le _

theorem counters_of_runs (o : Opener) (localPort remotePort : UInt16) (initialSeq : UInt32)
    (localMss : UInt16) (algorithm : CongestionControlAlgorithm) (events : List Event) {y : Session}
    (h : runs Event.run events (o.run (.fresh localPort remotePort initialSeq localMss algorithm)) =
      some y) : Counters y.conn := by
  obtain ⟨⟨hledger, hkept⟩, hcapacity⟩ := ledger_of_runs o localPort remotePort initialSeq localMss algorithm events h
  refine ⟨hledger.contiguous, hledger.last, hledger.sized, ?_, ?_, hcapacity, hledger.unread⟩
  · exact (congrArg UInt32.toNat hkept.unsacked).trans (toNat_unsackedBytes hledger.small)
  · exact hkept.queued.trans (length_flatten _)

/-- **Sender bookkeeping.**  In every state a connection reaches, whatever its
peer sends and its application calls, the window is one run of sequence numbers
up to `SND.NXT`, every counter is the sum it stands for, and the send queue is
within its capacity; and at no point of any event does a subtraction wrap. -/
theorem sender_bookkeeping (o : Opener) (localPort remotePort : UInt16) (initialSeq : UInt32)
    (localMss : UInt16) (algorithm : CongestionControlAlgorithm) (events : List Event) {y : Session}
    (h : runs Event.run events (o.run (.fresh localPort remotePort initialSeq localMss algorithm)) =
      some y) :
    Counters y.conn ∧ ∀ e z, Steps e y.conn.state y z → NoWrap z.conn := by
  refine ⟨counters_of_runs o localPort remotePort initialSeq localMss algorithm events h, fun e z hsteps => ?_⟩
  obtain ⟨⟨hledger, hkept⟩, -⟩ := ledger_of_runs o localPort remotePort initialSeq localMss algorithm events h
  obtain ⟨hz, hkeptz⟩ := hledger.steps hkept hsteps
  exact noWrap_of_ledger hz hkeptz

/-- Two chunks are in flight, and the peer has reported the second one. -/
theorem sender_bookkeeping_reported :
    ∃ y, runs Event.run
        [.segment (Tcp.ofFlags 9000 80 8 101 5 flagAck 16 0 0),
          .send [1, 2, 3, 4, 5, 6, 7, 8, 9, 10, 11, 12],
          .segment (Tcp.ofFlags 9000 80 8 105 5 flagAck 8 0 0),
          .segment { Tcp.ofFlags 9000 80 8 105 5 flagAck 8 0 0 with sackBlocks := [⟨109, 113⟩] }]
        ((Opener.passive { peerIsn := 7, peerPermitsSack := true }).run (.fresh 80 9000 100 4 .reno)) =
          some y ∧
      y.conn.inFlight.length = 2 ∧ y.conn.unsackedInFlightBytes = 4 ∧ Counters y.conn :=
  ⟨_, (Option.some_get (by decide +kernel)).symm, by decide +kernel, by decide +kernel,
    (sender_bookkeeping _ _ _ _ _ _ _ (Option.some_get _).symm).1⟩

/-! ### `bytes_unacked` -/

/-- `bytes_unacked`. -/
def TcpConnection.bytesUnacked (c : TcpConnection) : ℕ := c.sendQueuedBytes + c.unsackedInFlightBytes.toNat

/-- Nothing waits, and the peer has reported all that is in flight, some of which
is data. -/
def AllReported (c : TcpConnection) : Prop :=
  c.sendQueue = [] ∧ (∃ s ∈ c.inFlight, s.payload ≠ []) ∧ ∀ s ∈ c.inFlight, s.sacked = true ∨ s.size = 0

/-- Neither a SYN nor a FIN is in flight. -/
def NoControlInFlight (c : TcpConnection) : Prop :=
  ∀ s ∈ c.inFlight, hasFlag s.flags flagSyn = false ∧ hasFlag s.flags flagFin = false

instance (c : TcpConnection) : Decidable (AllReported c) :=
  inferInstanceAs (Decidable (_ ∧ (∃ _ ∈ _, _) ∧ ∀ _ ∈ _, _ ∨ _))

instance (c : TcpConnection) : Decidable (NoControlInFlight c) := inferInstanceAs (Decidable (∀ _ ∈ _, _ ∧ _))

section Unacked

variable {isn : UInt32} {x : Session} {c : TcpConnection}

theorem unsackedSize_toNat_eq_zero (s : InFlightSegment) :
    s.flight.unsackedSize.toNat = 0 ↔ s.sacked = true ∨ s.size = 0 := by
  unfold Flight.unsackedSize
  cases hsacked : s.sacked with
  | true => simp [hsacked]
  | false => simp [hsacked, InFlightSegment.size, ← UInt32.toNat_inj]

theorem bytesUnacked_eq_zero (h : Counters c) (hchunks : ∀ chunk ∈ c.sendQueue, chunk ≠ []) :
    c.bytesUnacked = 0 ↔ c.sendQueue = [] ∧ ∀ s ∈ c.inFlight, s.sacked = true ∨ s.size = 0 := by
  rw [bytesUnacked, Nat.add_eq_zero_iff, h.queued, h.unsacked]
  refine and_congr ⟨fun hzero => ?_, fun hempty => by rw [hempty]; rfl⟩ ?_
  · refine List.eq_nil_iff_forall_not_mem.2 fun chunk hchunk => hchunks chunk hchunk ?_
    exact List.length_eq_zero_iff.1 (List.sum_eq_zero_iff.1 hzero _ (List.mem_map_of_mem hchunk))
  · rw [unsackedTotal, List.sum_eq_zero_iff, core]
    simp only [List.forall_mem_map, unsackedSize_toNat_eq_zero]

theorem retired_eq_accepted (h : x.Kept isn) : x.retired = x.accepted ↔
    (∀ s ∈ x.conn.inFlight, s.payload = []) ∧ x.conn.sendQueue = [] := by
  have hflight : flightBytes x.conn.core.flight = [] ↔ ∀ s ∈ x.conn.inFlight, s.payload = [] := by
    rw [flightBytes, List.flatMap_eq_nil_iff]
    exact List.forall_mem_map
  have hqueue : x.conn.core.sendQueue.flatten = [] ↔ x.conn.sendQueue = [] := by
    rw [List.flatten_eq_nil_iff]
    refine ⟨fun hall => ?_, fun hempty chunk hchunk => ?_⟩
    · exact List.eq_nil_iff_forall_not_mem.2 fun chunk hchunk => h.chunks chunk hchunk (hall chunk hchunk)
    · rw [show x.conn.core.sendQueue = [] from hempty] at hchunk
      cases hchunk
  rw [h.stream, List.append_assoc, List.self_eq_append_right, List.append_eq_nil_iff, hflight, hqueue]

/-- **What `bytes_unacked` answers**, in every state a connection reaches.  That
it is zero means that every byte has been retired by a cumulative ack, unless
SACK blocks have reported all that is in flight; and once every byte has been
retired it is zero, if no SYN and no FIN is in flight. -/
theorem bytes_unacked_zero_iff (o : Opener) (localPort remotePort : UInt16) (initialSeq : UInt32)
    (localMss : UInt16) (algorithm : CongestionControlAlgorithm) (events : List Event)
    (h : runs Event.run events (o.run (.fresh localPort remotePort initialSeq localMss algorithm)) = some x) :
    ((x.conn.bytesUnacked = 0 → x.retired = x.accepted) ↔ ¬ AllReported x.conn) ∧
      (x.retired = x.accepted → NoControlInFlight x.conn → x.conn.bytesUnacked = 0) := by
  have hcounters := counters_of_runs o localPort remotePort initialSeq localMss algorithm events h
  have hkept : x.Kept initialSeq := runs_induction (fun _ _ _ hk he => hk.run he) (kept_open ..) h
  have hzero := bytesUnacked_eq_zero hcounters hkept.chunks
  refine ⟨⟨fun hclaim ⟨hqueue, ⟨s, hs, hdata⟩, hsacked⟩ => ?_, fun hnot hbytes => ?_⟩, fun hretired hcontrol => ?_⟩
  · have hretired := (retired_eq_accepted hkept).1 (hclaim (hzero.2 ⟨hqueue, hsacked⟩))
    exact hdata (hretired.1 s hs)
  · obtain ⟨hqueue, hsacked⟩ := hzero.1 hbytes
    refine (retired_eq_accepted hkept).2 ⟨fun s hs => ?_, hqueue⟩
    by_contra hdata
    exact hnot ⟨hqueue, ⟨s, hs, hdata⟩, hsacked⟩
  · obtain ⟨hempty, hqueue⟩ := (retired_eq_accepted hkept).1 hretired
    refine hzero.2 ⟨hqueue, fun s hs => .inr ?_⟩
    -- a segment without payload, SYN and FIN takes up nothing
    obtain ⟨hsyn, hfin⟩ := hcontrol s hs
    have hsized := hcounters.sized s.flight (List.mem_map_of_mem hs)
    rw [← UInt32.toNat_inj]
    simpa [Flight.Sized, InFlightSegment.size, hempty s hs, hsyn, hfin] using hsized

/-- Four bytes are acknowledged. -/
theorem bytes_unacked_zero_acknowledged : ∃ x,
    runs Event.run
        [.segment (Tcp.ofFlags 9000 80 8 101 5 flagAck 16 0 0), .send [1, 2, 3, 4],
          .segment (Tcp.ofFlags 9000 80 8 105 5 flagAck 16 0 0)]
        ((Opener.passive { peerIsn := 7, peerPermitsSack := true }).run (.fresh 80 9000 100 4 .reno)) = some x ∧
      (x.conn.bytesUnacked = 0 → x.retired = x.accepted) ∧ x.conn.bytesUnacked = 0 := by
  refine ⟨_, rfl, ?_⟩
  obtain ⟨hiff, hwhenever⟩ :=
    bytes_unacked_zero_iff (.passive { peerIsn := 7, peerPermitsSack := true }) 80 9000 100 4 .reno
      [.segment (Tcp.ofFlags 9000 80 8 101 5 flagAck 16 0 0), .send [1, 2, 3, 4],
        .segment (Tcp.ofFlags 9000 80 8 105 5 flagAck 16 0 0)] rfl
  exact ⟨hiff.2 (by decide +kernel), hwhenever (by decide +kernel) (by decide +kernel)⟩

/-- The same four bytes are reported by a SACK block and not acknowledged: none of
them has been retired, and `bytes_unacked` is zero. -/
theorem bytes_unacked_forgets_reported : ∃ x,
    runs Event.run
        [.segment (Tcp.ofFlags 9000 80 8 101 5 flagAck 16 0 0), .send [1, 2, 3, 4],
          .segment { Tcp.ofFlags 9000 80 8 101 5 flagAck 16 0 0 with sackBlocks := [⟨101, 105⟩] }]
        ((Opener.passive { peerIsn := 7, peerPermitsSack := true }).run (.fresh 80 9000 100 4 .reno)) = some x ∧
      x.conn.state = .established ∧ x.conn.bytesUnacked = 0 ∧ x.accepted = [1, 2, 3, 4] ∧ x.retired = [] :=
  ⟨_, rfl, rfl, by decide +kernel, by decide +kernel, by decide +kernel⟩

end Unacked

end TcpIpStack
