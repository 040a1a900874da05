/-
# How much a receiver holds

What a connection has received and the application has not read is in the
receive queue, what has come ahead of `RCV.NXT` is in the reorder buffer, and the
window it advertises is what the two leave of the capacity.  A payload ahead of
`RCV.NXT` is kept only if it starts inside that window, but one that reaches
`RCV.NXT` is delivered without a look at it: a peer that ignores a window of zero
fills the memory of the host.

`receive_buffer_bounded` is for the other peers.  If every payload that reaches
`RCV.NXT` finds the window open, one segment more than the capacity is the most a
receiver ever holds, and payloads beyond the window are not accepted.
-/

import TcpIpStack.Lib.Runs
import TcpIpStack.Tcp.Counters
import TcpIpStack.Tcp.Inbox

namespace TcpIpStack

open TcpConnection Session Runs

namespace Inbox

/-- The bytes in the reorder buffer. -/
def buffered (i : Inbox) : ℕ := i.reorderBuffer.total fun entry => entry.2.length

/-- The bytes a receiver holds. -/
def held (i : Inbox) : ℕ := queuedTotal i.receiveQueue + i.buffered

/-- The counter of the receive queue is right. -/
def Counted (i : Inbox) : Prop := i.receiveQueuedBytes = queuedTotal i.receiveQueue

section Held

variable {i : Inbox} {payload : Bytes} {seq : UInt32}

theorem toNat_foldl_length (entries : List (UInt32 × Bytes)) (start : UInt32)
    (h : start.toNat + (entries.map fun entry => entry.2.length).sum < 2 ^ 32) :
    (entries.foldl (fun occupied entry => occupied + UInt32.ofNat entry.2.length) start).toNat =
      start.toNat + (entries.map fun entry => entry.2.length).sum := by
  induction entries generalizing start with
  | nil => simp
  | cons entry rest ih =>
    rw [List.map_cons, List.sum_cons] at h ⊢
    have hstart : (start + UInt32.ofNat entry.2.length).toNat = start.toNat + entry.2.length := by
      rw [UInt32.toNat_add, UInt32.toNat_ofNat_of_lt' (show entry.2.length < 2 ^ 32 by omega)]
      exact Nat.mod_eq_of_lt (by omega)
    rw [List.foldl_cons, ih _ (by rw [hstart]; omega), hstart]
    omega

theorem toNat_occupied (hcounted : i.Counted) (hsmall : i.held < 2 ^ 32) : i.occupied.toNat = i.held := by
  unfold held buffered OrderedMap.total at hsmall
  have hbuffered := toNat_foldl_length i.reorderBuffer.entries 0 (by simp only [UInt32.toNat_zero]; omega)
  rw [UInt32.toNat_zero, Nat.zero_add] at hbuffered
  have hqueued : i.receiveQueuedBytes < 2 ^ 32 := by
    rw [show i.receiveQueuedBytes = _ from hcounted]
    omega
  rw [occupied, UInt32.toNat_add, hbuffered, UInt32.toNat_ofNat_of_lt' hqueued,
    show i.receiveQueuedBytes = _ from hcounted, held, buffered, OrderedMap.total]
  rw [Nat.mod_eq_of_lt (by omega), Nat.add_comm]

theorem toNat_window (hcounted : i.Counted) (hsmall : i.held < 2 ^ 32) :
    i.window.toNat = receiveBufferCapacity.toNat - i.held := by
  have hoccupied := toNat_occupied hcounted hsmall
  unfold window
  split_ifs with hlt
  · rw [UInt32.toNat_sub_of_le _ _ (UInt32.le_of_lt hlt), hoccupied]
  · rw [UInt32.lt_iff_toNat_lt, hoccupied] at hlt
    rw [UInt32.toNat_zero]
    omega

theorem held_lt_of_window_ne_zero (hcounted : i.Counted) (hsmall : i.held < 2 ^ 32) (h : i.window ≠ 0) :
    i.held < receiveBufferCapacity.toNat := by
  have hwindow := toNat_window hcounted hsmall
  by_contra hnot
  refine h (UInt32.toNat_inj.1 ?_)
  rw [hwindow, UInt32.toNat_zero]
  omega

/-! ### What each operation adds -/

theorem held_deliver (payload : Bytes) (i : Inbox) : (i.deliver payload).held = i.held + payload.length := by
  simp only [held, buffered, deliver, queuedTotal, List.map_append, List.sum_append, List.map_cons,
    List.map_nil, List.sum_cons, List.sum_nil]
  omega

theorem Counted.deliver (h : i.Counted) (payload : Bytes) : (i.deliver payload).Counted := by
  simp only [Counted] at h
  simp [Counted, Inbox.deliver, queuedTotal, h]

theorem held_unblock {buffered : Bytes} (h : i.reorderBuffer.find? i.recvNext = some buffered) :
    (i.unblock buffered).held = i.held := by
  have htotal := OrderedMap.total_of_find? h fun entry => entry.2.length
  rw [unblock, held_deliver]
  simp only [held, Inbox.buffered] at htotal ⊢
  omega

theorem drain_held (fuel : ℕ) (hcounted : i.Counted) :
    (i.drain fuel).held = i.held ∧ (i.drain fuel).Counted := by
  induction fuel generalizing i with
  | zero => exact ⟨rfl, hcounted⟩
  | succ fuel ih =>
    rw [drain]
    split
    · exact ⟨rfl, hcounted⟩
    · next buffered hfind =>
      have hunblocked : (i.unblock buffered).Counted := by
        have hsame : ({ i with reorderBuffer := i.reorderBuffer.erase i.recvNext } : Inbox).Counted := hcounted
        exact hsame.deliver buffered
      obtain ⟨hheld, hcounted'⟩ := ih hunblocked
      exact ⟨hheld.trans (held_unblock hfind), hcounted'⟩

theorem deliverAndDrain_held (payload : Bytes) (hcounted : i.Counted) :
    (i.deliverAndDrain payload).held = i.held + payload.length ∧ (i.deliverAndDrain payload).Counted := by
  obtain ⟨hheld, hcounted'⟩ := drain_held i.reorderBuffer.entries.length (hcounted.deliver payload)
  exact ⟨hheld.trans (held_deliver payload i), hcounted'⟩

theorem keep_held (seq : UInt32) (payload : Bytes) (i : Inbox) :
    (i.keep seq payload).receiveQueue = i.receiveQueue ∧
      (i.keep seq payload).receiveQueuedBytes = i.receiveQueuedBytes ∧
      (i.keep seq payload = i ∨
        i.seqInWindow seq ∧ (i.keep seq payload).held = i.held + payload.length) := by
  unfold keep
  split_ifs with hkept
  · rw [Bool.and_eq_true] at hkept
    obtain ⟨hnew, hwindow⟩ := hkept
    refine ⟨rfl, rfl, .inr ⟨hwindow, ?_⟩⟩
    have htotal := i.reorderBuffer.total_insert seq payload fun entry => entry.2.length
    rw [OrderedMap.erase_eq_self (Option.isNone_iff_eq_none.1 hnew)] at htotal
    simp only [held, buffered, htotal]
    omega
  · exact ⟨rfl, rfl, .inl rfl⟩

end Held

/-- The largest payload of a segment: what an IP datagram leaves of `2^16 - 1`
bytes after the two headers. -/
def maxPayload : ℕ := 65515

/-- The receive side is within its bounds. -/
structure Within (i : Inbox) : Prop where
  counted : i.Counted
  held : i.held ≤ receiveBufferCapacity.toNat + maxPayload

/-- The payload reaches `RCV.NXT`, in the plain comparison of the source. -/
def Reached (seq : UInt32) (payload : Bytes) (i : Inbox) : Prop :=
  seq ≤ i.recvNext ∧ (i.recvNext - seq).toNat < payload.length

section Within

variable {i : Inbox} {payload : Bytes} {seq : UInt32} {t : Tcp}

theorem Within.small (h : i.Within) : i.held < 2 ^ 32 := by
  have hheld := h.held
  have hcapacity : receiveBufferCapacity.toNat = 131072 := rfl
  unfold maxPayload at hheld
  omega

theorem Within.congr {i' : Inbox} (h : i.Within) (hqueue : i'.receiveQueue = i.receiveQueue)
    (hqueued : i'.receiveQueuedBytes = i.receiveQueuedBytes)
    (hbuffer : i'.reorderBuffer = i.reorderBuffer) : i'.Within := by
  have hcounted := h.counted
  have hheld := h.held
  constructor
  · rw [Counted, hqueued, hqueue]
    exact hcounted
  · rw [Inbox.held, buffered, hqueue, hbuffer]
    exact hheld

theorem Within.deliverAndDrain (h : i.Within) (hopen : i.window ≠ 0) (hlen : payload.length ≤ maxPayload) :
    (i.deliverAndDrain payload).Within := by
  obtain ⟨hheld, hcounted⟩ := deliverAndDrain_held payload h.counted
  have hlt := held_lt_of_window_ne_zero h.counted h.small hopen
  exact ⟨hcounted, by omega⟩

theorem Within.keep (h : i.Within) (hne : seq ≠ i.recvNext) (hlen : payload.length ≤ maxPayload) :
    (i.keep seq payload).Within := by
  obtain ⟨hqueue, hqueued, hsame | ⟨hwindow, hheld⟩⟩ := keep_held seq payload i
  · rwa [hsame]
  · have hopen : i.window ≠ 0 := by
      intro hzero
      rw [seqInWindow, if_pos hzero] at hwindow
      exact hne (by simpa using hwindow)
    have hlt := held_lt_of_window_ne_zero h.counted h.small hopen
    have hcounted := h.counted
    unfold Counted at hcounted
    exact ⟨by rw [Counted, hqueued, hqueue, hcounted], by omega⟩

theorem Within.store (h : i.Within) (hlen : payload.length ≤ maxPayload)
    (hopen : Reached seq payload i → i.window ≠ 0) (hne : payload ≠ []) : (i.store seq payload).Within := by
  unfold Inbox.store
  split_ifs with heq hgt hnew
  · refine h.deliverAndDrain (hopen ⟨UInt32.le_of_eq heq, ?_⟩) hlen
    rw [heq, UInt32.sub_self, UInt32.toNat_zero]
    exact List.length_pos_iff.2 hne
  · exact h.keep heq hlen
  · refine h.deliverAndDrain (hopen ⟨UInt32.not_lt.1 hgt, hnew⟩) ?_
    rw [List.length_drop]
    omega
  · exact h

theorem window_stamp (t : Tcp) (i : Inbox) : (i.stamp t).window = i.window := by
  obtain ⟨-, hqueued, hbuffer, -⟩ := stamp_same t i
  unfold window occupied
  rw [hqueued, hbuffer]

theorem Within.stamp (h : i.Within) (t : Tcp) : (i.stamp t).Within := by
  obtain ⟨hqueue, hqueued, hbuffer, -⟩ := stamp_same t i
  exact h.congr hqueue hqueued hbuffer

theorem Within.arrive (h : i.Within) {receives : Bool} (fin : Bool) (hlen : t.payload.length ≤ maxPayload)
    (hopen : receives → Reached t.sequenceNumber t.payload i → i.window ≠ 0) :
    (i.arrive t receives fin).Within := by
  have hstamped := h.stamp t
  have hreached : Reached t.sequenceNumber t.payload (i.stamp t) ↔
      Reached t.sequenceNumber t.payload i := by
    rw [Reached, Reached, (stamp_same t i).2.2.2]
  have hstored : (if receives ∧ t.payload ≠ [] then (i.stamp t).store t.sequenceNumber t.payload
      else i.stamp t).Within := by
    split_ifs with hreceives
    · exact hstamped.store hlen (fun hr => window_stamp t i ▸ hopen hreceives.1 (hreached.1 hr)) hreceives.2
    · exact hstamped
  unfold Inbox.arrive
  dsimp only
  split_ifs at hstored ⊢ <;> exact hstored.congr rfl rfl rfl

theorem Within.take (h : i.Within) (maxBytes : ℕ) : (i.take maxBytes).Within := by
  have htaken := length_takeFromQueue maxBytes i.receiveQueue
  have hcounted := h.counted
  have hheld := h.held
  unfold Counted at hcounted
  unfold Inbox.held at hheld
  constructor
  · show i.receiveQueuedBytes - _ = queuedTotal (takeFromQueue maxBytes i.receiveQueue).2
    omega
  · show queuedTotal (takeFromQueue maxBytes i.receiveQueue).2 + i.buffered ≤ _
    omega

end Within

/-! ### Beyond the window -/

/-- Every byte of the payload lies beyond the window. -/
def WhollyBeyond (seq : UInt32) (payload : Bytes) (i : Inbox) : Prop :=
  ∀ k < payload.length, i.window.toNat ≤ (seq + UInt32.ofNat k - i.recvNext).toNat

theorem store_of_whollyBeyond {i : Inbox} {seq : UInt32} {payload : Bytes} (h : WhollyBeyond seq payload i)
    (hopen : Reached seq payload i → i.window ≠ 0) (hne : payload ≠ []) : i.store seq payload = i := by
  -- a byte at `RCV.NXT` is beyond the window only if that is closed
  have hclosed : ¬ Reached seq payload i := by
    intro hreached
    have hat := h _ hreached.2
    rw [UInt32.ofNat_toNat, UInt32.add_comm, UInt32.sub_add_cancel, UInt32.sub_self, UInt32.toNat_zero] at hat
    exact hopen hreached (UInt32.toNat_inj.1 (Nat.le_zero.1 hat))
  unfold store
  split_ifs with heq hgt hnew
  · refine absurd ⟨UInt32.le_of_eq heq, ?_⟩ hclosed
    rw [heq, UInt32.sub_self, UInt32.toNat_zero]
    exact List.length_pos_iff.2 hne
  · unfold keep
    rw [if_neg]
    rw [Bool.and_eq_true, not_and]
    intro _ hwindow
    have hfirst := h 0 (List.length_pos_iff.2 hne)
    unfold seqInWindow at hwindow
    split_ifs at hwindow with hzero
    · exact heq (by simpa using hwindow)
    · rw [decide_eq_true_eq, UInt32.lt_iff_toNat_lt] at hwindow
      rw [show UInt32.ofNat 0 = 0 from rfl, UInt32.add_zero] at hfirst
      omega
  · exact absurd ⟨UInt32.not_lt.1 hgt, hnew⟩ hclosed
  · rfl

end Inbox

/-! ### Every run -/

/-- A segment is no larger than a datagram allows, and a payload that reaches
`RCV.NXT` finds the window open. -/
def Event.keepsBuffer : Event → Session → Prop
  | .segment t, x => t.payload.length ≤ Inbox.maxPayload ∧
    (receivesData x.conn.state → t.sequenceNumber ≤ x.conn.recvNext →
      (x.conn.recvNext - t.sequenceNumber).toNat < t.payload.length → x.conn.advertisedWindow ≠ 0)
  | _, _ => True

instance (e : Event) (x : Session) : Decidable (e.keepsBuffer x) :=
  match e with
  | .segment _ => inferInstanceAs (Decidable (_ ∧ _))
  | .timePassed _ | .send _ | .read _ | .close | .setKeepalive _ | .reduceEffectiveMss _ | .fail =>
    isTrue trivial

/-- The bytes held in the receive queue and in the reorder buffer. -/
def TcpConnection.bytesHeld (c : TcpConnection) : ℕ :=
  queuedTotal c.receiveQueue + c.reorderBuffer.total fun entry => entry.2.length

/-- Every byte of the payload lies beyond the advertised window. -/
def BeyondWindow (t : Tcp) (c : TcpConnection) : Prop :=
  ∀ k < t.payload.length,
    c.advertisedWindow.toNat ≤ (t.sequenceNumber + UInt32.ofNat k - c.recvNext).toNat

instance (t : Tcp) (c : TcpConnection) : Decidable (BeyondWindow t c) :=
  inferInstanceAs (Decidable (∀ k < _, _))

section Runs

variable {e : Event} {x y : Session}

theorem within_run (h : x.conn.inbox.Within) (hok : e.keepsBuffer x) (he : e.run x = some y) :
    y.conn.inbox.Within := by
  have hmove := Event.run_inbox he
  generalize y.conn.inbox = i at hmove ⊢
  cases hmove with
  | same => exact h
  | tick => exact h.congr rfl rfl rfl
  | establish => exact h.congr rfl rfl rfl
  | arrive t fin ht =>
    subst ht
    exact h.arrive fin hok.1 fun hreceives hreached => hok.2 hreceives hreached.1 hreached.2
  | take maxBytes => exact h.take maxBytes

/-- What lies beyond the window is not accepted. -/
theorem notAccepted_of_beyondWindow {t : Tcp} (hok : (Event.segment t).keepsBuffer x)
    (hbeyond : BeyondWindow t x.conn) : (x.onSegment t).conn.receiveQueue = x.conn.receiveQueue ∧
      (x.onSegment t).conn.reorderBuffer = x.conn.reorderBuffer := by
  have hsuffices (i : Inbox) (hmove : InboxMove (.segment t) x i) :
      i.receiveQueue = x.conn.receiveQueue ∧ i.reorderBuffer = x.conn.reorderBuffer := by
    cases hmove with
    | same | tick | establish => exact ⟨rfl, rfl⟩
    | take _ hread => cases hread
    | arrive t' fin ht =>
      cases ht
      obtain ⟨hqueue, -, hbuffer, hnext⟩ := Inbox.stamp_same t x.conn.inbox
      have hstored : (if receivesData x.conn.state ∧ t.payload ≠ [] then
          (x.conn.inbox.stamp t).store t.sequenceNumber t.payload else x.conn.inbox.stamp t) =
            x.conn.inbox.stamp t := by
        split_ifs with hreceives
        · refine Inbox.store_of_whollyBeyond ?_ (fun hreached => ?_) hreceives.2
          · rw [Inbox.WhollyBeyond, Inbox.window_stamp, hnext]
            exact hbeyond
          · rw [Inbox.Reached, hnext] at hreached
            rw [Inbox.window_stamp]
            exact hok.2 hreceives.1 hreached.1 hreached.2
        · rfl
      unfold Inbox.arrive
      dsimp only
      rw [hstored]
      split_ifs <;> exact ⟨hqueue, hbuffer⟩
  exact hsuffices _ (inbox_onSegment t x)

theorem within_open (o : Opener) (localPort remotePort : UInt16) (initialSeq : UInt32)
    (localMss : UInt16) (algorithm : CongestionControlAlgorithm) :
    (o.run (.fresh localPort remotePort initialSeq localMss algorithm)).conn.inbox.Within := by
  cases o <;> exact ⟨rfl, Nat.zero_le _⟩

end Runs

/-- **The receive buffer is bounded**, for every peer whose payloads reach
`RCV.NXT` only while the window is open. -/
theorem receive_buffer_bounded (o : Opener) (localPort remotePort : UInt16) (initialSeq : UInt32)
    (localMss : UInt16) (algorithm : CongestionControlAlgorithm) (events : List Event) {y : Session}
    (hkeeps : Along Event.run Event.keepsBuffer events
      (o.run (.fresh localPort remotePort initialSeq localMss algorithm)))
    (h : runs Event.run events (o.run (.fresh localPort remotePort initialSeq localMss algorithm)) =
      some y) :
    y.conn.bytesHeld ≤ receiveBufferCapacity.toNat + Inbox.maxPayload ∧
      ∀ t : Tcp, (Event.segment t).keepsBuffer y → BeyondWindow t y.conn →
        (y.onSegment t).conn.receiveQueue = y.conn.receiveQueue ∧
          (y.onSegment t).conn.reorderBuffer = y.conn.reorderBuffer := by
  have hwithin : y.conn.inbox.Within :=
    runs_invariant (I := fun x => x.conn.inbox.Within) (fun _ _ _ hx hok he => within_run hx hok he)
      (within_open ..) hkeeps h
  exact ⟨hwithin.held, fun t hok hbeyond => notAccepted_of_beyondWindow hok hbeyond⟩

/-- Three bytes arrive, the third of them twice, and one far ahead. -/
theorem receive_buffer_bounded_overlap :
    ∃ y, runs Event.run [.segment (Tcp.ofFlags 9000 80 8 101 5 flagAck 8 0 0),
          .segment ((Tcp.ofFlags 9000 80 8 101 5 flagAck 8 0 0).carrying [1, 2, 3]),
          .segment ((Tcp.ofFlags 9000 80 10 101 5 flagAck 8 0 0).carrying [3, 4])]
        ((Opener.passive { peerIsn := 7 }).run (.fresh 80 9000 100 4 .reno)) = some y ∧
      y.conn.bytesHeld = 4 ∧ y.conn.bytesHeld ≤ receiveBufferCapacity.toNat + Inbox.maxPayload ∧
      (y.onSegment ((Tcp.ofFlags 9000 80 900000 101 5 flagAck 8 0 0).carrying [9])).conn.receiveQueue =
        y.conn.receiveQueue := by
  refine ⟨_, (Option.some_get (by decide +kernel)).symm, by decide +kernel,
    (receive_buffer_bounded _ _ _ _ _ _ _ ?_ (Option.some_get _).symm).1,
    ((receive_buffer_bounded _ _ _ _ _ _ _ ?_ (Option.some_get _).symm).2 _ (by decide +kernel)
      (by decide +kernel)).1⟩
  all_goals decide +kernel

/-! ### A peer that ignores the window -/

/-- Payload after payload, each where the last one ended. -/
def flood (payload : Bytes) : ℕ → UInt32 → List Event
  | 0, _ => []
  | n + 1, seq =>
    .segment ((Tcp.ofFlags 9000 80 seq 101 5 flagAck 8 0 0).carrying payload) ::
      flood payload n (seq + UInt32.ofNat payload.length)

section Flood

variable {x : Session} {t : Tcp}

theorem dispatch_of_receivesData (hrst : t.rst = false) (hreceives : receivesData x.conn.state) :
    (x.noteArrival t).dispatch t = (x.noteArrival t).handleSynchronized t := by
  have hstate : (x.noteArrival t).conn.state = x.conn.state := rfl
  unfold dispatch
  rw [if_neg (by simp [hrst]), hstate]
  cases hx : x.conn.state <;> rw [hx] at hreceives <;> first | rfl | cases hreceives

/-- Without a FIN or a RST, a segment leaves a connection that receives data
receiving it. -/
theorem receivesData_onSegment (hreceives : receivesData x.conn.state) (hrst : t.rst = false)
    (hfin : t.fin = false) : receivesData (x.onSegment t).conn.state := by
  unfold onSegment
  rw [dispatch_of_receivesData hrst hreceives]
  cases hpaws : pawsRejects (x.noteArrival t).conn t with
  | true =>
    unfold handleSynchronized
    rw [if_pos hpaws]
    exact hreceives
  | false =>
    have hacked : receivesData ((x.noteArrival t).ackStage t).conn.state :=
      (receivesData_ackStage t _).trans hreceives
    rw [handleSynchronized_eq hpaws, if_neg (by simp [hfin])]
    unfold payloadStage
    dsimp only
    split_ifs
    · rwa [state_handlePayload]
    · exact hacked

/-- A payload in order is delivered, whatever the window. -/
theorem inbox_onSegment_inOrder (hreceives : receivesData x.conn.state) (hrst : t.rst = false)
    (hfin : t.fin = false) (hstamp : t.timestampOption = none) (hseq : t.sequenceNumber = x.conn.recvNext)
    (hne : t.payload ≠ []) (hempty : x.conn.reorderBuffer.entries = []) :
    (x.onSegment t).conn.inbox = x.conn.inbox.deliver t.payload := by
  have hpaws : pawsRejects x.conn t = false := by
    unfold pawsRejects
    rw [hstamp]
    split <;> first | rfl | contradiction
  unfold onSegment
  rw [dispatch_of_receivesData hrst hreceives]
  obtain ⟨fin, hcounts, heq⟩ := inbox_handleSynchronized (x := x.noteArrival t) hpaws
  have hnofin : fin = false := by
    cases fin with
    | false => rfl
    | true => rw [(hcounts rfl).1] at hfin; exact hfin
  rw [heq, hnofin]
  show x.conn.inbox.arrive t (receivesData x.conn.state) false = _
  have hsame : x.conn.inbox.stamp t = x.conn.inbox := by
    unfold Inbox.stamp
    rw [hstamp]
    split <;> first | rfl | contradiction
  have hnext : t.sequenceNumber = x.conn.inbox.recvNext := hseq
  have hbuffer : x.conn.inbox.reorderBuffer.entries = [] := hempty
  unfold Inbox.arrive Inbox.store
  dsimp only
  rw [hsame, if_neg Bool.false_ne_true, if_pos ⟨hreceives, hne⟩, if_pos hnext, Inbox.deliverAndDrain, hbuffer]
  rfl

/-- The bytes of a flood are held, all of them. -/
theorem flood_held {payload : Bytes} (hne : payload ≠ []) (n : ℕ) (hreceives : receivesData x.conn.state)
    (hempty : x.conn.reorderBuffer.entries = []) :
    ∃ y, runs Event.run (flood payload n x.conn.recvNext) x = some y ∧
      y.conn.bytesHeld = x.conn.bytesHeld + n * payload.length := by
  induction n generalizing x with
  | zero => exact ⟨x, rfl, by rw [Nat.zero_mul, Nat.add_zero]⟩
  | succ n ih =>
    let t := (Tcp.ofFlags 9000 80 x.conn.recvNext 101 5 flagAck 8 0 0).carrying payload
    have hpayload : t.payload = payload := Tcp.payload_carrying ..
    have hinbox : (x.onSegment t).conn.inbox = x.conn.inbox.deliver payload := by
      rw [← hpayload]
      exact inbox_onSegment_inOrder hreceives rfl rfl rfl rfl (hpayload ▸ hne) hempty
    obtain ⟨y, hruns, hheld⟩ := ih (x := x.onSegment t) (receivesData_onSegment hreceives rfl rfl)
      ((congrArg (·.reorderBuffer.entries) hinbox).trans hempty)
    have hnext : (x.onSegment t).conn.recvNext = x.conn.recvNext + UInt32.ofNat payload.length :=
      congrArg Inbox.recvNext hinbox
    have hbytes : (x.onSegment t).conn.bytesHeld = x.conn.bytesHeld + payload.length :=
      (congrArg Inbox.held hinbox).trans (Inbox.held_deliver payload x.conn.inbox)
    refine ⟨y, ?_, ?_⟩
    · rw [hnext] at hruns
      exact hruns
    · rw [hheld, hbytes, Nat.succ_mul]
      omega

end Flood

/-- The application never reads, and four of the largest payloads arrive one after
the other: the third leaves no window, and the fourth is taken all the same. -/
theorem receive_buffer_overrun :
    ∃ y, runs Event.run (.segment (Tcp.ofFlags 9000 80 8 101 5 flagAck 8 0 0) ::
          flood (List.replicate Inbox.maxPayload 0) 4 8)
        ((Opener.passive { peerIsn := 7 }).run (.fresh 80 9000 100 4 .reno)) = some y ∧
      receiveBufferCapacity.toNat + Inbox.maxPayload < y.conn.bytesHeld := by
  let x := ((Opener.passive { peerIsn := 7 }).run (.fresh 80 9000 100 4 .reno)).onSegment
    (Tcp.ofFlags 9000 80 8 101 5 flagAck 8 0 0)
  have hlength : (List.replicate Inbox.maxPayload (0 : UInt8)).length = Inbox.maxPayload :=
    List.length_replicate
  generalize List.replicate Inbox.maxPayload (0 : UInt8) = payload at hlength ⊢
  have hne : payload ≠ [] := by
    rw [← List.length_pos_iff, hlength]
    decide
  obtain ⟨y, hruns, hheld⟩ := flood_held (x := x) hne 4 (by decide +kernel) (by decide +kernel)
  have hnext : x.conn.recvNext = 8 := by decide +kernel
  rw [hnext] at hruns
  refine ⟨y, ?_, ?_⟩
  · rw [runs, show Event.run _ _ = some x from rfl, Option.bind_some]
    exact hruns
  · rw [hheld, hlength]
    exact Nat.lt_add_left _ (by decide)

end TcpIpStack
