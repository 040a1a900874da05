/-
# A drained receiver has told its peer

When the application has read everything, the peer should know that it may send
a full segment again: the window in the last segment this side sent should be at
least one MSS.

Every segment carries the window of the moment it is built, so this can only go
wrong in `read`, which makes room without anything to acknowledge.  `read` sends
a window update if the window was exactly zero.  A window that was small but not
zero is left standing, and a peer with a full segment in its queue waits for an
update that never comes.  `drained_receiver_has_told` says that this is the only
way to get there, and `read_leaves_a_small_window` is a run that does.
-/

import TcpIpStack.Lib.Runs
import TcpIpStack.Tcp.Receiver

namespace TcpIpStack

open TcpConnection Session Runs

/-- The window of a call, multiplied back by the shift in use for it, is at
least `mss`. -/
def Call.Tells (mss : UInt16) (call : Call) : Prop :=
  mss.toNat ≤ call.header.window.toNat * 2 ^ call.conn.ourShift.toNat

/-- The last segment sent offers room for a full segment. -/
def Session.LastTells (x : Session) : Prop :=
  match x.sent.getLast? with
  | some call => call.Tells x.conn.localMss
  | none => False

/-- Nothing is buffered and no ack is pending. -/
def TcpConnection.drained (c : TcpConnection) : Prop :=
  c.receiveQueue = [] ∧ c.reorderBuffer.entries = [] ∧ c.ackPending = false

/-- A drained receiver has told its peer so. -/
def Session.Told (x : Session) : Prop :=
  receivesData x.conn.state → x.conn.drained → x.LastTells

instance (mss : UInt16) (call : Call) : Decidable (call.Tells mss) := inferInstanceAs (Decidable (_ ≤ _))

instance (x : Session) : Decidable x.LastTells :=
  match h : x.sent.getLast? with
  | some call => decidable_of_iff (call.Tells x.conn.localMss) (by rw [Session.LastTells, h])
  | none => isFalse (by rw [Session.LastTells, h]; exact id)

instance (c : TcpConnection) : Decidable c.drained := inferInstanceAs (Decidable (_ ∧ _ ∧ _))

instance (x : Session) : Decidable x.Told := inferInstanceAs (Decidable (_ → _))

/-- The states before the peer may send data. -/
def opening (state : TcpState) : Prop := state = .synSent ∨ state = .synReceived

/-- The receive side, with the count of what waits to be read. -/
structure Telling (x : Session) : Prop where
  counted : x.conn.receiveQueuedBytes = x.conn.receiveQueue.flatten.length
  nothingYet : opening x.conn.state → x.conn.receiveQueue = []
  told : receivesData x.conn.state ∨ opening x.conn.state → x.conn.drained → x.LastTells

section Telling

variable {x y : Session} {e : Event} {s₀ : TcpState} {c : TcpConnection}

/-! ### Segments that go out -/

theorem window_of_empty (hbytes : c.receiveQueuedBytes = 0) (hreorder : c.reorderBuffer.entries = [])
    (flags : UInt8) (seq : UInt32) : (c.buildHeader flags seq).window = 0xFFFF := by
  have hadvertised : c.advertisedWindow = receiveBufferCapacity := by
    simp [advertisedWindow, receiveBufferOccupied, hbytes, hreorder, receiveBufferCapacity]
  have hwindow : (c.buildHeader flags seq).window =
      (min (receiveBufferCapacity >>> c.ourShift.toUInt32) 0xFFFF).toUInt16 := by
    rw [← hadvertised]
    rfl
  rw [hwindow, ourShift]
  split_ifs <;> decide

theorem window_sendOptions (c : TcpConnection) (flags : UInt8) (header : Tcp) :
    (sendOptions c flags header).window = header.window := by
  unfold sendOptions
  split_ifs <;> rfl

theorem tells_of_window {call : Call} (h : call.header.window = 0xFFFF) (mss : UInt16) : call.Tells mss := by
  have hmss : mss.toNat < 2 ^ 16 := mss.toNat_lt
  have hpow : 1 ≤ 2 ^ call.conn.ourShift.toNat := Nat.one_le_two_pow
  have hfull : call.header.window.toNat = 65535 := by rw [h]; rfl
  rw [Call.Tells, hfull]
  calc mss.toNat ≤ 65535 * 1 := by omega
    _ ≤ 65535 * 2 ^ call.conn.ourShift.toNat := Nat.mul_le_mul_left _ hpow

theorem lastTells_of_window (calls : List Call) {call : Call} (hsent : x.sent = calls ++ [call])
    (h : call.header.window = 0xFFFF) : x.LastTells := by
  rw [Session.LastTells, hsent, List.getLast?_append_cons, List.getLast?_singleton]
  exact tells_of_window h _

/-! ### Effects -/

/-- The members the receive side is about, up to an ack that becomes pending. -/
structure RecvSame (c c' : TcpConnection) : Prop where
  queue : c'.receiveQueue = c.receiveQueue
  queued : c'.receiveQueuedBytes = c.receiveQueuedBytes
  reorder : c'.reorderBuffer = c.reorderBuffer
  localMss : c'.localMss = c.localMss
  begins : opening c'.state → opening c.state
  receives : receivesData c'.state → receivesData c.state ∨ opening c.state

theorem RecvSame.of_core {c' : TcpConnection} (h : c.core = c'.core) : RecvSame c c' := by
  have hstate : c'.state = c.state := (congrArg Core.state h).symm
  exact ⟨(congrArg Core.receiveQueue h).symm, (congrArg Core.receiveQueuedBytes h).symm,
    (congrArg Core.reorderBuffer h).symm, (congrArg Core.localMss h).symm, fun ho => hstate ▸ ho,
    fun hr => .inl (hstate ▸ hr)⟩

theorem Telling.of_same (h : Telling x) (hs : RecvSame x.conn y.conn)
    (hpending : y.conn.ackPending = false → x.conn.ackPending = false) (hsent : y.sent = x.sent) :
    Telling y := by
  obtain ⟨hqueue, hqueued, hreorder, hmss, hbegins, hreceives⟩ := hs
  refine ⟨by rw [hqueued, hqueue, h.counted], fun ho => hqueue.trans (h.nothingYet (hbegins ho)),
    fun hstate hdrained => ?_⟩
  have hstate' : receivesData x.conn.state ∨ opening x.conn.state :=
    hstate.elim hreceives fun ho => .inr (hbegins ho)
  obtain ⟨hempty, hnone, hidle⟩ := hdrained
  have htold := h.told hstate' ⟨hqueue ▸ hempty, hreorder ▸ hnone, hpending hidle⟩
  rwa [Session.LastTells, hsent, hmss]

theorem Telling.of_send (h : Telling x) (hs : RecvSame x.conn y.conn) {call : Call}
    (hsent : y.sent = x.sent ++ [call])
    (hheader : ∃ flags seq, call.header.window = (call.conn.buildHeader flags seq).window)
    (hqueued : call.conn.receiveQueuedBytes = x.conn.receiveQueuedBytes)
    (hreorder : call.conn.reorderBuffer = x.conn.reorderBuffer) : Telling y := by
  refine ⟨by rw [hs.queued, hs.queue, h.counted],
    fun ho => hs.queue.trans (h.nothingYet (hs.begins ho)), fun _ hdrained => ?_⟩
  obtain ⟨hempty, hnone, -⟩ := hdrained
  obtain ⟨flags, seq, hwindow⟩ := hheader
  have hbytes : call.conn.receiveQueuedBytes = 0 := by
    rw [hqueued, h.counted, ← hs.queue, hempty]
    rfl
  have hentries : call.conn.reorderBuffer.entries = [] := by
    rw [hreorder, ← hs.reorder, hnone]
  exact lastTells_of_window _ hsent (hwindow.trans (window_of_empty hbytes hentries ..))

theorem Telling.deliver (h : Telling x) {payload : Bytes} (hstate : receivesData x.conn.state)
    (hconn : y.conn.receiveQueue = x.conn.receiveQueue ++ [payload] ∧
      y.conn.receiveQueuedBytes = x.conn.receiveQueuedBytes + payload.length ∧
      y.conn.state = x.conn.state) : Telling y := by
  obtain ⟨hqueue, hqueued, hsame⟩ := hconn
  refine ⟨by rw [hqueued, hqueue, h.counted]; simp, fun ho => ?_, fun _ hdrained => ?_⟩
  · rw [hsame] at ho
    rcases ho with ho | ho <;> rw [ho] at hstate <;> cases hstate
  · rw [TcpConnection.drained, hqueue] at hdrained
    simp at hdrained

theorem RecvSame.refl (c : TcpConnection) : RecvSame c c := ⟨rfl, rfl, rfl, rfl, id, .inl⟩

theorem Telling.sendFlags (h : Telling x) (flags : UInt8) (payload : Bytes) (includeAck : Bool) :
    Telling (x.sendFlags flags payload includeAck) := by
  refine h.of_send ⟨rfl, rfl, rfl, rfl, id, .inl⟩ rfl ?_ rfl rfl
  exact ⟨_, _, window_sendOptions _ _ _⟩

theorem Telling.sendPureAck (h : Telling x) : Telling x.sendPureAck := by
  refine h.of_send ⟨rfl, rfl, rfl, rfl, id, .inl⟩ rfl ?_ rfl rfl
  exact ⟨_, _, window_sendOptions _ _ _⟩

variable {state : TcpState}

theorem receivesData_of_slide {popped : List Flight}
    (h : receivesData (stateAfterAck state popped)) : receivesData state := by
  unfold stateAfterAck at h
  split_ifs at h
  · cases state <;> simp_all [receivesData, finAckedState]
  · exact h

theorem opening_of_slide {popped : List Flight}
    (h : opening (stateAfterAck state popped)) : opening state := by
  unfold stateAfterAck at h
  split_ifs at h
  · cases state <;> simp_all [opening, finAckedState]
  · exact h

theorem stateAfterFin_idle (state : TcpState) :
    ¬ receivesData (stateAfterFin state) ∧ (opening (stateAfterFin state) → opening state) := by
  cases state <;> simp [receivesData, stateAfterFin, opening]

theorem not_opening_established : ¬ opening .established := by simp [opening]

theorem not_opening_closed : ¬ opening .closed := by simp [opening]

/-- **Every effect but that of `read` keeps the peer told.** -/
theorem Telling.effect (h : Telling x) (hread : ∀ maxBytes, e ≠ .read maxBytes)
    (he : Effect e s₀ x y) : Telling y := by
  cases he with
  | quiet c hcore =>
    have hpending : x.conn.ackPending = c.ackPending := congrArg Core.ackPending hcore
    exact h.of_same (.of_core hcore) (fun hidle => hpending.trans hidle) rfl
  | receive => exact h.of_same (.refl _) id rfl
  | ack => exact h.sendPureAck
  | holdAck => exact h.of_same ⟨rfl, rfl, rfl, rfl, id, .inl⟩ (fun hidle => by cases hidle) rfl
  | probe => exact h.of_send (.refl _) rfl ⟨_, _, rfl⟩ rfl rfl
  | keepalive => exact h.of_send (.refl _) rfl ⟨_, _, rfl⟩ rfl rfl
  | retransmit => exact h.of_send (.refl _) rfl ⟨_, _, rfl⟩ rfl rfl
  | drain t front rest =>
    exact (h.of_same (y := x.modify fun c => { c with
      sendQueue := rest, sendQueuedBytes := c.sendQueuedBytes - front.length })
      ⟨rfl, rfl, rfl, rfl, id, .inl⟩ id rfl).sendFlags 0 front true
  | place chunk =>
    unfold placeChunk
    dsimp only
    split_ifs
    · exact h.of_same ⟨rfl, rfl, rfl, rfl, id, .inl⟩ id rfl
    · exact (h.sendFlags 0 chunk true).of_same (.refl _) id rfl
  | fin _ hstate =>
    have hmoved : Telling (x.transition (if x.conn.state = .established then .finWait1 else .lastAck)) := by
      refine h.of_same ⟨rfl, rfl, rfl, rfl, ?_, ?_⟩ id rfl <;>
      · rcases hstate with hstate | hstate <;> simp [transition, hstate, opening, receivesData]
    exact hmoved.sendFlags flagFin [] true
  | scoreboard t =>
    obtain ⟨flight, bytes, heq⟩ := applySackBlocks_eq t x.conn
    refine h.of_same ?_ ?_ rfl
    · show RecvSame x.conn (x.conn.applySackBlocks t).1
      rw [heq]
      exact ⟨rfl, rfl, rfl, rfl, id, .inl⟩
    · show (x.conn.applySackBlocks t).1.ackPending = false → _
      rw [heq]
      exact id
  | window => exact h.of_same ⟨rfl, rfl, rfl, rfl, id, .inl⟩ id rfl
  | slide t =>
    obtain ⟨popped, rest, -, -, hcore, -, -, hsent⟩ := core_slide t x
    have hstate : (x.slide t).conn.state = stateAfterAck x.conn.state popped := congrArg Core.state hcore
    refine h.of_same ⟨congrArg Core.receiveQueue hcore, congrArg Core.receiveQueuedBytes hcore,
      congrArg Core.reorderBuffer hcore, congrArg Core.localMss hcore,
      fun ho => opening_of_slide (hstate ▸ ho), fun hr => .inl (receivesData_of_slide (hstate ▸ hr))⟩
      (fun hidle => (congrArg Core.ackPending hcore).symm.trans hidle) hsent
  | deliver t _ hstate => exact h.deliver hstate ⟨rfl, rfl, rfl⟩
  | unblock buffered hstate => exact h.deliver hstate ⟨rfl, rfl, rfl⟩
  | buffer t =>
    simp only [Session.modify, bufferOutOfOrder]
    split_ifs
    · -- something is out of order now
      refine ⟨h.counted, h.nothingYet, fun _ hdrained => ?_⟩
      exact absurd hdrained.2.1 (x.conn.reorderBuffer.insert_ne_nil t.sequenceNumber t.payload)
    · exact h.of_same (.refl _) id rfl
  | consumeFin =>
    obtain ⟨-, heq⟩ | ⟨c, entered, -, hcall, hcore, heq⟩ := consumeFin_cases x
    · rw [heq]
      exact h.of_same ⟨rfl, rfl, rfl, rfl, id, .inl⟩ id rfl
    · have hstate : x.consumeFin.conn.state = stateAfterFin x.conn.state := congrArg Core.state hcore
      obtain ⟨hidle, hopens⟩ := stateAfterFin_idle x.conn.state
      refine h.of_send ⟨congrArg Core.receiveQueue hcore, congrArg Core.receiveQueuedBytes hcore,
        congrArg Core.reorderBuffer hcore, congrArg Core.localMss hcore, fun ho => hopens (hstate ▸ ho),
        fun hr => absurd (hstate ▸ hr) hidle⟩ (congrArg Session.sent heq)
        ⟨_, _, window_sendOptions _ _ _⟩ (congrArg Core.receiveQueuedBytes hcall)
        (congrArg Core.reorderBuffer hcall)
  | establishActive t _ hstate =>
    exact h.of_same ⟨rfl, rfl, rfl, rfl, fun ho => absurd ho not_opening_established,
      fun _ => .inr (.inl hstate)⟩ id rfl
  | establishPassive t _ hstate =>
    exact h.of_same ⟨rfl, rfl, rfl, rfl, fun ho => absurd ho not_opening_established,
      fun _ => .inr (.inr hstate)⟩ id rfl
  | abort =>
    exact h.of_same ⟨rfl, rfl, rfl, rfl, fun ho => absurd ho not_opening_closed,
      fun hr => by cases hr⟩ id rfl
  | take maxBytes he => exact absurd he (hread maxBytes)
  | lowerMss pathMss =>
    refine h.of_same ?_ ?_ rfl <;>
    · simp only [Session.modify, reduceEffectiveMss]
      split_ifs <;> first | exact id | exact ⟨rfl, rfl, rfl, rfl, id, .inl⟩

/-! ### `read` -/

/-- A `read` that empties the queue does so at a time when the window is shut, or
when the last segment offered enough. -/
def ReadTells (maxBytes : ℕ) (x : Session) : Prop :=
  receivesData x.conn.state → x.conn.receiveQueue ≠ [] →
    (x.take maxBytes).conn.drained → x.conn.advertisedWindow = 0 ∨ x.LastTells

/-- `read` sends a window update, or it takes the bytes and nothing else. -/
theorem read_cases (maxBytes : ℕ) (x : Session) :
    (x.conn.advertisedWindow = 0 ∧ 0 < (x.take maxBytes).conn.advertisedWindow ∧
        receivesData x.conn.state) ∧ x.read maxBytes = (x.take maxBytes).sendPureAck ∨
      ¬ (x.conn.advertisedWindow = 0 ∧ 0 < (x.take maxBytes).conn.advertisedWindow ∧
        receivesData x.conn.state) ∧ x.read maxBytes = x.take maxBytes := by
  unfold Session.read
  dsimp only
  split_ifs with hshut
  · exact .inl ⟨hshut, rfl⟩
  · exact .inr ⟨hshut, rfl⟩

theorem advertisedWindow_of_empty (hbytes : c.receiveQueuedBytes = 0)
    (hreorder : c.reorderBuffer.entries = []) : 0 < c.advertisedWindow := by
  simp [advertisedWindow, receiveBufferOccupied, hbytes, hreorder, receiveBufferCapacity]

theorem counted_take (h : x.conn.receiveQueuedBytes = x.conn.receiveQueue.flatten.length)
    (maxBytes : ℕ) : (x.take maxBytes).conn.receiveQueuedBytes =
      (x.take maxBytes).conn.receiveQueue.flatten.length := by
  have hflatten := congrArg List.length (takeFromQueue_flatten maxBytes x.conn.receiveQueue)
  rw [List.length_append] at hflatten
  show x.conn.receiveQueuedBytes - (takeFromQueue maxBytes x.conn.receiveQueue).1.length =
    (takeFromQueue maxBytes x.conn.receiveQueue).2.flatten.length
  omega

theorem not_opening_of_receivesData (h : receivesData state) : ¬ opening state := by
  rintro (rfl | rfl) <;> cases h

theorem Telling.update (h : Telling x) (maxBytes : ℕ) (hstate : receivesData x.conn.state) :
    Telling (x.take maxBytes).sendPureAck := by
  have hcounted := counted_take h.counted maxBytes
  refine ⟨hcounted, fun ho => absurd ho (not_opening_of_receivesData hstate), fun _ hdrained => ?_⟩
  obtain ⟨hempty, hnone, -⟩ := hdrained
  have hempty : (x.take maxBytes).conn.receiveQueue = [] := hempty
  have hbytes : (x.take maxBytes).conn.receiveQueuedBytes = 0 := by
    rw [hcounted, hempty]
    rfl
  exact lastTells_of_window _ rfl
    ((window_sendOptions ..).trans (window_of_empty hbytes hnone flagAck (x.take maxBytes).conn.sendNext))

/-- Without an update, the peer is told if it was told before. -/
theorem Telling.take (h : Telling x) (maxBytes : ℕ)
    (hsilent : ¬ (x.conn.advertisedWindow = 0 ∧ 0 < (x.take maxBytes).conn.advertisedWindow ∧
      receivesData x.conn.state)) (hok : ReadTells maxBytes x) : Telling (x.take maxBytes) := by
  have hcounted := counted_take h.counted maxBytes
  have hkeeps (hqueue : x.conn.receiveQueue = []) : (x.take maxBytes).conn.receiveQueue = [] := by
    show (takeFromQueue maxBytes x.conn.receiveQueue).2 = []
    rw [hqueue, takeFromQueue]
  refine ⟨hcounted, fun ho => hkeeps (h.nothingYet ho), fun hstate hdrained => ?_⟩
  obtain ⟨hempty, hnone, hidle⟩ := hdrained
  by_cases hqueue : x.conn.receiveQueue = []
  · exact h.told hstate ⟨hqueue, hnone, hidle⟩
  · have hreceives : receivesData x.conn.state :=
      hstate.resolve_right fun ho => hqueue (h.nothingYet ho)
    rcases hok hreceives hqueue ⟨hempty, hnone, hidle⟩ with hshut | htold
    · -- the window was shut and is open now: there would have been an update
      have hbytes : (x.take maxBytes).conn.receiveQueuedBytes = 0 := by
        rw [hcounted, hempty]
        rfl
      exact absurd ⟨hshut, advertisedWindow_of_empty hbytes hnone, hreceives⟩ hsilent
    · exact htold

/-- **`read` keeps the peer told exactly if it meets the condition.** -/
theorem Telling.read (h : Telling x) (maxBytes : ℕ) : (ReadTells maxBytes x → Telling (x.read maxBytes)) ∧
      ((x.read maxBytes).Told → ReadTells maxBytes x) := by
  obtain ⟨hshut, heq⟩ | ⟨hsilent, heq⟩ := read_cases maxBytes x
  · rw [heq]
    exact ⟨fun _ => h.update maxBytes hshut.2.2, fun _ _ _ _ => .inl hshut.1⟩
  · rw [heq]
    exact ⟨h.take maxBytes hsilent, fun htold hstate _ hdrained => .inr (htold hstate hdrained)⟩

/-! ### Whole runs -/

/-- The condition on an event: only `read` has one. -/
def Event.tells : Event → Session → Prop
  | .read maxBytes, x => ReadTells maxBytes x
  | _, _ => True

instance (maxBytes : ℕ) (x : Session) : Decidable (ReadTells maxBytes x) :=
  inferInstanceAs (Decidable (_ → _))

instance : (e : Event) → (x : Session) → Decidable (e.tells x)
  | .read maxBytes, x => inferInstanceAs (Decidable (ReadTells maxBytes x))
  | .segment _, _ | .timePassed _, _ | .send _, _ | .close, _ | .setKeepalive _, _
  | .reduceEffectiveMss _, _ | .fail, _ => isTrue trivial

theorem Telling.isTold (h : Telling x) : x.Told := fun hstate => h.told (.inl hstate)

theorem Telling.run (h : Telling x) (he : e.run x = some y) :
    (e.tells x → Telling y) ∧ (y.Told → e.tells x) := by
  by_cases hread : ∃ maxBytes, e = .read maxBytes
  · obtain ⟨maxBytes, rfl⟩ := hread
    exact Option.some.inj he ▸ h.read maxBytes
  · have hy : Telling y := Steps.preserves
      (fun _ _ heff hx => hx.effect (fun n hn => hread ⟨n, hn⟩) heff) (Event.run_steps he) h
    have htrivial : e.tells x := by
      cases e with
      | read maxBytes => exact absurd ⟨maxBytes, rfl⟩ hread
      | _ => trivial
    exact ⟨fun _ => hy, fun _ => htrivial⟩

end Telling

theorem telling_open (o : Opener) (localPort remotePort : UInt16) (initialSeq : UInt32)
    (localMss : UInt16) (algorithm : CongestionControlAlgorithm) :
    Telling (o.run (.fresh localPort remotePort initialSeq localMss algorithm)) := by
  cases o with
  | active =>
    refine ⟨rfl, fun _ => rfl, fun _ _ => ?_⟩
    exact lastTells_of_window [] rfl
      ((window_sendOptions ..).trans (window_of_empty rfl rfl flagSyn initialSeq))
  | passive options =>
    refine ⟨rfl, fun _ => rfl, fun _ _ => ?_⟩
    exact lastTells_of_window [] rfl
      ((window_sendOptions ..).trans (window_of_empty rfl rfl (flagSyn ||| flagAck) initialSeq))

/-- **A drained receiver has told its peer.**  In every run whose reads meet the
condition the last segment sent offers room for a full segment whenever nothing
is buffered and no ack is pending; and the first `read` that does not meet the
condition leaves the peer with a window that is too small. -/
theorem drained_receiver_has_told (o : Opener) (localPort remotePort : UInt16) (initialSeq : UInt32)
    (localMss : UInt16) (algorithm : CongestionControlAlgorithm) (events : List Event) {y : Session}
    (htells : Along Event.run Event.tells events
      (o.run (.fresh localPort remotePort initialSeq localMss algorithm)))
    (h : runs Event.run events (o.run (.fresh localPort remotePort initialSeq localMss algorithm)) =
      some y) :
    y.Told ∧ ∀ (e : Event) (z : Session), e.run y = some z → (z.Told ↔ e.tells y) := by
  have hy : Telling y := runs_invariant (fun _ _ _ hs hok hst => (Telling.run hs hst).1 hok)
    (telling_open ..) htells h
  refine ⟨hy.isTold, fun e z hz => ⟨(hy.run hz).2, fun hok => ((hy.run hz).1 hok).isTold⟩⟩

/-- Three bytes arrive, are acknowledged and read. -/
theorem drained_receiver_has_told_delayed_ack :
    ∃ y, runs Event.run
        [.segment (Tcp.ofFlags 9000 80 8 101 5 flagAck 1000 0 0),
          .segment ((Tcp.ofFlags 9000 80 8 101 5 flagAck 1000 0 0).carrying [1, 2, 3]), .timePassed 200,
          .read 10]
        ((Opener.passive { peerIsn := 7 }).run (.fresh 80 9000 100 4 .reno)) = some y ∧
      y.conn.drained ∧ y.Told :=
  ⟨_, rfl, by decide +kernel,
    (drained_receiver_has_told (.passive { peerIsn := 7 }) 80 9000 100 4 .reno
      [.segment (Tcp.ofFlags 9000 80 8 101 5 flagAck 1000 0 0),
        .segment ((Tcp.ofFlags 9000 80 8 101 5 flagAck 1000 0 0).carrying [1, 2, 3]), .timePassed 200,
        .read 10] (by decide +kernel) rfl).1⟩

/-- Two segments of 40000 bytes are acknowledged together with a window of 51072,
and then read.  The window was not zero, so no update goes out, and a peer with a
segment of 60000 bytes in its queue is not told that there is room. -/
theorem read_leaves_a_small_window :
    ∃ y, runs Event.run
        [.segment (Tcp.ofFlags 9000 80 8 101 5 flagAck 1000 0 0),
          .segment ((Tcp.ofFlags 9000 80 8 101 5 flagAck 1000 0 0).carrying (List.replicate 40000 0)),
          .segment ((Tcp.ofFlags 9000 80 40008 101 5 flagAck 1000 0 0).carrying (List.replicate 40000 0)),
          .read 80000]
        ((Opener.passive { peerIsn := 7 }).run (.fresh 80 9000 100 60000 .reno)) = some y ∧
      y.conn.state = .established ∧ y.conn.drained ∧ ¬ y.Told := by
  refine ⟨_, rfl, ?_⟩
  decide +kernel

end TcpIpStack
