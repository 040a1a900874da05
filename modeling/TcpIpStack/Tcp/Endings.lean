/-
# How a connection ends

Three things should be final: a reset that is not acceptable changes nothing,
nothing follows the peer's FIN, and nothing follows `CLOSED`.

`on_segment` looks at the sequence number of a reset in six of the states and in
the others not at all (`blind_reset_iff`).  A FIN at `RCV.NXT` is counted again in
the three states after the first one where it is not expected
(`nothing_follows_fin`).  And `CLOSED` is where every other event has no effect,
but a reset and `fail` enter it again, `initiate_connect` leaves it, and the
segment that closes the connection goes on to its own FIN
(`closed_is_final_iff`).
-/

import TcpIpStack.Tcp.FinExchange
import TcpIpStack.Tcp.Inbox
import TcpIpStack.Tcp.Transitions

namespace TcpIpStack

open TcpConnection Session Runs

/-! ### Resets -/

/-- A reset that RFC 793 lets through: in `SYN_SENT` it acknowledges our SYN, later
it lies in the receive window. -/
def rstAcceptable (t : Tcp) (c : TcpConnection) : Bool :=
  match c.state with
  | .listen | .closed => false
  | .synSent => t.ack && t.acknowledgementNumber = c.sendNext
  | _ => c.seqInReceiveWindow t.sequenceNumber

/-- The states in which `on_segment` looks at the sequence number of a reset. -/
def checksReset : TcpState → Bool
  | .established | .finWait1 | .finWait2 | .closeWait | .closing | .lastAck => true
  | _ => false

/-- A reset ends the connection, out of the window in a state that checks apart. -/
theorem state_of_rst {t : Tcp} {x : Session} (hrst : t.rst) : (x.onSegment t).conn.state =
      if checksReset x.conn.state ∧ ¬ x.conn.seqInReceiveWindow t.sequenceNumber then x.conn.state
      else .closed := by
  have hstate : (x.noteArrival t).conn.state = x.conn.state := rfl
  have hwindow : (x.noteArrival t).conn.seqInReceiveWindow t.sequenceNumber =
      x.conn.seqInReceiveWindow t.sequenceNumber := rfl
  unfold onSegment dispatch handleRst
  rw [if_pos hrst, hstate, hwindow]
  dsimp only
  cases hx : x.conn.state <;> cases x.conn.seqInReceiveWindow t.sequenceNumber <;>
    simp [checksReset, transition, hstate, hx]

/-- **When a reset is harmless**: it is acceptable, or it finds the connection in
one of the states that look at it. -/
theorem blind_reset_iff (t : Tcp) (x : Session) (hrst : t.rst) (hopen : x.conn.state ≠ .closed) :
    ((x.onSegment t).conn.state ≠ x.conn.state → rstAcceptable t x.conn) ↔
      checksReset x.conn.state ∨ rstAcceptable t x.conn := by
  rw [state_of_rst hrst]
  cases hx : x.conn.state <;> cases hwindow : x.conn.seqInReceiveWindow t.sequenceNumber <;>
    simp_all [checksReset, rstAcceptable]

/-- A reset outside the window of an established connection is ignored. -/
theorem blind_reset_ignored :
    ∃ x, runs Event.run [.segment (Tcp.ofFlags 9000 80 8 101 5 flagAck 8 0 0)]
        ((Opener.passive { peerIsn := 7 }).run (.fresh 80 9000 100 4 .reno)) = some x ∧
      ((x.onSegment (Tcp.ofFlags 9000 80 900000 0 5 flagRst 0 0 0)).conn.state ≠ x.conn.state →
        rstAcceptable (Tcp.ofFlags 9000 80 900000 0 5 flagRst 0 0 0) x.conn) :=
  ⟨_, rfl, (blind_reset_iff (Tcp.ofFlags 9000 80 900000 0 5 flagRst 0 0 0) _ (by decide) (by decide)).2
    (.inl (by decide))⟩

/-- The same reset closes a connection that waits for the end of its handshake,
one that waits for a SYN-ACK, one that waits for ARP, and one in `TIME_WAIT`. -/
theorem blind_reset_closes :
    ∃ x, runs Event.run
        [.segment (Tcp.ofFlags 9000 80 8 101 5 flagAck 8 0 0), .close,
          .segment (Tcp.ofFlags 9000 80 8 102 5 (flagFin ||| flagAck) 8 0 0)]
        ((Opener.passive { peerIsn := 7 }).run (.fresh 80 9000 100 4 .reno)) = some x ∧
      x.conn.state = .timeWait ∧
      ∀ y ∈ [x, (Opener.passive { peerIsn := 7 }).run (.fresh 80 9000 100 4 .reno),
          Opener.active.run (.fresh 80 9000 100 4 .reno), .fresh 80 9000 100 4 .reno],
        (y.onSegment (Tcp.ofFlags 9000 80 900000 0 5 flagRst 0 0 0)).conn.state ≠ y.conn.state ∧
          rstAcceptable (Tcp.ofFlags 9000 80 900000 0 5 flagRst 0 0 0) y.conn = false :=
  ⟨_, rfl, by decide +kernel, by decide +kernel⟩

/-! ### Between two states -/

/-- From `x` to `y` no state is entered. -/
structure Still (x y : Session) : Prop where
  state : y.conn.state = x.conn.state
  entered : y.entered = x.entered
  calls : ∃ calls, y.sent = x.sent ++ calls ∧ ∀ call ∈ calls, call.entered = x.entered

section Still

variable {x y z : Session} {t : Tcp}

theorem Still.of_conn (hstate : y.conn.state = x.conn.state) (hentered : y.entered = x.entered)
    (hsent : y.sent = x.sent) : Still x y :=
  ⟨hstate, hentered, [], by rw [hsent, List.append_nil], fun _ hcall => absurd hcall List.not_mem_nil⟩

theorem Still.refl (x : Session) : Still x x := .of_conn rfl rfl rfl

theorem Still.of_call {call : Call} (hstate : y.conn.state = x.conn.state)
    (hentered : y.entered = x.entered) (hsent : y.sent = x.sent ++ [call])
    (hcall : call.entered = x.entered) : Still x y := by
  refine ⟨hstate, hentered, [call], hsent, fun other hother => ?_⟩
  rwa [List.mem_singleton.1 hother]

theorem Still.trans (h : Still x y) (h' : Still y z) : Still x z := by
  obtain ⟨calls, hsent, hcalls⟩ := h.calls
  obtain ⟨calls', hsent', hcalls'⟩ := h'.calls
  refine ⟨h'.state.trans h.state, h'.entered.trans h.entered, calls ++ calls',
    by rw [hsent', hsent, List.append_assoc], fun call hcall => ?_⟩
  rcases List.mem_append.1 hcall with hcall | hcall
  · exact hcalls call hcall
  · exact (hcalls' call hcall).trans h.entered

theorem still_sendFlags (flags : UInt8) (payload : Bytes) (includeAck : Bool) (x : Session) :
    Still x (x.sendFlags flags payload includeAck) := .of_call rfl rfl rfl rfl

theorem still_sendPureAck (x : Session) : Still x x.sendPureAck := .of_call rfl rfl rfl rfl

theorem still_armOrDisarmPersist (x : Session) : Still x (x.modify (·.armOrDisarmPersist)) := by
  unfold Session.modify armOrDisarmPersist
  dsimp only
  split_ifs <;> exact .of_conn rfl rfl rfl

theorem still_retireAcked (t : Tcp) (x : Session) : Still x (x.retireAcked t) :=
  .of_conn (congrArg Core.state (core_retireAcked t x)) rfl rfl

theorem still_afterNewAck (tally : AckTally) (x : Session) : Still x (x.modify (afterNewAck tally)) := by
  unfold Session.modify afterNewAck
  split <;> exact .of_conn rfl rfl rfl

theorem still_noteAck (t : Tcp) (x : Session) : Still x (x.modify (noteAck t)) :=
  .of_conn (applySackBlocks_state t x.conn) rfl rfl

theorem still_ack : AckFrame True Still where
  refl := .refl
  trans := .trans
  front _ _ _ := .of_call rfl rfl rfl rfl
  persist := still_armOrDisarmPersist
  note := still_noteAck
  count _ := .of_conn rfl rfl rfl
  inflate _ := .of_conn rfl rfl rfl
  fast _ _ := .of_call rfl rfl rfl rfl
  clear _ := .of_conn rfl rfl rfl
  after := still_afterNewAck

theorem still_data : DataFrame Still where
  toFrame := still_ack.toFrame
  pureAck := still_sendPureAck
  hold _ := .of_conn rfl rfl rfl
  deliver _ _ := .of_conn rfl rfl rfl
  unblock _ _ := .of_conn rfl rfl rfl
  buffer _ _ _ := by
    unfold Session.modify bufferOutOfOrder
    split_ifs <;> exact .of_conn rfl rfl rfl

theorem still_recordTimestamp (t : Tcp) (x : Session) : Still x (x.modify (recordTimestamp t)) := by
  unfold Session.modify recordTimestamp
  split
  · split_ifs <;> exact .of_conn rfl rfl rfl
  · exact .refl x

theorem still_runDelayedAck (elapsedMs : UInt32) (x : Session) : Still x (x.runDelayedAck elapsedMs) := by
  unfold runDelayedAck
  dsimp only
  split_ifs
  · exact .of_call rfl rfl rfl rfl
  · exact .of_conn rfl rfl rfl
  · exact .refl x

theorem still_runPersist (elapsedMs : UInt32) (x : Session) : Still x (x.runPersist elapsedMs) := by
  unfold runPersist sendZeroWindowProbe
  split_ifs
  · split
    · exact .of_conn rfl rfl rfl
    · exact .of_call rfl rfl rfl rfl
  · exact .of_conn rfl rfl rfl

theorem still_placeChunk (chunk : Bytes) (x : Session) : Still x (x.placeChunk chunk) := by
  unfold placeChunk
  dsimp only
  split_ifs
  · exact .of_conn rfl rfl rfl
  · exact .of_call rfl rfl rfl rfl

end Still

/-- From `x` to `y` `CLOSED` is the end: no state is entered after it, and no
segment sent. -/
def Orderly (x y : Session) : Prop :=
  ∃ l calls, y.entered = x.entered ++ l ∧ y.conn.state = l.getLast?.getD x.conn.state ∧
    .closed ∉ l.dropLast ∧ y.sent = x.sent ++ calls ∧
    ∀ call ∈ calls, ∃ l', call.entered = x.entered ++ l' ∧ .closed ∉ l'

section Orderly

variable {x y z : Session} {t : Tcp}

theorem Still.orderly (h : Still x y) : Orderly x y := by
  obtain ⟨calls, hsent, hcalls⟩ := h.calls
  exact ⟨[], calls, by rw [h.entered, List.append_nil], h.state, by simp, hsent,
    fun call hcall => ⟨[], by rw [hcalls call hcall, List.append_nil], by simp⟩⟩

/-- A list whose last state is not `CLOSED` does not have it before either. -/
theorem closed_notMem {l : List TcpState} {s : TcpState} (h : .closed ∉ l.dropLast)
    (hlast : l.getLast?.getD s ≠ .closed) : .closed ∉ l := by
  rcases List.eq_nil_or_concat l with rfl | ⟨front, last, rfl⟩
  · simp
  · rw [List.concat_eq_append, List.dropLast_concat] at h
    rw [List.concat_eq_append, List.getLast?_concat, Option.getD_some] at hlast
    rw [List.concat_eq_append, List.mem_append, List.mem_singleton]
    exact not_or.2 ⟨h, fun heq => hlast heq.symm⟩

/-- The end may come in the second of two steps only. -/
theorem Orderly.trans (h : Orderly x y) (hopen : y.conn.state ≠ .closed) (h' : Orderly y z) : Orderly x z := by
  obtain ⟨l, calls, hentered, hstate, hl, hsent, hcalls⟩ := h
  obtain ⟨l', calls', hentered', hstate', hl', hsent', hcalls'⟩ := h'
  have hbefore : .closed ∉ l := closed_notMem hl (hstate ▸ hopen)
  refine ⟨l ++ l', calls ++ calls', by rw [hentered', hentered, List.append_assoc], ?_, ?_,
    by rw [hsent', hsent, List.append_assoc], fun call hcall => ?_⟩
  · rw [hstate', hstate, List.getLast?_append, Option.getD_or]
  · rcases List.eq_nil_or_concat l' with rfl | ⟨front, last, rfl⟩
    · rwa [List.append_nil]
    · rw [List.concat_eq_append, List.dropLast_concat] at hl'
      rw [List.concat_eq_append, ← List.append_assoc, List.dropLast_concat, List.mem_append]
      exact not_or.2 ⟨hbefore, hl'⟩
  · rcases List.mem_append.1 hcall with hcall | hcall
    · exact hcalls call hcall
    · obtain ⟨later, heq, hlater⟩ := hcalls' call hcall
      exact ⟨l ++ later, by rw [heq, hentered, List.append_assoc], by simp [hbefore, hlater]⟩

theorem Orderly.still (h : Orderly x y) (hopen : y.conn.state ≠ .closed) (h' : Still y z) :
    Orderly x z := h.trans hopen h'.orderly

theorem Still.orderly_trans (h : Still x y) (hopen : x.conn.state ≠ .closed) (h' : Orderly y z) :
    Orderly x z := h.orderly.trans (h.state ▸ hopen) h'

theorem orderly_transition (newState : TcpState) (x : Session) : Orderly x (x.transition newState) :=
  ⟨[newState], [], rfl, rfl, by simp, by simp [transition], by simp⟩

theorem orderly_close (x : Session) : Orderly x x.close := by
  unfold close
  split_ifs
  · exact (Still.refl x).orderly
  · exact (Still.of_conn rfl rfl rfl).orderly
  all_goals
    exact Orderly.still (orderly_transition _ x) (by simp [transition]) (still_sendFlags ..)

/-! ### A segment -/

theorem orderly_ends (h : AckEnds x y) (hopen : x.conn.state ≠ .closed) : Orderly x y := by
  cases h with
  | stop => exact (Still.refl x).orderly
  | acked newState => exact ⟨[newState], [], rfl, rfl, by simp, (List.append_nil _).symm, by simp⟩
  | close _ _ _ =>
    exact Still.orderly_trans (y := x.modify fun c => { c with finRequested := false }) (.of_conn rfl rfl rfl)
      hopen (orderly_close _)

theorem orderly_handleAck (t : Tcp) (hopen : x.conn.state ≠ .closed) : Orderly x (x.handleAck t) := by
  obtain ⟨y, hy, hend⟩ := still_ack.handleAck (x := x) (still_retireAcked t) fun _ => trivial
  exact hy.orderly_trans hopen (orderly_ends hend (hy.state ▸ hopen))

theorem orderly_ackStage (t : Tcp) (hopen : x.conn.state ≠ .closed) : Orderly x (x.ackStage t) := by
  have hstamped := still_recordTimestamp t x
  refine hstamped.orderly_trans hopen ?_
  unfold ackStage
  dsimp only
  split_ifs
  · exact orderly_handleAck t (hstamped.state ▸ hopen)
  · exact (Still.refl _).orderly

theorem still_payloadStage (t : Tcp) (x : Session) : Still (x.ackStage t) (x.payloadStage t) := by
  unfold payloadStage
  dsimp only
  split_ifs
  · exact still_data.handlePayload ..
  · exact .refl _

theorem orderly_consumeFin (hopen : x.conn.state ≠ .closed) : Orderly x x.consumeFin := by
  have hpast : Still x (x.modify advancePastFin) := .of_conn rfl rfl rfl
  unfold consumeFin
  split
  · exact hpast.orderly_trans hopen
      (Orderly.still (orderly_transition .closeWait _) (by simp [transition]) (still_sendPureAck _))
  · refine (hpast.trans (still_sendPureAck _)).orderly_trans hopen ?_
    exact Orderly.still (orderly_transition .timeWait _) (by simp [transition]) (.of_conn rfl rfl rfl)
  · exact (hpast.trans (still_sendPureAck _)).orderly_trans hopen (orderly_transition ..)
  · exact hpast.orderly

theorem orderly_handleFin (finSeq : UInt32) (hopen : x.conn.state ≠ .closed) :
    Orderly x (x.handleFin finSeq) := by
  unfold handleFin
  split_ifs
  · exact ((still_sendPureAck x).trans (.of_conn rfl rfl rfl)).orderly
  · exact (still_sendPureAck x).orderly
  · exact orderly_consumeFin hopen

end Orderly

/-! ### After the peer's FIN -/

/-- The segment has a FIN that takes up a sequence number. -/
def TakesFin (t : Tcp) (x : Session) : Prop :=
  t.rst = false ∧ handlesAcks x.conn.state ∧ pawsRejects x.conn t = false ∧ t.fin ∧
    ((x.noteArrival t).payloadStage t).conn.state ≠ .timeWait ∧
    t.sequenceNumber + UInt32.ofNat t.payload.length = ((x.noteArrival t).payloadStage t).conn.recvNext

/-- The states after the peer's FIN, and the end. -/
def ended (state : TcpState) : Bool := peerFinished state || state = .closed

/-- A FIN at `RCV.NXT` in a state after the peer's FIN, `TIME_WAIT` apart. -/
def FinAgain (t : Tcp) (c : TcpConnection) : Prop :=
  t.rst = false ∧ t.fin ∧ pawsRejects c t = false ∧
    t.sequenceNumber + UInt32.ofNat t.payload.length = c.recvNext ∧
    (c.state = .closeWait ∨ c.state = .closing ∨ c.state = .lastAck)

instance (t : Tcp) (c : TcpConnection) : Decidable (FinAgain t c) :=
  inferInstanceAs (Decidable (_ ∧ _ ∧ _ ∧ _ ∧ _))

/-- Such a FIN arrives. -/
def Event.repeatsFin : Event → Session → Prop
  | .segment t, x => FinAgain t x.conn
  | _, _ => False

instance (e : Event) (x : Session) : Decidable (e.repeatsFin x) :=
  match e with
  | .segment _ => inferInstanceAs (Decidable (FinAgain _ _))
  | .timePassed _ | .send _ | .read _ | .close | .setKeepalive _ | .reduceEffectiveMss _ | .fail =>
    isFalse id

section AfterFin

variable {e : Event} {s₀ : TcpState} {x y : Session} {t : Tcp}

theorem onSegment_of_takesFin (h : TakesFin t x) :
    x.onSegment t = ((x.noteArrival t).payloadStage t).consumeFin := by
  obtain ⟨hrst, hacks, hpaws, hfin, hwait, hseq⟩ := h
  have hpaws' : pawsRejects (x.noteArrival t).conn t = false := hpaws
  rw [onSegment_of_handlesAcks hacks hrst, handleSynchronized_eq hpaws', if_pos hfin, handleFin,
    if_neg hwait, if_neg (not_not.2 hseq)]

theorem receivesData_consumeFin (x : Session) : receivesData x.consumeFin.conn.state = false := by
  unfold consumeFin
  split
  · rfl
  · rfl
  · rfl
  · next h₁ h₂ h₃ =>
    have hnot : ¬ receivesData x.conn.state := by
      simp only [receivesData, Bool.or_eq_true, decide_eq_true_eq]
      exact fun h => h.elim (fun h => h.elim h₁ h₃) h₂
    exact Bool.eq_false_iff.2 hnot

/-- The states that follow the handshake. -/
def synchronized (state : TcpState) : Bool := receivesData state || ended state

theorem Effect.synchronized (he : Effect e s₀ x y) (h : synchronized x.conn.state) :
    synchronized y.conn.state := by
  rcases he.transition_cases with ⟨hsame, -⟩ | ⟨-, hclosed | ⟨hedge, -⟩ | ⟨hedge, -⟩⟩
  · rwa [hsame]
  · rw [hclosed]
    rfl
  · have hall : ∀ p ∈ ownEdges, TcpIpStack.synchronized p.2 := by decide
    exact hall _ hedge
  · have hall : ∀ p ∈ peerEdges, TcpIpStack.synchronized p.2 := by decide
    exact hall _ hedge

theorem Event.run_synchronized (he : e.run x = some y) (h : synchronized x.conn.state) :
    synchronized y.conn.state :=
  (Event.run_steps he).preserves (P := fun z => TcpIpStack.synchronized z.conn.state)
    (fun _ _ heff hz => heff.synchronized hz) h

theorem ended_of_takesFin (h : TakesFin t x) (hlisten : x.conn.state ≠ .listen) :
    ended (x.onSegment t).conn.state := by
  have hsync : synchronized x.conn.state := by
    obtain ⟨-, ⟨hsent, hreceived, hclosed⟩, -⟩ := h
    cases hx : x.conn.state <;> first | rfl | contradiction
  have hafter := Event.run_synchronized (e := .segment t) rfl hsync
  rw [onSegment_of_takesFin h] at hafter ⊢
  simpa [synchronized, receivesData_consumeFin] using hafter

/-- What is delivered grows in the states that receive data, and only there. -/
theorem Effect.delivered_eq (he : Effect e s₀ x y) (h : receivesData x.conn.state = false) :
    y.delivered = x.delivered := by
  have hsame {y : Session} (hreturned : y.returned = x.returned)
      (hqueue : y.conn.receiveQueue = x.conn.receiveQueue) : y.delivered = x.delivered := by
    rw [delivered, hreturned, hqueue, ← delivered]
  cases he with
  | quiet c hcore => exact hsame rfl (congrArg Core.receiveQueue hcore).symm
  | scoreboard t =>
    obtain ⟨flight, bytes, heq⟩ := applySackBlocks_eq t x.conn
    exact hsame rfl (congrArg TcpConnection.receiveQueue heq :)
  | place chunk =>
    unfold placeChunk
    dsimp only
    split_ifs <;> exact hsame rfl rfl
  | slide t =>
    have hqueue := congrArg Core.receiveQueue (core_retireAcked t x)
    unfold Session.slide
    split <;> exact hsame rfl hqueue
  | consumeFin =>
    unfold Session.consumeFin
    split <;> exact hsame rfl rfl
  | buffer t _ hreceives | deliver t _ hreceives | unblock _ hreceives =>
    rw [h] at hreceives
    cases hreceives
  | lowerMss pathMss =>
    refine hsame rfl ?_
    show (reduceEffectiveMss pathMss x.conn).receiveQueue = _
    unfold reduceEffectiveMss
    dsimp only
    split_ifs <;> rfl
  | take maxBytes => exact delivered_take maxBytes x
  | receive | ack | holdAck | probe | keepalive | retransmit | drain | fin | window | establishActive
  | establishPassive | abort => exact hsame rfl rfl

theorem Effect.ended (he : Effect e s₀ x y) (h : ended x.conn.state) : TcpIpStack.ended y.conn.state := by
  rcases he.transition_cases with ⟨hsame, -⟩ | ⟨-, hclosed | ⟨hedge, -⟩ | ⟨hedge, -⟩⟩
  · rwa [hsame]
  · rw [hclosed]
    rfl
  · have hall : ∀ p ∈ ownEdges, TcpIpStack.ended p.1 → TcpIpStack.ended p.2 := by decide
    exact hall _ hedge h
  · have hall : ∀ p ∈ peerEdges, TcpIpStack.ended p.2 := by decide
    exact hall _ hedge

theorem receivesData_of_ended {state : TcpState} (h : ended state) : receivesData state = false := by
  cases state <;> first | rfl | contradiction

theorem Event.run_ended (he : e.run x = some y) (h : ended x.conn.state) :
    ended y.conn.state ∧ y.delivered = x.delivered :=
  (Event.run_steps he).preserves
    (P := fun z => TcpIpStack.ended z.conn.state ∧ z.delivered = x.delivered)
    (fun _ _ heff hz => ⟨heff.ended hz.1,
      (heff.delivered_eq (receivesData_of_ended hz.1)).trans hz.2⟩) ⟨h, rfl⟩

theorem state_close (x : Session) :
    x.close.conn.state = x.conn.state ∨ (x.conn.state, x.close.conn.state) ∈ ownEdges := by
  unfold close
  split_ifs with hnot hwaiting hstate
  · exact .inl rfl
  · exact .inl rfl
  · exact .inr (by simp [hstate, sendFlags, sendSegment, transition, Session.modify, recordSent, ownEdges])
  · have hwait : x.conn.state = .closeWait := by
      by_contra hne
      exact hnot ⟨hstate, hne⟩
    exact .inr (by simp [hwait, sendFlags, sendSegment, transition, Session.modify, recordSent, ownEdges])

theorem state_ends (h : AckEnds x y) :
    y.conn.state = x.conn.state ∨ (x.conn.state, y.conn.state) ∈ (.lastAck, .closed) :: ownEdges := by
  cases h with
  | stop => exact .inl rfl
  | acked newState _ hnew =>
    refine .inr (?_ : (x.conn.state, newState) ∈ _)
    rcases finAckedState_cases hnew with ⟨hx, rfl⟩ | ⟨hx, rfl⟩ | ⟨hx, rfl⟩ <;> simp [hx, ownEdges]
  | close _ _ _ =>
    exact (state_close (x.modify fun c => { c with finRequested := false })).imp_right
      (List.mem_cons_of_mem _)

theorem state_handleAck (t : Tcp) (x : Session) : (x.handleAck t).conn.state = x.conn.state ∨
      (x.conn.state, (x.handleAck t).conn.state) ∈ (.lastAck, .closed) :: ownEdges := by
  obtain ⟨y, hy, hend⟩ := still_ack.handleAck (x := x) (still_retireAcked t) fun _ => trivial
  rw [← hy.state]
  exact state_ends hend

theorem state_ackStage (t : Tcp) (x : Session) : (x.ackStage t).conn.state = x.conn.state ∨
      (x.conn.state, (x.ackStage t).conn.state) ∈ (.lastAck, .closed) :: ownEdges := by
  have hstamped := still_recordTimestamp t x
  unfold ackStage
  dsimp only
  rw [← hstamped.state]
  split_ifs
  · exact state_handleAck t _
  · exact .inl rfl

/-- In `TIME_WAIT` an ack changes no state. -/
theorem state_ackStage_timeWait (h : x.conn.state = .timeWait) : (x.ackStage t).conn.state = .timeWait := by
  rcases state_ackStage t x with hsame | hedge
  · rw [hsame, h]
  · have hall : ∀ p ∈ (TcpState.lastAck, TcpState.closed) :: ownEdges, p.1 ≠ .timeWait := by decide
    exact absurd h (hall _ hedge)

theorem recvNext_arrive (i : Inbox) (t : Tcp) : (i.arrive t false false).recvNext = i.recvNext := by
  unfold Inbox.arrive
  rw [if_neg Bool.false_ne_true, if_neg (fun h => Bool.false_ne_true h.1)]
  exact (Inbox.stamp_same t i).2.2.2

/-- `TIME_WAIT` takes nothing in. -/
theorem recvNext_of_timeWait (t : Tcp) (h : x.conn.state = .timeWait) :
    (x.onSegment t).conn.recvNext = x.conn.recvNext := by
  have hacks : handlesAcks x.conn.state := by simp [handlesAcks, h]
  have hrecv (z : Session) : z.conn.inbox.recvNext = z.conn.recvNext := rfl
  cases hrst : t.rst with
  | true =>
    unfold onSegment dispatch handleRst
    rw [if_pos hrst]
    dsimp only
    split_ifs <;> rfl
  | false =>
    rw [onSegment_of_handlesAcks hacks hrst]
    cases hpaws : pawsRejects (x.noteArrival t).conn t with
    | true =>
      unfold handleSynchronized
      rw [if_pos hpaws]
      rfl
    | false =>
      have hstage : ((x.noteArrival t).payloadStage t).conn.recvNext = x.conn.recvNext := by
        rw [← hrecv, inbox_payloadStage, show receivesData (x.noteArrival t).conn.state = false by
          rw [show (x.noteArrival t).conn.state = .timeWait from h]; rfl, recvNext_arrive]
        rfl
      have hstate : ((x.noteArrival t).payloadStage t).conn.state = .timeWait :=
        (still_payloadStage t _).state.trans (state_ackStage_timeWait h)
      rw [handleSynchronized_eq hpaws, handleFin, if_pos hstate]
      split_ifs <;> exact hstage

/-- After the peer's FIN only another FIN at `RCV.NXT` moves it. -/
theorem Event.run_recvNext (he : e.run x = some y) (h : ended x.conn.state) (hfin : ¬ e.repeatsFin x) :
    y.conn.recvNext = x.conn.recvNext := by
  have hreceives := receivesData_of_ended h
  have hmove := Event.run_inbox he
  have hrecv (z : Session) : z.conn.recvNext = z.conn.inbox.recvNext := rfl
  rw [hrecv y, hrecv x]
  by_cases hwait : x.conn.state = .timeWait ∧ ∃ t, e = .segment t
  · obtain ⟨hwait, t, rfl⟩ := hwait
    exact Option.some.inj he ▸ recvNext_of_timeWait t hwait
  · generalize y.conn.inbox = i at hmove ⊢
    cases hmove with
    | same => rfl
    | tick => rfl
    | take => rfl
    | establish t _ hsent =>
      rw [hsent] at h
      cases h
    | arrive t fin ht hacks hrst hpaws hseq =>
      rw [hreceives]
      cases fin with
      | false => exact recvNext_arrive ..
      | true =>
        -- a FIN that counts is one that follows the first
        subst ht
        obtain ⟨htfin, hat⟩ := hseq rfl
        rw [hreceives, recvNext_arrive] at hat
        refine absurd ⟨hrst, htfin, hpaws, hat, ?_⟩ hfin
        have hne : x.conn.state ≠ .timeWait := fun heq => hwait ⟨heq, t, rfl⟩
        obtain ⟨hsent, hreceived, hclosed⟩ := hacks
        cases hx : x.conn.state <;> simp_all [ended, peerFinished]

/-- **Nothing follows the peer's FIN**, as long as no other FIN is found at
`RCV.NXT`: `RCV.NXT` does not change, and nothing is delivered any more. -/
theorem nothing_follows_fin (t : Tcp) (x : Session) (events : List Event) {y : Session}
    (hlisten : x.conn.state ≠ .listen) (hfin : TakesFin t x)
    (hlater : Along Event.run (fun e z => ¬ e.repeatsFin z) events (x.onSegment t))
    (h : runs Event.run events (x.onSegment t) = some y) :
    y.conn.recvNext = (x.onSegment t).conn.recvNext ∧ y.delivered = (x.onSegment t).delivered := by
  refine (runs_invariant (I := fun z => ended z.conn.state ∧
    z.conn.recvNext = (x.onSegment t).conn.recvNext ∧ z.delivered = (x.onSegment t).delivered)
    (fun e z w hz hno he => ?_) ⟨ended_of_takesFin hfin hlisten, rfl, rfl⟩ hlater h).2
  obtain ⟨hended, hnext, hdelivered⟩ := hz
  obtain ⟨hended', hdelivered'⟩ := Event.run_ended he hended
  exact ⟨hended', (Event.run_recvNext he hended hno).trans hnext, hdelivered'.trans hdelivered⟩

/-- The FIN is consumed, comes again, and data follows it. -/
theorem nothing_follows_fin_duplicate :
    ∃ x y, runs Event.run [.segment (Tcp.ofFlags 9000 80 8 101 5 flagAck 8 0 0)]
        ((Opener.passive { peerIsn := 7 }).run (.fresh 80 9000 100 4 .reno)) = some x ∧
      runs Event.run
        [.segment (Tcp.ofFlags 9000 80 8 101 5 (flagFin ||| flagAck) 8 0 0),
          .segment ((Tcp.ofFlags 9000 80 9 101 5 flagAck 8 0 0).carrying [1, 2]), .close]
        (x.onSegment (Tcp.ofFlags 9000 80 8 101 5 (flagFin ||| flagAck) 8 0 0)) = some y ∧
      y.conn.recvNext = (x.onSegment (Tcp.ofFlags 9000 80 8 101 5 (flagFin ||| flagAck) 8 0 0)).conn.recvNext ∧
      y.delivered = (x.onSegment (Tcp.ofFlags 9000 80 8 101 5 (flagFin ||| flagAck) 8 0 0)).delivered :=
  ⟨_, _, (Option.some_get (by decide +kernel)).symm, (Option.some_get (by decide +kernel)).symm,
    nothing_follows_fin _ _ _ (by decide)
      ⟨by decide, ⟨by decide, by decide, by decide⟩, by decide +kernel, by decide, by decide +kernel,
        by decide +kernel⟩ (by decide +kernel) (Option.some_get _).symm⟩

/-- A second FIN right after the first is counted too. -/
theorem second_fin_counted :
    ∃ x y, runs Event.run [.segment (Tcp.ofFlags 9000 80 8 101 5 flagAck 8 0 0)]
        ((Opener.passive { peerIsn := 7 }).run (.fresh 80 9000 100 4 .reno)) = some x ∧
      TakesFin (Tcp.ofFlags 9000 80 8 101 5 (flagFin ||| flagAck) 8 0 0) x ∧
      runs Event.run [.segment (Tcp.ofFlags 9000 80 9 101 5 (flagFin ||| flagAck) 8 0 0)]
        (x.onSegment (Tcp.ofFlags 9000 80 8 101 5 (flagFin ||| flagAck) 8 0 0)) = some y ∧
      (x.onSegment (Tcp.ofFlags 9000 80 8 101 5 (flagFin ||| flagAck) 8 0 0)).conn.recvNext = 9 ∧
      y.conn.recvNext = 10 :=
  ⟨_, _, rfl, ⟨by decide, ⟨by decide, by decide, by decide⟩, by decide +kernel, by decide,
    by decide +kernel, by decide +kernel⟩, rfl, by decide +kernel, by decide +kernel⟩

end AfterFin

/-! ### `CLOSED` -/

/-- What can be done to a connection, its opening included. -/
inductive Act
  | event (e : Event)
  | opens (o : Opener)

def Act.run : Act → Session → Option Session
  | .event e, x => e.run x
  | .opens o, x => some (o.run x)

/-- The ack covers our FIN: it does not repeat `SND.UNA`, and of the segments in flight, from
the oldest on, those that end at or before it include the FIN. -/
def AcksFin (t : Tcp) (c : TcpConnection) : Prop :=
  t.ack ∧ ¬ (c.inFlight ≠ [] ∧ t.acknowledgementNumber = c.sndUna) ∧
    ((c.inFlight.takeWhile (coveredBy t.acknowledgementNumber)).any fun s => hasFlag s.flags flagFin) = true

instance (t : Tcp) (c : TcpConnection) : Decidable (AcksFin t c) :=
  inferInstanceAs (Decidable (_ = true ∧ ¬ (_ ≠ _ ∧ _ = _) ∧ _ = true))

/-- A segment that finds the connection in `LAST_ACK` and whose ack closes it, with a FIN
that is not at `RCV.NXT`. -/
def LateFin (t : Tcp) (x : Session) : Prop :=
  x.conn.state = .lastAck ∧ t.rst = false ∧ t.fin ∧ pawsRejects x.conn t = false ∧ AcksFin t x.conn ∧
    t.sequenceNumber + UInt32.ofNat t.payload.length ≠ x.conn.recvNext

instance (t : Tcp) (x : Session) : Decidable (LateFin t x) :=
  inferInstanceAs (Decidable (_ ∧ _ ∧ _ ∧ _ ∧ _ ∧ _))

/-- Once the connection is closed it is sent no reset, and `fail`,
`initiate_connect` and `accept_incoming_syn` are not called any more; and the
segment that closes it does not end with a late FIN. -/
def Act.respectsClosed : Act → Session → Prop
  | .event (.segment t), x => (x.conn.state = .closed → t.rst = false) ∧ ¬ LateFin t x
  | .event .fail, x => x.conn.state ≠ .closed
  | .event _, _ => True
  | .opens _, x => x.conn.state ≠ .closed

instance (a : Act) (x : Session) : Decidable (a.respectsClosed x) :=
  match a with
  | .event (.segment _) => inferInstanceAs (Decidable ((_ → _) ∧ ¬ LateFin _ _))
  | .event .fail | .opens _ => inferInstanceAs (Decidable (_ ≠ _))
  | .event (.timePassed _) | .event (.send _) | .event (.read _) | .event .close
  | .event (.setKeepalive _) | .event (.reduceEffectiveMss _) => isTrue trivial

/-- `CLOSED` is absorbing and silent: no segment was sent after it was entered, no
state was entered after it, and the connection is still in it. -/
structure ClosedIsFinal (x : Session) : Prop where
  silent : ∀ call ∈ x.sent, .closed ∉ call.entered
  last : .closed ∉ x.entered.dropLast
  stays : .closed ∈ x.entered ↔ x.conn.state = .closed

section Closed

variable {x y : Session} {t : Tcp} {e : Event} {a : Act}

theorem ClosedIsFinal.orderly (h : ClosedIsFinal x) (hopen : x.conn.state ≠ .closed) (hxy : Orderly x y) :
    ClosedIsFinal y := by
  obtain ⟨l, calls, hentered, hstate, hl, hsent, hcalls⟩ := hxy
  have hbefore : .closed ∉ x.entered := fun hmem => hopen (h.stays.1 hmem)
  refine ⟨fun call hcall => ?_, ?_, ?_⟩
  · rw [hsent] at hcall
    rcases List.mem_append.1 hcall with hcall | hcall
    · exact h.silent call hcall
    · obtain ⟨l', heq, hl'⟩ := hcalls call hcall
      rw [heq, List.mem_append]
      exact not_or.2 ⟨hbefore, hl'⟩
  · rcases List.eq_nil_or_concat l with rfl | ⟨front, last, rfl⟩
    · rw [hentered, List.append_nil]
      exact h.last
    · rw [List.concat_eq_append, List.dropLast_concat] at hl
      rw [hentered, List.concat_eq_append, ← List.append_assoc, List.dropLast_concat, List.mem_append]
      exact not_or.2 ⟨hbefore, hl⟩
  · rw [hentered, List.mem_append, hstate]
    constructor
    · rintro (hmem | hmem)
      · exact absurd hmem hbefore
      · by_contra hne
        exact closed_notMem hl hne hmem
    · intro heq
      cases hlast : l.getLast? with
      | none => exact absurd (by simpa [hlast] using heq) hopen
      | some s =>
        rw [hlast, Option.getD_some] at heq
        exact .inr (heq ▸ List.mem_of_getLast? hlast)

theorem closedIsFinal_fresh (localPort remotePort : UInt16) (initialSeq : UInt32) (localMss : UInt16)
    (algorithm : CongestionControlAlgorithm) :
    ClosedIsFinal (.fresh localPort remotePort initialSeq localMss algorithm) :=
  ⟨by simp [Session.fresh], by simp [Session.fresh], by simp [Session.fresh, TcpConnection.new]⟩

/-! ### What an act does to an open connection -/

theorem state_ackStage_closed (hopen : x.conn.state ≠ .closed) (h : (x.ackStage t).conn.state = .closed) :
    x.conn.state = .lastAck := by
  rcases state_ackStage t x with hsame | hedge
  · exact absurd (hsame.symm.trans h) hopen
  · rw [h] at hedge
    have hall : ∀ p ∈ (TcpState.lastAck, TcpState.closed) :: ownEdges, p.2 = .closed → p.1 = .lastAck := by
      decide
    exact hall _ hedge rfl

theorem any_retiredBy_noteAck (t : Tcp) (c : TcpConnection) (ack : UInt32) :
    ((noteAck t c).retiredBy ack).any (fun s => hasFlag s.flags flagFin) =
      (c.retiredBy ack).any fun s => hasFlag s.flags flagFin := by
  obtain ⟨mark, -, hflight⟩ := applySackBlocks_inFlight t c
  have hflight : (noteAck t c).inFlight = c.inFlight.map fun s => { s with sacked := mark s } := hflight
  rw [retiredBy, hflight, List.takeWhile_map, List.any_map]
  rfl

/-- In `LAST_ACK` an ack that moves `SND.UNA` closes the connection if it covers the FIN. -/
theorem state_advanceAck (h : x.conn.state = .lastAck) : (x.advanceAck t).conn.state = .closed ↔
    ((x.conn.retiredBy t.acknowledgementNumber).any fun s => hasFlag s.flags flagFin) = true := by
  have hretired : ((x.modify clearDuplicateAcks).retireAcked t).conn.state = .lastAck :=
    (congrArg Core.state (core_retireAcked t (x.modify clearDuplicateAcks))).trans h
  have htally : ((x.modify clearDuplicateAcks).conn.ackTally t.acknowledgementNumber).finAcked =
      (x.conn.retiredBy t.acknowledgementNumber).any fun s => hasFlag s.flags flagFin :=
    ackTally_finAcked t.acknowledgementNumber (x.modify clearDuplicateAcks).conn
  unfold advanceAck
  dsimp only
  rw [← htally]
  split_ifs with hnothing
  · rw [state_frame.onWindowUpdate, hretired, htally]
    rw [ackTally_ackedAnything] at hnothing
    have hnil : (x.modify clearDuplicateAcks).conn.retiredBy t.acknowledgementNumber = [] := by simpa using hnothing
    rw [show x.conn.retiredBy t.acknowledgementNumber = [] from hnil]
    decide
  · rw [← state_frame.after ((x.modify clearDuplicateAcks).conn.ackTally t.acknowledgementNumber)] at hretired
    generalize ((x.modify clearDuplicateAcks).retireAcked t).modify _ = y at hretired ⊢
    unfold onNewAck
    rw [hretired]
    cases ((x.modify clearDuplicateAcks).conn.ackTally t.acknowledgementNumber).finAcked with
    | true => exact iff_of_true rfl rfl
    | false =>
      have hsent := (state_frame.sendQueued y).trans hretired
      refine iff_of_false ?_ Bool.false_ne_true
      simp only [Bool.false_eq_true, if_false]
      unfold resumeSending
      dsimp only
      split_ifs
      · rw [close, if_pos (by simp [Session.modify, hsent])]
        exact (congrArg (· = TcpState.closed) hsent).mp.mt (by decide)
      · rw [hsent]
        decide

/-- The ack of our FIN, and nothing else, closes `LAST_ACK`. -/
theorem state_ackStage_iff (h : x.conn.state = .lastAck) :
    (x.ackStage t).conn.state = .closed ↔ AcksFin t x.conn := by
  have hstamped : (x.modify (recordTimestamp t)).conn.state = .lastAck := (still_recordTimestamp t x).state.trans h
  obtain ⟨hflight, huna, -⟩ := recordTimestamp_flight t x.conn
  unfold ackStage AcksFin
  dsimp only
  rw [← hflight, ← huna]
  split_ifs with hack
  · rw [and_iff_right hack, handleAck_eq]
    have hrepeats := duplicate_noteAck t (x.modify (recordTimestamp t)).conn
    have hnoted := (state_frame.note t (x.modify (recordTimestamp t))).trans hstamped
    split_ifs with hdup
    · refine iff_of_false ?_ fun hacks => hacks.1 (hrepeats.1 hdup)
      rw [state_frame.duplicateAck _ _ fun _ _ => trivial, hnoted]
      decide
    · rw [state_advanceAck hnoted]
      refine Iff.trans (Eq.congr_left (any_retiredBy_noteAck ..)) (and_iff_right ?_).symm
      exact fun hrepeat => hdup (hrepeats.2 hrepeat)
  · refine iff_of_false ?_ fun hacks => hack hacks.1
    rw [hstamped]
    decide

/-- A closed connection ignores the payload, and its `RCV.NXT` is where it was. -/
theorem payloadStage_of_closed (h : (x.ackStage t).conn.state = .closed) : x.payloadStage t = x.ackStage t := by
  unfold payloadStage
  dsimp only
  rw [h, if_neg (by simp [receivesData])]

theorem recvNext_ackStage (t : Tcp) (x : Session) : (x.ackStage t).conn.recvNext = x.conn.recvNext :=
  (congrArg Inbox.recvNext (inbox_ackStage t x)).trans (Inbox.stamp_same t _).2.2.2

theorem orderly_handleRst (t : Tcp) (x : Session) : Orderly x (x.handleRst t) := by
  unfold handleRst
  dsimp only
  split_ifs
  · exact (Still.refl _).orderly
  · exact orderly_transition ..

theorem orderly_handleSynSent (hopen : x.conn.state ≠ .closed) : Orderly x (x.handleSynSent t) := by
  unfold handleSynSent
  split_ifs
  · have hrecorded : Still x (x.modify (recordSynAck t)) := .of_conn rfl rfl rfl
    have hestablished := hrecorded.orderly_trans hopen (orderly_transition .established _)
    exact hestablished.still (by simp [transition]) (still_sendPureAck _)
  · exact (Still.refl _).orderly

theorem orderly_handleSynReceived (hopen : x.conn.state ≠ .closed) :
    Orderly x (x.handleSynReceived t) := by
  unfold handleSynReceived
  split_ifs
  · have hrecorded : Still x (x.modify (recordHandshakeAck t)) := .of_conn rfl rfl rfl
    exact hrecorded.orderly_trans hopen (orderly_transition ..)
  · exact (Still.refl _).orderly

/-- A closed connection counts a FIN at `RCV.NXT`, and says nothing. -/
theorem Orderly.handleFin_of_closed {finSeq : UInt32} (h : Orderly x y) (hclosed : y.conn.state = .closed)
    (hseq : finSeq = y.conn.recvNext) : Orderly x (y.handleFin finSeq) := by
  rw [handleFin, if_neg (by simp [hclosed]), if_neg (not_not.2 hseq)]
  obtain ⟨l, calls, h⟩ := h
  refine ⟨l, calls, ?_⟩
  unfold consumeFin
  rw [hclosed]
  exact h

theorem orderly_handleSynchronized (hopen : x.conn.state ≠ .closed) (hrst : t.rst = false)
    (hlate : ¬ LateFin t x) : Orderly x (x.handleSynchronized t) := by
  cases hpaws : pawsRejects x.conn t with
  | true =>
    unfold handleSynchronized
    rw [if_pos hpaws]
    exact (still_sendPureAck _).orderly
  | false =>
    rw [handleSynchronized_eq hpaws]
    have hack := orderly_ackStage t hopen
    by_cases hclosed : (x.ackStage t).conn.state = .closed
    · rw [payloadStage_of_closed hclosed]
      split_ifs with hfin
      · have hseq : t.sequenceNumber + UInt32.ofNat t.payload.length = x.conn.recvNext := by
          by_contra hne
          have hlast := state_ackStage_closed hopen hclosed
          exact hlate ⟨hlast, hrst, hfin, hpaws, (state_ackStage_iff hlast).1 hclosed, hne⟩
        exact hack.handleFin_of_closed hclosed (hseq.trans (recvNext_ackStage t x).symm)
      · exact hack
    · have hpayload := hack.still hclosed (still_payloadStage t x)
      split_ifs
      · exact hpayload.trans ((still_payloadStage t _).state ▸ hclosed)
          (orderly_handleFin _ ((still_payloadStage t _).state ▸ hclosed))
      · exact hpayload

/-- A segment ends a connection last, a FIN that comes with the ack of ours apart. -/
theorem orderly_onSegment (hopen : x.conn.state ≠ .closed) (hlate : ¬ LateFin t x) :
    Orderly x (x.onSegment t) := by
  have hnoted : Still x (x.noteArrival t) := .of_conn rfl rfl rfl
  refine hnoted.orderly_trans hopen ?_
  unfold onSegment dispatch
  split_ifs with hrst
  · exact orderly_handleRst ..
  · split
    · exact orderly_handleSynSent hopen
    · exact orderly_handleSynReceived hopen
    · exact (Still.refl _).orderly
    · exact orderly_handleSynchronized hopen (Bool.eq_false_iff.2 hrst) hlate

theorem orderly_runKeepalive (elapsedMs : UInt32) (hopen : x.conn.state ≠ .closed) :
    Orderly x (x.runKeepalive elapsedMs) := by
  unfold runKeepalive
  dsimp only
  split_ifs
  · exact (Still.refl x).orderly
  · exact (Still.of_conn rfl rfl rfl).orderly
  · exact Still.orderly_trans (y := x.modify _) (.of_conn rfl rfl rfl) hopen (orderly_transition ..)
  · exact Still.orderly (.of_call rfl rfl rfl rfl)
  · exact Still.orderly (.of_call rfl rfl rfl rfl)
  · exact (Still.of_conn rfl rfl rfl).orderly

theorem orderly_runRetransmit (elapsedMs : UInt32) (hopen : x.conn.state ≠ .closed) :
    Orderly x (x.runRetransmit elapsedMs) := by
  unfold runRetransmit
  split
  · exact (Still.refl x).orderly
  · next oldest _ =>
    dsimp only
    split_ifs
    · exact (Still.of_conn rfl rfl rfl).orderly
    · exact Still.orderly_trans (y := x.modify _) (.of_conn rfl rfl rfl) hopen (orderly_transition ..)
    · exact Still.orderly (.of_call rfl rfl rfl rfl)

theorem orderly_onTimePassed (elapsedMs : UInt32) (hopen : x.conn.state ≠ .closed) :
    Orderly x (x.onTimePassed elapsedMs) := by
  have hticked : Still x (x.modify fun c => { c with nowMs := c.nowMs + elapsedMs.toUInt64 }) :=
    .of_conn rfl rfl rfl
  refine hticked.orderly_trans hopen ?_
  unfold onTimePassed
  rw [if_neg hopen]
  dsimp only
  generalize x.modify (fun c => { c with nowMs := c.nowMs + elapsedMs.toUInt64 }) = y at hticked
  have hy : y.conn.state ≠ .closed := hticked.state ▸ hopen
  have hdelayed := still_runDelayedAck elapsedMs y
  have hopen' : (y.runDelayedAck elapsedMs).conn.state ≠ .closed := hdelayed.state ▸ hy
  split_ifs
  · exact Still.orderly_trans (y := y.modify _) (.of_conn rfl rfl rfl) hy (orderly_transition ..)
  · exact (Still.of_conn rfl rfl rfl).orderly
  · exact (hdelayed.trans (still_runPersist ..)).orderly
  · exact hdelayed.orderly_trans hy (orderly_runKeepalive _ hopen')
  · exact hdelayed.orderly_trans hy (orderly_runRetransmit _ hopen')

theorem still_read (maxBytes : ℕ) (x : Session) : Still x (x.read maxBytes) := by
  unfold Session.read
  dsimp only
  split_ifs
  · exact .of_call rfl rfl rfl rfl
  · exact .of_conn rfl rfl rfl

/-- The step lemma. -/
theorem orderly_act (ha : a.run x = some y) (hopen : x.conn.state ≠ .closed) (hrespects : a.respectsClosed x) :
    Orderly x y := by
  cases a with
  | event e =>
    cases e with
    | segment t => exact Option.some.inj ha ▸ orderly_onSegment hopen hrespects.2
    | timePassed elapsedMs => exact Option.some.inj ha ▸ orderly_onTimePassed elapsedMs hopen
    | send data => exact (still_ack.send still_placeChunk ha).orderly
    | read maxBytes => exact Option.some.inj ha ▸ (still_read maxBytes x).orderly
    | close => exact Option.some.inj ha ▸ orderly_close x
    | setKeepalive enabled => exact Option.some.inj ha ▸ (Still.of_conn rfl rfl rfl).orderly
    | reduceEffectiveMss pathMss =>
      refine Option.some.inj ha ▸ Still.orderly (.of_conn ?_ rfl rfl)
      show (reduceEffectiveMss pathMss x.conn).state = _
      unfold reduceEffectiveMss
      dsimp only
      split_ifs <;> rfl
    | fail => exact Option.some.inj ha ▸ orderly_transition ..
  | opens o =>
    cases o with
    | active =>
      exact Option.some.inj ha ▸
        (orderly_transition .synSent x).still (by simp [transition]) (still_sendFlags ..)
    | passive options =>
      exact Option.some.inj ha ▸ Still.orderly_trans (y := x.modify (recordSyn options))
        (.of_conn rfl rfl rfl) hopen
        ((orderly_transition .synReceived _).still (by simp [transition]) (still_sendFlags ..))

/-! ### What an act does to a closed connection -/

/-- It does nothing that is seen from outside, or it enters another state. -/
theorem act_of_closed (ha : a.run x = some y) (hclosed : x.conn.state = .closed) :
    a.respectsClosed x ∧ Still x y ∧ y.sent = x.sent ∨
      ¬ a.respectsClosed x ∧ ∃ s, y.entered = x.entered ++ [s] := by
  cases a with
  | opens o =>
    refine .inr ⟨fun h => h hclosed, ?_⟩
    cases o with
    | active => exact Option.some.inj ha ▸ ⟨.synSent, rfl⟩
    | passive options => exact Option.some.inj ha ▸ ⟨.synReceived, rfl⟩
  | event e =>
    cases e with
    | segment t =>
      cases hrst : t.rst with
      | true =>
        refine .inr ⟨fun h => absurd (h.1 hclosed) (by simp [hrst]), .closed, ?_⟩
        have hstate : (x.noteArrival t).conn.state = .closed := hclosed
        rw [← Option.some.inj ha, onSegment, dispatch, if_pos hrst, handleRst, if_neg (by simp [hstate])]
        rfl
      | false =>
        have heq : x.onSegment t = x.noteArrival t := by
          unfold onSegment dispatch
          rw [hrst, if_neg Bool.false_ne_true, show (x.noteArrival t).conn.state = .closed from hclosed]
        refine .inl ⟨⟨fun _ => hrst, fun h => absurd (h.1.symm.trans hclosed) (by decide)⟩, ?_⟩
        rw [← Option.some.inj ha, heq]
        exact ⟨.of_conn rfl rfl rfl, rfl⟩
    | timePassed elapsedMs =>
      have heq : x.onTimePassed elapsedMs = x := by rw [onTimePassed, if_pos hclosed]
      exact .inl ⟨trivial, Option.some.inj ha ▸ heq.symm ▸ ⟨.refl x, rfl⟩⟩
    | send data =>
      have heq : x.send data = some (0, x) := by rw [Session.send, if_pos (by simp [hclosed])]
      rw [Act.run, Event.run, heq] at ha
      exact .inl ⟨trivial, Option.some.inj ha ▸ ⟨.refl x, rfl⟩⟩
    | read maxBytes =>
      refine .inl ⟨trivial, Option.some.inj ha ▸ ⟨still_read maxBytes x, ?_⟩⟩
      unfold Session.read
      dsimp only
      rw [if_neg (by simp [Session.modify, hclosed, receivesData])]
      rfl
    | close =>
      have heq : x.close = x := by rw [close, if_pos (by simp [hclosed])]
      exact .inl ⟨trivial, Option.some.inj ha ▸ heq.symm ▸ ⟨.refl x, rfl⟩⟩
    | setKeepalive enabled => exact .inl ⟨trivial, Option.some.inj ha ▸ ⟨.of_conn rfl rfl rfl, rfl⟩⟩
    | reduceEffectiveMss pathMss =>
      refine .inl ⟨trivial, Option.some.inj ha ▸ ⟨.of_conn ?_ rfl rfl, rfl⟩⟩
      show (reduceEffectiveMss pathMss x.conn).state = _
      unfold reduceEffectiveMss
      dsimp only
      split_ifs <;> rfl
    | fail => exact .inr ⟨fun h => h hclosed, .closed, Option.some.inj ha ▸ rfl⟩

/-- The late FIN is answered by a closed connection. -/
theorem sent_of_lateFin (h : LateFin t x) : ∃ call ∈ (x.onSegment t).sent, .closed ∈ call.entered := by
  obtain ⟨hstate, hrst, hfin, hpaws, hacks, hseq⟩ := h
  have hclosed := (state_ackStage_iff (x := x.noteArrival t) hstate).2 hacks
  have hopen : (x.noteArrival t).conn.state ≠ .closed := by
    show x.conn.state ≠ .closed
    simp [hstate]
  have hpaws' : pawsRejects (x.noteArrival t).conn t = false := hpaws
  have hrecv := recvNext_ackStage t (x.noteArrival t)
  have hentered : .closed ∈ ((x.noteArrival t).ackStage t).entered := by
    obtain ⟨l, -, hentered, hlast, -⟩ := orderly_ackStage t hopen
    rw [hentered, List.mem_append]
    cases hl : l.getLast? with
    | none =>
      rw [hl, Option.getD_none] at hlast
      exact absurd (hlast.symm.trans hclosed) hopen
    | some s =>
      rw [hl, Option.getD_some, hclosed] at hlast
      exact .inr (hlast ▸ List.mem_of_getLast? hl)
  rw [onSegment_of_handlesAcks (by simp [handlesAcks, hstate]) hrst, handleSynchronized_eq hpaws', if_pos hfin,
    payloadStage_of_closed hclosed, handleFin, if_neg (by simp [hclosed]),
    if_pos (fun heq => hseq (heq.trans hrecv))]
  exact ⟨_, List.mem_append_right _ (List.mem_singleton_self _), hentered⟩

/-- Something was sent or entered after `CLOSED`. -/
def Reopened (x : Session) : Prop :=
  (∃ call ∈ x.sent, .closed ∈ call.entered) ∨ .closed ∈ x.entered.dropLast

/-- An act that respects `CLOSED` keeps it final. -/
theorem ClosedIsFinal.act (h : ClosedIsFinal x) (ha : a.run x = some y) (hrespects : a.respectsClosed x) :
    ClosedIsFinal y := by
  by_cases hclosed : x.conn.state = .closed
  · rcases act_of_closed ha hclosed with ⟨-, hstill, hsent⟩ | ⟨hnot, -⟩
    · refine ⟨hsent ▸ h.silent, hstill.entered ▸ h.last, ?_⟩
      rw [hstill.entered, hstill.state]
      exact h.stays
    · exact absurd hrespects hnot
  · exact h.orderly hclosed (orderly_act ha hclosed hrespects)

/-- Any other act does not. -/
theorem ClosedIsFinal.reopened (h : ClosedIsFinal x) (ha : a.run x = some y)
    (hnot : ¬ a.respectsClosed x) : Reopened y := by
  by_cases hclosed : x.conn.state = .closed
  · rcases act_of_closed ha hclosed with ⟨hrespects, -⟩ | ⟨-, s, hentered⟩
    · exact absurd hrespects hnot
    · refine .inr ?_
      rw [hentered, List.dropLast_concat]
      exact h.stays.2 hclosed
  · cases a with
    | opens o => exact absurd hclosed hnot
    | event e =>
      cases e with
      | segment t =>
        have hlate : LateFin t x := by
          by_contra hno
          exact hnot ⟨fun heq => absurd heq hclosed, hno⟩
        exact Option.some.inj ha ▸ .inl (sent_of_lateFin hlate)
      | fail => exact absurd hclosed hnot
      | timePassed _ | send _ | read _ | close | setKeepalive _ | reduceEffectiveMss _ =>
        exact absurd trivial hnot

theorem Act.run_prefix (ha : a.run x = some y) : x.entered <+: y.entered ∧ x.sent <+: y.sent := by
  cases a with
  | event e =>
    obtain ⟨⟨l, hl, -⟩, calls, hsent, -⟩ := Event.run_walks ha
    exact ⟨⟨l, hl.symm⟩, calls, hsent.symm⟩
  | opens o =>
    cases o <;> exact Option.some.inj ha ▸ ⟨List.prefix_append .., List.prefix_append ..⟩

theorem Reopened.act (h : Reopened x) (ha : a.run x = some y) : Reopened y := by
  obtain ⟨⟨l, hentered⟩, hsent⟩ := Act.run_prefix ha
  rcases h with ⟨call, hcall, hmem⟩ | hmem
  · exact .inl ⟨call, hsent.subset hcall, hmem⟩
  · refine .inr ?_
    rcases List.eq_nil_or_concat l with rfl | ⟨front, last, rfl⟩
    · rwa [← hentered, List.append_nil]
    · rw [← hentered, List.concat_eq_append, ← List.append_assoc, List.dropLast_concat]
      exact List.mem_append_left _ (List.mem_of_mem_dropLast hmem)

/-- **`CLOSED` is absorbing and silent in a run exactly if every act of the run
respects it.** -/
theorem closed_is_final_iff (localPort remotePort : UInt16) (initialSeq : UInt32) (localMss : UInt16)
    (algorithm : CongestionControlAlgorithm) (acts : List Act) {y : Session}
    (h : runs Act.run acts (.fresh localPort remotePort initialSeq localMss algorithm) = some y) :
    ClosedIsFinal y ↔
      Along Act.run Act.respectsClosed acts (.fresh localPort remotePort initialSeq localMss algorithm) :=
  runs_iff_along (B := Reopened) (fun _ _ _ hx hok ha => hx.act ha hok)
    (fun _ _ _ hx hno ha => hx.reopened ha hno) (fun _ _ _ hx ha => hx.act ha)
    (fun _ hx hfinal => hx.elim (fun ⟨call, hcall, hmem⟩ => hfinal.silent call hcall hmem) hfinal.last)
    (closedIsFinal_fresh ..) h

/-- A connection is closed from both sides and then gets data, another FIN, and
the calls of an application that does not know. -/
theorem closed_is_final_quiet :
    ∃ y, runs Act.run
        [.opens (.passive { peerIsn := 7 }), .event (.segment (Tcp.ofFlags 9000 80 8 101 5 flagAck 8 0 0)),
          .event (.segment (Tcp.ofFlags 9000 80 8 101 5 (flagFin ||| flagAck) 8 0 0)), .event .close,
          .event (.segment (Tcp.ofFlags 9000 80 9 102 5 flagAck 8 0 0)),
          .event (.segment ((Tcp.ofFlags 9000 80 9 102 5 (flagFin ||| flagAck) 8 0 0).carrying [1])),
          .event (.timePassed 1000), .event (.send [1]), .event (.read 5), .event .close]
        (.fresh 80 9000 100 4 .reno) = some y ∧ y.conn.state = .closed ∧ ClosedIsFinal y :=
  ⟨_, (Option.some_get (by decide +kernel)).symm, by decide +kernel,
    (closed_is_final_iff _ _ _ _ _ _ (Option.some_get _).symm).2 (by decide +kernel)⟩

/-- The peer's FIN comes again on the segment that acknowledges ours: the closed
connection answers it.  A reset then calls the callback a second time, and
`initiate_connect` leads out of `CLOSED` and sends a SYN. -/
theorem closed_speaks :
    ∃ x y z, runs Act.run
        [.opens (.passive { peerIsn := 7 }), .event (.segment (Tcp.ofFlags 9000 80 8 101 5 flagAck 8 0 0)),
          .event (.segment (Tcp.ofFlags 9000 80 8 101 5 (flagFin ||| flagAck) 8 0 0)), .event .close]
        (.fresh 80 9000 100 4 .reno) = some x ∧ x.conn.state = .lastAck ∧
      Act.run (.event (.segment (Tcp.ofFlags 9000 80 8 102 5 (flagFin ||| flagAck) 8 0 0))) x = some y ∧
      y.conn.state = .closed ∧ y.sent.length = x.sent.length + 1 ∧
      (∃ call ∈ y.sent, .closed ∈ call.entered) ∧
      runs Act.run [.event (.segment (Tcp.ofFlags 9000 80 9 0 5 flagRst 0 0 0)), .opens .active] y = some z ∧
      z.entered = y.entered ++ [.closed, .synSent] ∧ z.conn.state = .synSent ∧
      z.sent.length = y.sent.length + 1 :=
  ⟨_, _, _, rfl, by decide +kernel, rfl, by decide +kernel, by decide +kernel, by decide +kernel, rfl,
    by decide +kernel, by decide +kernel, by decide +kernel⟩

end Closed

end TcpIpStack
