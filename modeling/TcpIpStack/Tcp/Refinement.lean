/-
# Every event is a sequence of effects

The functions of the source, one by one, as sequences of the effects of
`TcpIpStack.Tcp.Effects`: first the changes that leave the core of the
connection alone, then the functions that send, then `on_segment`,
`on_time_passed` and `send`.  `Event.run_steps` is the result the invariants are
derived from.
-/

import TcpIpStack.Tcp.Effects

namespace TcpIpStack

open TcpConnection Session

/-! ### The FIN of the peer -/

/-- The state after the peer's FIN has been consumed. -/
def stateAfterFin : TcpState → TcpState
  | .established => .closeWait
  | .finWait1 => .closing
  | .finWait2 => .timeWait
  | s => s

/-- What consuming the peer's FIN does: `RCV.NXT` moves past it, and in three
states the FIN is acknowledged and the state follows, one before the other. -/
theorem consumeFin_cases (x : Session) :
    stateAfterFin x.conn.state = x.conn.state ∧ x.consumeFin = x.modify advancePastFin ∨
      ∃ (c : TcpConnection) (entered : List TcpState),
        (c.state = x.conn.state ∨ c.state = stateAfterFin x.conn.state) ∧
        c.core = { x.conn.core with recvNext := x.conn.recvNext + 1, state := c.state } ∧
        x.consumeFin.conn.core = { x.conn.core with
          recvNext := x.conn.recvNext + 1, state := stateAfterFin x.conn.state, ackPending := false } ∧
        x.consumeFin = { x with
          conn := x.consumeFin.conn
          entered := x.entered ++ [stateAfterFin x.conn.state]
          sent := x.sent ++ [⟨.pureAck, c, entered, x.accepted, x.retired,
            sendOptions c 0 (c.buildHeader flagAck c.sendNext), []⟩] } := by
  unfold consumeFin
  split
  · next hx =>
    exact .inr ⟨{ advancePastFin x.conn with state := .closeWait }, x.entered ++ [.closeWait],
      .inr (by rw [hx]; rfl), rfl, by rw [hx]; rfl, by rw [hx]; rfl⟩
  · next hx =>
    exact .inr ⟨advancePastFin x.conn, x.entered, .inl rfl, rfl, by rw [hx]; rfl, by rw [hx]; rfl⟩
  · next hx =>
    exact .inr ⟨advancePastFin x.conn, x.entered, .inl rfl, rfl, by rw [hx]; rfl, by rw [hx]; rfl⟩
  · next h₁ h₂ h₃ =>
    refine .inl ⟨?_, rfl⟩
    cases hx : x.conn.state <;> simp_all [stateAfterFin]

theorem finAckedState_cases {state newState : TcpState} (h : finAckedState state = some newState) :
    state = .finWait1 ∧ newState = .finWait2 ∨ state = .closing ∧ newState = .timeWait ∨
      state = .lastAck ∧ newState = .closed := by
  cases state <;> simp_all [finAckedState]

/-- The state follows the ack of our FIN, or stays. -/
theorem slide_cases (t : Tcp) (x : Session) :
    (∃ newState, (x.conn.state = .finWait1 ∧ newState = .finWait2 ∨ x.conn.state = .closing ∧
      newState = .timeWait ∨ x.conn.state = .lastAck ∧ newState = .closed) ∧
        x.slide t = (x.retireAcked t).transition newState) ∨ x.slide t = x.retireAcked t := by
  unfold Session.slide
  split
  · next newState hnew =>
    split_ifs at hnew
    exact .inl ⟨newState, finAckedState_cases hnew, rfl⟩
  · exact .inr rfl

/-! ### Changes that leave the core alone -/

theorem map_flight_updateOldestUnsacked {f : InFlightSegment → InFlightSegment}
    (hf : ∀ s, (f s).flight = s.flight) (l : List InFlightSegment) :
    (updateOldestUnsacked f l).map InFlightSegment.flight = l.map InFlightSegment.flight := by
  induction l with
  | nil => rfl
  | cons s rest ih =>
    rw [updateOldestUnsacked]
    split_ifs
    · simp only [List.map_cons, ih]
    · simp only [List.map_cons, hf]

theorem core_updateOldest {f : InFlightSegment → InFlightSegment}
    (hf : ∀ s, (f s).flight = s.flight) (c : TcpConnection) : (c.updateOldest f).core = c.core := by
  simp only [core, updateOldest, map_flight_updateOldestUnsacked hf]

theorem core_updateRtoFromSample (rttMs : UInt32) (c : TcpConnection) :
    (c.updateRtoFromSample rttMs).core = c.core := rfl

theorem core_sampleRtt (t : Tcp) (tally : AckTally) (c : TcpConnection) :
    (c.sampleRtt t tally).core = c.core := by
  unfold sampleRtt
  split
  · split_ifs
    · exact core_updateRtoFromSample _ c
    · rfl
  · split
    · exact core_updateRtoFromSample _ c
    · rfl

theorem core_armOrDisarmPersist (c : TcpConnection) : c.armOrDisarmPersist.core = c.core := by
  unfold armOrDisarmPersist
  split_ifs <;> rfl

theorem core_afterNewAck (tally : AckTally) (c : TcpConnection) : (afterNewAck tally c).core = c.core := by
  unfold afterNewAck
  split_ifs <;> rfl

theorem core_recordTimestamp (t : Tcp) (c : TcpConnection) : (recordTimestamp t c).core = c.core := by
  unfold recordTimestamp
  split
  · split_ifs <;> rfl
  · rfl

theorem applySackBlocks_eq (t : Tcp) (c : TcpConnection) : ∃ flight bytes, (c.applySackBlocks t).1 =
      { c with inFlight := flight, unsackedInFlightBytes := bytes } := by
  unfold applySackBlocks
  split_ifs
  · exact ⟨c.inFlight, c.unsackedInFlightBytes, rfl⟩
  · clear * -
    generalize false = marked
    induction t.sackBlocks generalizing c marked with
    | nil => exact ⟨c.inFlight, c.unsackedInFlightBytes, rfl⟩
    | cons block rest ih => exact ih (c.applySackBlock block) _

theorem applySackBlocks_inFlight_eq (t : Tcp) (c : TcpConnection) :
    (c.applySackBlocks t).1.inFlight = if c.sackPermitted then
      t.sackBlocks.foldl (fun flight block => flight.map (markCovered block)) c.inFlight
      else c.inFlight := by
  unfold applySackBlocks
  cases c.sackPermitted with
  | false => rfl
  | true =>
    simp only [Bool.not_true, Bool.false_eq_true, if_false, if_true]
    generalize false = marked
    induction t.sackBlocks generalizing c marked with
    | nil => rfl
    | cons block rest ih => exact ih (c.applySackBlock block) _

/-- The segments of the window stay, some with a new mark. -/
theorem applySackBlocks_inFlight (t : Tcp) (c : TcpConnection) :
    ∃ mark : InFlightSegment → Bool, (∀ s, s.sacked → mark s) ∧
      (c.applySackBlocks t).1.inFlight = c.inFlight.map fun s => { s with sacked := mark s } := by
  have hcovered (block : SackBlock) (s : InFlightSegment) : ∃ sacked : Bool,
      (s.sacked → sacked) ∧ markCovered block s = { s with sacked := sacked } := by
    unfold markCovered
    split_ifs
    · exact ⟨true, fun _ => rfl, rfl⟩
    · exact ⟨s.sacked, id, rfl⟩
  rw [applySackBlocks_inFlight_eq]
  split_ifs
  · generalize c.inFlight = flight
    induction t.sackBlocks generalizing flight with
    | nil => exact ⟨(·.sacked), fun _ => id, (List.map_id' _).symm⟩
    | cons block rest ih =>
      obtain ⟨mark, hmark, heq⟩ := ih (flight.map (markCovered block))
      refine ⟨fun s => mark (markCovered block s), fun s hs => ?_, heq.trans ?_⟩
      · obtain ⟨sacked, hsacked, hmarked⟩ := hcovered block s
        exact hmark _ (by rw [hmarked]; exact hsacked hs)
      · rw [List.map_map]
        refine List.map_congr_left fun s _ => ?_
        obtain ⟨sacked, -, hmarked⟩ := hcovered block s
        simp only [Function.comp, hmarked]
  · exact ⟨(·.sacked), fun _ => id, (List.map_id' _).symm⟩

@[simp] theorem applySackBlocks_state (t : Tcp) (c : TcpConnection) :
    (c.applySackBlocks t).1.state = c.state := by
  obtain ⟨flight, bytes, h⟩ := applySackBlocks_eq t c
  rw [h]

@[simp] theorem sampleRtt_state (t : Tcp) (tally : AckTally) (c : TcpConnection) :
    (c.sampleRtt t tally).state = c.state :=
  congrArg Core.state (core_sampleRtt t tally c)

@[simp] theorem afterNewAck_state (tally : AckTally) (c : TcpConnection) :
    (afterNewAck tally c).state = c.state :=
  congrArg Core.state (core_afterNewAck tally c)

@[simp] theorem recordTimestamp_state (t : Tcp) (c : TcpConnection) : (recordTimestamp t c).state = c.state :=
  congrArg Core.state (core_recordTimestamp t c)

@[simp] theorem armOrDisarmPersist_state (c : TcpConnection) : c.armOrDisarmPersist.state = c.state :=
  congrArg Core.state (core_armOrDisarmPersist c)

namespace Steps

variable {e : Event} {s₀ : TcpState} {x y z : Session}

theorem refl : Steps e s₀ x x := Relation.ReflTransGen.refl

theorem trans (h₁ : Steps e s₀ x y) (h₂ : Steps e s₀ y z) : Steps e s₀ x z :=
  Relation.ReflTransGen.trans h₁ h₂

theorem single (h : Effect e s₀ x y) : Steps e s₀ x y := Relation.ReflTransGen.single h

theorem tail (h₁ : Steps e s₀ x y) (h₂ : Effect e s₀ y z) : Steps e s₀ x z :=
  Relation.ReflTransGen.tail h₁ h₂

theorem quiet {f : TcpConnection → TcpConnection} (h : (f x.conn).core = x.conn.core) :
    Steps e s₀ x (x.modify f) :=
  single (.quiet x _ h.symm)

/-- **What every effect keeps, a sequence of effects keeps.** -/
theorem preserves {P : Session → Prop} (hP : ∀ x y, Effect e s₀ x y → P x → P y)
    (h : Steps e s₀ x y) (hx : P x) : P y := by
  induction h with
  | refl => exact hx
  | tail _ hstep ih => exact hP _ _ hstep ih

end Steps

/-! ### The functions that send -/

section Output

variable {e : Event} {s₀ : TcpState} (x : Session)

theorem scheduleOrSendAck_steps (hs : handlesAcks s₀) (h : receivesData x.conn.state) :
    Steps e s₀ x x.scheduleOrSendAck := by
  unfold scheduleOrSendAck
  split_ifs
  · exact .single (.ack x (.inl hs))
  · exact (Steps.single (.holdAck x h)).trans (.quiet (f := fun c =>
      { c with ackDelayMsRemaining := delayedAckMs }) rfl)

theorem drainLoop_steps (t : Tcp) (fuel : ℕ) (h : handlesAcks x.conn.state) :
    Steps (.segment t) s₀ x (x.drainLoop fuel) ∧ (x.drainLoop fuel).conn.state = x.conn.state := by
  induction fuel generalizing x with
  | zero => exact ⟨.refl, rfl⟩
  | succ fuel ih =>
    rw [drainLoop]
    split
    · exact ⟨.refl, rfl⟩
    · next front rest hq =>
      split_ifs with hmay
      · obtain ⟨hsteps, hstate⟩ := ih (x.sendFront front rest) h
        exact ⟨(Steps.single (.drain x t front rest rfl hq hmay h)).trans hsteps, hstate⟩
      · exact ⟨.refl, rfl⟩

theorem sendQueuedWhileWindowAllows_steps (t : Tcp) (h : handlesAcks x.conn.state) :
    Steps (.segment t) s₀ x x.sendQueuedWhileWindowAllows ∧
      x.sendQueuedWhileWindowAllows.conn.state = x.conn.state := by
  obtain ⟨hsteps, hstate⟩ := drainLoop_steps x t x.conn.sendQueue.length h
  exact ⟨hsteps.trans (.quiet (core_armOrDisarmPersist _)),
    (armOrDisarmPersist_state _).trans hstate⟩

theorem sendZeroWindowProbe_steps (hf : x.conn.inFlight = []) (hc : x.conn.state ≠ .closed)
    (ht : x.conn.state ≠ .timeWait) : Steps e s₀ x x.sendZeroWindowProbe := by
  unfold sendZeroWindowProbe
  split
  · exact .refl
  · next front rest hq => exact .single (.probe x front rest hq hf hc ht)

theorem sendKeepaliveProbe_steps (h : x.conn.state = .established) : Steps e s₀ x x.sendKeepaliveProbe :=
  (Steps.single (.keepalive x h)).trans (.quiet rfl)

theorem runKeepalive_steps (elapsedMs : UInt32) : Steps e s₀ x (x.runKeepalive elapsedMs) := by
  unfold runKeepalive
  dsimp only
  split_ifs with hoff
  · exact .refl
  all_goals have hstate : x.conn.state = .established := by simp_all
  · exact .quiet rfl
  · exact (Steps.quiet rfl).tail (.abort _)
  · exact (Steps.quiet rfl).trans (sendKeepaliveProbe_steps _ hstate)
  · exact (Steps.quiet rfl).trans (sendKeepaliveProbe_steps _ hstate)
  · exact .quiet rfl

theorem close_steps (he : ∀ data, e ≠ .send data) : Steps e s₀ x x.close := by
  by_cases hstate : acceptsData x.conn.state
  · by_cases hbusy : x.conn.inFlight ≠ [] ∨ x.conn.sendQueue ≠ []
    · rw [close, if_neg (by unfold acceptsData at hstate; tauto), if_pos hbusy]
      exact .quiet rfl
    · rw [close, if_neg (by unfold acceptsData at hstate; tauto), if_neg hbusy]
      exact .single (.fin x he hstate (by tauto) (by tauto))
  · rw [close, if_pos (by unfold acceptsData at hstate; tauto)]
    exact .refl

end Output

/-! ### `_handle_ack` -/

theorem foldl_add_ackedAnything (nowMs : UInt64) (l : List InFlightSegment) (tally : AckTally) :
    (l.foldl (AckTally.add nowMs) tally).ackedAnything = (tally.ackedAnything || !l.isEmpty) := by
  induction l generalizing tally with
  | nil => simp
  | cons s rest ih => simp [ih, AckTally.add]

theorem foldl_add_finAcked (nowMs : UInt64) (l : List InFlightSegment) (tally : AckTally) :
    (l.foldl (AckTally.add nowMs) tally).finAcked =
      (tally.finAcked || l.any fun s => hasFlag s.flags flagFin) := by
  induction l generalizing tally with
  | nil => simp
  | cons s rest ih => simp [ih, AckTally.add, Bool.or_assoc]

theorem ackTally_ackedAnything (ack : UInt32) (c : TcpConnection) :
    (c.ackTally ack).ackedAnything = !(c.retiredBy ack).isEmpty := by
  simp [ackTally, foldl_add_ackedAnything]

theorem ackTally_finAcked (ack : UInt32) (c : TcpConnection) :
    (c.ackTally ack).finAcked = (c.retiredBy ack).any fun s => hasFlag s.flags flagFin := by
  simp [ackTally, foldl_add_finAcked]

section HandleAck

variable {t : Tcp} {s₀ : TcpState} (x : Session)

theorem fastRetransmit_steps {e : Event} {oldest : InFlightSegment}
    (h : x.conn.oldestUnsackedSegment = some oldest) (hstate : x.conn.state ≠ .closed) :
    Steps e s₀ x (x.fastRetransmit oldest) := by
  have hmem : oldest.flight ∈ x.conn.core.flight :=
    List.mem_map_of_mem (List.mem_of_find?_eq_some h)
  have hsacked : oldest.sacked = false := by simpa using List.find?_some h
  refine (Steps.single (.retransmit x .fastRetransmit oldest.flight (.inl rfl) hmem hsacked hstate)).trans
    (.quiet ?_)
  exact core_updateOldest (f := resent x.conn.rtoMs) (fun _ => rfl) x.conn

theorem duplicateAck_steps (sackAdvanced : Bool) (h : handlesAcks x.conn.state) :
    Steps (.segment t) s₀ x (x.duplicateAck sackAdvanced) := by
  refine Steps.trans (y := x.modify countDuplicateAck) (.quiet rfl) ?_
  unfold duplicateAck onDuplicateAck
  split_ifs
  · split
    · exact .refl
    · next oldest hold => exact fastRetransmit_steps _ hold h.2.2
  · exact (Steps.quiet rfl).trans (sendQueuedWhileWindowAllows_steps
      ((x.modify countDuplicateAck).modify inflate) t h).1
  · exact .refl

theorem resumeSending_steps (h : handlesAcks x.conn.state) : Steps (.segment t) s₀ x x.resumeSending := by
  unfold resumeSending
  dsimp only
  refine (sendQueuedWhileWindowAllows_steps x t h).1.trans ?_
  split_ifs
  · exact (Steps.quiet rfl).trans (close_steps _ (by simp))
  · exact .refl

theorem onWindowUpdate_steps (h : handlesAcks x.conn.state) : Steps (.segment t) s₀ x x.onWindowUpdate := by
  unfold onWindowUpdate
  split_ifs
  · exact (sendQueuedWhileWindowAllows_steps x t h).1
  · exact .quiet (core_armOrDisarmPersist _)

theorem finAcked_steps {e : Event} (newState : TcpState) :
    Steps e s₀ (x.transition newState) (x.finAcked newState) := by
  unfold finAcked
  dsimp only
  split_ifs
  · exact .quiet rfl
  · exact .refl

theorem slide_of_not_ackedAnything
    (h : (x.conn.ackTally t.acknowledgementNumber).ackedAnything = false) : x.slide t = x.retireAcked t := by
  have hnone : x.conn.retiredBy t.acknowledgementNumber = [] := by
    simpa [ackTally_ackedAnything] using h
  simp [slide, ackTally_finAcked, hnone]

theorem transition_modify_steps {e : Event} {f : TcpConnection → TcpConnection}
    (newState : TcpState) (h : (f x.conn).core = x.conn.core) :
    Steps e s₀ (x.transition newState) ((x.modify f).transition newState) := by
  refine .single (.quiet _ { f x.conn with state := newState } ?_)
  simp only [core, Core.mk.injEq, transition] at h ⊢
  tauto

theorem onNewAck_steps (h : handlesAcks x.conn.state) : Steps (.segment t) s₀ (x.slide t)
      (((x.retireAcked t).modify (afterNewAck (x.conn.ackTally t.acknowledgementNumber))).onNewAck
        (x.conn.ackTally t.acknowledgementNumber).finAcked) := by
  have hquiet := core_afterNewAck (x.conn.ackTally t.acknowledgementNumber) (x.retireAcked t).conn
  have hstate : ((x.retireAcked t).modify
      (afterNewAck (x.conn.ackTally t.acknowledgementNumber))).conn.state = x.conn.state :=
    (afterNewAck_state _ _).trans (sampleRtt_state _ _ _)
  unfold slide onNewAck
  rw [hstate]
  cases (if (x.conn.ackTally t.acknowledgementNumber).finAcked then finAckedState x.conn.state
    else none) with
  | some newState => exact (transition_modify_steps _ _ hquiet).trans (finAcked_steps _ _)
  | none => exact (Steps.quiet hquiet).trans (resumeSending_steps _ (hstate ▸ h))

theorem advanceAck_steps (hack : t.ack) (h : handlesAcks x.conn.state)
    (hwindow : x.conn.peerWindow = t.window.toUInt32 <<< x.conn.peerShift.toUInt32) :
    Steps (.segment t) s₀ x (x.advanceAck t) := by
  refine Steps.trans (y := x.modify clearDuplicateAcks) (.quiet rfl) ?_
  unfold advanceAck
  dsimp only
  generalize hy : x.modify clearDuplicateAcks = y
  have hystate : handlesAcks y.conn.state := by rw [← hy]; exact h
  have hywindow : y.conn.peerWindow = t.window.toUInt32 <<< y.conn.peerShift.toUInt32 := by
    rw [← hy]
    exact hwindow
  have hslide : Steps (.segment t) s₀ y (y.slide t) := .single (.slide y t rfl hack hystate hywindow)
  split_ifs with hacked
  · rw [slide_of_not_ackedAnything y (by simpa using hacked)] at hslide
    exact hslide.trans (onWindowUpdate_steps _ ((sampleRtt_state _ _ _).symm ▸ hystate))
  · exact hslide.trans (onNewAck_steps y hystate)

theorem handleAck_steps (hack : t.ack) (h : handlesAcks x.conn.state) :
    Steps (.segment t) s₀ x (x.handleAck t) := by
  unfold handleAck
  dsimp only
  set y := x.modify fun c => takeWindow t (c.applySackBlocks t).1 with hy
  have hystate : handlesAcks y.conn.state := by
    rw [hy]
    exact (applySackBlocks_state t x.conn).symm ▸ h
  have hxy : Steps (.segment t) s₀ x y :=
    (Steps.single (.scoreboard x t rfl hack h)).tail
      (.window _ t rfl hack ((applySackBlocks_state t x.conn).symm ▸ h))
  refine hxy.trans ?_
  split_ifs
  · exact duplicateAck_steps y _ hystate
  · exact advanceAck_steps y hack hystate rfl

end HandleAck

/-! ### `on_segment` -/

section OnSegment

variable {t : Tcp} {s₀ : TcpState} (x : Session)

theorem handlesAcks_of_receivesData {state : TcpState} (h : receivesData state) : handlesAcks state := by
  unfold handlesAcks
  cases state <;> simp_all [receivesData]

theorem drainReorderBuffer_steps {e : Event} (fuel : ℕ) (h : receivesData x.conn.state) :
    Steps e s₀ x (x.modify (·.drainReorderBuffer fuel)) := by
  induction fuel generalizing x with
  | zero => exact .refl
  | succ fuel ih =>
    cases hfind : x.conn.reorderBuffer.find? x.conn.recvNext with
    | none =>
      have : x.modify (·.drainReorderBuffer (fuel + 1)) = x := by
        simp only [Session.modify, drainReorderBuffer, hfind]
      rw [this]
      exact .refl
    | some buffered =>
      have : x.modify (·.drainReorderBuffer (fuel + 1)) =
          (x.modify (unblock buffered)).modify (·.drainReorderBuffer fuel) := by
        simp only [Session.modify, drainReorderBuffer, hfind, unblock]
      rw [this]
      exact (Steps.single (.unblock x buffered h hfind)).trans (ih _ h)

/-- The part of a payload that starts at `RCV.NXT`, and what it unblocks. -/
theorem deliverAndDrain_steps (h : receivesData x.conn.state)
    (hseen : (x.conn.recvNext - t.sequenceNumber).toNat < t.payload.length) : Steps (.segment t) s₀ x (x.modify
      (·.deliverAndDrain (t.payload.drop (x.conn.recvNext - t.sequenceNumber).toNat))) :=
  (Steps.single (.deliver x t rfl h hseen)).trans (drainReorderBuffer_steps (x.modify (·.deliver _)) _ h)

@[simp] theorem drainReorderBuffer_state (fuel : ℕ) (c : TcpConnection) :
    (c.drainReorderBuffer fuel).state = c.state := by
  induction fuel generalizing c with
  | zero => rfl
  | succ fuel ih =>
    rw [drainReorderBuffer]
    split
    · rfl
    · exact ih _

theorem deliverAndDrain_state (payload : Bytes) (c : TcpConnection) :
    (c.deliverAndDrain payload).state = c.state := drainReorderBuffer_state ..

theorem handlePayload_steps (hs : handlesAcks s₀) (h : receivesData x.conn.state) (hne : t.payload ≠ []) :
    Steps (.segment t) s₀ x (x.handlePayload t.sequenceNumber t.payload) := by
  unfold handlePayload
  dsimp only
  split_ifs with heq hahead hseen
  · have hdeliver : Steps (.segment t) s₀ x _ := deliverAndDrain_steps x h
      (by simpa [heq] using List.length_pos_iff.2 hne)
    simp only [heq, UInt32.sub_self, UInt32.toNat_zero, List.drop_zero] at hdeliver
    exact hdeliver.trans (scheduleOrSendAck_steps _ hs ((deliverAndDrain_state _ x.conn).symm ▸ h))
  · exact (Steps.single (.buffer x t rfl h hne)).tail (.ack _ (.inl hs))
  · exact (deliverAndDrain_steps x h hseen).tail (.ack _ (.inl hs))
  · exact .single (.ack x (.inl hs))

theorem handleFin_steps (hs : handlesAcks s₀) (hfin : t.fin) :
    Steps (.segment t) s₀ x (x.handleFin (t.sequenceNumber + UInt32.ofNat t.payload.length)) := by
  unfold handleFin
  split_ifs with htw hseq
  · exact (Steps.single (.ack x (.inl hs))).trans (.quiet rfl)
  · exact .single (.ack x (.inl hs))
  · exact .single (.consumeFin x t rfl hfin (not_not.1 hseq) hs htw)

theorem handleSynchronized_steps (hs : handlesAcks s₀) (h : handlesAcks x.conn.state) :
    Steps (.segment t) s₀ x (x.handleSynchronized t) := by
  unfold handleSynchronized
  dsimp only
  by_cases hpaws : pawsRejects x.conn t
  · rw [if_pos hpaws]
    exact .single (.ack x (.inl hs))
  rw [if_neg hpaws]
  have h₁ : Steps (.segment t) s₀ x (x.modify (recordTimestamp t)) := .quiet (core_recordTimestamp t _)
  have hstate₁ : handlesAcks (x.modify (recordTimestamp t)).conn.state :=
    (recordTimestamp_state t x.conn).symm ▸ h
  generalize x.modify (recordTimestamp t) = x₁ at *
  have h₂ : Steps (.segment t) s₀ x₁ (if t.ack then x₁.handleAck t else x₁) := by
    split_ifs with hack
    · exact handleAck_steps x₁ hack hstate₁
    · exact .refl
  generalize (if t.ack then x₁.handleAck t else x₁) = x₂ at *
  have h₃ : Steps (.segment t) s₀ x₂ (if receivesData x₂.conn.state ∧ t.payload ≠ [] then
      x₂.handlePayload t.sequenceNumber t.payload else x₂) := by
    split_ifs with hdata
    · exact handlePayload_steps x₂ hs hdata.1 hdata.2
    · exact .refl
  generalize (if receivesData x₂.conn.state ∧ t.payload ≠ [] then
    x₂.handlePayload t.sequenceNumber t.payload else x₂) = x₃ at *
  refine (h₁.trans (h₂.trans h₃)).trans ?_
  split_ifs with hfin
  · exact handleFin_steps _ hs hfin
  · exact .refl

theorem handleRst_steps {e : Event} : Steps e s₀ x (x.handleRst t) := by
  unfold handleRst
  dsimp only
  split_ifs
  · exact .refl
  · exact .single (.abort x)

theorem handleSynSent_steps (h : x.conn.state = .synSent) : Steps (.segment t) s₀ x (x.handleSynSent t) := by
  unfold handleSynSent
  split_ifs with hsyn
  · simp only [Bool.and_eq_true, decide_eq_true_eq] at hsyn
    exact (Steps.single (.establishActive x t rfl h hsyn.1.1 hsyn.1.2 hsyn.2)).tail
      (.ack _ (.inr (.inl rfl)))
  · exact .refl

theorem handleSynReceived_steps (h : x.conn.state = .synReceived) :
    Steps (.segment t) s₀ x (x.handleSynReceived t) := by
  unfold handleSynReceived
  split_ifs with hack
  · simp only [Bool.and_eq_true, decide_eq_true_eq] at hack
    exact .single (.establishPassive x t rfl h hack.1 hack.2)
  · exact .refl

theorem dispatch_steps : Steps (.segment t) x.conn.state x (x.dispatch t) := by
  unfold dispatch
  split_ifs
  · exact handleRst_steps x
  · split
    · next hstate => exact handleSynSent_steps x hstate
    · next hstate => exact handleSynReceived_steps x hstate
    · exact .refl
    · next h₁ h₂ h₃ => exact handleSynchronized_steps x ⟨h₁, h₂, h₃⟩ ⟨h₁, h₂, h₃⟩

theorem onSegment_steps : Steps (.segment t) x.conn.state x (x.onSegment t) :=
  ((Steps.quiet (f := (·.resetKeepalive)) rfl).tail (.receive _ t rfl)).trans
    (dispatch_steps (x.noteArrival t))

end OnSegment

/-! ### `on_time_passed` -/

section OnTimePassed

variable {e : Event} {s₀ : TcpState} (x : Session) (elapsedMs : UInt32)

theorem runDelayedAck_steps (hc : x.conn.state ≠ .closed) :
    Steps e s₀ x (x.runDelayedAck elapsedMs) ∧ (x.runDelayedAck elapsedMs).conn.state = x.conn.state := by
  unfold runDelayedAck
  dsimp only
  split_ifs with hpending
  · exact ⟨(Steps.quiet rfl).tail (.ack _ (.inr (.inr ⟨hpending, hc⟩))), rfl⟩
  · exact ⟨.quiet rfl, rfl⟩
  · exact ⟨.refl, rfl⟩

theorem runPersist_steps (hf : x.conn.inFlight = []) (hc : x.conn.state ≠ .closed)
    (ht : x.conn.state ≠ .timeWait) : Steps e s₀ x (x.runPersist elapsedMs) := by
  unfold runPersist
  split_ifs
  · exact (Steps.quiet rfl).trans
      ((sendZeroWindowProbe_steps (x.modify (agePersist elapsedMs)) hf hc ht).trans (.quiet rfl))
  · exact .quiet rfl

theorem retransmitOldest_steps {oldest : InFlightSegment} (hmem : oldest.flight ∈ x.conn.core.flight)
    (hsacked : oldest.sacked = false) (hc : x.conn.state ≠ .closed) :
    Steps e s₀ x (x.retransmitOldest oldest) := by
  refine (Steps.quiet (f := backOff) rfl).trans ?_
  refine (Steps.single (.retransmit (x.modify backOff) .timeoutRetransmit oldest.flight (.inr rfl)
    hmem hsacked hc)).trans (.quiet ?_)
  exact core_updateOldest (f := resent (backOff x.conn).rtoMs) (fun _ => rfl) (backOff x.conn)

theorem runRetransmit_steps (hc : x.conn.state ≠ .closed) : Steps e s₀ x (x.runRetransmit elapsedMs) := by
  unfold runRetransmit
  split
  · exact .refl
  · next oldest hold =>
    have hmem : oldest.flight ∈ x.conn.core.flight :=
      List.mem_map_of_mem (List.mem_of_find?_eq_some hold)
    have hsacked : oldest.sacked = false := by simpa using List.find?_some hold
    have hquiet (remaining : ℤ) (attempts : ℕ) :
        (x.conn.updateOldest (aged remaining attempts)).core = x.conn.core :=
      core_updateOldest (f := aged remaining attempts) (fun _ => rfl) x.conn
    dsimp only
    split_ifs
    · exact .quiet (hquiet _ _)
    · exact (Steps.quiet (hquiet _ _)).tail (.abort _)
    · refine (Steps.quiet (hquiet _ _)).trans (retransmitOldest_steps (x.modify _) ?_ hsacked hc)
      simpa only [Session.modify, hquiet] using hmem

theorem onTimePassed_steps : Steps e s₀ x (x.onTimePassed elapsedMs) := by
  unfold onTimePassed
  by_cases hc : x.conn.state = .closed
  · rw [if_pos hc]
    exact .refl
  rw [if_neg hc]
  dsimp only
  refine Steps.trans (.quiet (f := fun c => { c with nowMs := c.nowMs + elapsedMs.toUInt64 }) rfl) ?_
  generalize hy : (x.modify fun c => { c with nowMs := c.nowMs + elapsedMs.toUInt64 }) = y
  have hyc : y.conn.state ≠ .closed := by rw [← hy]; exact hc
  by_cases ht : y.conn.state = .timeWait
  · rw [if_pos ht]
    split_ifs
    · exact (Steps.quiet rfl).tail (.abort _)
    · exact .quiet rfl
  rw [if_neg ht]
  obtain ⟨hsteps, hstate⟩ : Steps e s₀ y _ ∧ _ := runDelayedAck_steps y elapsedMs hyc
  refine hsteps.trans ?_
  generalize y.runDelayedAck elapsedMs = z at *
  split_ifs with hf
  · exact runPersist_steps z elapsedMs hf (hstate ▸ hyc) (hstate ▸ ht)
  · exact runKeepalive_steps z elapsedMs
  · exact runRetransmit_steps z elapsedMs (hstate ▸ hyc)

end OnTimePassed

/-! ### The application's calls -/

@[simp] theorem placeChunk_state (chunk : Bytes) (x : Session) :
    (x.placeChunk chunk).conn.state = x.conn.state := by
  unfold placeChunk
  dsimp only
  split_ifs <;> rfl

@[simp] theorem placeChunk_effectiveMss (chunk : Bytes) (x : Session) :
    (x.placeChunk chunk).conn.effectiveMss = x.conn.effectiveMss := by
  unfold placeChunk
  dsimp only
  split_ifs <;> rfl

variable {rest data : Bytes}

/-- With an effective MSS of zero the loop of `send` makes no progress. -/
theorem sendLoop_eq_none {x : Session} (h : x.conn.effectiveMss.toNat = 0) (fuel : ℕ)
    (hrest : rest ≠ []) : x.sendLoop fuel rest = none := by
  induction fuel generalizing x with
  | zero => simp [sendLoop, hrest]
  | succ fuel ih =>
    simp only [sendLoop, hrest, if_false, h, List.drop_zero]
    exact ih (by simpa using h)

theorem sendLoop_steps {s₀ : TcpState} {x y : Session} (fuel : ℕ)
    (hstate : acceptsData x.conn.state) (h : x.sendLoop fuel rest = some y) : Steps (.send data) s₀ x y := by
  induction fuel generalizing x rest with
  | zero =>
    simp only [sendLoop, Option.ite_none_right_eq_some, Option.some.injEq] at h
    exact h.2 ▸ .refl
  | succ fuel ih =>
    by_cases hrest : rest = []
    · simp only [sendLoop, hrest, if_true, Option.some.injEq] at h
      exact h ▸ .refl
    · have hmss : x.conn.effectiveMss.toNat ≠ 0 := by
        intro h0
        rw [sendLoop_eq_none h0 _ hrest] at h
        cases h
      simp only [sendLoop, hrest, if_false] at h
      refine (Steps.single (.place x _ data rfl hstate ?_ ?_)).trans
        (ih (by simpa using hstate) h)
      · simp [hrest, hmss]
      · exact List.length_take_le _ _

theorem send_steps {s₀ : TcpState} {x y : Session} {n : ℕ} (h : x.send data = some (n, y)) :
    Steps (.send data) s₀ x y := by
  unfold send at h
  dsimp only at h
  split_ifs at h with hstate hzero
  · simp only [Option.some.injEq, Prod.mk.injEq] at h
    exact h.2 ▸ .refl
  · simp only [Option.some.injEq, Prod.mk.injEq] at h
    exact h.2 ▸ .refl
  · simp only [Option.map_eq_some_iff, Prod.mk.injEq] at h
    obtain ⟨z, hz, -, rfl⟩ := h
    have haccepts : acceptsData x.conn.state := by unfold acceptsData; tauto
    exact (sendLoop_steps _ haccepts hz).trans (.quiet (core_armOrDisarmPersist _))

/-- What one turn of the loop of `send` adds to the record. -/
theorem placeChunk_record (chunk : Bytes) (x : Session) : (x.placeChunk chunk).accepted = x.accepted ++ chunk ∧
      ∃ calls, (x.placeChunk chunk).sent = x.sent ++ calls ∧
        ∀ call ∈ calls, call.accepted = x.accepted := by
  unfold placeChunk
  dsimp only
  split_ifs
  · exact ⟨rfl, [], by simp [Session.modify], by simp⟩
  · exact ⟨rfl, [_], rfl, by simp⟩

/-- The loop of `send` accepts all it is given, in order: each segment goes out
when a prefix of it has been accepted. -/
theorem sendLoop_record {x y : Session} (fuel : ℕ) (h : x.sendLoop fuel rest = some y) :
    y.accepted = x.accepted ++ rest ∧
      ∃ calls, y.sent = x.sent ++ calls ∧
        ∀ call ∈ calls, ∃ n, call.accepted = x.accepted ++ rest.take n := by
  induction fuel generalizing x rest with
  | zero =>
    simp only [sendLoop, Option.ite_none_right_eq_some, Option.some.injEq] at h
    obtain ⟨rfl, rfl⟩ := h
    exact ⟨by simp, [], by simp, by simp⟩
  | succ fuel ih =>
    by_cases hrest : rest = []
    · simp only [sendLoop, hrest, if_true, Option.some.injEq] at h
      subst h hrest
      exact ⟨by simp, [], by simp, by simp⟩
    · simp only [sendLoop, hrest, if_false] at h
      set m := x.conn.effectiveMss.toNat
      obtain ⟨haccepted, calls, hsent, hcalls⟩ := placeChunk_record (rest.take m) x
      obtain ⟨haccepted', calls', hsent', hcalls'⟩ := ih h
      refine ⟨by simp [haccepted', haccepted], calls ++ calls', by simp [hsent', hsent], ?_⟩
      intro call hcall
      rcases List.mem_append.1 hcall with hcall | hcall
      · exact ⟨0, by simp [hcalls call hcall]⟩
      · obtain ⟨n, hn⟩ := hcalls' call hcall
        exact ⟨m + n, by rw [hn, haccepted, List.take_add, List.append_assoc]⟩

/-- **`send` accepts the first bytes of its argument, as many as it returns.** -/
theorem send_record {x y : Session} {n : ℕ} (h : x.send data = some (n, y)) :
    y.accepted = x.accepted ++ data.take n ∧
      ∃ calls, y.sent = x.sent ++ calls ∧
        ∀ call ∈ calls, ∃ m, call.accepted = x.accepted ++ data.take m := by
  unfold send at h
  dsimp only at h
  split_ifs at h with hstate hzero
  · simp only [Option.some.injEq, Prod.mk.injEq] at h
    obtain ⟨rfl, rfl⟩ := h
    exact ⟨by simp, [], by simp, by simp⟩
  · simp only [Option.some.injEq, Prod.mk.injEq] at h
    obtain ⟨rfl, rfl⟩ := h
    exact ⟨by simp, [], by simp, by simp⟩
  · simp only [Option.map_eq_some_iff, Prod.mk.injEq] at h
    obtain ⟨z, hz, rfl, rfl⟩ := h
    obtain ⟨haccepted, calls, hsent, hcalls⟩ := sendLoop_record _ hz
    refine ⟨haccepted, calls, hsent, fun call hcall => ?_⟩
    obtain ⟨m, hm⟩ := hcalls call hcall
    exact ⟨_, by rw [hm, List.take_take]⟩

theorem read_steps (maxBytes : ℕ) (x : Session) : Steps (.read maxBytes) x.conn.state x (x.read maxBytes) := by
  unfold Session.read
  dsimp only
  split_ifs with hopened
  · exact (Steps.single (.take x maxBytes rfl)).tail
      (.ack _ (.inl (handlesAcks_of_receivesData hopened.2.2)))
  · exact .single (.take x maxBytes rfl)

/-- **An event does nothing but its effects.** -/
theorem Event.run_steps {e : Event} {x y : Session} (h : e.run x = some y) : Steps e x.conn.state x y := by
  cases e with
  | segment t => exact Option.some.inj h ▸ onSegment_steps x
  | timePassed elapsedMs => exact Option.some.inj h ▸ onTimePassed_steps x elapsedMs
  | send data =>
    obtain ⟨⟨n, z⟩, hz, rfl⟩ := Option.map_eq_some_iff.1 h
    exact send_steps hz
  | read maxBytes => exact Option.some.inj h ▸ read_steps maxBytes x
  | close => exact Option.some.inj h ▸ close_steps x (by simp)
  | setKeepalive enabled => exact Option.some.inj h ▸ .quiet rfl
  | reduceEffectiveMss pathMss => exact Option.some.inj h ▸ .single (.lowerMss x pathMss rfl)
  | fail => exact Option.some.inj h ▸ .single (.abort x)

/-! ### What an effect sends -/

/-- The calls made between `x` and `y` all have `P`. -/
def Calls (P : Call → Prop) (x y : Session) : Prop :=
  ∃ calls, y.sent = x.sent ++ calls ∧ ∀ call ∈ calls, P call

section Calls

variable {P : Call → Prop} {x y z : Session} {call : Call}

theorem Calls.none (h : y.sent = x.sent) : Calls P x y :=
  ⟨[], by rw [h, List.append_nil], fun _ hcall => absurd hcall List.not_mem_nil⟩

theorem Calls.one (h : y.sent = x.sent ++ [call]) (hcall : P call) : Calls P x y :=
  ⟨[call], h, fun _ hother => List.mem_singleton.1 hother ▸ hcall⟩

theorem Calls.trans (h : Calls P x y) (h' : Calls P y z) : Calls P x z := by
  obtain ⟨calls, hsent, hcalls⟩ := h
  obtain ⟨calls', hsent', hcalls'⟩ := h'
  refine ⟨calls ++ calls', by rw [hsent', hsent, List.append_assoc], fun call hcall => ?_⟩
  exact (List.mem_append.1 hcall).elim (hcalls call) (hcalls' call)

end Calls

/-- A call made in `x`. -/
abbrev Session.callWith (x : Session) (site : CallSite) (header : Tcp) (payload : Bytes) : Call :=
  ⟨site, x.conn, x.entered, x.accepted, x.retired, header, payload⟩

/-- The call that an effect of `e` makes between `x` and `y`, with its guard. -/
inductive Emits (e : Event) (s₀ : TcpState) (x y : Session) : Call → Prop
  | ack : mayAck s₀ x.conn → Emits e s₀ x y
      (x.callWith .pureAck (sendOptions x.conn 0 (x.conn.buildHeader flagAck x.conn.sendNext)) [])
  /-- The ack of the peer's FIN goes out before the transition, or after it. -/
  | finAck (c entered) : handlesAcks s₀ → c.state = x.conn.state ∨ c.state = stateAfterFin x.conn.state →
      c.core = { x.conn.core with recvNext := x.conn.recvNext + 1, state := c.state } →
      y.conn.recvNext = c.recvNext → Emits e s₀ x y ({ x with conn := c, entered := entered }.callWith
        .pureAck (sendOptions c 0 (c.buildHeader flagAck c.sendNext)) [])
  | probe (front rest) : x.conn.sendQueue = front :: rest → x.conn.state ≠ .closed → Emits e s₀ x y
      (x.callWith .zeroWindowProbe (x.conn.buildHeader flagAck x.conn.sendNext) (front.take 1))
  | keepalive : x.conn.state = .established → Emits e s₀ x y
      (x.callWith .keepaliveProbe (x.conn.buildHeader flagAck (x.conn.sendNext - 1)) [])
  | retransmit (site s) : site = .fastRetransmit ∨ site = .timeoutRetransmit → s ∈ x.conn.core.flight →
      s.sacked = false → x.conn.state ≠ .closed →
      Emits e s₀ x y (x.callWith site (x.conn.buildHeader s.flags s.seq) s.payload)
  | drain (t front rest c) : e = .segment t → x.conn.sendQueue = front :: rest → handlesAcks x.conn.state →
      c = { x.conn with sendQueue := rest, sendQueuedBytes := x.conn.sendQueuedBytes - front.length } →
      Emits e s₀ x y ({ x with conn := c }.callWith .sendFlags
        (sendOptions c 0 (c.buildHeader (0 ||| flagAck) c.sendNext)) front)
  | place (chunk data) : e = .send data → acceptsData x.conn.state → mustQueue x.conn chunk = false →
      y = { x.sendFlags 0 chunk true with accepted := x.accepted ++ chunk } → Emits e s₀ x y
      (x.callWith .sendFlags (sendOptions x.conn 0 (x.conn.buildHeader (0 ||| flagAck) x.conn.sendNext)) chunk)
  | fin (z : Session) : (∀ data, e ≠ .send data) → acceptsData x.conn.state → x.conn.inFlight = [] →
      x.conn.sendQueue = [] → y = x.sendFin →
      z = x.transition (if x.conn.state = .established then .finWait1 else .lastAck) → Emits e s₀ x y
        (z.callWith .sendFlags
          (sendOptions z.conn flagFin (z.conn.buildHeader (flagFin ||| flagAck) z.conn.sendNext)) [])

/-- **An effect makes one call at most.** -/
theorem Effect.emits {e : Event} {s₀ : TcpState} {x y : Session} (h : Effect e s₀ x y) :
    y.sent = x.sent ∨ ∃ call, y.sent = x.sent ++ [call] ∧ Emits e s₀ x y call := by
  cases h with
  | ack hmay => exact .inr ⟨_, rfl, .ack hmay⟩
  | probe front rest hqueue _ hclosed => exact .inr ⟨_, rfl, .probe front rest hqueue hclosed⟩
  | keepalive hstate => exact .inr ⟨_, rfl, .keepalive hstate⟩
  | retransmit site s hsite hs hsacked hclosed => exact .inr ⟨_, rfl, .retransmit site s hsite hs hsacked hclosed⟩
  | drain t front rest hsegment hqueue _ hacks =>
    exact .inr ⟨_, rfl, .drain t front rest _ hsegment hqueue hacks rfl⟩
  | place chunk data hsend hstate =>
    by_cases hmust : mustQueue x.conn chunk = true
    · exact .inl (by simp [placeChunk, hmust, Session.modify])
    · have hplaced : x.placeChunk chunk = { x.sendFlags 0 chunk true with accepted := x.accepted ++ chunk } := by
        rw [placeChunk, if_neg hmust]
        rfl
      exact .inr ⟨_, by rw [hplaced]; rfl, .place chunk data hsend hstate (Bool.eq_false_iff.2 hmust) hplaced⟩
  | fin hsend hstate hflight hqueue => exact .inr ⟨_, rfl, .fin _ hsend hstate hflight hqueue rfl rfl⟩
  | slide t =>
    unfold Session.slide
    split <;> exact .inl rfl
  | consumeFin t _ _ _ hacks =>
    obtain ⟨-, heq⟩ | ⟨c, entered, hstate, hcore, hcore', heq⟩ := consumeFin_cases x
    · exact .inl (by rw [heq]; rfl)
    · refine .inr ⟨_, by rw [heq], .finAck c entered hacks hstate hcore ?_⟩
      exact (congrArg Core.recvNext hcore').trans (congrArg Core.recvNext hcore).symm
  | quiet | receive | holdAck | scoreboard | window | deliver | unblock | buffer
  | establishActive | establishPassive | abort | take | lowerMss => exact .inl rfl

theorem Effect.calls {e : Event} {s₀ : TcpState} {x y : Session} {P : Call → Prop} (h : Effect e s₀ x y)
    (hP : ∀ call, Emits e s₀ x y call → P call) : Calls P x y := by
  rcases h.emits with hsame | ⟨call, hsent, hemits⟩
  · exact .none hsame
  · exact .one hsent (hP call hemits)

theorem Effect.sent_prefix {e : Event} {s₀ : TcpState} {x y : Session} (h : Effect e s₀ x y) :
    x.sent <+: y.sent := by
  obtain ⟨calls, hsent, -⟩ := h.calls fun _ _ => trivial
  exact ⟨calls, hsent.symm⟩

end TcpIpStack
