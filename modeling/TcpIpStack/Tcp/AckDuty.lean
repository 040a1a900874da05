/-
# The duty to acknowledge

Between two events, a connection past its handshake has told the peer its
`RCV.NXT` with the last segment it sent, or a delayed ack is running and will.
What an event does about this is one of three things (`AckOutcome`): something is
sent after `RCV.NXT` has last moved; data in order has arrived and its ack is
held back; or nothing of the kind, and a delayed ack has only come closer.

Every function of the source leads to one of these, with one exception: a FIN at
`RCV.NXT` in a state that has seen the peer's FIN moves `RCV.NXT` and sends
nothing.  It takes a peer that puts FINs at two places, so for the others
`ack_obligation` holds: nothing stays unacknowledged for 200 ms, and never more
than one segment.
-/

import TcpIpStack.Lib.Runs
import TcpIpStack.Tcp.FinExchange
import TcpIpStack.Tcp.Inbox

namespace TcpIpStack

open TcpConnection Session Runs

/-- The last segment sent carries `RCV.NXT` in its ack field. -/
def Told (x : Session) : Prop :=
  ∃ call, x.sent.getLast? = some call ∧ call.header.acknowledgementNumber = x.conn.recvNext

/-- What happens to the duty from `x` to `y`, while `elapsed` milliseconds pass. -/
inductive AckOutcome (elapsed : ℤ) (x y : Session) : Prop
  | told : Told y → x.sent.length < y.sent.length → AckOutcome elapsed x y
  | held : y.conn.ackTimer = (true, delayedAckMs) → x.sent.length ≤ y.sent.length →
      (x.conn.ackPending = false ∨ x.sent.length < y.sent.length) → AckOutcome elapsed x y
  | kept : y.conn.recvNext = x.conn.recvNext → y.sent = x.sent → y.conn.ackPending = x.conn.ackPending →
      (x.conn.ackPending →
        y.conn.ackDelayMsRemaining = x.conn.ackDelayMsRemaining - elapsed ∧
          (0 < elapsed → 0 < y.conn.ackDelayMsRemaining)) → AckOutcome elapsed x y

section Outcome

variable {x y z : Session} {t : Tcp} {elapsed : ℤ}

theorem told_of_append {calls : List Call} (hsent : y.sent = x.sent ++ calls) (hne : calls ≠ [])
    (hcalls : ∀ call ∈ calls, call.header.acknowledgementNumber = y.conn.recvNext) : Told y := by
  refine ⟨calls.getLast hne, ?_, hcalls _ (List.getLast_mem hne)⟩
  rw [hsent, List.getLast?_append, List.getLast?_eq_some_getLast hne, Option.some_or]

theorem AckOutcome.of_conn (hnext : y.conn.recvNext = x.conn.recvNext) (hsent : y.sent = x.sent)
    (htimer : y.conn.ackTimer = x.conn.ackTimer) : AckOutcome 0 x y := by
  refine .kept hnext hsent (congrArg Prod.fst htimer) fun _ => ⟨?_, fun h => absurd h (lt_irrefl _)⟩
  rw [Int.sub_zero]
  exact congrArg Prod.snd htimer

theorem AckOutcome.refl (x : Session) : AckOutcome 0 x x := .of_conn rfl rfl rfl

theorem AckOutcome.of_outgoing (h : Outgoing x y) : AckOutcome 0 x y := by
  obtain ⟨hinbox, calls, hsent, hcalls, htimer⟩ := h
  have hnext : y.conn.recvNext = x.conn.recvNext := congrArg Inbox.recvNext hinbox
  rcases List.eq_nil_or_concat' calls with rfl | ⟨init, last, rfl⟩
  · refine .of_conn hnext (by rw [hsent, List.append_nil]) ?_
    exact htimer.resolve_right fun hcleared => hcleared.2 rfl
  · refine .told (told_of_append hsent (by simp) fun call hcall => ?_) (by rw [hsent]; simp)
    rw [hnext]
    exact (hcalls call hcall).ack

theorem AckOutcome.length_le (h : AckOutcome elapsed x y) : x.sent.length ≤ y.sent.length := by
  cases h with
  | told _ hlt => exact hlt.le
  | held _ hle => exact hle
  | kept _ hsent => rw [hsent]

/-- One thing after the other, the time passing in the first. -/
theorem AckOutcome.trans (h : AckOutcome elapsed x y) (h' : AckOutcome 0 y z) : AckOutcome elapsed x z := by
  have hle := h.length_le
  cases h' with
  | told htold hlt => exact .told htold (by omega)
  | held htimer hle' hfree =>
    refine .held htimer (by omega) ?_
    cases h with
    | told _ hlt => exact .inr (by omega)
    | held htimer₁ _ _ =>
      have hpending : y.conn.ackPending = true := congrArg Prod.fst htimer₁
      rw [hpending] at hfree
      exact .inr (by have := hfree.resolve_left (by simp); omega)
    | kept _ hsent hpending =>
      rw [hpending, hsent] at hfree
      exact hfree
  | kept hnext hsent hpending hdelay =>
    cases h with
    | told htold hlt =>
      obtain ⟨call, hlast, hack⟩ := htold
      exact .told ⟨call, by rw [hsent, hlast], by rw [hack, hnext]⟩ (by rw [hsent]; exact hlt)
    | held htimer₁ _ hfree =>
      have hpending₁ : y.conn.ackPending = true := congrArg Prod.fst htimer₁
      have hremaining : z.conn.ackDelayMsRemaining = y.conn.ackDelayMsRemaining := by
        rw [(hdelay hpending₁).1, Int.sub_zero]
      refine .held ?_ (by rw [hsent]; exact hle) (by rw [hsent]; exact hfree)
      rw [ackTimer, hpending, hremaining]
      exact htimer₁
    | kept hnext₁ hsent₁ hpending₁ hdelay₁ =>
      refine .kept (hnext.trans hnext₁) (hsent.trans hsent₁) (hpending.trans hpending₁) fun hx => ?_
      have hremaining : z.conn.ackDelayMsRemaining = y.conn.ackDelayMsRemaining := by
        rw [(hdelay (hpending₁.trans hx)).1, Int.sub_zero]
      rw [hremaining]
      exact hdelay₁ hx

/-! ### The functions -/

theorem outcome_sendPureAck (hsent : y.sent = x.sent) : AckOutcome elapsed x y.sendPureAck := by
  have hrecord : y.sendPureAck.sent = x.sent ++ [_] := congrArg (· ++ [_]) hsent
  refine .told (told_of_append hrecord (by simp) fun call hcall => ?_) (by rw [hrecord]; simp)
  rw [List.mem_singleton.1 hcall]
  exact (carries_sendOptions y .pureAck 0 _ _ []).ack

/-- Whatever a payload does, it is followed by an ack or by the delay of one. -/
theorem outcome_handlePayload (seq : UInt32) (payload : Bytes) (x : Session) :
    AckOutcome 0 x (x.handlePayload seq payload) := by
  have hpending (c : TcpConnection) (fuel : ℕ) : (c.drainReorderBuffer fuel).ackPending = c.ackPending := by
    induction fuel generalizing c with
    | zero => rfl
    | succ fuel ih =>
      rw [drainReorderBuffer]
      split
      · rfl
      · exact (ih _).trans rfl
  unfold handlePayload
  dsimp only
  split_ifs
  · unfold scheduleOrSendAck
    split_ifs with hheld
    · exact outcome_sendPureAck rfl
    · refine .held rfl le_rfl (.inl ?_)
      have hsame : (x.modify (·.deliverAndDrain payload)).conn.ackPending = x.conn.ackPending := hpending ..
      rw [hsame] at hheld
      simpa using hheld
  all_goals exact outcome_sendPureAck rfl

theorem outcome_handleFin (finSeq : UInt32) (x : Session)
    (h : finSeq = x.conn.recvNext → receivesData x.conn.state) : AckOutcome 0 x (x.handleFin finSeq) := by
  unfold handleFin
  split_ifs with hwait hseq
  · exact (outcome_sendPureAck rfl).trans (.of_conn rfl rfl rfl)
  · exact outcome_sendPureAck rfl
  · have hreceives := h (not_not.1 hseq)
    unfold consumeFin
    split
    · exact outcome_sendPureAck rfl
    · exact (outcome_sendPureAck (x := x) (y := x.modify advancePastFin) rfl).trans (.of_conn rfl rfl rfl)
    · exact (outcome_sendPureAck (x := x) (y := x.modify advancePastFin) rfl).trans (.of_conn rfl rfl rfl)
    · next h₁ h₂ h₃ =>
      simp only [receivesData, Bool.or_eq_true, decide_eq_true_eq] at hreceives
      rcases hreceives with (hstate | hstate) | hstate
      exacts [absurd hstate h₁, absurd hstate h₃, absurd hstate h₂]

theorem outcome_ackStage (t : Tcp) (x : Session) : AckOutcome 0 x (x.ackStage t) := by
  have hstamped : AckOutcome 0 x (x.modify (recordTimestamp t)) := by
    unfold Session.modify recordTimestamp
    split
    · split_ifs <;> exact .of_conn rfl rfl rfl
    · exact .of_conn rfl rfl rfl
  unfold ackStage
  dsimp only
  split_ifs
  · exact hstamped.trans (.of_outgoing (outgoing_handleAck t _))
  · exact hstamped

theorem outcome_payloadStage (t : Tcp) (x : Session) : AckOutcome 0 x (x.payloadStage t) := by
  unfold payloadStage
  dsimp only
  split_ifs
  · exact (outcome_ackStage t x).trans (outcome_handlePayload ..)
  · exact outcome_ackStage t x

theorem outcome_runDelayedAck (elapsedMs : UInt32) (x : Session) :
    AckOutcome (asInt elapsedMs) x (x.runDelayedAck elapsedMs) := by
  unfold runDelayedAck
  split_ifs with hpending
  · dsimp only
    split_ifs with hdue
    · exact outcome_sendPureAck rfl
    · exact .kept rfl rfl rfl fun _ => ⟨rfl, fun _ => not_le.1 hdue⟩
  · exact .kept rfl rfl rfl fun h => absurd h hpending

end Outcome

/-! ### After the peer's FIN -/

/-- Once the peer has finished, `RCV.NXT` is past its FIN and no ack is held
back. -/
def Quiesced (finSeq : UInt32) (c : TcpConnection) : Prop :=
  handlesAcks c.state → receivesData c.state = false → c.recvNext = finSeq + 1 ∧ c.ackPending = false

/-- The FIN of a segment, if it has one, is at this place. -/
def Event.FinAt (finSeq : UInt32) : Event → Prop
  | .segment t => t.fin → t.sequenceNumber + UInt32.ofNat t.payload.length = finSeq
  | _ => True

instance (finSeq : UInt32) (e : Event) : Decidable (e.FinAt finSeq) :=
  match e with
  | .segment _ => inferInstanceAs (Decidable (_ → _))
  | .timePassed _ | .send _ | .read _ | .close | .setKeepalive _ | .reduceEffectiveMss _ | .fail =>
    isTrue trivial

section Quiesced

variable {e : Event} {s₀ : TcpState} {x y : Session} {finSeq : UInt32} {c c' : TcpConnection}

theorem Quiesced.congr (h : Quiesced finSeq c) (hstate : handlesAcks c'.state → receivesData c'.state = false →
      handlesAcks c.state ∧ receivesData c.state = false)
    (hnext : c'.recvNext = c.recvNext) (hpending : c.ackPending = false → c'.ackPending = false) :
    Quiesced finSeq c' := by
  intro hacks hreceives
  obtain ⟨hacks', hreceives'⟩ := hstate hacks hreceives
  obtain ⟨hseq, hfree⟩ := h hacks' hreceives'
  exact ⟨hnext.trans hseq, hpending hfree⟩

theorem quiesced_of_receives (h : receivesData c.state) : Quiesced finSeq c := by
  intro _ hreceives
  rw [h] at hreceives
  cases hreceives

theorem quiesced_consumeFin (h : Quiesced finSeq x.conn) (hseq : x.conn.recvNext = finSeq) :
    Quiesced finSeq x.consumeFin.conn := by
  obtain ⟨hsame, heq⟩ | ⟨c, entered, -, -, hcore, -⟩ := consumeFin_cases x
  · -- the FIN is not where the first one was
    rw [heq]
    intro hacks hreceives
    have hnext : finSeq = finSeq + 1 := hseq.symm.trans (h hacks hreceives).1
    exact absurd (congrArg (· - finSeq) hnext) (by simp)
  · exact fun _ _ => ⟨(congrArg Core.recvNext hcore).trans (congrArg (· + 1) hseq),
      congrArg Core.ackPending hcore⟩

theorem quiesced_slide (h : Quiesced finSeq x.conn) (t : Tcp) : Quiesced finSeq (x.slide t).conn := by
  have hcore := core_retireAcked t x
  have hnext : (x.retireAcked t).conn.recvNext = x.conn.recvNext := congrArg Core.recvNext hcore
  have hpending : (x.retireAcked t).conn.ackPending = x.conn.ackPending := congrArg Core.ackPending hcore
  have hstate : (x.retireAcked t).conn.state = x.conn.state := congrArg Core.state hcore
  obtain ⟨newState, hfin, heq⟩ | heq := slide_cases t x
  · rw [heq]
    refine h.congr (fun hacks hreceives => ?_) hnext fun hfree => hpending.trans hfree
    change handlesAcks newState at hacks
    change receivesData newState = false at hreceives
    rcases hfin with ⟨hx, rfl⟩ | ⟨hx, rfl⟩ | ⟨hx, rfl⟩
    · cases hreceives
    · rw [hx]
      exact ⟨⟨by decide, by decide, by decide⟩, rfl⟩
    · exact absurd rfl hacks.2.2
  · rw [heq]
    exact h.congr (by rw [hstate]; exact And.intro) hnext fun hfree => hpending.trans hfree

theorem Effect.quiesced (he : Effect e s₀ x y) (hfin : e.FinAt finSeq) (h : Quiesced finSeq x.conn) :
    Quiesced finSeq y.conn := by
  have hsame {c' : TcpConnection} (hstate : c'.state = x.conn.state) (hnext : c'.recvNext = x.conn.recvNext)
      (hpending : x.conn.ackPending = false → c'.ackPending = false) : Quiesced finSeq c' :=
    h.congr (by rw [hstate]; exact And.intro) hnext hpending
  cases he with
  | quiet c hcore =>
    exact hsame (congrArg Core.state hcore).symm (congrArg Core.recvNext hcore).symm
      fun hfree => (congrArg Core.ackPending hcore).symm.trans hfree
  | scoreboard t =>
    obtain ⟨flight, bytes, heq⟩ := applySackBlocks_eq t x.conn
    have hconn : (x.modify fun c => (c.applySackBlocks t).1).conn = (x.conn.applySackBlocks t).1 := rfl
    rw [hconn, heq]
    exact hsame rfl rfl id
  | place chunk =>
    unfold placeChunk
    dsimp only
    split_ifs
    · exact hsame rfl rfl id
    · exact hsame rfl rfl fun _ => rfl
  | fin _ hstate =>
    refine h.congr (fun hacks hreceives => ?_) rfl fun _ => rfl
    change receivesData (if x.conn.state = .established then .finWait1 else .lastAck) = false at hreceives
    rcases hstate with hstate | hstate
    · rw [hstate] at hreceives
      cases hreceives
    · rw [hstate]
      exact ⟨⟨by decide, by decide, by decide⟩, rfl⟩
  | slide t => exact quiesced_slide h t
  | consumeFin t ht hhas hseq =>
    subst ht
    exact quiesced_consumeFin h (hseq.symm.trans (hfin hhas))
  | buffer t =>
    unfold Session.modify bufferOutOfOrder
    dsimp only
    split_ifs <;> exact hsame rfl rfl id
  | lowerMss pathMss =>
    unfold Session.modify Session.reduceEffectiveMss
    dsimp only
    split_ifs <;> exact hsame rfl rfl id
  | deliver t _ hreceives => exact quiesced_of_receives hreceives
  | unblock buffered hreceives => exact quiesced_of_receives hreceives
  | holdAck hreceives => exact quiesced_of_receives hreceives
  | establishActive => exact quiesced_of_receives rfl
  | establishPassive => exact quiesced_of_receives rfl
  | abort => exact fun hacks _ => absurd rfl hacks.2.2
  | ack | drain => exact hsame rfl rfl fun _ => rfl
  | receive | probe | keepalive | retransmit | window | take => exact hsame rfl rfl id

theorem Event.run_quiesced (he : e.run x = some y) (hfin : e.FinAt finSeq) (h : Quiesced finSeq x.conn) :
    Quiesced finSeq y.conn :=
  (Event.run_steps he).preserves (P := fun z => Quiesced finSeq z.conn)
    (fun _ _ heff hz => heff.quiesced hfin hz) h

end Quiesced

/-! ### Every event -/

/-- The time an event takes, in milliseconds. -/
def Event.elapsed : Event → ℕ
  | .timePassed elapsedMs => elapsedMs.toNat
  | _ => 0

section Events

variable {e : Event} {x y : Session} {t : Tcp} {finSeq : UInt32}

theorem outcome_handleSynchronized (hacks : handlesAcks x.conn.state) (hquiet : Quiesced finSeq x.conn)
    (hfin : (Event.segment t).FinAt finSeq) : AckOutcome 0 x (x.handleSynchronized t) := by
  cases hpaws : pawsRejects x.conn t with
  | true =>
    unfold handleSynchronized
    rw [if_pos hpaws]
    exact outcome_sendPureAck rfl
  | false =>
    rw [handleSynchronized_eq hpaws]
    split_ifs with hhas
    · refine (outcome_payloadStage t x).trans (outcome_handleFin _ _ fun hseq => ?_)
      rw [receivesData_payloadStage]
      by_contra hreceives
      have hfalse : receivesData x.conn.state = false := by simpa using hreceives
      -- nothing was delivered, so this is the FIN that was consumed
      have hnext : (x.payloadStage t).conn.recvNext = x.conn.recvNext := by
        have hinbox := congrArg Inbox.recvNext (inbox_payloadStage t x)
        rw [hfalse] at hinbox
        refine hinbox.trans ?_
        unfold Inbox.arrive
        dsimp only
        rw [if_neg Bool.false_ne_true, if_neg (by simp)]
        unfold Inbox.stamp
        split
        · split_ifs <;> rfl
        · rfl
      rw [hnext, (hquiet hacks hfalse).1, hfin hhas] at hseq
      exact absurd (congrArg (· - finSeq) hseq) (by simp)
    · exact outcome_payloadStage t x

theorem outcome_onSegment (hquiet : Quiesced finSeq x.conn) (hfin : (Event.segment t).FinAt finSeq) :
    AckOutcome 0 x (x.onSegment t) := by
  have harrived : AckOutcome 0 x (x.noteArrival t) := .of_conn rfl rfl rfl
  refine harrived.trans ?_
  unfold onSegment dispatch
  split_ifs
  · unfold handleRst
    dsimp only
    split_ifs <;> exact .of_conn rfl rfl rfl
  · split
    · unfold handleSynSent
      split_ifs
      · exact outcome_sendPureAck rfl
      · exact .refl _
    · unfold handleSynReceived
      split_ifs <;> exact .of_conn rfl rfl rfl
    · exact .refl _
    · next h₁ h₂ h₃ => exact outcome_handleSynchronized ⟨h₁, h₂, h₃⟩ hquiet hfin

theorem outcome_onTimePassed {elapsedMs : UInt32} (hclosed : x.conn.state ≠ .closed)
    (hquiet : Quiesced finSeq x.conn) : AckOutcome (asInt elapsedMs) x (x.onTimePassed elapsedMs) := by
  have hfree (hwait : x.conn.state = .timeWait) : x.conn.ackPending = false :=
    (hquiet (by rw [hwait]; exact ⟨by decide, by decide, by decide⟩) (by rw [hwait]; rfl)).2
  have hdelayed := outcome_runDelayedAck elapsedMs
    (x.modify fun c => { c with nowMs := c.nowMs + elapsedMs.toUInt64 })
  have hticked : AckOutcome (asInt elapsedMs) x
      ((x.modify fun c => { c with nowMs := c.nowMs + elapsedMs.toUInt64 }).runDelayedAck elapsedMs) := by
    cases hdelayed with
    | told htold hlt => exact .told htold hlt
    | held htimer hle hpending => exact .held htimer hle hpending
    | kept hnext hsent hpending hdelay => exact .kept hnext hsent hpending hdelay
  unfold onTimePassed
  rw [if_neg hclosed]
  dsimp only
  split_ifs with hwait
  · exact .kept rfl rfl rfl fun hpending => absurd hpending (by simp [hfree hwait])
  · exact .kept rfl rfl rfl fun hpending => absurd hpending (by simp [hfree hwait])
  · exact hticked.trans (.of_outgoing (outgoing_runPersist ..))
  · exact hticked.trans (.of_outgoing (outgoing_runKeepalive ..))
  · exact hticked.trans (.of_outgoing (outgoing_runRetransmit ..))

/-- **What every event does about the duty.** -/
theorem Event.run_outcome (he : e.run x = some y) (hclosed : x.conn.state ≠ .closed)
    (hquiet : Quiesced finSeq x.conn) (hfin : e.FinAt finSeq) (helapsed : e.elapsed < 2 ^ 31) :
    AckOutcome e.elapsed x y := by
  cases e with
  | segment t => exact Option.some.inj he ▸ outcome_onSegment hquiet hfin
  | timePassed elapsedMs =>
    have hint : asInt elapsedMs = ((Event.timePassed elapsedMs).elapsed : ℤ) := asInt_of_lt helapsed
    exact hint ▸ Option.some.inj he ▸ outcome_onTimePassed hclosed hquiet
  | send data => exact .of_outgoing (outgoing_send he)
  | read maxBytes =>
    rw [← Option.some.inj he]
    unfold Session.read
    dsimp only
    split_ifs
    · exact (outcome_sendPureAck (x := x) (y := x.modify _) rfl).trans (.of_conn rfl rfl rfl)
    · exact .of_conn rfl rfl rfl
  | close => exact Option.some.inj he ▸ .of_outgoing (outgoing_close x)
  | setKeepalive enabled => exact Option.some.inj he ▸ .of_conn rfl rfl rfl
  | reduceEffectiveMss pathMss =>
    rw [← Option.some.inj he]
    unfold Session.modify Session.reduceEffectiveMss
    dsimp only
    split_ifs <;> exact .of_conn rfl rfl rfl
  | fail => exact Option.some.inj he ▸ .of_conn rfl rfl rfl

end Events

/-! ### The flag -/

/-- Past the handshake of an active open, the last segment sent has the ACK flag. -/
def Flagged (x : Session) : Prop :=
  x.conn.state ≠ .synSent → x.conn.state ≠ .closed → ∀ call ∈ x.sent.getLast?, call.header.ack = true

section Flagged

variable {e : Event} {s₀ : TcpState} {x y : Session} {isn : UInt32}

theorem buildHeader_ack (c : TcpConnection) (flags : UInt8) (seq : UInt32) :
    (c.buildHeader flags seq).ack = hasFlag flags flagAck := rfl

theorem sendOptions_ack (c : TcpConnection) (flags : UInt8) (header : Tcp) :
    (sendOptions c flags header).ack = header.ack := by
  unfold Session.sendOptions
  split_ifs <;> rfl

theorem flight_ack (h : x.Kept isn) (hsent : x.conn.state ≠ .synSent) (hclosed : x.conn.state ≠ .closed)
    {s : Flight} (hs : s ∈ x.conn.core.flight) : hasFlag s.flags flagAck := by
  have hphase := h.phase
  have hstate : x.conn.core.state = x.conn.state := rfl
  unfold Phase at hphase
  rw [hstate] at hphase
  cases hx : x.conn.state <;> simp only [hx, sendPhase] at hphase
  case synSent => exact absurd hx hsent
  case closed => exact absurd hx hclosed
  case synReceived =>
    rw [hphase.flight, List.mem_singleton] at hs
    rw [hs]
    exact (by decide : hasFlag (flagSyn ||| flagAck) flagAck = true)
  case established | closeWait =>
    obtain ⟨-, -, -, hflags⟩ := hphase.tiles.mem hs
    rw [hflags]
    decide
  case finWait1 | closing | lastAck =>
    obtain ⟨sacked, hflight⟩ := hphase.flight
    rw [hflight, List.mem_singleton] at hs
    rw [hs]
    exact (by decide : hasFlag (flagFin ||| flagAck) flagAck = true)
  case finWait2 | timeWait =>
    rw [hphase.flight] at hs
    exact absurd hs List.not_mem_nil

theorem Effect.calls_flagged (he : Effect e s₀ x y) (h : x.Kept isn) (hsent : x.conn.state ≠ .synSent) :
    Calls (·.header.ack = true) x y := by
  have hoptions (c : TcpConnection) {flags fullFlags : UInt8} (hflag : hasFlag fullFlags flagAck = true) :
      (sendOptions c flags (c.buildHeader fullFlags c.sendNext)).ack = true := by
    rw [sendOptions_ack, buildHeader_ack, hflag]
  refine he.calls fun call hcall => ?_
  cases hcall with
  | ack => exact hoptions _ (by decide)
  | finAck c => exact hoptions c (by decide)
  | probe | keepalive => exact (by decide : hasFlag flagAck flagAck = true)
  | retransmit site s _ hs _ hclosed => exact flight_ack h hsent hclosed hs
  | drain | place | fin => exact hoptions _ (by decide)

theorem getLast_append_calls {calls : List Call} (hsent : y.sent = x.sent ++ calls)
    (hcalls : ∀ call ∈ calls, call.header.ack = true) (h : ∀ call ∈ x.sent.getLast?, call.header.ack = true) :
    ∀ call ∈ y.sent.getLast?, call.header.ack = true := by
  intro call hcall
  rw [hsent, List.getLast?_append] at hcall
  cases hlast : calls.getLast? with
  | none => exact h call (by simpa [hlast] using hcall)
  | some last =>
    obtain rfl : last = call := by simpa [hlast] using hcall
    exact hcalls last (List.mem_of_getLast? hlast)

theorem Event.run_flagged (he : e.run x = some y) (hkept : x.Kept isn) (h : Flagged x) : Flagged y := by
  by_cases hclosed : x.conn.state = .closed
  · exact fun _ hy => absurd (Event.run_closed he hclosed) hy
  by_cases hsyn : x.conn.state = .synSent
  · intro hy hy'
    by_cases hsegment : ∃ t, e = .segment t
    · -- the segment that completes the handshake is answered
      obtain ⟨t, rfl⟩ := hsegment
      rw [← Option.some.inj he] at hy hy' ⊢
      have hstate : (x.noteArrival t).conn.state = .synSent := hsyn
      unfold onSegment dispatch at hy hy' ⊢
      split_ifs at hy hy' ⊢ with hrst
      · unfold handleRst at hy'
        rw [if_neg (by simp [hstate])] at hy'
        exact absurd rfl hy'
      · rw [hstate] at hy ⊢
        dsimp only at hy ⊢
        unfold handleSynSent at hy ⊢
        split_ifs at hy ⊢ with hanswered
        · intro call hcall
          have hlast := Option.mem_some.1 (List.getLast?_concat ▸ hcall)
          rw [← hlast]
          show (sendOptions _ 0 _).ack = true
          rw [sendOptions_ack, buildHeader_ack]
          decide
        · exact absurd hstate hy
    · rcases Event.run_synSent he (fun t ht => hsegment ⟨t, ht⟩) (.inl hsyn) with hsame | hdone
      · exact absurd hsame hy
      · exact absurd hdone hy'
  · intro _ _
    refine ((Event.run_steps he).preserves
      (P := fun z => z.Kept isn ∧ z.conn.state ≠ .synSent ∧
        ∀ call ∈ z.sent.getLast?, call.header.ack = true) (fun z w heff hz => ?_)
      ⟨hkept, hsyn, h hsyn hclosed⟩).2.2
    obtain ⟨calls, hsent, hcalls⟩ := heff.calls_flagged hz.1 hz.2.1
    exact ⟨hz.1.effect heff, heff.ne_synSent hz.2.1, getLast_append_calls hsent hcalls hz.2.2⟩

end Flagged

/-! ### Every run -/

/-- The last segment sent acknowledges everything up to `RCV.NXT`. -/
def Acked (x : Session) : Prop :=
  ∃ call, x.sent.getLast? = some call ∧ call.header.ack = true ∧
    call.header.acknowledgementNumber = x.conn.recvNext

/-- A delayed ack is running. -/
def AckHeld (c : TcpConnection) : Prop :=
  c.ackPending ∧ 0 < c.ackDelayMsRemaining ∧ c.ackDelayMsRemaining ≤ 200

/-- The peer's FIN is in one place only, and the clock is reported in time. -/
def Event.Regular (finSeq : UInt32) (e : Event) : Prop := e.FinAt finSeq ∧ e.elapsed < 2 ^ 31

instance (finSeq : UInt32) (e : Event) : Decidable (e.Regular finSeq) := inferInstanceAs (Decidable (_ ∧ _))

/-- What is known of the duty in every state. -/
structure Dutiful (isn finSeq : UInt32) (x : Session) : Prop where
  kept : x.Kept isn
  quiet : Quiesced finSeq x.conn
  flagged : Flagged x
  owes : x.conn.state ≠ .closed → Told x ∨ AckHeld x.conn

section Dutiful

variable {e : Event} {x y z : Session} {isn finSeq : UInt32}

theorem Dutiful.acked (h : Dutiful isn finSeq x) (hsent : x.conn.state ≠ .synSent)
    (hclosed : x.conn.state ≠ .closed) (htold : Told x) : Acked x := by
  obtain ⟨call, hlast, hack⟩ := htold
  exact ⟨call, hlast, h.flagged hsent hclosed call hlast, hack⟩

theorem Dutiful.run (h : Dutiful isn finSeq x) (hregular : e.Regular finSeq) (he : e.run x = some y) :
    Dutiful isn finSeq y := by
  refine ⟨(Event.run_steps he).preserves (P := Session.Kept isn) (fun _ _ heff hz => hz.effect heff) h.kept,
    Event.run_quiesced he hregular.1 h.quiet, Event.run_flagged he h.kept h.flagged, fun hy => ?_⟩
  have hx : x.conn.state ≠ .closed := fun hx => hy (Event.run_closed he hx)
  cases Event.run_outcome he hx h.quiet hregular.1 hregular.2 with
  | told htold => exact .inl htold
  | held htimer =>
    have hpending : y.conn.ackPending = true := congrArg Prod.fst htimer
    have hdelay : y.conn.ackDelayMsRemaining = 200 := congrArg Prod.snd htimer
    exact .inr ⟨hpending, by rw [hdelay]; decide, by rw [hdelay]⟩
  | kept hnext hsent hpending hdelay =>
    rcases h.owes hx with ⟨call, hlast, hack⟩ | ⟨hheld, hpos, hle⟩
    · exact .inl ⟨call, by rw [hsent, hlast], by rw [hack, hnext]⟩
    · obtain ⟨hremaining, hstill⟩ := hdelay hheld
      refine .inr ⟨hpending.trans hheld, ?_, by omega⟩
      rcases Nat.eq_zero_or_pos e.elapsed with hzero | hlater
      · rw [hzero] at hremaining
        omega
      · exact hstill (by exact_mod_cast hlater)

/-- The time a list of events takes. -/
def totalElapsed (events : List Event) : ℕ := (events.map Event.elapsed).sum

/-- **While nothing is sent, what is unacknowledged stays as it is and its time
runs down.** -/
theorem Dutiful.silent_run {events : List Event} (h : Dutiful isn finSeq x) (huntold : ¬ Told x)
    (hregular : ∀ e ∈ events, e.Regular finSeq) (hruns : runs Event.run events x = some z)
    (hz : z.conn.state ≠ .closed) (hsilent : z.sent = x.sent) :
    z.conn.recvNext = x.conn.recvNext ∧ ¬ Told z ∧ AckHeld z.conn ∧
      z.conn.ackDelayMsRemaining = x.conn.ackDelayMsRemaining - totalElapsed events := by
  induction events generalizing x with
  | nil =>
    obtain rfl : x = z := Option.some.inj hruns
    refine ⟨rfl, huntold, (h.owes hz).resolve_left huntold, ?_⟩
    rw [totalElapsed, List.map_nil, List.sum_nil]
    omega
  | cons e events ih =>
    obtain ⟨hregular₁, hregular₂⟩ := List.forall_mem_cons.1 hregular
    obtain ⟨y, he, hruns'⟩ := Option.bind_eq_some_iff.1 hruns
    have hx : x.conn.state ≠ .closed := by
      intro hx
      exact hz (runs_induction (I := fun w => w.conn.state = .closed)
        (fun _ _ _ hw he => Event.run_closed he hw) hx hruns)
    have hheld := (h.owes hx).resolve_left huntold
    have hgrows : y.sent <+: z.sent :=
      runs_induction (I := fun w => y.sent <+: w.sent)
        (fun _ _ _ hw he => (Event.run_steps he).preserves (P := fun v => y.sent <+: v.sent)
          (fun _ _ heff hv => hv.trans heff.sent_prefix) hw) (List.prefix_refl _) hruns'
    have hlength := hgrows.length_le
    rw [hsilent] at hlength
    cases Event.run_outcome he hx h.quiet hregular₁.1 hregular₁.2 with
    | told _ hlt => omega
    | held _ _ hfree =>
      rcases hfree with hfree | hlt
      · rw [hheld.1] at hfree
        cases hfree
      · omega
    | kept hnext hsent hpending hdelay =>
      have huntold' : ¬ Told y := by
        rintro ⟨call, hlast, hack⟩
        exact huntold ⟨call, by rw [← hsent, hlast], by rw [hack, hnext]⟩
      obtain ⟨hnext', htold', hheld', hremaining'⟩ :=
        ih (h.run hregular₁ he) huntold' hregular₂ hruns' (hsilent.trans hsent.symm)
      have hremaining := (hdelay hheld.1).1
      refine ⟨hnext'.trans hnext, htold', hheld', ?_⟩
      rw [hremaining', hremaining, totalElapsed, totalElapsed, List.map_cons, List.sum_cons]
      push_cast
      omega

end Dutiful

theorem dutiful_open (o : Opener) (localPort remotePort : UInt16) (initialSeq finSeq : UInt32)
    (localMss : UInt16) (algorithm : CongestionControlAlgorithm) :
    Dutiful initialSeq finSeq (o.run (.fresh localPort remotePort initialSeq localMss algorithm)) := by
  refine ⟨kept_open .., ?_, ?_, fun _ => .inl ?_⟩
  · cases o with
    | active => exact fun hacks => absurd rfl hacks.1
    | passive => exact fun hacks => absurd rfl hacks.2.1
  · cases o with
    | active => exact fun hsyn => absurd rfl hsyn
    | passive options =>
      intro _ _ call hcall
      rw [← Option.mem_some.1 hcall]
      show (sendOptions _ flagSyn _).ack = true
      rw [sendOptions_ack, buildHeader_ack]
      decide
  · cases o with
    | active => exact ⟨_, rfl, (carries_sendOptions _ .sendFlags flagSyn _ _ []).ack⟩
    | passive options => exact ⟨_, rfl, (carries_sendOptions _ .sendFlags flagSyn _ _ []).ack⟩

/-- **The duty to acknowledge.**  In every state past the handshake the last
segment sent acknowledges `RCV.NXT` or a delayed ack of at most 200 ms is
running.  And from a state in which it is running, as long as nothing is sent,
less than 200 ms pass and `RCV.NXT` does not move again. -/
theorem ack_obligation (o : Opener) (localPort remotePort : UInt16) (initialSeq : UInt32)
    (localMss : UInt16) (algorithm : CongestionControlAlgorithm) (finSeq : UInt32) (events : List Event)
    (hregular : ∀ e ∈ events, e.Regular finSeq) {y : Session}
    (h : runs Event.run events (o.run (.fresh localPort remotePort initialSeq localMss algorithm)) =
      some y) :
    (handlesAcks y.conn.state → Acked y ∨ AckHeld y.conn) ∧
      ∀ (more : List Event) (z : Session), (∀ e ∈ more, e.Regular finSeq) → runs Event.run more y = some z →
        handlesAcks y.conn.state → handlesAcks z.conn.state → ¬ Acked y → z.sent = y.sent →
        totalElapsed more < 200 ∧ z.conn.recvNext = y.conn.recvNext := by
  have hdutiful : Dutiful initialSeq finSeq y :=
    runs_invariant (I := Dutiful initialSeq finSeq) (fun _ _ _ hx hok he => hx.run hok.1 he)
      (dutiful_open ..) (along_true.and_of_forall hregular) h
  refine ⟨fun hacks => (hdutiful.owes hacks.2.2).imp_left (hdutiful.acked hacks.1 hacks.2.2), ?_⟩
  intro more z hmore hruns hy hz hunacked hsilent
  obtain ⟨hnext, -, hheld, hremaining⟩ := hdutiful.silent_run (fun htold => hunacked (hdutiful.acked hy.1 hy.2.2 htold))
    hmore hruns hz.2.2 hsilent
  have hheldy := (hdutiful.owes hy.2.2).resolve_left fun htold => hunacked (hdutiful.acked hy.1 hy.2.2 htold)
  have hpos := hheld.2.1
  have hle := hheldy.2.2
  exact ⟨by omega, hnext⟩

/-- Two bytes arrive and wait 150 of their 200 ms. -/
theorem ack_obligation_waiting :
    ∃ y, runs Event.run [.segment (Tcp.ofFlags 9000 80 8 101 5 flagAck 8 0 0),
          .segment ((Tcp.ofFlags 9000 80 8 101 5 flagAck 8 0 0).carrying [1, 2]), .timePassed 150]
        ((Opener.passive { peerIsn := 7 }).run (.fresh 80 9000 100 4 .reno)) = some y ∧
      y.conn.ackDelayMsRemaining = 50 ∧ (Acked y ∨ AckHeld y.conn) :=
  ⟨_, rfl, by decide +kernel,
    (ack_obligation (.passive { peerIsn := 7 }) 80 9000 100 4 .reno 20
      [.segment (Tcp.ofFlags 9000 80 8 101 5 flagAck 8 0 0),
        .segment ((Tcp.ofFlags 9000 80 8 101 5 flagAck 8 0 0).carrying [1, 2]), .timePassed 150]
      (by decide +kernel) rfl).1 ⟨by decide +kernel, by decide +kernel, by decide +kernel⟩⟩

end TcpIpStack
