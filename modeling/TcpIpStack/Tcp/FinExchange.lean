/-
# The exchange of FINs

The state of a connection says how far the two FINs have got.  Every transition
is an edge of the state diagram of RFC 793 or the abort to `CLOSED`; our FIN is
in flight in `FIN_WAIT_1`, `CLOSING` and `LAST_ACK` and in no other state that is
open; and the four states that the peer's FIN leads to are entered by consuming
one at `RCV.NXT`.

Our own FIN is given a sequence number once.  That happens when every byte
`send` has accepted is acknowledged, nothing is accepted after it, and what is
sent after it takes up no sequence number but its own.
-/

import TcpIpStack.Lib.Runs
import TcpIpStack.Tcp.Stream

namespace TcpIpStack

open Serial TcpConnection Session Runs

/-! ### The state diagram -/

/-- The edges of the diagram of RFC 793. -/
def rfcEdge : TcpState → TcpState → Bool
  | .closed, .listen | .closed, .synSent
  | .listen, .synReceived | .listen, .synSent | .listen, .closed
  | .synSent, .synReceived | .synSent, .established | .synSent, .closed
  | .synReceived, .established | .synReceived, .finWait1
  | .established, .finWait1 | .established, .closeWait
  | .finWait1, .finWait2 | .finWait1, .closing
  | .finWait2, .timeWait
  | .closeWait, .lastAck
  | .closing, .timeWait
  | .lastAck, .closed
  | .timeWait, .closed => true
  | _, _ => false

/-- An edge of the diagram, or the abort. -/
def edgeOrAbort (s s' : TcpState) : Prop := rfcEdge s s' ∨ s' = .closed

instance : DecidableRel edgeOrAbort := fun _ _ => inferInstanceAs (Decidable (_ ∨ _))

/-- The states after the peer's FIN. -/
def peerFinished : TcpState → Bool
  | .closeWait | .closing | .lastAck | .timeWait => true
  | _ => false

/-- The FIN of the segment sits at `RCV.NXT`. -/
def FinAtRecvNext (t : Tcp) (c : TcpConnection) : Prop :=
  t.fin ∧ t.sequenceNumber + UInt32.ofNat t.payload.length = c.recvNext

/-- The edges of our own segments and their acks, and those of the peer's FIN. -/
def ownEdges : List (TcpState × TcpState) :=
  [(.synSent, .established), (.synReceived, .established), (.established, .finWait1),
    (.closeWait, .lastAck), (.finWait1, .finWait2), (.closing, .timeWait)]

def peerEdges : List (TcpState × TcpState) :=
  [(.established, .closeWait), (.finWait1, .closing), (.finWait2, .timeWait)]

section Transitions

variable {e : Event} {s₀ : TcpState} {x y : Session}

theorem consumeFin_transition (x : Session) :
    x.consumeFin.conn.state = x.conn.state ∧ x.consumeFin.entered = x.entered ∨
      (x.conn.state, x.consumeFin.conn.state) ∈ peerEdges ∧
        x.consumeFin.entered = x.entered ++ [x.consumeFin.conn.state] := by
  unfold consumeFin
  split
  · next hx => exact .inr ⟨by simp [hx, sendPureAck, transition, Session.modify, sendSegment, peerEdges], rfl⟩
  · next hx => exact .inr ⟨by simp [hx, transition, Session.modify, peerEdges], rfl⟩
  · next hx => exact .inr ⟨by simp [hx, transition, peerEdges], rfl⟩
  · exact .inl ⟨rfl, rfl⟩

/-- **What an effect does to the state**: nothing; the abort; the way of one of
our own segments or its ack; or that of the peer's FIN. -/
theorem Effect.transition_cases (he : Effect e s₀ x y) : y.conn.state = x.conn.state ∧ y.entered = x.entered ∨
      y.entered = x.entered ++ [y.conn.state] ∧
        (y.conn.state = .closed ∨
          (x.conn.state, y.conn.state) ∈ ownEdges ∧ (y.conn.state = .established → ∃ t, e = .segment t) ∨
          (x.conn.state, y.conn.state) ∈ peerEdges ∧
            ∃ t, e = .segment t ∧ FinAtRecvNext t x.conn ∧ y = x.consumeFin) := by
  cases he with
  | quiet c hcore => exact .inl ⟨(congrArg Core.state hcore).symm, rfl⟩
  | scoreboard t => exact .inl ⟨applySackBlocks_state t x.conn, rfl⟩
  | place chunk =>
    refine .inl ⟨placeChunk_state chunk x, ?_⟩
    unfold placeChunk
    split_ifs <;> rfl
  | fin _ hstate =>
    have hnew : x.sendFin.conn.state =
        if x.conn.state = .established then .finWait1 else .lastAck := rfl
    refine .inr ⟨rfl, .inr (.inl ?_)⟩
    rw [hnew]
    rcases hstate with hstate | hstate <;> simp [hstate, ownEdges]
  | slide t =>
    have hsame : (x.retireAcked t).conn.state = x.conn.state := congrArg Core.state (core_retireAcked t x)
    obtain ⟨newState, hfin, heq⟩ | heq := slide_cases t x
    · rw [heq]
      refine .inr ⟨rfl, ?_⟩
      show newState = .closed ∨ (x.conn.state, newState) ∈ ownEdges ∧ (newState = .established → _) ∨ _
      rcases hfin with ⟨hx, rfl⟩ | ⟨hx, rfl⟩ | ⟨hx, rfl⟩ <;> simp [hx, ownEdges]
    · rw [heq]
      exact .inl ⟨hsame, rfl⟩
  | consumeFin t ht hfin hseq =>
    obtain ⟨hsame, heq⟩ | ⟨hnew, hentered⟩ := consumeFin_transition x
    · exact .inl ⟨hsame, heq⟩
    · exact .inr ⟨hentered, .inr (.inr ⟨hnew, t, ht, ⟨hfin, hseq⟩, rfl⟩)⟩
  | buffer t =>
    have hstate : (bufferOutOfOrder t.sequenceNumber t.payload x.conn).state = x.conn.state := by
      unfold bufferOutOfOrder
      split_ifs <;> rfl
    exact .inl ⟨hstate, rfl⟩
  | lowerMss pathMss =>
    have hstate : (reduceEffectiveMss pathMss x.conn).state = x.conn.state := by
      unfold reduceEffectiveMss
      dsimp only
      split_ifs <;> rfl
    exact .inl ⟨hstate, rfl⟩
  | establishActive t ht hstate => exact .inr ⟨rfl, .inr (.inl ⟨by simp [hstate, transition, ownEdges], fun _ => ⟨t, ht⟩⟩)⟩
  | establishPassive t ht hstate => exact .inr ⟨rfl, .inr (.inl ⟨by simp [hstate, transition, ownEdges], fun _ => ⟨t, ht⟩⟩)⟩
  | abort => exact .inr ⟨rfl, .inl rfl⟩
  | receive | ack | holdAck | probe | keepalive | retransmit | drain | window | deliver | unblock
  | take => exact .inl ⟨rfl, rfl⟩

theorem Effect.ne_synSent (he : Effect e s₀ x y) (h : x.conn.state ≠ .synSent) : y.conn.state ≠ .synSent := by
  rcases he.transition_cases with ⟨hsame, -⟩ | ⟨-, hclosed | ⟨hedge, -⟩ | ⟨hedge, -⟩⟩
  · rwa [hsame]
  · simp [hclosed]
  all_goals
    intro hw
    rw [hw] at hedge
    simp [ownEdges, peerEdges] at hedge

theorem Event.run_ne_synSent {e : Event} (he : e.run x = some y) (h : x.conn.state ≠ .synSent) :
    y.conn.state ≠ .synSent :=
  (Event.run_steps he).preserves (P := fun z => z.conn.state ≠ .synSent)
    (fun _ _ heff hz => heff.ne_synSent hz) h

theorem Event.run_synSent {e : Event} (he : e.run x = some y) (hsegment : ∀ t, e ≠ .segment t)
    (h : x.conn.state = .synSent ∨ x.conn.state = .closed) :
    y.conn.state = .synSent ∨ y.conn.state = .closed := by
  refine (Event.run_steps he).preserves (P := fun z => z.conn.state = .synSent ∨ z.conn.state = .closed)
    (fun z w heff hz => ?_) h
  rcases heff.transition_cases with ⟨hsame, -⟩ | ⟨-, hclosed | ⟨hedge, hestablished⟩ | ⟨-, t, ht, -⟩⟩
  · rwa [hsame]
  · exact .inr hclosed
  · have hall : ∀ p ∈ ownEdges, p.1 = .synSent ∨ p.1 = .closed → p.2 = .established := by decide
    obtain ⟨t, ht⟩ := hestablished (hall _ hedge hz)
    exact absurd ht (hsegment t)
  · exact absurd ht (hsegment t)

/-- Nor does any way lead out of `CLOSED`. -/
theorem Effect.stays_closed (he : Effect e s₀ x y) (h : x.conn.state = .closed) : y.conn.state = .closed := by
  rcases he.transition_cases with ⟨hsame, -⟩ | ⟨-, hclosed | ⟨hedge, -⟩ | ⟨hedge, -⟩⟩
  · rwa [hsame]
  · exact hclosed
  all_goals
    rw [h] at hedge
    simp [ownEdges, peerEdges] at hedge

theorem Event.run_closed {e : Event} (he : e.run x = some y) (h : x.conn.state = .closed) :
    y.conn.state = .closed :=
  (Event.run_steps he).preserves (P := fun z => z.conn.state = .closed) (fun _ _ heff hz => heff.stays_closed hz) h

/-- The states entered so far lead along edges of the diagram to the state it is
in. -/
structure Walked (x : Session) : Prop where
  edges : (TcpState.listen :: x.entered).IsChain edgeOrAbort
  last : (TcpState.listen :: x.entered).getLast? = some x.conn.state

theorem Walked.transition (h : Walked x) (hentered : y.entered = x.entered ++ [y.conn.state])
    (hedge : edgeOrAbort x.conn.state y.conn.state) : Walked y := by
  obtain ⟨hedges, hlast⟩ := h
  constructor
  · rw [hentered, ← List.cons_append, List.isChain_append]
    refine ⟨hedges, List.isChain_singleton _, fun s hs s' hs' => ?_⟩
    rw [hlast] at hs
    rwa [← Option.mem_some.1 hs, ← Option.mem_some.1 hs']
  · rw [hentered, ← List.cons_append, List.getLast?_concat]

theorem Walked.effect (h : Walked x) (he : Effect e s₀ x y) : Walked y := by
  obtain ⟨hstate, hentered⟩ | ⟨hentered, hclosed | ⟨hown, -⟩ | ⟨hpeer, -⟩⟩ := he.transition_cases
  · exact ⟨hentered ▸ h.edges, by rw [hentered, hstate, h.last]⟩
  · exact h.transition hentered (.inr hclosed)
  · refine h.transition hentered (.inl ?_)
    have hall : ∀ p ∈ ownEdges, rfcEdge p.1 p.2 := by decide
    exact hall _ hown
  · refine h.transition hentered (.inl ?_)
    have hall : ∀ p ∈ peerEdges, rfcEdge p.1 p.2 := by decide
    exact hall _ hpeer

/-! ### The peer's FIN -/

/-- In the course of the event a FIN of the peer is consumed, at `RCV.NXT`. -/
def ConsumesFin (e : Event) (x y : Session) : Prop :=
  ∃ t z, e = .segment t ∧ Steps e x.conn.state x z ∧ FinAtRecvNext t z.conn ∧
    Steps e x.conn.state z.consumeFin y

theorem Effect.consumesFin (he : Effect e s₀ x y) (hx : peerFinished x.conn.state = false)
    (hy : peerFinished y.conn.state) : ∃ t, e = .segment t ∧ FinAtRecvNext t x.conn ∧ y = x.consumeFin := by
  obtain ⟨hstate, -⟩ | ⟨-, hclosed | ⟨hown, -⟩ | ⟨-, hpeer⟩⟩ := he.transition_cases
  · rw [hstate, hx] at hy
    cases hy
  · rw [hclosed] at hy
    cases hy
  · have hall : ∀ p ∈ ownEdges, peerFinished p.2 → peerFinished p.1 := by decide
    exact absurd (hall _ hown hy) (by simp [hx])
  · exact hpeer

theorem Steps.consumesFin (h : Steps e x.conn.state x y) (hx : peerFinished x.conn.state = false)
    (hy : peerFinished y.conn.state) : ConsumesFin e x y := by
  suffices hsuffices : ∀ z, Steps e x.conn.state x z → peerFinished z.conn.state → ConsumesFin e x z from
    hsuffices y h hy
  intro z hsteps
  induction hsteps with
  | refl => exact fun hz => absurd hz (by simp [hx])
  | @tail w z hsteps he ih =>
    intro hz
    by_cases hw : peerFinished w.conn.state
    · obtain ⟨t, v, ht, hbefore, hfin, hafter⟩ := ih hw
      exact ⟨t, v, ht, hbefore, hfin, hafter.tail he⟩
    · obtain ⟨t, ht, hfin, rfl⟩ := he.consumesFin (by simpa using hw) hz
      exact ⟨t, w, ht, hsteps, hfin, .refl⟩

end Transitions

/-! ### Our FIN -/

/-- Our FIN is the last segment in flight. -/
def FinInFlight (c : TcpConnection) : Prop :=
  ∃ s ∈ c.core.flight.getLast?, hasFlag s.flags flagFin

/-- **Where our FIN is in flight.** -/
theorem Session.Kept.finInFlight_iff {isn : UInt32} {x : Session} (h : x.Kept isn)
    (hclosed : x.conn.state ≠ .closed) : FinInFlight x.conn ↔
      x.conn.state = .finWait1 ∨ x.conn.state = .closing ∨ x.conn.state = .lastAck := by
  have hphase := h.phase
  have hopening {flags : UInt8} (hk : Opening isn flags x.retired.length x.conn.core)
      (hflags : hasFlag flags flagFin = false) : ¬ FinInFlight x.conn := by
    rintro ⟨s, hs, hfin⟩
    rw [hk.flight] at hs
    cases Option.mem_some.1 hs
    exact absurd (show hasFlag flags flagFin = true from hfin) (by simp [hflags])
  have hstreaming (hk : Streaming isn x.retired.length x.conn.core) : ¬ FinInFlight x.conn := by
    rintro ⟨s, hs, hfin⟩
    obtain ⟨-, -, -, hflags⟩ := hk.tiles.mem (List.mem_of_getLast? hs)
    rw [hflags, hasFlag_ack_fin] at hfin
    cases hfin
  have hclosing (hk : Closing isn x.retired.length x.conn.core) : FinInFlight x.conn := by
    obtain ⟨⟨sacked, hflight⟩, -, -⟩ := hk
    refine ⟨_, by rw [hflight]; rfl, hasFlag_finAck_fin⟩
  have hfinished (hk : Finished isn x.retired.length x.conn.core) : ¬ FinInFlight x.conn := by
    rintro ⟨s, hs, -⟩
    rw [hk.flight] at hs
    cases hs
  have hstate : x.conn.core.state = x.conn.state := rfl
  unfold Phase at hphase
  rw [hstate] at hphase
  cases hx : x.conn.state <;> simp only [hx, sendPhase] at hphase
  case closed => exact absurd hx hclosed
  case synSent => simpa using hopening hphase (by decide)
  case synReceived => simpa using hopening hphase (by decide)
  case established => simpa using hstreaming hphase
  case closeWait => simpa using hstreaming hphase
  case finWait1 => simpa using hclosing hphase
  case closing => simpa using hclosing hphase
  case lastAck => simpa using hclosing hphase
  case finWait2 => simpa using hfinished hphase
  case timeWait => simpa using hfinished hphase

/-- The call gives our FIN its sequence number. -/
def Call.AssignsFin (call : Call) : Prop := call.site = .sendFlags ∧ call.header.fin

/-- The sequence numbers a call takes up. -/
def Call.span (call : Call) : ℕ :=
  call.payload.length + (if call.header.syn then 1 else 0) + (if call.header.fin then 1 else 0)

/-- `call` has given our FIN its sequence number, which is the one after all that
`send` has ever accepted.  All of that was acknowledged when it did, and what has
been sent since takes up no sequence number, or is the FIN again. -/
structure FinAssigned (isn : UInt32) (x : Session) (before : List Call) (call : Call)
    (later : List Call) : Prop where
  sent : x.sent = before ++ call :: later
  assigns : call.AssignsFin
  once : ∀ other ∈ before ++ later, ¬ other.AssignsFin
  seq : call.header.sequenceNumber = after isn (1 + x.accepted.length)
  acknowledged : call.retired = x.accepted
  later : ∀ other ∈ later, other.span = 0 ∨
    other.span = 1 ∧ other.header.sequenceNumber = call.header.sequenceNumber

/-- No FIN has been sent, or one has, and `send` accepts nothing any more. -/
def FinLog (isn : UInt32) (x : Session) : Prop :=
  (∀ call ∈ x.sent, ¬ call.AssignsFin) ∨
    sendEnded x.conn.state ∧ ∃ before call later, FinAssigned isn x before call later

theorem not_assignsFin {call : Call} (site : CallSite) (hsite : call.site = site)
    (h : site ≠ .sendFlags) : ¬ call.AssignsFin := fun hfin => h (hsite.symm.trans hfin.1)

theorem span_eq_zero {call : Call} (hpayload : call.payload = []) (hfin : call.header.fin = false)
    (hsyn : call.header.syn = false) : call.span = 0 := by
  simp [Call.span, hpayload, hfin, hsyn]

section FinLog

variable {isn : UInt32} {e : Event} {s₀ : TcpState} {x y : Session}

theorem buildHeader_flags (c : TcpConnection) (flags : UInt8) (seq : UInt32) :
    (c.buildHeader flags seq).fin = hasFlag flags flagFin ∧
      (c.buildHeader flags seq).syn = hasFlag flags flagSyn ∧
      (c.buildHeader flags seq).sequenceNumber = seq := ⟨rfl, rfl, rfl⟩

theorem sendOptions_flags (c : TcpConnection) (flags : UInt8) (header : Tcp) :
    (sendOptions c flags header).fin = header.fin ∧ (sendOptions c flags header).syn = header.syn ∧
      (sendOptions c flags header).sequenceNumber = header.sequenceNumber := by
  unfold Session.sendOptions
  split_ifs <;> exact ⟨rfl, rfl, rfl⟩

/-- The call takes up no sequence number, or is one of data, a probe, or a segment
in flight. -/
def SpanExplained (x : Session) (call : Call) : Prop :=
  call.span = 0 ∨ acceptsData x.conn.state ∨ x.conn.sendQueue ≠ [] ∧ x.conn.state ≠ .closed ∨
    x.conn.state ≠ .closed ∧ ∃ s ∈ x.conn.core.flight,
      call.header = x.conn.buildHeader s.flags s.seq ∧ call.payload = s.payload

/-- **What an effect sends**: our FIN, as `close` does; or calls that give no FIN
a sequence number. -/
theorem Effect.calls_cases (he : Effect e s₀ x y) :
    (acceptsData x.conn.state ∧ x.conn.inFlight = [] ∧ x.conn.sendQueue = [] ∧ y = x.sendFin) ∨
      Calls (fun call => ¬ call.AssignsFin ∧ SpanExplained x call) x y := by
  have hack (z : Session) : ¬ (z.callWith .pureAck
      (sendOptions z.conn 0 (z.conn.buildHeader flagAck z.conn.sendNext)) []).AssignsFin ∧ SpanExplained x
      (z.callWith .pureAck (sendOptions z.conn 0 (z.conn.buildHeader flagAck z.conn.sendNext)) []) := by
    obtain ⟨hfin, hsyn, -⟩ := sendOptions_flags z.conn 0 (z.conn.buildHeader flagAck z.conn.sendNext)
    exact ⟨not_assignsFin .pureAck rfl (by decide), .inl (span_eq_zero rfl (hfin.trans rfl) (hsyn.trans rfl))⟩
  have hdata (c : TcpConnection) : (sendOptions c 0 (c.buildHeader (0 ||| flagAck) c.sendNext)).fin ≠ true := by
    rw [(sendOptions_flags c 0 _).1, (buildHeader_flags ..).1]
    decide
  rcases he.emits with hsame | ⟨call, hsent, hemits⟩
  · exact .inr (.none hsame)
  cases hemits with
  | fin _ _ hstate hflight hqueue heq => exact .inl ⟨hstate, hflight, hqueue, heq⟩
  | ack => exact .inr (.one hsent (hack x))
  | finAck => exact .inr (.one hsent (hack _))
  | keepalive =>
    obtain ⟨hfin, hsyn, -⟩ := buildHeader_flags x.conn flagAck (x.conn.sendNext - 1)
    exact .inr (.one hsent ⟨not_assignsFin .keepaliveProbe rfl (by decide), .inl (span_eq_zero rfl hfin hsyn)⟩)
  | probe front rest hqueue hclosed =>
    exact .inr (.one hsent ⟨not_assignsFin .zeroWindowProbe rfl (by decide),
      .inr (.inr (.inl ⟨by simp [hqueue], hclosed⟩))⟩)
  | retransmit site s hsite hs _ hclosed =>
    refine .inr (.one hsent ⟨fun h => ?_, .inr (.inr (.inr ⟨hclosed, s, hs, rfl, rfl⟩))⟩)
    rcases hsite with rfl | rfl <;> cases h.1
  | drain _ front rest c _ hqueue hacks =>
    exact .inr (.one hsent ⟨fun h => hdata c h.2, .inr (.inr (.inl ⟨by simp [hqueue], hacks.2.2⟩))⟩)
  | place chunk _ _ hstate => exact .inr (.one hsent ⟨fun h => hdata _ h.2, .inr (.inl hstate)⟩)

/-- Once the FIN is in the log, what goes out is an ack or the FIN again. -/
theorem Session.Kept.span_of_ended (h : x.Kept isn) (hended : sendEnded x.conn.state) {call : Call}
    (hcall : SpanExplained x call) : call.span = 0 ∨
      call.span = 1 ∧ call.header.sequenceNumber = after isn (1 + x.accepted.length) := by
  have hnot : ¬ acceptsData x.conn.state := by
    rintro (hstate | hstate) <;> simp [sendEnded, sendPhase, hstate] at hended
  rcases hcall with hzero | haccepts | ⟨hqueue, hclosed⟩ | ⟨hclosed, s, hs, hheader, hpayload⟩
  · exact .inl hzero
  · exact absurd haccepts hnot
  · exact absurd (Bookkeeping.acceptsData_of_queue h hclosed hqueue) hnot
  · have hphase := h.phase
    have hstate : x.conn.core.state = x.conn.state := rfl
    unfold Phase at hphase
    rw [hstate] at hphase
    unfold sendEnded at hended
    cases hp : sendPhase x.conn.state with
    | unopened | opening | streaming => simp [hp] at hended
    | closed => exact absurd hp (by cases hx : x.conn.state <;> simp_all [sendPhase])
    | finished =>
      rw [hp] at hphase
      rw [hphase.flight] at hs
      cases hs
    | closing =>
      rw [hp] at hphase
      obtain ⟨⟨sacked, hflight⟩, hqueue, -⟩ := hphase
      rw [hflight] at hs
      have hstream := h.stream
      have hlength : x.accepted.length = x.retired.length := by
        rw [hstream, hflight, show x.conn.core.sendQueue = [] from hqueue]
        simp [flightBytes]
      obtain ⟨hfin, hsyn, hseq⟩ := buildHeader_flags x.conn s.flags s.seq
      have hflags : s.flags = flagFin ||| flagAck := by rw [List.mem_singleton.1 hs]
      have hnil : s.payload = [] := by rw [List.mem_singleton.1 hs]
      refine .inr ⟨?_, ?_⟩
      · rw [Call.span, hheader, hpayload, hfin, hsyn, hflags, hnil]
        decide
      · rw [hheader, hseq, hlength, List.mem_singleton.1 hs]

/-- **Every effect keeps the log in order.** -/
theorem FinLog.effect (h : FinLog isn x) (hkept : x.Kept isn) (he : Effect e s₀ x y) : FinLog isn y := by
  obtain ⟨hstate, hflight, hqueue, rfl⟩ | ⟨calls, hsent, hcalls⟩ := he.calls_cases
  · -- `close`: nothing is in flight and nothing waits
    have hnone : ∀ call ∈ x.sent, ¬ call.AssignsFin := by
      refine h.resolve_right fun hfin => ?_
      have hended := hfin.1
      rcases hstate with hstate | hstate <;> simp [sendEnded, sendPhase, hstate] at hended
    have hnil : x.conn.core.flight = [] := by simp [core, hflight]
    have hall : x.accepted = x.retired := by
      rw [hkept.stream, hnil, show x.conn.core.sendQueue = [] from hqueue]
      simp [flightBytes]
    have hnext : x.conn.sendNext = after isn (1 + x.retired.length) := by
      have hstreaming := (hkept.phase.streaming hstate).sendNext
      rw [hnil] at hstreaming
      exact hstreaming
    refine .inr ⟨?_, x.sent, _, [], rfl, ⟨rfl, ?_⟩, ?_, ?_, hall.symm, fun _ h => absurd h List.not_mem_nil⟩
    · show sendEnded (if x.conn.state = .established then .finWait1 else .lastAck)
      split_ifs <;> exact trivial
    · exact (sendOptions_flags _ flagFin _).1
    · rwa [List.append_nil]
    · refine (sendOptions_flags _ flagFin _).2.2.trans ?_
      show x.conn.sendNext = after isn (1 + x.accepted.length)
      rw [hnext, hall]
  · rcases h with hnone | ⟨hended, before, call, later, hfin⟩
    · refine .inl fun other hother => ?_
      rw [hsent] at hother
      exact (List.mem_append.1 hother).elim (hnone other) fun hnew => (hcalls other hnew).1
    · obtain ⟨hended', haccepted⟩ := he.grows.ended hended
      refine .inr ⟨hended', before, call, later ++ calls, ?_, hfin.assigns, ?_, ?_, ?_, ?_⟩
      · rw [hsent, hfin.sent, List.append_assoc, List.cons_append]
      · intro other hother
        rw [← List.append_assoc] at hother
        exact (List.mem_append.1 hother).elim (hfin.once other) fun hnew => (hcalls other hnew).1
      · rw [haccepted, hfin.seq]
      · rw [haccepted, hfin.acknowledged]
      · intro other hother
        rcases List.mem_append.1 hother with hold | hnew
        · exact hfin.later other hold
        · rw [hfin.seq]
          exact hkept.span_of_ended hended (hcalls other hnew).2

end FinLog

/-! ### Every run -/

/-- What holds in every state about the exchange of FINs. -/
structure FinExchange (isn : UInt32) (x : Session) : Prop where
  kept : x.Kept isn
  walked : Walked x
  log : FinLog isn x

theorem FinExchange.run {isn : UInt32} {e : Event} {x y : Session} (h : FinExchange isn x)
    (he : e.run x = some y) : FinExchange isn y :=
  (Event.run_steps he).preserves (P := FinExchange isn)
    (fun _ _ heff hx => ⟨hx.kept.effect heff, hx.walked.effect heff, hx.log.effect hx.kept heff⟩) h

theorem not_assignsFin_open (o : Opener) {x : Session} (hx : x.sent = []) :
    ∀ call ∈ (o.run x).sent, ¬ call.AssignsFin := by
  cases o with
  | active =>
    intro call hcall hfin
    rw [show (Opener.active.run x).sent = x.sent ++ [_] from rfl, hx] at hcall
    rw [List.mem_singleton.1 hcall] at hfin
    exact absurd hfin.2 (by rw [(sendOptions_flags _ flagSyn _).1, (buildHeader_flags ..).1]; decide)
  | passive options =>
    intro call hcall hfin
    rw [show ((Opener.passive options).run x).sent = x.sent ++ [_] from rfl, hx] at hcall
    rw [List.mem_singleton.1 hcall] at hfin
    exact absurd hfin.2 (by rw [(sendOptions_flags _ flagSyn _).1, (buildHeader_flags ..).1]; decide)

theorem finExchange_open (o : Opener) (localPort remotePort : UInt16) (initialSeq : UInt32)
    (localMss : UInt16) (algorithm : CongestionControlAlgorithm) :
    FinExchange initialSeq (o.run (.fresh localPort remotePort initialSeq localMss algorithm)) := by
  refine ⟨kept_open .., ?_, .inl (not_assignsFin_open o rfl)⟩
  cases o with
  | active => exact ⟨(by decide : [TcpState.listen, .synSent].IsChain edgeOrAbort), rfl⟩
  | passive options => exact ⟨(by decide : [TcpState.listen, .synReceived].IsChain edgeOrAbort), rfl⟩

theorem peerFinished_open (o : Opener) (x : Session) : peerFinished (o.run x).conn.state = false := by
  cases o <;> rfl

/-- **The state encodes the exchange of FINs.** -/
theorem fin_exchange (o : Opener) (localPort remotePort : UInt16) (initialSeq : UInt32)
    (localMss : UInt16) (algorithm : CongestionControlAlgorithm) (events : List Event) {y : Session}
    (h : runs Event.run events (o.run (.fresh localPort remotePort initialSeq localMss algorithm)) =
      some y) :
    (TcpState.listen :: y.entered).IsChain edgeOrAbort ∧
    (TcpState.listen :: y.entered).getLast? = some y.conn.state ∧
    (y.conn.state ≠ .closed → (FinInFlight y.conn ↔
      y.conn.state = .finWait1 ∨ y.conn.state = .closing ∨ y.conn.state = .lastAck)) ∧
    (peerFinished y.conn.state → Somewhere Event.run ConsumesFin events
      (o.run (.fresh localPort remotePort initialSeq localMss algorithm))) ∧
    ((∀ call ∈ y.sent, ¬ call.AssignsFin) ∨
      ∃ before call later, FinAssigned initialSeq y before call later) := by
  have hexchange : FinExchange initialSeq y :=
    runs_induction (fun _ _ _ hx he => hx.run he) (finExchange_open ..) h
  refine ⟨hexchange.walked.edges, hexchange.walked.last, hexchange.kept.finInFlight_iff, fun hfinished => ?_,
    hexchange.log.imp_right And.right⟩
  refine somewhere_of_runs (Q := fun x => peerFinished x.conn.state) (fun e x z he hx hz => ?_)
    (by simp [peerFinished_open]) hfinished h
  exact (Event.run_steps he).consumesFin (by simpa using hx) hz

/-- Three bytes are sent and acknowledged, then both sides close at once: the
state is `CLOSING`, and our FIN is at 104. -/
theorem fin_exchange_simultaneous :
    ∃ y, runs Event.run
        [.segment (Tcp.ofFlags 9000 80 8 101 5 flagAck 8 0 0), .send [1, 2, 3], .close,
          .segment (Tcp.ofFlags 9000 80 8 104 5 flagAck 8 0 0),
          .segment (Tcp.ofFlags 9000 80 8 104 5 (flagFin ||| flagAck) 8 0 0)]
        ((Opener.passive { peerIsn := 7 }).run (.fresh 80 9000 100 4 .reno)) = some y ∧
      y.conn.state = .closing ∧
      (FinInFlight y.conn ↔
        y.conn.state = .finWait1 ∨ y.conn.state = .closing ∨ y.conn.state = .lastAck) :=
  ⟨_, (Option.some_get (by decide +kernel)).symm, by decide +kernel,
    (fin_exchange _ _ _ _ _ _ _ (Option.some_get _).symm).2.2.1 (by decide +kernel)⟩

end TcpIpStack
