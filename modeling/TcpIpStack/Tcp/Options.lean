/-
# What the two sides agree on

The handshake settles window scaling, timestamps, SACK and the segment size.
`_send_flags` puts everything this stack offers on a SYN, whichever side sends
it.  But a SYN that is sent again is rebuilt by `_build_header`, and that one
puts no options on anything.  The side that takes in the second copy concludes
that the other one supports nothing, while the other one goes by the options it
sees.

If the SYN that opens `b` and the SYN-ACK that opens `a` carry their options, as
the first copies do, the sides agree (`options_agree`);
`retransmitted_syn_disagrees` is what happens when the first SYN is lost.
-/

import TcpIpStack.Tcp.System

namespace TcpIpStack

open TcpConnection Session Runs

/-- The arguments of `accept_incoming_syn` for a given SYN: what it carries, and
zero for an MSS it does not carry. -/
def Session.SynOptions.ofSegment (t : Tcp) : SynOptions where
  peerIsn := t.sequenceNumber
  peerMss := t.mssOption.getD 0
  peerSupportsWindowScaling := t.windowScaleOption.isSome
  peerWindowScale := t.windowScaleOption.getD 0
  peerSupportsTimestamps := t.timestampOption.isSome
  peerTimestamp := (t.timestampOption.map Prod.fst).getD 0
  peerPermitsSack := t.sackPermittedOption

/-- Two connections agree, with `mss` the smaller of their segment sizes. -/
structure OptionsAgree (mss : UInt16) (c c' : TcpConnection) : Prop where
  scaling : c.windowScalingNegotiated = c'.windowScalingNegotiated
  timestamps : c.timestampsNegotiated = c'.timestampsNegotiated
  sack : c.sackPermitted = c'.sackPermitted
  shift : c.peerWindowScale = c'.ourShift
  shift' : c'.peerWindowScale = c.ourShift
  size : c.effectiveMss = mss
  size' : c'.effectiveMss = mss

/-- Once both sides have been established they agree. -/
def System.Agrees (mss : UInt16) (s : System) : Prop :=
  TcpState.established ∈ s.a.entered → TcpState.established ∈ s.b.entered →
    OptionsAgree mss s.a.conn s.b.conn

/-! ### What a connection has settled -/

/-- The results of the handshake. -/
structure Negotiated where
  scaling : Bool
  peerScale : UInt8
  timestamps : Bool
  sack : Bool
  effectiveMss : UInt16

/-- What a connection has settled on. -/
def Core.negotiated (k : Core) : Negotiated :=
  ⟨k.windowScalingNegotiated, k.peerWindowScale, k.timestampsNegotiated, k.sackPermitted,
    k.effectiveMss⟩

/-- Everything this stack has to offer. -/
def Negotiated.full (mss : UInt16) : Negotiated := ⟨true, windowScaleShift, true, true, mss⟩

/-- Everything this stack has to offer, on a SYN. -/
structure Offers (mss : UInt16) (t : Tcp) : Prop where
  size : t.mssOption = some mss
  scale : t.windowScaleOption = some windowScaleShift
  timestamp : t.timestampOption.isSome
  sack : t.sackPermittedOption = true

/-- A side with the segment size `mss`: what it sends carries all its options or
no MSS. -/
structure Offering (mss : UInt16) (x : Session) : Prop where
  localMss : x.conn.localMss = mss
  calls : ∀ call ∈ x.sent, call.segment.mssOption = none ∨ Offers mss call.segment

/-- What changes when no handshake ends: the settled options stay, and nothing
that goes out carries an MSS. -/
structure Unsettling (x y : Session) : Prop where
  negotiated : y.conn.core.negotiated = x.conn.core.negotiated
  localMss : y.conn.localMss = x.conn.localMss
  calls : ∀ call ∈ y.sent, call ∈ x.sent ∨ call.segment.mssOption = none
  entered : TcpState.established ∈ y.entered →
    TcpState.established ∈ x.entered ∨ x.conn.state = .synReceived
  notSent : x.conn.state ≠ .synSent → y.conn.state ≠ .synSent
  notReceived : x.conn.state ≠ .synReceived → y.conn.state ≠ .synReceived
  notListen : x.conn.state ≠ .listen → y.conn.state ≠ .listen

section Unsettling

variable {x y z : Session} {e : Event} {s₀ : TcpState}

theorem Unsettling.of_conn {c : TcpConnection} (hn : c.core.negotiated = x.conn.core.negotiated)
    (hmss : c.localMss = x.conn.localMss) (hstate : c.state = x.conn.state) :
    Unsettling x { x with conn := c } :=
  ⟨hn, hmss, fun _ h => .inl h, .inl, fun h => hstate ▸ h, fun h => hstate ▸ h, fun h => hstate ▸ h⟩

theorem Unsettling.trans (h : Unsettling x y) (h' : Unsettling y z) : Unsettling x z where
  negotiated := h'.negotiated.trans h.negotiated
  localMss := h'.localMss.trans h.localMss
  calls call hcall := (h'.calls call hcall).elim (h.calls call) .inr
  entered hz := by
    rcases h'.entered hz with hy | hy
    · exact h.entered hy
    · by_contra hnot
      exact h.notReceived (fun hx => hnot (.inr hx)) hy
  notSent hx := h'.notSent (h.notSent hx)
  notReceived hx := h'.notReceived (h.notReceived hx)
  notListen hx := h'.notListen (h.notListen hx)

theorem Unsettling.sendSegment (site : CallSite) {header : Tcp} (payload : Bytes)
    (h : header.mssOption = none) : Unsettling x (x.sendSegment site header payload) := by
  refine ⟨rfl, rfl, fun call hcall => ?_, .inl, id, id, id⟩
  rcases List.mem_append.1 hcall with hcall | hcall
  · exact .inl hcall
  · rw [List.mem_singleton.1 hcall]
    exact .inr h

theorem Unsettling.transition {newState : TcpState} (he : newState ≠ .established)
    (hs : newState ≠ .synSent) (hr : newState ≠ .synReceived) (hl : newState ≠ .listen) :
    Unsettling x (x.transition newState) := by
  refine ⟨rfl, rfl, fun _ h => .inl h, fun h => ?_, fun _ => hs, fun _ => hr, fun _ => hl⟩
  rcases List.mem_append.1 h with h | h
  · exact .inl h
  · exact absurd (List.mem_singleton.1 h).symm he

theorem sendOptions_mssOption {flags : UInt8} (h : hasFlag flags flagSyn = false) (c : TcpConnection)
    (fullFlags : UInt8) (seq : UInt32) :
    (sendOptions c flags (c.buildHeader fullFlags seq)).mssOption = none := by
  rw [sendOptions, if_neg (by simp [h])]
  rfl

theorem Unsettling.sendFlags {flags : UInt8} (h : hasFlag flags flagSyn = false) (payload : Bytes)
    (includeAck : Bool) : Unsettling x (x.sendFlags flags payload includeAck) := by
  have hsent := Unsettling.sendSegment (x := x) .sendFlags payload (sendOptions_mssOption h x.conn
    (if includeAck then flags ||| flagAck else flags) x.conn.sendNext)
  exact hsent.trans (.of_conn rfl rfl rfl)

theorem Unsettling.sendPureAck : Unsettling x x.sendPureAck := by
  have hsent := Unsettling.sendSegment (x := x) .pureAck []
    (sendOptions_mssOption hasFlag_zero_syn x.conn flagAck x.conn.sendNext)
  exact hsent.trans (.of_conn rfl rfl rfl)

theorem stateAfterFin_settled (state : TcpState) : stateAfterFin state ≠ .established ∧
      (state ≠ .synSent → stateAfterFin state ≠ .synSent) ∧
      (state ≠ .synReceived → stateAfterFin state ≠ .synReceived) ∧
      (state ≠ .listen → stateAfterFin state ≠ .listen) := by
  cases state <;> simp [stateAfterFin]

/-- **No effect changes what is settled**, except the end of an active handshake
and a smaller path MTU. -/
theorem Effect.unsettling (he : Effect e s₀ x y) (hsegment : ∀ t, e = .segment t → x.conn.state ≠ .synSent)
    (hmtu : ∀ pathMss, e ≠ .reduceEffectiveMss pathMss) : Unsettling x y := by
  cases he with
  | quiet c hcore =>
    exact .of_conn (congrArg Core.negotiated hcore).symm (congrArg Core.localMss hcore).symm
      (congrArg Core.state hcore).symm
  | receive => exact ⟨rfl, rfl, fun _ h => .inl h, .inl, id, id, id⟩
  | ack => exact .sendPureAck
  | holdAck => exact .of_conn rfl rfl rfl
  | probe => exact .sendSegment _ _ rfl
  | keepalive => exact .sendSegment _ _ rfl
  | retransmit => exact .sendSegment _ _ rfl
  | drain t front rest =>
    have hpopped : Unsettling x (x.modify fun c => { c with
        sendQueue := rest, sendQueuedBytes := c.sendQueuedBytes - front.length }) := .of_conn rfl rfl rfl
    exact hpopped.trans (.sendFlags hasFlag_zero_syn front true)
  | place chunk =>
    unfold placeChunk
    dsimp only
    split_ifs
    · exact ⟨rfl, rfl, fun _ h => .inl h, .inl, id, id, id⟩
    · exact (Unsettling.sendFlags hasFlag_zero_syn chunk true).trans
        ⟨rfl, rfl, fun _ h => .inl h, .inl, id, id, id⟩
  | fin =>
    have hmoved : Unsettling x
        (x.transition (if x.conn.state = .established then .finWait1 else .lastAck)) := by
      refine .transition ?_ ?_ ?_ ?_ <;> split_ifs <;> simp
    exact hmoved.trans (.sendFlags hasFlag_fin_syn [] true)
  | scoreboard t =>
    obtain ⟨flight, bytes, heq⟩ := applySackBlocks_eq t x.conn
    show Unsettling x { x with conn := (x.conn.applySackBlocks t).1 }
    rw [heq]
    exact .of_conn rfl rfl rfl
  | window => exact .of_conn rfl rfl rfl
  | slide t =>
    have hcore := core_retireAcked t x
    have hstate : (x.retireAcked t).conn.state = x.conn.state := congrArg Core.state hcore
    have hsettled := congrArg Core.negotiated hcore
    have hretired : Unsettling x (x.retireAcked t) :=
      ⟨hsettled, congrArg Core.localMss hcore, fun _ h => .inl h, .inl,
        fun h => hstate ▸ h, fun h => hstate ▸ h, fun h => hstate ▸ h⟩
    obtain ⟨newState, hfin, heq⟩ | heq := slide_cases t x
    · rw [heq]
      refine hretired.trans (.transition ?_ ?_ ?_ ?_) <;>
        rcases hfin with ⟨-, rfl⟩ | ⟨-, rfl⟩ | ⟨-, rfl⟩ <;> simp
    · rw [heq]
      exact hretired
  | deliver => exact .of_conn rfl rfl rfl
  | unblock => exact .of_conn rfl rfl rfl
  | buffer t =>
    refine .of_conn ?_ ?_ ?_ <;>
    · unfold bufferOutOfOrder
      split_ifs <;> rfl
  | consumeFin =>
    obtain ⟨-, heq⟩ | ⟨c, entered, -, -, hcore, heq⟩ := consumeFin_cases x
    · rw [heq]
      exact .of_conn rfl rfl rfl
    · have hstate : x.consumeFin.conn.state = stateAfterFin x.conn.state := congrArg Core.state hcore
      obtain ⟨hest, hsent, hreceived, hlisten⟩ := stateAfterFin_settled x.conn.state
      have hsettled := congrArg Core.negotiated hcore
      refine ⟨hsettled, congrArg Core.localMss hcore, fun call hcall => ?_,
        fun hentered => ?_, fun h => hstate ▸ hsent h, fun h => hstate ▸ hreceived h,
        fun h => hstate ▸ hlisten h⟩
      · rw [heq] at hcall
        rcases List.mem_append.1 hcall with hcall | hcall
        · exact .inl hcall
        · rw [List.mem_singleton.1 hcall]
          exact .inr (sendOptions_mssOption hasFlag_zero_syn c flagAck c.sendNext)
      · rw [heq] at hentered
        rcases List.mem_append.1 hentered with hentered | hentered
        · exact .inl hentered
        · exact absurd (List.mem_singleton.1 hentered).symm hest
  | establishActive t ht hstate => exact absurd hstate (hsegment t ht)
  | establishPassive t _ hstate =>
    refine ⟨rfl, rfl, fun _ h => .inl h, fun _ => .inr hstate, fun _ => ?_, fun _ => ?_, fun _ => ?_⟩ <;>
      simp [transition]
  | abort => exact .transition (by simp) (by simp) (by simp) (by simp)
  | take => exact ⟨rfl, rfl, fun _ h => .inl h, .inl, id, id, id⟩
  | lowerMss pathMss he => exact absurd he (hmtu pathMss)

theorem Event.unsettling (h : e.run x = some y) (hsegment : ∀ t, e = .segment t → x.conn.state ≠ .synSent)
    (hmtu : ∀ pathMss, e ≠ .reduceEffectiveMss pathMss) : Unsettling x y := by
  have hsteps : Unsettling x y ∧ ∀ t, e = .segment t → y.conn.state ≠ .synSent := by
    refine (Event.run_steps h).preserves
      (P := fun y => Unsettling x y ∧ ∀ t, e = .segment t → y.conn.state ≠ .synSent) ?_
      ⟨.of_conn rfl rfl rfl, hsegment⟩
    rintro y z heff ⟨hxy, hy⟩
    have hyz := heff.unsettling hy hmtu
    exact ⟨hxy.trans hyz, fun t ht => hyz.notSent (hy t ht)⟩
  exact hsteps.1

theorem Offering.of_unsettling {mss : UInt16} (h : Offering mss x) (hu : Unsettling x y) : Offering mss y where
  localMss := hu.localMss.trans h.localMss
  calls call hcall := (hu.calls call hcall).elim (h.calls call) .inl

end Unsettling

/-! ### The two sides -/

/-- The side that opens actively. -/
structure ActiveSide (mss mss' : UInt16) (x : Session) : Prop where
  offering : Offering mss x
  notReceived : x.conn.state ≠ .synReceived
  settled : TcpState.established ∈ x.entered → x.conn.core.negotiated = .full (min mss mss')

/-- The side that opens passively, once it has. -/
structure PassiveSide (mss mss' : UInt16) (x : Session) : Prop where
  offering : Offering mss x
  notSent : x.conn.state ≠ .synSent
  notListen : x.conn.state ≠ .listen
  settled : x.conn.core.negotiated = .full (min mss mss')

section Sides

variable {mss mss' : UInt16} {x y : Session} {e : Event} {t : Tcp}

theorem ActiveSide.of_unsettling (h : ActiveSide mss mss' x) (hu : Unsettling x y) : ActiveSide mss mss' y where
  offering := h.offering.of_unsettling hu
  notReceived := hu.notReceived h.notReceived
  settled hest := by
    rw [hu.negotiated]
    exact h.settled ((hu.entered hest).resolve_right h.notReceived)

theorem PassiveSide.run (h : PassiveSide mss mss' x) (he : e.run x = some y)
    (hmtu : ∀ pathMss, e ≠ .reduceEffectiveMss pathMss) : PassiveSide mss mss' y := by
  have hu := Event.unsettling he (fun _ _ => h.notSent) hmtu
  exact ⟨h.offering.of_unsettling hu, hu.notSent h.notSent, hu.notListen h.notListen,
    hu.negotiated.trans h.settled⟩

theorem negotiated_recordSynAck {c : TcpConnection} (hmss : c.localMss = mss) (h : Offers mss' t) :
    (recordSynAck t c).core.negotiated = .full (min mss mss') := by
  obtain ⟨hsize, hscale, htimestamp, hsack⟩ := h
  simp [Core.negotiated, core, recordSynAck, Negotiated.full, hsize, hscale, htimestamp, hsack, hmss]

theorem negotiated_recordSyn {c : TcpConnection} (hmss : c.localMss = mss) (h : Offers mss' t)
    (hpos : mss' ≠ 0) : (recordSyn (.ofSegment t) c).core.negotiated = .full (min mss mss') := by
  obtain ⟨hsize, hscale, htimestamp, hsack⟩ := h
  simp [Core.negotiated, core, recordSyn, SynOptions.ofSegment, Negotiated.full, hsize, hscale,
    htimestamp, hsack, hmss, hpos]

/-- A segment reaches the active side.  In `SYN_SENT` a SYN-ACK for our SYN
carries its options. -/
theorem ActiveSide.onSegment (h : ActiveSide mss mss' x)
    (ht : x.conn.state = .synSent → t.syn → t.ack → t.acknowledgementNumber = x.conn.sendNext →
      Offers mss' t) : ActiveSide mss mss' (x.onSegment t) := by
  by_cases hstate : x.conn.state = .synSent
  · have harrived : Unsettling x (x.noteArrival t) := ⟨rfl, rfl, fun _ h => .inl h, .inl, id, id, id⟩
    have hz : (x.noteArrival t).conn.state = .synSent := hstate
    unfold Session.onSegment dispatch
    split_ifs
    · refine h.of_unsettling (harrived.trans ?_)
      unfold handleRst
      dsimp only
      split_ifs
      · exact .of_conn rfl rfl rfl
      · exact .transition (by simp) (by simp) (by simp) (by simp)
    · rw [hz]
      dsimp only
      unfold handleSynSent
      split_ifs with hsyn
      · simp only [Bool.and_eq_true, decide_eq_true_eq] at hsyn
        have hoffers := ht hstate hsyn.1.1 hsyn.1.2 hsyn.2
        have hestablished : ActiveSide mss mss'
            (((x.noteArrival t).modify (recordSynAck t)).transition .established) :=
          ⟨⟨h.offering.localMss, h.offering.calls⟩, by simp [transition],
            fun _ => negotiated_recordSynAck (c := (x.noteArrival t).conn) h.offering.localMss hoffers⟩
        exact hestablished.of_unsettling .sendPureAck
      · exact h.of_unsettling harrived
  · exact h.of_unsettling (Event.unsettling (e := .segment t) rfl (fun _ _ => hstate) (by simp))

theorem ActiveSide.run (h : ActiveSide mss mss' x) (he : e.run x = some y)
    (hsegment : ∀ t, e = .segment t → x.conn.state = .synSent → t.syn → t.ack →
      t.acknowledgementNumber = x.conn.sendNext → Offers mss' t)
    (hmtu : ∀ pathMss, e ≠ .reduceEffectiveMss pathMss) : ActiveSide mss mss' y := by
  by_cases hs : ∃ t, e = .segment t
  · obtain ⟨t, rfl⟩ := hs
    exact Option.some.inj he ▸ h.onSegment (hsegment t rfl)
  · exact h.of_unsettling (Event.unsettling he (fun t ht => absurd ⟨t, ht⟩ hs) hmtu)

theorem offers_sendOptions (c : TcpConnection) (header : Tcp) (payload : Bytes) :
    Offers c.localMss ((sendOptions c flagSyn header).carrying payload) := by
  rw [sendOptions, if_pos hasFlag_syn_syn]
  exact ⟨rfl, rfl, rfl, rfl⟩

theorem Offering.sendSyn (h : Offering mss x) (includeAck : Bool) :
    Offering mss (x.sendFlags flagSyn [] includeAck) := by
  refine ⟨h.localMss, fun call hcall => ?_⟩
  rcases List.mem_append.1 hcall with hcall | hcall
  · exact h.calls call hcall
  · rw [List.mem_singleton.1 hcall]
    have hoffers := offers_sendOptions x.conn (x.conn.buildHeader
      (if includeAck then flagSyn ||| flagAck else flagSyn) x.conn.sendNext) []
    rw [h.localMss] at hoffers
    exact .inr hoffers

theorem activeSide_initiateConnect (portA portB : UInt16) (isn : UInt32) (mss mss' : UInt16)
    (algorithm : CongestionControlAlgorithm) :
    ActiveSide mss mss' (Session.fresh portA portB isn mss algorithm).initiateConnect := by
  have hfresh : Offering mss ((Session.fresh portA portB isn mss algorithm).transition .synSent) :=
    ⟨rfl, fun _ hcall => absurd hcall List.not_mem_nil⟩
  refine ⟨hfresh.sendSyn false, ?_, fun hest => ?_⟩
  · show TcpState.synSent ≠ .synReceived
    decide
  · exact absurd (List.mem_singleton.1 hest) (by decide)

theorem passiveSide_acceptIncomingSyn (portB portA : UInt16) (isn : UInt32) (mss mss' : UInt16)
    (algorithm : CongestionControlAlgorithm) (h : Offers mss' t) (hpos : mss' ≠ 0) : PassiveSide mss mss'
      ((Session.fresh portB portA isn mss algorithm).acceptIncomingSyn (.ofSegment t)) := by
  have hfresh : Offering mss (((Session.fresh portB portA isn mss algorithm).modify
      (recordSyn (.ofSegment t))).transition .synReceived) :=
    ⟨rfl, fun _ hcall => absurd hcall List.not_mem_nil⟩
  refine ⟨hfresh.sendSyn true, ?_, ?_, ?_⟩
  · show TcpState.synReceived ≠ .synSent
    decide
  · show TcpState.synReceived ≠ .listen
    decide
  · rw [acceptIncomingSyn, core_sendFlags_syn]
    exact negotiated_recordSyn (c := (Session.fresh portB portA isn mss algorithm).conn) rfl h hpos

end Sides

/-! ### Whole runs -/

/-- The handshake takes place on segments that carry their options: `b` is opened
with the options of a SYN that has some, and the SYN-ACK that `a` waits for has
some.  No path MTU is reported, whether or not it would lower the segment size. -/
def Action.carriesOptions : Action → System → Prop
  | .accept i options, s => ∀ call ∈ s.a.sent[i]?,
    options = .ofSegment call.segment ∧ call.segment.mssOption.isSome
  | .deliver .a i, s => ∀ call ∈ s.b.sent[i]?, s.a.conn.state = .synSent → call.segment.syn →
    call.segment.ack → call.segment.acknowledgementNumber = s.a.conn.sendNext →
      call.segment.mssOption.isSome
  | .act _ (.reduceEffectiveMss _), _ => False
  | _, _ => True

instance : (action : Action) → (s : System) → Decidable (action.carriesOptions s)
  | .accept i _, s => inferInstanceAs (Decidable (∀ call ∈ s.a.sent[i]?, _))
  | .deliver .a i, s => inferInstanceAs (Decidable (∀ call ∈ s.b.sent[i]?, _))
  | .act _ (.reduceEffectiveMss _), _ => isFalse id
  | .deliver .b _, _ | .act _ (.segment _), _ | .act _ (.timePassed _), _ | .act _ (.send _), _
  | .act _ (.read _), _ | .act _ .close, _ | .act _ (.setKeepalive _), _ | .act _ .fail, _ =>
    isTrue trivial

/-- Both sides, `b` as it was or opened. -/
def System.Settled (mssA mssB : UInt16) (b₀ : Session) (s : System) : Prop :=
  ActiveSide mssA mssB s.a ∧ (PassiveSide mssB mssA s.b ∨ s.b = b₀)

theorem Offering.offers {mss : UInt16} {x : Session} (h : Offering mss x) {call : Call}
    (hcall : call ∈ x.sent) (hsome : call.segment.mssOption.isSome) : Offers mss call.segment := by
  refine (h.calls call hcall).resolve_left fun hnone => ?_
  rw [hnone] at hsome
  cases hsome

theorem min_comm_of_uint16 (a b : UInt16) : min a b = min b a := by
  show (if a ≤ b then a else b) = if b ≤ a then b else a
  split_ifs with hab hba hba
  · exact UInt16.le_antisymm hab hba
  · rfl
  · rfl
  · exact absurd (UInt16.le_total a b) (by tauto)

theorem optionsAgree_of_full {c c' : TcpConnection} {mss : UInt16} (h : c.core.negotiated = .full mss)
    (h' : c'.core.negotiated = .full mss) : OptionsAgree mss c c' := by
  obtain ⟨hscaling, hscale, htimestamps, hsack, hsize⟩ := Negotiated.mk.inj h
  obtain ⟨hscaling', hscale', htimestamps', hsack', hsize'⟩ := Negotiated.mk.inj h'
  have hshift : c.ourShift = windowScaleShift := if_pos hscaling
  have hshift' : c'.ourShift = windowScaleShift := if_pos hscaling'
  exact ⟨hscaling.trans hscaling'.symm, htimestamps.trans htimestamps'.symm, hsack.trans hsack'.symm,
    hscale.trans hshift'.symm, hscale'.trans hshift.symm, hsize, hsize'⟩

section Runs

variable {portA portB mssA mssB : UInt16} {isnB : UInt32} {algorithm : CongestionControlAlgorithm}
  {s t : System} {action : Action}

theorem System.Settled.feed {side : Side} {e : Event}
    (h : s.Settled mssA mssB (.fresh portB portA isnB mssB algorithm)) (hfeed : s.feed side e = some t)
    (hsegment : side = .a → ∀ u, e = .segment u → s.a.conn.state = .synSent → u.syn → u.ack →
      u.acknowledgementNumber = s.a.conn.sendNext → Offers mssB u)
    (hmtu : ∀ pathMss, e ≠ .reduceEffectiveMss pathMss) :
    t.Settled mssA mssB (.fresh portB portA isnB mssB algorithm) := by
  obtain ⟨ha, hb⟩ := h
  obtain ⟨rfl, a, hrun, rfl⟩ | ⟨rfl, hopened, b, hrun, rfl⟩ := System.feed_cases hfeed
  · exact ⟨ha.run hrun (hsegment rfl) hmtu, hb⟩
  · have hpassive : PassiveSide mssB mssA s.b := by
      refine hb.resolve_right fun hfresh => hopened ?_
      rw [hfresh]
      rfl
    exact ⟨ha, .inl (hpassive.run hrun hmtu)⟩

/-- **Every step that carries the options keeps both sides settled.** -/
theorem System.Settled.step (h : s.Settled mssA mssB (.fresh portB portA isnB mssB algorithm))
    (hpos : mssA ≠ 0) (hok : action.carriesOptions s) (hstep : System.step action s = some t) :
    t.Settled mssA mssB (.fresh portB portA isnB mssB algorithm) := by
  cases action with
  | accept i options =>
    obtain ⟨call, hcall, hif⟩ := Option.bind_eq_some_iff.1 hstep
    simp only [Option.ite_none_right_eq_some, Option.some.injEq] at hif
    obtain ⟨⟨hlisten, -, -⟩, rfl⟩ := hif
    obtain ⟨rfl, hsome⟩ := hok call hcall
    have hoffers := h.1.offering.offers (List.mem_of_getElem? hcall) hsome
    have hfresh := h.2.resolve_left fun hb => hb.notListen hlisten
    refine ⟨h.1, .inl ?_⟩
    rw [hfresh]
    exact passiveSide_acceptIncomingSyn portB portA isnB mssB mssA algorithm hoffers hpos
  | deliver side i =>
    obtain ⟨call, hcall, hfeed⟩ := Option.bind_eq_some_iff.1 hstep
    refine h.feed hfeed ?_ nofun
    rintro rfl _ ⟨rfl⟩ hstate hsyn hack hseq
    have hsome := hok call hcall hstate hsyn hack hseq
    have hsent : call ∈ s.b.sent := List.mem_of_getElem? hcall
    rcases h.2 with hb | hfresh
    · exact hb.offering.offers hsent hsome
    · rw [hfresh] at hsent
      cases hsent
  | act side e =>
    simp only [System.step, Option.ite_none_left_eq_some] at hstep
    refine h.feed hstep.2 (fun _ u hu => ?_) (fun pathMss he => ?_)
    · rw [hu] at hstep
      exact absurd rfl hstep.1
    · rw [he] at hok
      exact hok

end Runs

/-- **Option agreement.**  In every run in which the handshake takes place on
segments that carry their options, two sides that have been established agree on
scaling, timestamps, SACK and the segment size. -/
theorem options_agree (portA portB : UInt16) (isnA isnB : UInt32) (mssA mssB : UInt16)
    (algorithmA algorithmB : CongestionControlAlgorithm) (actions : List Action) (s : System)
    (hpos : mssA ≠ 0)
    (hcarries : Along System.step Action.carriesOptions actions
      (.start portA portB isnA isnB mssA mssB algorithmA algorithmB))
    (hrun : runs System.step actions
      (.start portA portB isnA isnB mssA mssB algorithmA algorithmB) = some s) :
    s.Agrees (min mssA mssB) := by
  have hsettled : s.Settled mssA mssB (.fresh portB portA isnB mssB algorithmB) :=
    runs_invariant (fun _ _ _ hs hok hstep => hs.step hpos hok hstep)
      ⟨activeSide_initiateConnect portA portB isnA mssA mssB algorithmA, .inr rfl⟩ hcarries hrun
  intro ha hb
  rcases hsettled.2 with hpassive | hfresh
  · have hb' := hpassive.settled
    rw [min_comm_of_uint16] at hb'
    exact optionsAgree_of_full (hsettled.1.settled ha) hb'
  · rw [hfresh] at hb
    cases hb

/-- The first copies of SYN and SYN-ACK arrive, and later a second copy of the
SYN-ACK. -/
theorem options_agree_first_copies :
    ∃ s, runs System.step
        [.accept 0 (.ofSegment { Tcp.ofFlags 9000 80 7 0 5 flagSyn 65535 0 0 with
            mssOption := some 1460, windowScaleOption := some 1, timestampOption := some (1, 0),
            sackPermittedOption := true }),
          .act .b (.timePassed 1000), .deliver .a 0, .deliver .b 1, .deliver .a 1]
        (.start 9000 80 7 100 1460 1000 .reno .reno) = some s ∧
      (TcpState.established ∈ s.a.entered ∧ TcpState.established ∈ s.b.entered) ∧ s.Agrees 1000 := by
  refine ⟨_, (Option.some_get (by decide +kernel)).symm, ?_, ?_⟩
  · decide +kernel
  · exact options_agree _ _ _ _ _ _ _ _ _ _ (by decide) (by decide +kernel) (Option.some_get _).symm

/-- The first SYN is lost, and `b` is opened with the options of the second: none.
Its SYN-ACK offers everything, so `a` scales, uses timestamps and SACK, and `b`
does not.  If the SYN-ACK is lost it is the other way round. -/
theorem retransmitted_syn_disagrees :
    (∃ s call s', runs System.step [.act .a (.timePassed 1000)]
        (.start 9000 80 7 100 1460 1000 .reno .reno) = some s ∧ s.a.sent[1]? = some call ∧
      runs System.step [.accept 1 (.ofSegment call.segment), .deliver .a 0, .deliver .b 2] s = some s' ∧
      s'.a.conn.state = .established ∧ s'.b.conn.state = .established ∧
      s'.a.conn.windowScalingNegotiated = true ∧ s'.b.conn.windowScalingNegotiated = false ∧
      ¬ s'.Agrees (min 1460 1000)) ∧
    ∃ call s, (System.start 9000 80 7 100 1460 1000 .reno .reno).a.sent[0]? = some call ∧
      runs System.step
        [.accept 0 (.ofSegment call.segment), .act .b (.timePassed 1000), .deliver .a 1, .deliver .b 1]
        (.start 9000 80 7 100 1460 1000 .reno .reno) = some s ∧
      s.a.conn.state = .established ∧ s.b.conn.state = .established ∧
      s.a.conn.windowScalingNegotiated = false ∧ s.b.conn.windowScalingNegotiated = true ∧
      ¬ s.Agrees (min 1460 1000) := by
  constructor
  · refine ⟨_, _, _, rfl, rfl, rfl, by decide +kernel, by decide +kernel, by decide +kernel,
      by decide +kernel, fun h => ?_⟩
    have hscaling := (h (by decide +kernel) (by decide +kernel)).scaling
    exact absurd hscaling (by decide +kernel)
  · refine ⟨_, _, rfl, rfl, by decide +kernel, by decide +kernel, by decide +kernel, by decide +kernel,
      fun h => ?_⟩
    have hscaling := (h (by decide +kernel) (by decide +kernel)).scaling
    exact absurd hscaling (by decide +kernel)

end TcpIpStack
