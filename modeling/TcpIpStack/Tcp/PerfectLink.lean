/-
# Retransmissions on a perfect link

On a link that loses nothing, with no time passing, nothing should ever be sent
twice.  But `_handle_ack` counts every segment that repeats `SND.UNA` while
something is in flight as a duplicate ack, and a segment that carries data in
the other direction does that as well.  Three of them in a row start a fast
retransmission (`reverse_data_retransmits`).

That is the only way: as long as no segment that is delivered is the third
duplicate ack of its side, or carries data and is a duplicate ack, every segment
with a payload starts where the ones before it ended, no side enters fast
recovery, and no data is counted as a duplicate ack (`perfect_link_sends_once`).
-/

import TcpIpStack.Tcp.Sender
import TcpIpStack.Tcp.Timers
import TcpIpStack.Tcp.Link

namespace TcpIpStack

open Serial TcpConnection Session Runs

/-! ### What has been sent, in order -/

/-- Every segment with a payload starts where the ones before it ended: the
first `n` bytes of the stream are already out. -/
def InOrder (isn : UInt32) : ℕ → List Call → Prop
  | _, [] => True
  | n, call :: rest => (call.payload ≠ [] → call.header.sequenceNumber = after isn (1 + n)) ∧
    InOrder isn (n + call.payload.length) rest

/-- How many bytes of the stream the calls carry. -/
def payloadBytes (calls : List Call) : ℕ := (calls.map fun call => call.payload.length).sum

theorem inOrder_append (isn : UInt32) (n : ℕ) (calls : List Call) (call : Call) :
    InOrder isn n (calls ++ [call]) ↔ InOrder isn n calls ∧
      (call.payload ≠ [] → call.header.sequenceNumber = after isn (1 + (n + payloadBytes calls))) := by
  induction calls generalizing n with
  | nil => simp [InOrder, payloadBytes]
  | cons hd tl ih =>
    rw [List.cons_append, InOrder, InOrder, ih, and_assoc]
    simp only [payloadBytes, List.map_cons, List.sum_cons, Nat.add_assoc]

/-- As long as no call but those of `_send_flags` and pure acks is made, what is
out is the stream up to `SND.NXT`, each byte once. -/
def Session.SentOnce (isn : UInt32) (x : Session) : Prop :=
  (∀ call ∈ x.sent, call.Fresh False) → InOrder isn 0 x.sent ∧
    payloadBytes x.sent = x.retired.length + (flightBytes x.conn.core.flight).length

section SentOnce

variable {isn : UInt32} {x y : Session} {e : Event} {s₀ : TcpState}

theorem Session.SentOnce.of_eq (h : x.SentOnce isn) (hsent : y.sent = x.sent)
    (hbytes : y.retired.length + (flightBytes y.conn.core.flight).length =
      x.retired.length + (flightBytes x.conn.core.flight).length) : y.SentOnce isn := by
  intro hfresh
  rw [hsent, hbytes]
  exact h (hsent ▸ hfresh)

/-- A step that makes one call: what is new starts where the stream has got to. -/
theorem Session.SentOnce.of_call {call : Call} (h : x.SentOnce isn) (hsent : y.sent = x.sent ++ [call])
    (hcall : call.Fresh False → call.payload ≠ [] → call.header.sequenceNumber =
      after isn (1 + (x.retired.length + (flightBytes x.conn.core.flight).length)))
    (hbytes : call.Fresh False → y.retired.length + (flightBytes y.conn.core.flight).length =
      x.retired.length + (flightBytes x.conn.core.flight).length + call.payload.length) : y.SentOnce isn := by
  intro hfresh
  rw [hsent] at hfresh ⊢
  have hlast := hfresh call (List.mem_append_right _ (List.mem_singleton_self _))
  obtain ⟨horder, hcount⟩ := h fun call hcall => hfresh call (List.mem_append_left _ hcall)
  refine ⟨(inOrder_append ..).2 ⟨horder, fun hne => ?_⟩, ?_⟩
  · rw [hcall hlast hne, hcount, Nat.zero_add]
  · rw [hbytes hlast, ← hcount]
    simp [payloadBytes]

theorem Session.SentOnce.sendFlags (h : x.SentOnce isn) {n : ℕ} (hn : n = x.retired.length)
    (hstream : Streaming isn n x.conn.core) (chunk : Bytes) : (x.sendFlags 0 chunk true).SentOnce isn := by
  subst hn
  refine h.of_call rfl (fun _ _ => ?_) (fun _ => ?_)
  · rw [← Nat.add_assoc]
    exact hstream.sendNext
  · show x.retired.length + (flightBytes (x.sendFlags 0 chunk true).conn.core.flight).length = _
    rw [core_sendFlags_data, Core.transmit, flightBytes_append, List.length_append, Nat.add_assoc]
    simp [flightBytes]

/-- **Every effect keeps the order of what is sent.** -/
theorem Session.SentOnce.effect (h : x.SentOnce isn) (hkept : x.Kept isn) (he : Effect e s₀ x y) :
    y.SentOnce isn := by
  have hopened (hopening : ∃ flags, Opening isn flags x.retired.length x.conn.core) :
      flightBytes x.conn.core.flight = [] := by
    obtain ⟨flags, hopening⟩ := hopening
    rw [hopening.flight]
    rfl
  cases he with
  | quiet c hcore => exact h.of_eq rfl (by simp only [hcore])
  | drain t front rest _ hqueue _ hacks =>
    have hstream := hkept.phase.streaming
      (hkept.acceptsData_of_queue hacks.2.2 (by simp [core, hqueue]))
    have hpopped : (x.modify fun c => { c with
        sendQueue := rest, sendQueuedBytes := c.sendQueuedBytes - front.length }).SentOnce isn :=
      h.of_eq rfl rfl
    exact hpopped.sendFlags rfl ⟨hstream.tiles, hstream.sendNext⟩ front
  | place chunk data _ hstate _ _ =>
    unfold placeChunk
    dsimp only
    split_ifs
    · exact h.of_eq rfl rfl
    · exact (h.sendFlags rfl (hkept.phase.streaming hstate) chunk).of_eq rfl rfl
  | slide t _ _ _ _ =>
    obtain ⟨popped, rest, hflight, -, hcore, hretired, -, hsent⟩ := core_slide t x
    refine h.of_eq hsent ?_
    rw [hcore, hretired, hflight, flightBytes_append]
    simp [Core.retire, Nat.add_assoc]
  | scoreboard t _ _ _ =>
    refine h.of_eq rfl ?_
    rw [show flightBytes (x.modify fun c => (c.applySackBlocks t).1).conn.core.flight =
      flightBytes x.conn.core.flight from (applySackBlocks_flight t x.conn hkept.unsacked).1.flightBytes_eq]
    rfl
  | consumeFin t =>
    obtain ⟨-, heq⟩ | ⟨c, entered, -, -, hcore, heq⟩ := consumeFin_cases x
    · rw [heq]
      exact h.of_eq rfl rfl
    · have hsent : x.consumeFin.sent = x.sent ++ [⟨.pureAck, c, entered, x.accepted, x.retired,
          sendOptions c 0 (c.buildHeader flagAck c.sendNext), []⟩] := by rw [heq]
      refine h.of_call hsent (fun _ hne => absurd rfl hne) (fun _ => ?_)
      rw [hcore, heq]
      rfl
  | establishActive t _ hstate _ _ _ =>
    refine h.of_eq rfl ?_
    rw [hopened ⟨_, hkept.phase.opening (by rw [core, hstate]; rfl)⟩]
    rfl
  | establishPassive t _ hstate _ _ =>
    refine h.of_eq rfl ?_
    rw [hopened ⟨_, hkept.phase.opening (by rw [core, hstate]; rfl)⟩]
    rfl
  | fin =>
    refine h.of_call rfl (fun _ hne => absurd rfl hne) (fun _ => ?_)
    rw [sendFin, core_sendFlags_fin, Core.transmit, flightBytes_append, List.length_append]
    rfl
  | ack => exact h.of_call rfl (fun _ hne => absurd rfl hne) (fun _ => rfl)
  | keepalive => exact h.of_call rfl (fun _ hne => absurd rfl hne) (fun _ => rfl)
  | probe front rest =>
    refine h.of_call rfl (fun hfresh => ?_) (fun hfresh => ?_)
    all_goals simp [Call.Fresh] at hfresh
  | retransmit site s hsite =>
    refine h.of_call rfl (fun hfresh => ?_) (fun hfresh => ?_)
    all_goals rcases hsite with rfl | rfl <;> simp [Call.Fresh] at hfresh
  | buffer t _ _ _ =>
    refine h.of_eq rfl ?_
    simp only [Session.modify, bufferOutOfOrder]
    split_ifs <;> rfl
  | lowerMss pathMss _ =>
    refine h.of_eq rfl ?_
    simp only [Session.modify, reduceEffectiveMss]
    split_ifs <;> rfl
  | receive | holdAck | window | deliver | unblock | abort | take => exact h.of_eq rfl rfl

end SentOnce

/-! ### A session without the clock -/

/-- Nothing has timed out and nothing is about to. -/
structure Session.Timeless (x : Session) : Prop where
  rto : 0 < x.conn.timers.rtoMs
  ack : x.conn.timers.AckRunning
  flight : ∀ s ∈ x.conn.timers.inFlight, 0 < s.retransmitMsRemaining
  keepalive : x.conn.timers.keepaliveEnabled = false
  recovery : x.conn.timers.inFastRecovery = false
  sent : ∀ call ∈ x.sent, call.Fresh False

section Timeless

variable {r : Prop} {x y : Session}

/-- Without a retransmission, whatever is in flight keeps a timer that runs. -/
theorem Session.Timeless.of_undisturbed (h : x.Timeless) (hxy : Undisturbed r x y) (hr : ¬ r) : y.Timeless where
  rto := hxy.rto h.rto
  ack := hxy.ack h.ack
  flight s hs := by
    rcases hxy.flight h.rto s hs with ⟨-, hpos⟩ | ⟨s', hs', -, -, hpos⟩
    · exact hpos
    · exact hpos (h.flight s' hs')
  keepalive := hxy.keepaliveEnabled.trans h.keepalive
  recovery := by
    by_contra hne
    rcases hxy.recovery (by simpa using hne) with hx | hr'
    · rw [h.recovery] at hx
      cases hx
    · exact hr hr'
  sent := by
    obtain ⟨calls, hsent, hcalls⟩ := hxy.sent
    intro call hcall
    rw [hsent] at hcall
    rcases List.mem_append.1 hcall with hcall | hcall
    · exact h.sent call hcall
    · exact (hcalls call hcall).imp_right (.imp_right fun ⟨hr', _⟩ => absurd hr' hr)

theorem updateOldestUnsacked_eq_self {f : InFlightSegment → InFlightSegment}
    {l : List InFlightSegment} {oldest : InFlightSegment}
    (hold : l.find? (fun s => !s.sacked) = some oldest) (hf : f oldest = oldest) :
    updateOldestUnsacked f l = l := by
  induction l with
  | nil => rfl
  | cons s rest ih =>
    rw [updateOldestUnsacked]
    cases hs : s.sacked with
    | true =>
      rw [List.find?_cons_of_neg (by simp [hs])] at hold
      simp [ih hold]
    | false =>
      rw [List.find?_cons_of_pos (by simp [hs]), Option.some.injEq] at hold
      simp [hold, hf]

theorem Session.Timeless.runRetransmit (h : x.Timeless) : Undisturbed r x (x.runRetransmit 0) := by
  unfold Session.runRetransmit
  split
  · exact .refl x
  · next oldest hold =>
    have hzero : oldest.retransmitMsRemaining - asInt 0 = oldest.retransmitMsRemaining := Int.sub_zero _
    have hsame : x.conn.updateOldest (aged oldest.retransmitMsRemaining oldest.retransmitAttempts) =
        x.conn := by
      unfold updateOldest
      rw [updateOldestUnsacked_eq_self hold rfl]
    dsimp only
    rw [hzero, if_pos (h.flight oldest (List.mem_of_find?_eq_some hold))]
    exact .of_eq (congrArg timers hsame) rfl

theorem Session.Timeless.runDelayedAck (h : x.Timeless) : Undisturbed r x (x.runDelayedAck 0) := by
  have hzero : x.conn.ackDelayMsRemaining - asInt 0 = x.conn.ackDelayMsRemaining := Int.sub_zero _
  unfold Session.runDelayedAck
  dsimp only [Session.modify]
  split_ifs with hpending hdue
  · have hpos := h.ack hpending
    rw [hzero] at hdue
    exact absurd hpos (not_lt.2 hdue)
  · refine .of_eq ?_ rfl
    simp only [timers, hzero]
  · exact .refl x

/-- **No time, no timer.** -/
theorem Session.Timeless.onTimePassed (h : x.Timeless) : Undisturbed r x (x.onTimePassed 0) := by
  unfold Session.onTimePassed
  split
  · exact .refl x
  refine Undisturbed.trans (y := x.modify fun c => { c with nowMs := c.nowMs + (0 : UInt32).toUInt64 })
    (.of_eq rfl rfl) ?_
  have hy : (x.modify fun c => { c with nowMs := c.nowMs + (0 : UInt32).toUInt64 }).Timeless :=
    h.of_undisturbed (r := False) (.of_eq rfl rfl) id
  dsimp only
  generalize (x.modify fun c => { c with nowMs := c.nowMs + (0 : UInt32).toUInt64 }) = y at hy
  split
  · split
    all_goals exact .of_eq rfl rfl
  · have hacked := hy.runDelayedAck (r := False)
    refine (hy.runDelayedAck).trans ?_
    have hz : (y.runDelayedAck 0).Timeless := hy.of_undisturbed hacked id
    generalize y.runDelayedAck 0 = z at hz
    split
    · split
      · next hpersist =>
        have hzero : z.conn.persistMsRemaining - asInt 0 = z.conn.persistMsRemaining := Int.sub_zero _
        unfold runPersist
        rw [if_neg (by simp only [agePersist, hzero]; exact not_le.2 hpersist)]
        exact .of_eq rfl rfl
      · unfold runKeepalive
        rw [if_pos (by simp [show z.conn.keepaliveEnabled = false from hz.keepalive])]
        exact .refl z
    · exact hz.runRetransmit

end Timeless

/-! ### Duplicate acks -/

/-- The segment is counted as a duplicate ack: it repeats `SND.UNA` while something is
in flight. -/
def Duplicate (t : Tcp) (c : TcpConnection) : Prop :=
  t.rst = false ∧ handlesAcks c.state ∧ pawsRejects c t = false ∧ t.ack ∧ c.inFlight ≠ [] ∧
    t.acknowledgementNumber = c.sndUna

instance (t : Tcp) (c : TcpConnection) : Decidable (Duplicate t c) :=
  inferInstanceAs (Decidable (_ = false ∧ (_ ≠ _ ∧ _ ≠ _ ∧ _ ≠ _) ∧ _ = false ∧ _ = true ∧ _ ≠ _ ∧ _ = _))

section Duplicate

variable {t : Tcp} {x y : Session}

theorem dupAckCount_queue : QueueFrame fun x y => y.conn.dupAckCount = x.conn.dupAckCount where
  toFrame := .of_eq (·.conn.dupAckCount)
  front _ _ _ := rfl
  persist _ := by
    unfold Session.modify armOrDisarmPersist
    dsimp only
    split_ifs <;> rfl

theorem dupAckCount_fin : FinFrame fun x y => y.conn.dupAckCount = x.conn.dupAckCount where
  toFrame := .of_eq (·.conn.dupAckCount)
  pureAck _ := rfl
  hold _ := rfl
  deliver _ _ := rfl
  unblock _ _ := rfl
  buffer _ _ _ := by
    unfold Session.modify bufferOutOfOrder
    split_ifs <;> rfl
  pastFin _ := rfl
  enter _ _ _ _ := rfl
  wait _ := rfl

theorem AckEnds.dupAckCount (h : AckEnds x y) : y.conn.dupAckCount = x.conn.dupAckCount := by
  cases h with
  | stop => rfl
  | acked => rfl
  | close =>
    unfold Session.close
    split_ifs <;> rfl

/-- An ack that repeats nothing starts the count again. -/
theorem dupAckCount_advanceAck (t : Tcp) (x : Session) : (x.advanceAck t).conn.dupAckCount = 0 := by
  have hafter (tally : AckTally) (x : Session) :
      (x.modify (afterNewAck tally)).conn.dupAckCount = x.conn.dupAckCount := by
    unfold Session.modify afterNewAck
    dsimp only
    split_ifs <;> rfl
  obtain ⟨y, hy, hends⟩ := dupAckCount_queue.resume hafter t x
  rw [hends.dupAckCount, hy]
  unfold retireAcked sampleRtt
  dsimp only
  split
  · split_ifs <;> rfl
  · split <;> rfl

/-- **Only duplicate acks are counted.** -/
theorem dupAckCount_onSegment (h : ¬ Duplicate t x.conn) :
    (x.onSegment t).conn.dupAckCount = x.conn.dupAckCount ∨ (x.onSegment t).conn.dupAckCount = 0 := by
  unfold onSegment dispatch
  split_ifs with hrst
  · unfold handleRst
    dsimp only
    split_ifs <;> exact .inl rfl
  · split
    · unfold handleSynSent
      split_ifs <;> exact .inl rfl
    · unfold handleSynReceived
      split_ifs <;> exact .inl rfl
    · exact .inl rfl
    · next hsent hreceived hclosed =>
      cases hpaws : pawsRejects (x.noteArrival t).conn t with
      | true =>
        unfold handleSynchronized
        rw [if_pos hpaws]
        exact .inl rfl
      | false =>
        rw [dupAckCount_fin.rest hpaws]
        unfold ackStage
        dsimp only
        split_ifs with hack
        · refine .inr ?_
          rw [handleAck_eq, if_neg fun hdup => h ?_, dupAckCount_advanceAck]
          obtain ⟨hbusy, hrepeats⟩ := (duplicate_noteAck t _).1 hdup
          obtain ⟨hflight, huna, -⟩ := recordTimestamp_flight t (x.noteArrival t).conn
          exact ⟨Bool.eq_false_iff.2 hrst, ⟨hsent, hreceived, hclosed⟩, hpaws, hack,
            hflight ▸ hbusy, hrepeats.trans huna⟩
        · exact .inl (recordTimestamp_flight t _).2.2

end Duplicate

/-! ### The link -/

/-- The applications send and read, and no time passes. -/
def LinkAction.Timeless : LinkAction → Prop
  | .deliver _ => True
  | .act _ (.send _) => True
  | .act _ (.read _) => True
  | .act _ (.timePassed elapsedMs) => elapsedMs = 0
  | .act _ _ => False

/-- The segment that is delivered is not the third duplicate ack of the side it
reaches, and if it carries data it is no duplicate ack at all. -/
def Link.NoDuplicateData : LinkAction → Link → Prop
  | .deliver side, l => ∀ call, l.pending side = some call →
    ¬ ThirdDuplicate call.segment (l.session side).conn ∧
      (call.payload ≠ [] → ¬ Duplicate call.segment (l.session side).conn)
  | .act _ _, _ => True

instance (action : LinkAction) (l : Link) : Decidable (Link.NoDuplicateData action l) :=
  match action with
  | .act _ _ => isTrue trivial
  | .deliver side =>
    match hcall : l.pending side with
    | none => isTrue fun _ h => absurd (hcall.symm.trans h) nofun
    | some call =>
      decidable_of_iff (¬ ThirdDuplicate call.segment (l.session side).conn ∧
          (call.payload ≠ [] → ¬ Duplicate call.segment (l.session side).conn))
        ⟨fun h _ heq => Option.some.inj (hcall.symm.trans heq) ▸ h, fun h => h call hcall⟩

/-- A segment with data leaves the count of duplicate acks of the side it reaches as it is,
or starts it again. -/
def Link.DataUncounted : LinkAction → Link → Prop
  | .deliver side, l => ∀ call, l.pending side = some call → call.payload ≠ [] →
    ((l.session side).onSegment call.segment).conn.dupAckCount = (l.session side).conn.dupAckCount ∨
      ((l.session side).onSegment call.segment).conn.dupAckCount = 0
  | .act _ _, _ => True

theorem Link.NoDuplicateData.uncounted {action : LinkAction} {l : Link} (h : Link.NoDuplicateData action l) :
    Link.DataUncounted action l := by
  cases action with
  | act => trivial
  | deliver side => exact fun call hcall hdata => dupAckCount_onSegment ((h call hcall).2 hdata)

/-- Nothing has been sent twice, and there is no fast recovery. -/
structure Session.Untroubled (isn : UInt32) (x : Session) : Prop where
  order : InOrder isn 0 x.sent
  recovery : x.conn.inFastRecovery = false

/-- The initial sequence number of a side. -/
def isnOf (isnA isnB : UInt32) : Side → UInt32
  | .a => isnA
  | .b => isnB

/-- The invariant of one side. -/
structure Session.SendsOnce (isn : UInt32) (x : Session) : Prop where
  kept : x.Kept isn
  once : x.SentOnce isn
  timeless : x.Timeless

theorem Session.SendsOnce.untroubled {isn : UInt32} {x : Session} (h : x.SendsOnce isn) :
    x.Untroubled isn := ⟨(h.once h.timeless.sent).1, h.timeless.recovery⟩

section Link

variable {isnA isnB : UInt32} {l l' : Link} {action : LinkAction}

theorem Session.SendsOnce.run {isn : UInt32} {x y : Session} {e : Event} {r : Prop}
    (h : x.SendsOnce isn) (he : e.run x = some y) (hxy : Undisturbed r x y) (hr : ¬ r) : y.SendsOnce isn where
  kept := h.kept.run he
  once := by
    have hboth : y.SentOnce isn ∧ y.Kept isn :=
      (Event.run_steps he).preserves (P := fun z => z.SentOnce isn ∧ z.Kept isn)
        (fun _ _ heff hz => ⟨hz.1.effect hz.2 heff, hz.2.effect heff⟩) ⟨h.once, h.kept⟩
    exact hboth.1
  timeless := h.timeless.of_undisturbed hxy hr

/-- What happens at a side of the link leaves its timers alone. -/
theorem Link.undisturbed_step (hl : (l.session action.side).Timeless) (haction : action.Timeless)
    (hstep : Link.step action l = some l') :
    ∃ e : Event, e.run (l.session action.side) = some (l'.session action.side) ∧
      Undisturbed (¬ Link.NoDuplicateData action l) (l.session action.side)
        (l'.session action.side) := by
  obtain ⟨e, hrun, -, ⟨call, hdeliver, hcall, rfl⟩ | ⟨hact, hsegment⟩⟩ := Link.step_cases hstep
  · refine ⟨_, hrun, ?_⟩
    rw [← Option.some.inj hrun]
    refine (undisturbed_onSegment _ _).mono fun hthird hno => ?_
    rw [hdeliver] at hno
    exact (hno call hcall).1 hthird
  · refine ⟨e, hrun, ?_⟩
    rw [hact] at haction
    cases e with
    | send data => exact undisturbed_send hrun
    | read maxBytes => exact Option.some.inj hrun ▸ undisturbed_read maxBytes _
    | timePassed elapsedMs =>
      have hzero : elapsedMs = 0 := haction
      subst hzero
      exact Option.some.inj hrun ▸ hl.onTimePassed
    | segment | close | setKeepalive | reduceEffectiveMss | fail => exact haction.elim

/-- Both SYNs are out and no data. -/
theorem sendsOnce_opening (portA portB : UInt16) (isnA isnB : UInt32) (mssA mssB : UInt16)
    (algorithmA algorithmB : CongestionControlAlgorithm) (options : SynOptions) :
    (Link.opening portA portB isnA isnB mssA mssB algorithmA algorithmB options).Both
      fun side x => x.SendsOnce (isnOf isnA isnB side) := by
  have hopen (o : Opener) (localPort remotePort : UInt16) (isn : UInt32) (mss : UInt16)
      (algorithm : CongestionControlAlgorithm) :
      (o.run (.fresh localPort remotePort isn mss algorithm)).SendsOnce isn := by
    refine ⟨kept_open o localPort remotePort isn mss algorithm, fun _ => ?_, ?_⟩
    · cases o <;> exact ⟨⟨fun hne => absurd rfl hne, trivial⟩, rfl⟩
    · refine ⟨?_, ?_, fun s hs => ?_, ?_, ?_, fun call hcall => ?_⟩
      · cases o <;> exact (by decide : 0 < initialRtoMs)
      · cases o <;> nofun
      · cases o <;> exact List.mem_singleton.1 hs ▸ (by decide : 0 < initialRtoMs)
      · cases o <;> rfl
      · cases o <;> rfl
      · cases o <;> exact List.mem_singleton.1 hcall ▸ .inl rfl
  exact ⟨hopen .active .., hopen (.passive { options with peerIsn := isnA }) ..⟩

end Link

/-- **On a perfect link nothing is sent twice**, nobody enters fast recovery, and no
segment with data is counted as a duplicate ack, in every run in which no segment that is
delivered is the third duplicate ack of the side it reaches, or a duplicate ack with data. -/
theorem perfect_link_sends_once (portA portB : UInt16) (isnA isnB : UInt32) (mssA mssB : UInt16)
    (algorithmA algorithmB : CongestionControlAlgorithm) (options : SynOptions)
    (actions : List LinkAction) (l : Link)
    (hrun : runs Link.step actions
      (.opening portA portB isnA isnB mssA mssB algorithmA algorithmB options) = some l)
    (hactions : ∀ action ∈ actions, action.Timeless)
    (hok : Along Link.step Link.NoDuplicateData actions
      (.opening portA portB isnA isnB mssA mssB algorithmA algorithmB options)) :
    l.Both (fun side x => x.Untroubled (isnOf isnA isnB side)) ∧
      Along Link.step Link.DataUncounted actions
        (.opening portA portB isnA isnB mssA mssB algorithmA algorithmB options) := by
  have hl : l.Both fun side x => x.SendsOnce (isnOf isnA isnB side) := by
    refine runs_invariant (I := fun l => l.Both fun side x => x.SendsOnce (isnOf isnA isnB side))
      (fun action l l' hl hok h => ?_)
      (sendsOnce_opening portA portB isnA isnB mssA mssB algorithmA algorithmB options)
      (hok.and_of_forall hactions) hrun
    have hside := Link.both_iff.1 hl action.side
    obtain ⟨e, hrun, hxy⟩ := Link.undisturbed_step hside.timeless hok.1 h
    exact Link.both_of_step h hl (hside.run hrun hxy (not_not.2 hok.2))
  exact ⟨⟨hl.1.untroubled, hl.2.untroubled⟩, hok.mono fun _ _ => Link.NoDuplicateData.uncounted⟩

/-- Data in both directions, each segment delivered before the next one. -/
theorem perfect_link_sends_once_both_ways :
    ∃ l, runs Link.step
        [.deliver .a, .deliver .b, .act .a (.send [1, 2]), .deliver .b, .act .b (.send [3]),
          .act .b (.timePassed 0), .deliver .a]
        (.opening 9000 80 7 100 1460 1460 .reno .reno { peerIsn := 7 }) = some l ∧
      l.Both (fun side x => x.Untroubled (isnOf 7 100 side)) ∧
      l.a.retired = [1, 2] ∧ l.a.conn.receiveQueue = [[3]] ∧ l.a.conn.dupAckCount = 0 := by
  refine ⟨_, rfl, (perfect_link_sends_once 9000 80 7 100 1460 1460 .reno .reno { peerIsn := 7 }
    [.deliver .a, .deliver .b, .act .a (.send [1, 2]), .deliver .b, .act .b (.send [3]),
      .act .b (.timePassed 0), .deliver .a] _ rfl ?_ ?_).1, ?_⟩
  · simp [LinkAction.Timeless]
  · decide +kernel
  · decide +kernel

/-- The peer sends data of its own while a segment is in flight: each of its
segments repeats `SND.UNA`, and the third one sets off a retransmission. -/
theorem reverse_data_retransmits :
    ∃ l, runs Link.step
        [.deliver .a, .deliver .b, .act .b (.send [1, 2, 3, 4]), .deliver .a, .act .a (.send [1]),
          .deliver .b, .act .b (.send [5, 6, 7, 8, 9, 10, 11, 12]), .deliver .a, .deliver .a,
          .deliver .b, .act .a (.send [2, 3, 4, 5]),
          .act .b (.send [0, 0, 0, 0, 1, 1, 1, 1, 2, 2, 2, 2]), .deliver .a, .deliver .a, .deliver .a]
        (.opening 9000 80 7 100 4 4 .reno .reno
          { peerIsn := 7, peerMss := 4, peerSupportsWindowScaling := true, peerWindowScale := 1 }) =
        some l ∧
      l.a.conn.inFastRecovery = true ∧
      (l.a.sent.filter fun call => call.payload = [2, 3, 4, 5]).map
        (fun call => (call.site, call.header.sequenceNumber)) =
        [(.sendFlags, 9), (.fastRetransmit, 9)] := by
  refine ⟨_, rfl, ?_⟩
  decide +kernel

end TcpIpStack
