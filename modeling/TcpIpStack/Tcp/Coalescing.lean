/-
# Small writes

`send` cuts what it is given into chunks of the effective MSS and a last one
that may be shorter, and queues the chunks that cannot go out at once.  The loop
that empties the queue sends one segment per chunk: chunks of different writes
are never merged.

If no write finds a short chunk waiting, every chunk that waits but the last is a
full segment (`Coalesced`), and a short segment is only ever sent with nothing
behind it (`short_segment_is_last`).  Two short writes while Nagle's rule holds
the first of them back are enough to see one tiny segment per write
(`short_writes_not_merged`).
-/

import TcpIpStack.Tcp.FlowControl

namespace TcpIpStack

open TcpConnection Session Runs

/-- A short segment goes out only with nothing waiting behind it, or when a
window has no room for one more byte. -/
def Call.Coalesces (call : Call) : Prop :=
  call.payload.length < call.conn.effectiveMss.toNat →
    call.conn.sendQueue = [] ∨
      (min call.conn.congestion.cwnd call.conn.peerWindow).toNat <
        call.conn.unsackedInFlightBytes.toNat + call.payload.length + 1

/-- No short chunk waits. -/
def AllFull (c : TcpConnection) : Prop := ∀ chunk ∈ c.sendQueue, c.effectiveMss.toNat ≤ chunk.length

/-- No short chunk waits in front of another one. -/
def Coalesced (c : TcpConnection) : Prop :=
  ∀ chunk ∈ c.sendQueue.dropLast, c.effectiveMss.toNat ≤ chunk.length

/-- A write finds no short chunk waiting. -/
def Event.appendsToFull : Event → Session → Prop
  | .send _, x => AllFull x.conn
  | _, _ => True

instance (call : Call) : Decidable call.sendsData := inferInstanceAs (Decidable (_ ∧ _))
instance (call : Call) : Decidable call.Coalesces := inferInstanceAs (Decidable (_ → _ ∨ _))
instance (c : TcpConnection) : Decidable (AllFull c) := inferInstanceAs (Decidable (∀ _ ∈ _, _))

instance (e : Event) (x : Session) : Decidable (e.appendsToFull x) :=
  match e with
  | .send _ => inferInstanceAs (Decidable (AllFull x.conn))
  | .segment _ | .timePassed _ | .read _ | .close | .setKeepalive _ | .reduceEffectiveMss _ | .fail => isTrue trivial

section Coalesced

variable {e : Event} {s₀ : TcpState} {x y : Session} {c c' : TcpConnection} {isn : UInt32}

theorem AllFull.coalesced (h : AllFull c) : Coalesced c :=
  fun chunk hchunk => h chunk (List.dropLast_subset _ hchunk)

theorem Coalesced.congr (h : Coalesced c) (hqueue : c'.sendQueue = c.sendQueue)
    (hmss : c'.effectiveMss ≤ c.effectiveMss) : Coalesced c' := by
  intro chunk hchunk
  rw [hqueue] at hchunk
  exact (UInt16.le_iff_toNat_le.1 hmss).trans (h chunk hchunk)

theorem coalesced_of_empty (h : c.sendQueue = []) : Coalesced c := by
  intro chunk hchunk
  rw [h] at hchunk
  cases hchunk

theorem Coalesced.rest_eq_nil {front : Bytes} {rest : List Bytes} (h : Coalesced c)
    (hqueue : c.sendQueue = front :: rest) (hshort : front.length < c.effectiveMss.toNat) : rest = [] := by
  by_contra hrest
  have hfull := h front (by
    rw [hqueue, List.dropLast_cons_of_ne_nil hrest]
    exact List.mem_cons_self)
  omega

theorem Coalesced.rest {front : Bytes} {rest : List Bytes} (h : Coalesced c)
    (hqueue : c.sendQueue = front :: rest) (hc' : c'.sendQueue = rest)
    (hmss : c'.effectiveMss = c.effectiveMss) : Coalesced c' := by
  intro chunk hchunk
  rw [hc'] at hchunk
  rw [hmss]
  refine h chunk ?_
  cases rest with
  | nil => cases hchunk
  | cons next rest =>
    rw [hqueue, List.dropLast_cons_of_ne_nil (List.cons_ne_nil _ _)]
    exact List.mem_cons_of_mem _ hchunk

/-! ### `send` -/

theorem placeChunk_queue (chunk : Bytes) (x : Session) :
    (x.placeChunk chunk).conn.effectiveMss = x.conn.effectiveMss ∧
      ((x.placeChunk chunk).conn.sendQueue = x.conn.sendQueue ∨
        (x.placeChunk chunk).conn.sendQueue = x.conn.sendQueue ++ [chunk]) := by
  unfold placeChunk
  dsimp only
  split_ifs
  · exact ⟨rfl, .inr rfl⟩
  · exact ⟨rfl, .inl rfl⟩

/-- The chunks of a write are full, but for the last one. -/
theorem coalesced_sendLoop {fuel : ℕ} {rest : Bytes} (hfull : AllFull x.conn)
    (h : x.sendLoop fuel rest = some y) : Coalesced y.conn := by
  induction fuel generalizing rest x with
  | zero =>
    rw [sendLoop] at h
    split_ifs at h
    exact Option.some.inj h ▸ hfull.coalesced
  | succ fuel ih =>
    rw [sendLoop] at h
    split_ifs at h
    · exact Option.some.inj h ▸ hfull.coalesced
    dsimp only at h
    obtain ⟨hmss, hqueue⟩ := placeChunk_queue (rest.take x.conn.effectiveMss.toNat) x
    by_cases hlast : rest.length ≤ x.conn.effectiveMss.toNat
    · -- nothing is left for another turn
      have hdone : y = x.placeChunk (rest.take x.conn.effectiveMss.toNat) := by
        rw [List.drop_eq_nil_of_le hlast] at h
        cases fuel <;> exact (Option.some.inj h).symm
      rw [hdone]
      intro chunk hchunk
      rw [hmss]
      rcases hqueue with hqueue | hqueue <;> rw [hqueue] at hchunk
      · exact hfull chunk (List.dropLast_subset _ hchunk)
      · rw [List.dropLast_concat] at hchunk
        exact hfull chunk hchunk
    · refine ih (fun chunk hchunk => ?_) h
      rw [hmss]
      rcases hqueue with hqueue | hqueue <;> rw [hqueue] at hchunk
      · exact hfull chunk hchunk
      · rcases List.mem_append.1 hchunk with hchunk | hchunk
        · exact hfull chunk hchunk
        · rw [List.mem_singleton.1 hchunk, List.length_take]
          omega

theorem coalesced_send {data : Bytes} (hfull : AllFull x.conn) (h : (Event.send data).run x = some y) :
    Coalesced y.conn := by
  simp only [Event.run, Session.send] at h
  split_ifs at h
  · exact Option.some.inj h ▸ hfull.coalesced
  · exact Option.some.inj h ▸ hfull.coalesced
  · obtain ⟨w, hw, rfl⟩ := Option.map_eq_some_iff.1 h
    obtain ⟨z, hz, rfl⟩ := Option.map_eq_some_iff.1 hw
    refine (coalesced_sendLoop hfull hz).congr ?_ ?_
    · show z.conn.armOrDisarmPersist.sendQueue = _
      unfold armOrDisarmPersist
      split_ifs <;> rfl
    · show z.conn.armOrDisarmPersist.effectiveMss ≤ _
      unfold armOrDisarmPersist
      split_ifs <;> exact UInt16.le_refl _

/-! ### Everything else -/

theorem reduceEffectiveMss_le (pathMss : UInt16) (c : TcpConnection) :
    (Session.reduceEffectiveMss pathMss c).sendQueue = c.sendQueue ∧
      (Session.reduceEffectiveMss pathMss c).effectiveMss ≤ c.effectiveMss := by
  unfold Session.reduceEffectiveMss
  dsimp only
  split_ifs with _ hge hge
  · exact ⟨rfl, UInt16.le_refl _⟩
  · exact ⟨rfl, UInt16.le_of_lt (UInt16.not_le.1 hge)⟩
  · exact ⟨rfl, UInt16.le_refl _⟩
  · exact ⟨rfl, UInt16.le_of_lt (UInt16.not_le.1 hge)⟩

theorem Effect.coalesced (he : Effect e s₀ x y) (hsend : ∀ data, e ≠ .send data) (hkept : x.Kept isn)
    (h : Coalesced x.conn) : Coalesced y.conn := by
  have hsame {z : Session} (hqueue : z.conn.sendQueue = x.conn.sendQueue)
      (hmss : z.conn.effectiveMss = x.conn.effectiveMss) : Coalesced z.conn :=
    h.congr hqueue (hmss ▸ UInt16.le_refl _)
  cases he with
  | quiet c hcore => exact hsame (congrArg Core.sendQueue hcore).symm (congrArg Core.effectiveMss hcore).symm
  | drain t front rest _ hqueue => exact h.rest hqueue rfl rfl
  | place chunk data hdata => exact absurd hdata (hsend data)
  | scoreboard t =>
    obtain ⟨flight, bytes, heq⟩ := applySackBlocks_eq t x.conn
    have hconn : (x.modify fun c => (c.applySackBlocks t).1).conn = _ := heq
    exact hsame (by rw [hconn]) (by rw [hconn])
  | slide t =>
    have hcore := core_retireAcked t x
    have hretired : Coalesced (x.retireAcked t).conn :=
      hsame (congrArg Core.sendQueue hcore) (congrArg Core.effectiveMss hcore)
    unfold Session.slide
    split
    · exact hretired.congr rfl (UInt16.le_refl _)
    · exact hretired
  | buffer t =>
    show Coalesced (bufferOutOfOrder t.sequenceNumber t.payload x.conn)
    unfold bufferOutOfOrder
    split_ifs
    · exact hsame rfl rfl
    · exact h
  | consumeFin =>
    obtain ⟨-, heq⟩ | ⟨c, entered, -, -, hcore, -⟩ := consumeFin_cases x
    · rw [heq]
      exact hsame rfl rfl
    · exact hsame (congrArg Core.sendQueue hcore) (congrArg Core.effectiveMss hcore)
  | establishActive t _ hstate =>
    -- the handshake settles the MSS while nothing waits
    have hphase := hkept.phase
    rw [Phase, show x.conn.core.state = .synSent from hstate] at hphase
    exact coalesced_of_empty hphase.queue
  | lowerMss pathMss =>
    obtain ⟨hqueue, hmss⟩ := reduceEffectiveMss_le pathMss x.conn
    exact h.congr hqueue hmss
  | receive | ack | holdAck | probe | keepalive | retransmit | fin | window | deliver | unblock
  | establishPassive | abort | take => exact hsame rfl rfl

/-- **What goes out for the first time.** -/
theorem Effect.calls_coalesce (he : Effect e s₀ x y) (h : (∀ data, e ≠ .send data) → Coalesced x.conn) :
    Calls (fun call => call.sendsData → call.Coalesces) x y := by
  refine he.calls fun call hcall hdata => ?_
  cases hcall with
  | ack | finAck | probe | keepalive => cases hdata.1
  | retransmit site s hsite => rcases hsite with rfl | rfl <;> cases hdata.1
  | drain t front rest c hsegment hqueue _ hc =>
    subst hc
    have hcoalesced := h fun data hdata => by rw [hsegment] at hdata; cases hdata
    exact fun hshort => .inl (hcoalesced.rest_eq_nil hqueue hshort)
  | place chunk data _ _ hmust =>
    simp only [mustQueue, Bool.or_eq_false_iff, decide_eq_false_iff_not] at hmust
    exact fun _ => .inl (not_not.1 hmust.1.1)
  | fin => exact absurd rfl hdata.2

/-! ### Every run -/

/-- The queue, and everything that has been sent from it. -/
structure Merging (isn : UInt32) (x : Session) : Prop where
  kept : x.Kept isn
  queue : Coalesced x.conn
  calls : ∀ call ∈ x.sent, call.sendsData → call.Coalesces

theorem Merging.event (h : Merging isn x) (happends : e.appendsToFull x) (he : e.run x = some y) :
    Merging isn y := by
  have hgrown {z w : Session} {calls : List Call} (hz : ∀ call ∈ z.sent, call.sendsData → call.Coalesces)
      (hsent : w.sent = z.sent ++ calls) (hcalls : ∀ call ∈ calls, call.sendsData → call.Coalesces) :
      ∀ call ∈ w.sent, call.sendsData → call.Coalesces := by
    intro call hcall
    rw [hsent] at hcall
    exact (List.mem_append.1 hcall).elim (hz call) (hcalls call)
  by_cases hsend : ∃ data, e = .send data
  · obtain ⟨data, rfl⟩ := hsend
    refine ⟨h.kept.run he, coalesced_send happends he, (Event.run_steps he).preserves
      (P := fun z => ∀ call ∈ z.sent, call.sendsData → call.Coalesces) (fun z w heff hz => ?_) h.calls⟩
    obtain ⟨calls, hsent, hcalls⟩ := heff.calls_coalesce fun hnot => absurd rfl (hnot data)
    exact hgrown hz hsent hcalls
  · have hnot : ∀ data, e ≠ .send data := fun data hdata => hsend ⟨data, hdata⟩
    refine (Event.run_steps he).preserves (P := Merging isn) (fun z w heff hz => ?_) h
    obtain ⟨calls, hsent, hcalls⟩ := heff.calls_coalesce fun _ => hz.queue
    exact ⟨hz.kept.effect heff, heff.coalesced hnot hz.kept hz.queue, hgrown hz.calls hsent hcalls⟩

/-- **A short segment is the last one**, in every run in which no write finds a
short chunk waiting. -/
theorem short_segment_is_last (o : Opener) (localPort remotePort : UInt16) (initialSeq : UInt32)
    (localMss : UInt16) (algorithm : CongestionControlAlgorithm) (events : List Event)
    (happends : Along Event.run (fun e z => e.appendsToFull z) events
      (o.run (.fresh localPort remotePort initialSeq localMss algorithm)))
    (h : runs Event.run events (o.run (.fresh localPort remotePort initialSeq localMss algorithm)) = some x) :
    ∀ call ∈ x.sent, call.sendsData → call.Coalesces := by
  have hopen : Merging initialSeq (o.run (.fresh localPort remotePort initialSeq localMss algorithm)) := by
    refine ⟨kept_open .., coalesced_of_empty (by cases o <;> rfl), fun call hcall hdata => ?_⟩
    refine absurd ?_ hdata.2
    cases o <;> rw [List.mem_singleton.1 hcall]
  exact (runs_invariant (I := Merging initialSeq) (fun e z w hz hok he => hz.event hok he) hopen happends h).calls

/-- Six bytes with an MSS of four: a full segment goes out, and the short one
follows when the first is acknowledged. -/
theorem short_segment_is_last_tail : ∃ x, runs Event.run
    [.segment (Tcp.ofFlags 9000 80 8 101 5 flagAck 8 0 0), .send [1, 2, 3, 4, 5, 6],
      .segment (Tcp.ofFlags 9000 80 8 105 5 flagAck 8 0 0)]
    ((Opener.passive { peerIsn := 7 }).run (.fresh 80 9000 100 4 .reno)) = some x ∧
    ∀ call ∈ x.sent, call.sendsData → call.Coalesces :=
  ⟨_, rfl, short_segment_is_last (.passive { peerIsn := 7 }) 80 9000 100 4 .reno
    [.segment (Tcp.ofFlags 9000 80 8 101 5 flagAck 8 0 0), .send [1, 2, 3, 4, 5, 6],
      .segment (Tcp.ofFlags 9000 80 8 105 5 flagAck 8 0 0)] (by decide +kernel) rfl⟩

/-- Three writes of one byte each.  The first goes out, and Nagle's rule holds the
other two until it is acknowledged; then they go out one by one, with room for
both under either window. -/
theorem short_writes_not_merged : ∃ x, runs Event.run
    [.segment (Tcp.ofFlags 9000 80 8 101 5 flagAck 8 0 0), .send [1], .send [2], .send [3],
      .segment (Tcp.ofFlags 9000 80 8 102 5 flagAck 8 0 0)]
    ((Opener.passive { peerIsn := 7 }).run (.fresh 80 9000 100 4 .reno)) = some x ∧
    ∃ call ∈ x.sent, call.sendsData ∧ call.payload = [2] ∧ call.conn.sendQueue = [[3]] ∧ ¬ call.Coalesces :=
  ⟨_, rfl, _, List.mem_cons_of_mem _ (List.mem_cons_of_mem _ List.mem_cons_self), by decide +kernel, rfl, rfl,
    by decide +kernel⟩

end Coalesced

end TcpIpStack
