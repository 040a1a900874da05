/-
# What a connection tells its peer

The segments a connection sends are honest about it, in the sense of
`TcpIpStack.Tcp.Receiver`: first transmissions, retransmissions, zero-window
probes, keepalives and acks alike.  A connection whose accounts are kept, whose
receive side is in step with its peer and whose segments have all been honest is
`Coupled` to the peer, and every event that is fed honest segments keeps it so
(`Coupled.run`).  The peer has then also received whatever a cumulative ack
has retired here.
-/

import TcpIpStack.Tcp.Receiver

namespace TcpIpStack

open Serial TcpConnection Session

/-- The states in which `send` accepts nothing any more. -/
def sendEnded (state : TcpState) : Prop :=
  match sendPhase state with
  | .closing | .finished | .closed => True
  | .unopened | .opening _ | .streaming => False

/-! ### Honest headers -/

section Honest

variable {isn peerIsn : UInt32} {accepted : Bytes} {ended : Prop} {p : ℕ}

variable {payload : Bytes}

/-- A segment on a header of `_build_header`, in terms of its flags. -/
theorem honest_buildHeader {c : TcpConnection} {flags : UInt8} {seq : UInt32}
    (hrst : hasFlag flags flagRst = false) (hsyn : hasFlag flags flagSyn → seq = isn)
    (hdata : payload ≠ [] → ∃ n, seq = after isn (1 + n) ∧ Chunk.At accepted n payload)
    (hfin : hasFlag flags flagFin →
      ended ∧ payload = [] ∧ seq = after isn (1 + accepted.length))
    (hack : hasFlag flags flagAck → c.recvNext = after peerIsn (1 + p)) :
    Honest isn peerIsn accepted ended p ((c.buildHeader flags seq).carrying payload) where
  rst := hrst
  syn := hsyn
  data := by rw [Tcp.payload_carrying]; exact hdata
  fin := by rw [Tcp.payload_carrying]; exact hfin
  ack := fun ha => ⟨p, le_rfl, hack ha⟩

theorem Honest.sendOptions {header : Tcp}
    (h : Honest isn peerIsn accepted ended p (header.carrying payload)) (c : TcpConnection) (flags : UInt8) :
    Honest isn peerIsn accepted ended p ((sendOptions c flags header).carrying payload) := by
  unfold Session.sendOptions
  split_ifs <;> exact ⟨h.rst, h.syn, h.data, h.fin, h.ack⟩

theorem honest_ack {c : TcpConnection} {seq : UInt32}
    (hnext : c.recvNext = after peerIsn (1 + p))
    (hdata : payload ≠ [] → ∃ n, seq = after isn (1 + n) ∧ Chunk.At accepted n payload) :
    Honest isn peerIsn accepted ended p ((c.buildHeader flagAck seq).carrying payload) :=
  honest_buildHeader rfl nofun hdata nofun fun _ => hnext

end Honest

/-! ### The places of segments in the stream -/

section Places

variable {isn : UInt32} {k : Core} {accepted retired : Bytes}

theorem Bookkeeping.at_flight (h : Bookkeeping isn k accepted retired)
    (hstream : Streaming isn retired.length k) {s : Flight} (hs : s ∈ k.flight) :
    s.flags = flagAck ∧ ∃ n, s.seq = after isn (1 + n) ∧ Chunk.At accepted n s.payload := by
  obtain ⟨m, hseq, hat, hflags⟩ := hstream.tiles.mem hs
  refine ⟨hflags, retired.length + m, by rw [hseq, Nat.add_assoc], ?_⟩
  rw [h.stream]
  exact (hat.prepend retired).append _

/-- The front of the queue is what comes next at `SND.NXT`. -/
theorem Bookkeeping.at_front (h : Bookkeeping isn k accepted retired)
    (hstate : acceptsData k.state) {front : Bytes} {rest : List Bytes} (hqueue : k.sendQueue = front :: rest) :
    ∃ n, k.sendNext = after isn (1 + n) ∧ Chunk.At accepted n front := by
  have hnext := (h.phase.streaming hstate).sendNext
  refine ⟨(retired ++ flightBytes k.flight).length, ?_, ?_⟩
  · rw [hnext, List.length_append, Nat.add_assoc]
  · rw [h.stream, hqueue, List.flatten_cons, ← List.append_assoc]
    exact Chunk.at_middle _ _ _

/-- With nothing queued, `SND.NXT` is the end of the accepted stream. -/
theorem Bookkeeping.sendNext_end (h : Bookkeeping isn k accepted retired)
    (hstate : acceptsData k.state) (hqueue : k.sendQueue = []) :
    k.sendNext = after isn (1 + accepted.length) := by
  rw [(h.phase.streaming hstate).sendNext, h.stream, hqueue, Nat.add_assoc]
  simp

end Places

/-! ### What only grows -/

/-- The accepted stream, until it has ended; and the states entered. -/
structure Grows (x y : Session) : Prop where
  accepted : x.accepted <+: y.accepted
  ended : sendEnded x.conn.state → sendEnded y.conn.state ∧ y.accepted = x.accepted
  entered : x.entered <+: y.entered
  handshake : handshakeOver x.conn.state → handshakeOver y.conn.state

section Grows

variable {x y z : Session} {e : Event} {s₀ : TcpState}

theorem Grows.refl (x : Session) : Grows x x :=
  ⟨List.prefix_refl _, fun h => ⟨h, rfl⟩, List.prefix_refl _, id⟩

theorem Grows.trans (h₁ : Grows x y) (h₂ : Grows y z) : Grows x z where
  accepted := h₁.accepted.trans h₂.accepted
  ended := fun h => by
    obtain ⟨hy, hxy⟩ := h₁.ended h
    obtain ⟨hz, hyz⟩ := h₂.ended hy
    exact ⟨hz, hyz.trans hxy⟩
  entered := h₁.entered.trans h₂.entered
  handshake := fun h => h₂.handshake (h₁.handshake h)

theorem Grows.of_eq (haccepted : y.accepted = x.accepted) (hstate : y.conn.state = x.conn.state)
    (hentered : y.entered = x.entered) : Grows x y :=
  ⟨by rw [haccepted], by rw [hstate]; exact fun h => ⟨h, haccepted⟩, by rw [hentered],
    by rw [hstate]; exact id⟩

theorem Grows.of_transition (newState : TcpState) (haccepted : y.accepted = x.accepted)
    (hstate : y.conn.state = newState) (hentered : y.entered = x.entered ++ [newState])
    (hended : sendEnded x.conn.state → sendEnded newState) (hover : handshakeOver newState) : Grows x y :=
  ⟨by rw [haccepted], fun h => ⟨hstate ▸ hended h, haccepted⟩, hentered ▸ List.prefix_append ..,
    fun _ => hstate ▸ hover⟩

theorem sendEnded_stateAfterFin (state : TcpState) : sendEnded (stateAfterFin state) ↔ sendEnded state := by
  unfold sendEnded
  rw [sendPhase_stateAfterFin]

theorem Effect.grows (he : Effect e s₀ x y) : Grows x y := by
  cases he with
  | quiet c hcore => exact .of_eq rfl (congrArg Core.state hcore).symm rfl
  | scoreboard t => exact .of_eq rfl (applySackBlocks_state t x.conn) rfl
  | place chunk _ _ hstate =>
    have hnot : ¬ sendEnded x.conn.state := by
      rcases hstate with hstate | hstate <;> simp [sendEnded, sendPhase, hstate]
    have hentered : (x.placeChunk chunk).entered = x.entered := by
      unfold placeChunk
      dsimp only
      split_ifs <;> rfl
    refine ⟨?_, fun h => absurd h hnot, by rw [hentered], by rw [placeChunk_state]; exact id⟩
    rw [(placeChunk_record chunk x).1]
    exact List.prefix_append ..
  | fin _ hstate =>
    refine .of_transition (if x.conn.state = .established then .finWait1 else .lastAck) rfl rfl rfl
      (fun h => ?_) ?_
    · rcases hstate with hstate | hstate <;> simp [sendEnded, sendPhase, hstate] at h
    · split_ifs <;> simp [handshakeOver]
  | slide t =>
    have hstate : (x.retireAcked t).conn.state = x.conn.state :=
      congrArg Core.state (core_retireAcked t x)
    obtain ⟨newState, hfin, heq⟩ | heq := slide_cases t x
    · rw [heq]
      refine .of_transition newState rfl rfl rfl (fun _ => ?_) ?_ <;>
        rcases hfin with ⟨-, rfl⟩ | ⟨-, rfl⟩ | ⟨-, rfl⟩ <;>
        simp [handshakeOver, sendEnded, sendPhase]
    · rw [heq]
      exact .of_eq rfl hstate rfl
  | buffer t =>
    simp only [Session.modify, bufferOutOfOrder]
    split_ifs <;> exact .of_eq rfl rfl rfl
  | lowerMss pathMss =>
    simp only [Session.modify, reduceEffectiveMss]
    split_ifs <;> exact .of_eq rfl rfl rfl
  | consumeFin =>
    obtain ⟨-, heq⟩ | ⟨c, entered, -, -, hcore, heq⟩ := consumeFin_cases x
    · rw [heq]
      exact .of_eq rfl rfl rfl
    · have hstate : x.consumeFin.conn.state = stateAfterFin x.conn.state := congrArg Core.state hcore
      refine ⟨?_, ?_, ?_, ?_⟩
      · rw [heq]
      · rw [hstate, sendEnded_stateAfterFin, heq]
        exact fun h => ⟨h, rfl⟩
      · rw [heq]
        exact List.prefix_append ..
      · rw [hstate]
        cases x.conn.state <;> simp [handshakeOver, stateAfterFin]
  | establishActive t _ hstate =>
    refine .of_transition .established rfl rfl rfl (fun h => ?_) (by simp [handshakeOver])
    simp [sendEnded, sendPhase, hstate] at h
  | establishPassive t _ hstate =>
    refine .of_transition .established rfl rfl rfl (fun h => ?_) (by simp [handshakeOver])
    simp [sendEnded, sendPhase, hstate] at h
  | abort => exact .of_transition .closed rfl rfl rfl (fun _ => trivial) (by simp [handshakeOver])
  | receive | ack | holdAck | probe | keepalive | retransmit | drain | window | deliver | unblock
  | take => exact .of_eq rfl rfl rfl

theorem Session.Opened.mono (h : x.Opened) (hxy : Grows x y) : y.Opened :=
  h.imp (fun hm => hxy.entered.subset hm) (fun hm => hxy.entered.subset hm)

theorem Past.mono (h : Past s₀ x) (hxy : Grows x y) : Past s₀ y := by
  intro hs
  obtain ⟨hopened, hover⟩ := h hs
  exact ⟨hopened.mono hxy, hxy.handshake hover⟩

end Grows

/-! ### Honest calls -/

section Calls

variable {isn peerIsn : UInt32} {accepted retired : Bytes} {c : TcpConnection} {p : ℕ}

/-- A segment in flight is honest when it is sent again. -/
theorem Bookkeeping.honest_flight (h : Bookkeeping isn c.core accepted retired) {s : Flight}
    (hs : s ∈ c.core.flight) (hlisten : c.state ≠ .listen) (hclosed : c.state ≠ .closed)
    (hnext : c.state ≠ .synSent → c.recvNext = after peerIsn (1 + p)) :
    Honest isn peerIsn accepted (sendEnded c.state) p
      ((c.buildHeader s.flags s.seq).carrying s.payload) := by
  have hphase := h.phase
  have hopening {flags : UInt8} (hst : sendPhase c.state = .opening flags) :
      s = ⟨isn, after isn 1, flags, [], false⟩ :=
    List.mem_singleton.1 ((hphase.opening hst).flight ▸ hs)
  have hstreaming (hst : acceptsData c.state) : Honest isn peerIsn accepted (sendEnded c.state) p
      ((c.buildHeader s.flags s.seq).carrying s.payload) := by
    obtain ⟨hflags, hplace⟩ := h.at_flight (hphase.streaming hst) hs
    rw [hflags]
    exact honest_ack (hnext (by rcases hst with hst | hst <;> simp [hst])) fun _ => hplace
  have hclosing (hst : sendPhase c.state = .closing) : Honest isn peerIsn accepted (sendEnded c.state) p
      ((c.buildHeader s.flags s.seq).carrying s.payload) := by
    have hk := hphase.closing hst
    obtain ⟨sacked, hflight⟩ := hk.flight
    have hall : accepted.length = retired.length := by
      rw [h.stream, hflight, hk.queue]
      simp [flightBytes]
    rw [hflight] at hs
    rw [List.mem_singleton.1 hs]
    dsimp only
    refine honest_buildHeader rfl (absurd · (by decide)) (fun hne => absurd rfl hne) (fun _ => ?_)
      fun _ => hnext ?_
    · exact ⟨by rw [sendEnded, hst]; trivial, rfl, by rw [hall]⟩
    · intro hsyn
      rw [hsyn] at hst
      cases hst
  have hfinished (hst : sendPhase c.state = .finished) : False := by
    rw [(hphase.finished hst).flight] at hs
    cases hs
  cases hstate : c.state with
  | listen => exact absurd hstate hlisten
  | synSent =>
    rw [hopening (by rw [hstate]; rfl)]
    dsimp only
    exact honest_buildHeader rfl (fun _ => rfl) (fun hne => absurd rfl hne) (absurd · (by decide))
      (absurd · (by decide))
  | synReceived =>
    rw [hopening (by rw [hstate]; rfl)]
    dsimp only
    exact honest_buildHeader rfl (fun _ => rfl) (fun hne => absurd rfl hne) (absurd · (by decide))
      fun _ => hnext (by simp [hstate])
  | established => exact hstate ▸ hstreaming (.inl hstate)
  | closeWait => exact hstate ▸ hstreaming (.inr hstate)
  | finWait1 | closing | lastAck => exact hstate ▸ hclosing (by rw [hstate]; rfl)
  | finWait2 | timeWait => exact (hfinished (by rw [hstate]; rfl)).elim
  | closed => exact absurd hstate hclosed

end Calls

/-- A connection in step with its peer: its accounts are kept, its receive side
agrees with the peer's stream, what cumulative acks have retired has been taken
by the peer, and every segment it has sent is honest. -/
structure Coupled (isn : UInt32) (v : View) (p : ℕ) (x : Session) : Prop where
  kept : x.Kept isn
  receiving : Receiving v p x
  retired : x.retired.length ≤ v.progress
  log : ∀ call ∈ x.sent, Honest isn v.isn x.accepted (sendEnded x.conn.state) p call.segment

section Coupled

variable {isn : UInt32} {v : View} {p p' : ℕ} {x y : Session} {e : Event} {s₀ : TcpState}

/-- What an honest ack covers, the peer has taken. -/
theorem Coupled.retired_slide (h : Coupled isn v p x) (hacks : handlesAcks x.conn.state) {t : Tcp}
    (ht : v.Sends isn t) (hack : t.ack) (hx : x.accepted.length < 2 ^ 30)
    (hv : v.progress ≤ 2 ^ 30) : (x.slide t).retired.length ≤ v.progress := by
  obtain ⟨popped, rest, hflight, hcovered, -, hretired, -, -⟩ := core_slide t x
  obtain ⟨q, hq, hackno⟩ := ht.ack hack
  have hle := h.retired
  rw [hretired, List.length_append]
  by_cases hstate : acceptsData x.conn.state
  · by_cases hnil : popped = []
    · simpa [hnil, flightBytes] using hle
    · have htiles := (h.kept.phase.streaming hstate).tiles
      rw [hflight, tiles_append] at htiles
      obtain ⟨s, hs, hend⟩ := htiles.1.last hnil
      have hlength : x.retired.length + (flightBytes popped).length ≤ x.accepted.length := by
        rw [h.kept.stream, hflight, flightBytes_append]
        simp only [List.length_append]
        omega
      have hcover := hcovered s hs
      rw [hend, hackno, atOrBefore_after isn (by omega) (by omega)] at hcover
      omega
  · -- past the data there is at most the FIN in flight
    have hbytes : flightBytes popped = [] := by
      have hphase := h.kept.phase
      obtain ⟨h₁, h₂, h₃⟩ := hacks
      have hclosing (hst : sendPhase x.conn.state = .closing) : flightBytes popped = [] :=
        ((hphase.closing hst).retire hflight).1
      have hfinished (hst : sendPhase x.conn.state = .finished) : flightBytes popped = [] := by
        have hnil := (hphase.finished hst).flight
        rw [hflight, List.append_eq_nil_iff] at hnil
        rw [hnil.1]
        rfl
      cases hs : x.conn.state with
      | listen => exact absurd hs h.kept.not_listen
      | synSent => exact absurd hs h₁
      | synReceived => exact absurd hs h₂
      | closed => exact absurd hs h₃
      | established => exact absurd (.inl hs) hstate
      | closeWait => exact absurd (.inr hs) hstate
      | finWait1 | closing | lastAck => exact hclosing (by rw [hs]; rfl)
      | finWait2 | timeWait => exact hfinished (by rw [hs]; rfl)
    simpa [hbytes] using hle

/-- **The segments an effect sends are honest.** -/
theorem Coupled.calls (h : Coupled isn v p x) (hpast : Past s₀ x) (he : Effect e s₀ x y)
    (hr : Receiving v p' y) : ∃ calls, y.sent = x.sent ++ calls ∧
      ∀ call ∈ calls, Honest isn v.isn y.accepted (sendEnded y.conn.state) p' call.segment := by
  have hgrows := he.grows
  have hnone {z : Session} (hz : z.sent = x.sent) :
      ∃ calls, z.sent = x.sent ++ calls ∧
        ∀ call ∈ calls, Honest isn v.isn z.accepted (sendEnded z.conn.state) p' call.segment :=
    ⟨[], by simp [hz], by simp⟩
  have hopened (hphase : recvPhase x.conn.state = .reading ∨ recvPhase x.conn.state = .finished) :
      x.Opened := h.receiving.opened hphase
  have haccepts (hstate : acceptsData x.conn.state) : x.Opened := by
    refine hopened ?_
    rcases hstate with hstate | hstate <;> simp [hstate, recvPhase]
  cases he with
  | ack hmay =>
    have ho : x.Opened := by
      rcases hmay with hs | hstate | ⟨hpending, -⟩
      · exact (hpast hs).1
      · exact haccepts (.inl hstate)
      · exact h.receiving.pending hpending
    refine ⟨_, rfl, fun call hcall => ?_⟩
    rw [List.mem_singleton.1 hcall]
    exact (honest_ack (hr.next (ho.mono hgrows)) fun hne => absurd rfl hne).sendOptions _ _
  | keepalive hstate =>
    refine ⟨_, rfl, fun call hcall => ?_⟩
    rw [List.mem_singleton.1 hcall]
    exact honest_ack (hr.next (haccepts (.inl hstate))) fun hne => absurd rfl hne
  | probe front rest hqueue _ hclosed =>
    have hstate := h.kept.acceptsData_of_queue hclosed (by simp [core, hqueue])
    obtain ⟨n, hseq, hat⟩ := h.kept.at_front hstate hqueue
    refine ⟨_, rfl, fun call hcall => ?_⟩
    rw [List.mem_singleton.1 hcall]
    exact honest_ack (hr.next (haccepts hstate)) fun _ => ⟨n, hseq, hat.take 1⟩
  | retransmit site s _ hs _ hclosed =>
    refine ⟨_, rfl, fun call hcall => ?_⟩
    rw [List.mem_singleton.1 hcall]
    refine h.kept.honest_flight hs h.kept.not_listen hclosed fun hsyn => hr.next (hopened ?_)
    have hphase := h.kept.phase
    cases hst : x.conn.state <;> simp_all [recvPhase, Phase, sendPhase, core]
  | drain t front rest _ hqueue _ hacks =>
    have hstate := h.kept.acceptsData_of_queue hacks.2.2 (by simp [core, hqueue])
    obtain ⟨n, hseq, hat⟩ := h.kept.at_front hstate hqueue
    refine ⟨_, rfl, fun call hcall => ?_⟩
    rw [List.mem_singleton.1 hcall]
    exact (honest_ack (hr.next (haccepts hstate)) fun _ => ⟨n, hseq, hat⟩).sendOptions _ _
  | place chunk _ _ hstate _ _ =>
    by_cases hqueue : mustQueue x.conn chunk
    · refine hnone ?_
      simp [placeChunk, hqueue, Session.modify]
    · have hnil : x.conn.core.sendQueue = [] := by
        simp [mustQueue] at hqueue
        exact hqueue.1.1
      have hseq := h.kept.sendNext_end hstate hnil
      have hplace : x.placeChunk chunk =
          { x.sendFlags 0 chunk true with accepted := x.accepted ++ chunk } := by
        simp only [placeChunk, hqueue]
        rfl
      rw [hplace] at hr ⊢
      refine ⟨_, rfl, fun call hcall => ?_⟩
      rw [List.mem_singleton.1 hcall]
      exact (honest_ack (hr.next (haccepts hstate)) fun _ =>
        ⟨x.accepted.length, hseq, Chunk.at_end _ _⟩).sendOptions _ _
  | fin _ hstate _ hqueue =>
    have hseq := h.kept.sendNext_end hstate hqueue
    have hended : sendEnded x.sendFin.conn.state := by
      show sendEnded (if x.conn.state = .established then .finWait1 else .lastAck)
      split_ifs <;> trivial
    refine ⟨_, rfl, fun call hcall => ?_⟩
    rw [List.mem_singleton.1 hcall]
    exact (honest_buildHeader rfl (fun hsyn => absurd hsyn (by decide)) (fun hne => absurd rfl hne)
      (fun _ => ⟨hended, rfl, hseq⟩) fun _ => hr.next ((haccepts hstate).mono hgrows)).sendOptions _ _
  | consumeFin t _ _ _ hs₀ =>
    obtain ⟨-, heq⟩ | ⟨c, entered, -, hc, hcore, heq⟩ := consumeFin_cases x
    · exact hnone (by rw [heq]; rfl)
    · have hnext : c.recvNext = after v.isn (1 + p') := by
        rw [← hr.next ((hpast hs₀).1.mono hgrows)]
        exact (congrArg Core.recvNext hc).trans (congrArg Core.recvNext hcore).symm
      refine ⟨_, by rw [heq], fun call hcall => ?_⟩
      rw [List.mem_singleton.1 hcall]
      exact (honest_ack hnext fun hne => absurd rfl hne).sendOptions _ _
  | slide t =>
    obtain ⟨_, _, -, -, -, -, -, hsent⟩ := core_slide t x
    exact hnone hsent
  | quiet | receive | holdAck | scoreboard | window | deliver | unblock | buffer
  | establishActive | establishPassive | abort | take | lowerMss => exact hnone rfl

theorem Coupled.effect (h : Coupled isn v p x) (hpast : Past s₀ x) (he : Effect e s₀ x y)
    (ht : ∀ t, e = .segment t → v.Sends isn t) (hy : y.accepted.length < 2 ^ 30)
    (hv : v.stream.length < 2 ^ 30) (hprogress : v.progress ≤ 2 ^ 30) : ∃ p', p ≤ p' ∧ Coupled isn v p' y := by
  have hgrows := he.grows
  obtain ⟨p', hp, hr⟩ := h.receiving.effect hpast he ht hv
  refine ⟨p', hp, h.kept.effect he, hr, ?_, ?_⟩
  · have hx : x.accepted.length < 2 ^ 30 := lt_of_le_of_lt hgrows.accepted.length_le hy
    cases he with
    | slide t hsegment hack hacks => exact h.retired_slide hacks (ht t hsegment) hack hx hprogress
    | place chunk =>
      have hsame : (x.placeChunk chunk).retired = x.retired := by
        unfold placeChunk
        dsimp only
        split_ifs <;> rfl
      rw [hsame]
      exact h.retired
    | consumeFin =>
      obtain ⟨-, heq⟩ | ⟨c, entered, -, -, -, heq⟩ := consumeFin_cases x <;> rw [heq] <;> exact h.retired
    | _ => exact h.retired
  · obtain ⟨calls, hsent, hcalls⟩ := h.calls hpast he hr
    intro call hcall
    rw [hsent] at hcall
    rcases List.mem_append.1 hcall with hcall | hcall
    · exact (h.log call hcall).mono hgrows.accepted hgrows.ended hp
    · exact hcalls call hcall

/-- **Every event that is fed honest segments keeps a connection in step with its
peer.** -/
theorem Coupled.run (h : Coupled isn v p x) (he : e.run x = some y)
    (ht : ∀ t, e = .segment t → v.Sends isn t) (hy : y.accepted.length < 2 ^ 30)
    (hv : v.stream.length < 2 ^ 30) (hprogress : v.progress ≤ 2 ^ 30) :
    Grows x y ∧ ∃ p', p ≤ p' ∧ Coupled isn v p' y := by
  have hlisten := h.kept.not_listen
  have hpast : Past x.conn.state x := by
    rintro ⟨h₁, h₂, h₃⟩
    refine ⟨h.receiving.opened ?_, hlisten, h₁, h₂⟩
    cases hs : x.conn.state <;> simp_all [recvPhase]
  -- the bound on the stream is known at the end of the event only
  have hrun := (Event.run_steps he).preserves
    (P := fun z => Grows x z ∧ Past x.conn.state z ∧
      (z.accepted.length < 2 ^ 30 → ∃ p', p ≤ p' ∧ Coupled isn v p' z)) ?_
    ⟨.refl x, hpast, fun _ => ⟨p, le_rfl, h⟩⟩
  · exact ⟨hrun.1, hrun.2.2 hy⟩
  · rintro z w hzw ⟨hgrows, hz, hcoupled⟩
    refine ⟨hgrows.trans hzw.grows, hz.mono hzw.grows, fun hw => ?_⟩
    obtain ⟨q, hq, hcz⟩ := hcoupled (lt_of_le_of_lt hzw.grows.accepted.length_le hw)
    obtain ⟨q', hq', hcw⟩ := hcz.effect hz hzw ht hw hv hprogress
    exact ⟨q', hq.trans hq', hcw⟩

theorem Coupled.view_mono (h : Coupled isn v p x) {w : View} (hw : v.Le w) : Coupled isn w p x where
  kept := h.kept
  receiving := h.receiving.view_mono hw
  retired := h.retired.trans hw.progress
  log := hw.isn ▸ h.log

end Coupled

end TcpIpStack
