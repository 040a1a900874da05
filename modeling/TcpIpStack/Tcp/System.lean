/-
# Two connections and a network

One side is opened with `initiate_connect`, the other with
`accept_incoming_syn` when a SYN of the first one arrives.  The network between
them is the record of what each side has sent: any segment in it may be
delivered at any time, any number of times and in any order, or never.  It
alters nothing and invents nothing.  Between deliveries the applications call
`send`, `read` and `close` and time passes, in any interleaving.

Each stream is received as it was accepted (`stream_safety`): what one side has
read and can read is a prefix of what the other side's `send` has accepted, what
a cumulative ack has retired is in that prefix, and once the FIN is consumed the
prefix is the whole stream.  The streams are bounded by `2^30` bytes each, so
that a delayed segment cannot come back when the sequence numbers have gone
round; where they start is arbitrary, and they may wrap.  Every segment ever sent is
true to the streams (`segments_true`), and so are the reorder buffers
(`reorder_buffers_true`).
-/

import TcpIpStack.Lib.Runs
import TcpIpStack.Tcp.Stream

namespace TcpIpStack

open Serial TcpConnection Session Runs

/-! ### The system -/

/-- The side `a` opens actively, the side `b` passively. -/
structure System where
  a : Session
  b : Session

/-- The side that opens actively, and the one that listens. -/
inductive Side
  | a
  | b
deriving DecidableEq

/-- What can happen next: segment `i` of all that `a` has sent reaches a `b` that
is still listening; segment `i` of all that the other side has sent reaches
`side`; or something happens at one side alone. -/
inductive Action
  | accept (i : ℕ) (options : SynOptions)
  | deliver (side : Side) (i : ℕ)
  | act (side : Side) (e : Event)

def Event.isSegment : Event → Bool
  | .segment _ => true
  | _ => false

namespace System

/-- An event at one side.  There is no connection on side `b` before a SYN has
arrived. -/
def feed (side : Side) (e : Event) (s : System) : Option System :=
  match side with
  | .a => (e.run s.a).map fun a => { s with a := a }
  | .b => if s.b.conn.state = .listen then none else (e.run s.b).map fun b => { s with b := b }

/-- What the other side has sent. -/
def sentTo (side : Side) (s : System) : List Call :=
  match side with
  | .a => s.b.sent
  | .b => s.a.sent

/-- Any segment ever sent may arrive, in any order and any number of times, or never. -/
def step : Action → System → Option System
  | .accept i options, s =>
    (s.a.sent[i]?).bind fun call =>
      if s.b.conn.state = .listen ∧ call.segment.syn ∧ options.peerIsn = call.segment.sequenceNumber then
        some { s with b := s.b.acceptIncomingSyn options }
      else none
  | .deliver side i, s =>
    ((s.sentTo side)[i]?).bind fun call => s.feed side (.segment call.segment)
  | .act side e, s => if e.isSegment then none else s.feed side e

/-- The bare SYN of `a` is out, and `b` listens. -/
def start (portA portB : UInt16) (isnA isnB : UInt32) (mssA mssB : UInt16)
    (algorithmA algorithmB : CongestionControlAlgorithm) : System where
  a := (Session.fresh portA portB isnA mssA algorithmA).initiateConnect
  b := Session.fresh portB portA isnB mssB algorithmB

end System

/-- The stream from `x` to `y` is safe. -/
structure StreamSafe (x y : Session) : Prop where
  delivered : y.delivered <+: x.accepted
  retired : x.retired <+: y.delivered
  whole : y.EnteredByFin → y.delivered = x.accepted

/-! ### Both sides in step -/

/-- A side as the other one sees it. -/
def Session.view (isn : UInt32) (p : ℕ) (x : Session) : View :=
  ⟨isn, x.accepted, sendEnded x.conn.state, p⟩

section Linked

variable {isnX isnY isnA isnB : UInt32} {p q : ℕ} {x x' y : Session} {e : Event} {s t : System}

theorem Event.run_grows (h : e.run x = some y) : Grows x y :=
  (Event.run_steps h).preserves (fun _ _ he hz => hz.trans he.grows) (.refl x)

theorem Grows.view_le {p' : ℕ} (h : Grows x x') (hp : p ≤ p') : (x.view isnX p).Le (x'.view isnX p') :=
  ⟨rfl, h.accepted, h.ended, hp⟩

/-- Both streams are short. -/
def System.Bounded (s : System) : Prop :=
  s.a.accepted.length < 2 ^ 30 ∧ s.b.accepted.length < 2 ^ 30

/-- A side in step with the other one stays in step when something happens to
it, and the other one sees it move on. -/
theorem Coupled.step (hx : Coupled isnX (y.view isnY q) p x) (he : e.run x = some x')
    (hsegment : ∀ t, e = .segment t → (y.view isnY q).Sends isnX t)
    (hx' : x'.accepted.length < 2 ^ 30) (hy : y.accepted.length < 2 ^ 30) (hq : q ≤ 2 ^ 30) :
    ∃ p', Coupled isnX (y.view isnY q) p' x' ∧ (x.view isnX p).Le (x'.view isnX p') := by
  obtain ⟨hgrows, p', hp, hcoupled⟩ := hx.run he hsegment hx' hy hq
  exact ⟨p', hcoupled, hgrows.view_le hp⟩

/-- The system: `a` is in step with `b`, and `b` is in step with `a` or has not
been opened. -/
def System.Linked (isnA isnB : UInt32) (b₀ : Session) (s : System) : Prop :=
  ∃ p q, Coupled isnA (s.b.view isnB q) p s.a ∧
    (Coupled isnB (s.a.view isnA p) q s.b ∨ q = 0 ∧ s.b = b₀)

/-- Side `a` after `initiate_connect`. -/
theorem coupled_initiateConnect (portA portB : UInt16) (isn : UInt32) (mss : UInt16)
    (algorithm : CongestionControlAlgorithm) (v : View) :
    Coupled isn v 0 (Session.fresh portA portB isn mss algorithm).initiateConnect where
  kept := kept_open .active portA portB isn mss algorithm
  receiving := by
    have hentered : ¬ (Session.fresh portA portB isn mss algorithm).initiateConnect.Opened ∧
        ¬ (Session.fresh portA portB isn mss algorithm).initiateConnect.EnteredByFin := by
      simp [Session.Opened, Session.EnteredByFin, initiateConnect, sendFlags, transition,
        Session.modify, sendSegment, Session.fresh]
    refine ⟨List.nil_prefix, .inl rfl, fun ho => absurd ho hentered.1, ?_, rfl,
      fun hfin => absurd hfin hentered.2, ?_, ?_⟩
    · rintro (⟨⟨⟩⟩ | ⟨⟨⟩⟩)
    · rintro entry ⟨⟩
    · rintro ⟨⟩
  retired := Nat.zero_le _
  log := by
    intro call hcall
    rw [List.mem_singleton.1 hcall]
    exact (honest_buildHeader rfl (fun _ => rfl) (fun hne => absurd rfl hne)
      (absurd · (by decide)) (absurd · (by decide))).sendOptions _ _

/-- Side `b` after `accept_incoming_syn` on a SYN of its peer. -/
theorem coupled_acceptIncomingSyn (portB portA : UInt16) (isn : UInt32) (mss : UInt16)
    (algorithm : CongestionControlAlgorithm) (v : View) {o : SynOptions} (ho : o.peerIsn = v.isn) :
    Coupled isn v 0 ((Session.fresh portB portA isn mss algorithm).acceptIncomingSyn o) := by
  have hnext : (recordSyn o (TcpConnection.new portB portA isn mss algorithm)).recvNext =
      after v.isn (1 + 0) := by
    rw [← ho]
    rfl
  have hopened : ((Session.fresh portB portA isn mss algorithm).acceptIncomingSyn o).Opened :=
    .inr (List.mem_singleton_self _)
  refine ⟨kept_open (.passive o) portB portA isn mss algorithm, ?_, Nat.zero_le _, ?_⟩
  · exact ⟨List.nil_prefix, .inl rfl, fun _ => hnext, fun _ => hopened, rfl, nofun, nofun,
      fun _ => hopened⟩
  · intro call hcall
    rw [List.mem_singleton.1 hcall]
    exact (honest_buildHeader rfl (fun _ => rfl) (fun hne => absurd rfl hne)
      (fun hfin => absurd hfin (by decide)) (fun _ => hnext)).sendOptions _ _

theorem System.feed_cases {side : Side} (h : s.feed side e = some t) :
    (side = .a ∧ ∃ a, e.run s.a = some a ∧ t = { s with a := a }) ∨
      (side = .b ∧ s.b.conn.state ≠ .listen ∧ ∃ b, e.run s.b = some b ∧ t = { s with b := b }) := by
  cases side with
  | a =>
    obtain ⟨a, ha, rfl⟩ := Option.map_eq_some_iff.1 h
    exact .inl ⟨rfl, a, ha, rfl⟩
  | b =>
    simp only [System.feed, Option.ite_none_left_eq_some] at h
    obtain ⟨hlisten, hrun⟩ := h
    obtain ⟨b, hb, rfl⟩ := Option.map_eq_some_iff.1 hrun
    exact .inr ⟨rfl, hlisten, b, hb, rfl⟩

variable {action : Action}

/-- Every step is an accept, or an event at one side: a segment the other side
has sent, or something of its own. -/
theorem System.step_cases (h : System.step action s = some t) :
    (∃ call ∈ s.a.sent, ∃ o : SynOptions, s.b.conn.state = .listen ∧ call.segment.syn ∧
        o.peerIsn = call.segment.sequenceNumber ∧ t = { s with b := s.b.acceptIncomingSyn o }) ∨
      ∃ side e, s.feed side e = some t ∧
        ∀ segment, e = .segment segment → ∃ call ∈ s.sentTo side, segment = call.segment := by
  cases action with
  | accept i o =>
    obtain ⟨call, hcall, hif⟩ := Option.bind_eq_some_iff.1 h
    simp only [Option.ite_none_right_eq_some, Option.some.injEq] at hif
    obtain ⟨⟨hlisten, hsyn, hisn⟩, rfl⟩ := hif
    exact .inl ⟨call, List.mem_of_getElem? hcall, o, hlisten, hsyn, hisn, rfl⟩
  | deliver side i =>
    obtain ⟨call, hcall, hfeed⟩ := Option.bind_eq_some_iff.1 h
    refine .inr ⟨side, _, hfeed, fun segment heq => ?_⟩
    cases heq
    exact ⟨call, List.mem_of_getElem? hcall, rfl⟩
  | act side e =>
    simp only [System.step, Option.ite_none_left_eq_some] at h
    refine .inr ⟨side, e, h.2, fun segment heq => ?_⟩
    rw [heq] at h
    exact absurd rfl h.1

theorem System.Bounded.of_step (ht : t.Bounded)
    (hstep : System.step action s = some t) : s.Bounded := by
  obtain ⟨_, _, o, -, -, -, rfl⟩ | ⟨side, e, hfeed, -⟩ := System.step_cases hstep
  · exact ht
  · obtain ⟨-, a, ha, rfl⟩ | ⟨-, -, b, hb, rfl⟩ := System.feed_cases hfeed
    · exact ⟨lt_of_le_of_lt (Event.run_grows ha).accepted.length_le ht.1, ht.2⟩
    · exact ⟨ht.1, lt_of_le_of_lt (Event.run_grows hb).accepted.length_le ht.2⟩

/-- **Every step keeps both sides in step.** -/
theorem System.Linked.step {portA portB : UInt16} {mss : UInt16}
    {algorithm : CongestionControlAlgorithm}
    (h : s.Linked isnA isnB (.fresh portB portA isnB mss algorithm))
    (hstep : System.step action s = some t) (hs : s.Bounded) (ht : t.Bounded) :
    t.Linked isnA isnB (.fresh portB portA isnB mss algorithm) := by
  obtain ⟨p, q, ha, hb⟩ := h
  obtain ⟨call, hcall, o, hlisten, hsyn, hisn, rfl⟩ | ⟨side, e, hfeed, hsegment⟩ :=
    System.step_cases hstep
  · -- the SYN says where the stream of `a` starts
    obtain ⟨rfl, hfresh⟩ : q = 0 ∧ s.b = .fresh portB portA isnB mss algorithm :=
      hb.resolve_left fun hc => hc.kept.not_listen hlisten
    have hpeer : o.peerIsn = isnA := hisn.trans ((ha.log call hcall).syn hsyn)
    refine ⟨p, 0, ha.view_mono ⟨rfl, List.prefix_refl _, ?_, le_rfl⟩, .inl ?_⟩
    · intro hended
      simp [Session.view, hfresh, Session.fresh, TcpConnection.new, sendEnded, sendPhase] at hended
    · rw [hfresh]
      exact coupled_acceptIncomingSyn portB portA isnB mss algorithm (s.a.view isnA p) hpeer
  obtain ⟨rfl, a, hrun, rfl⟩ | ⟨rfl, hopened, b, hrun, rfl⟩ := System.feed_cases hfeed
  · have hq : q ≤ 2 ^ 30 := by
      have := hs.1
      rcases hb with hb | ⟨rfl, -⟩
      · exact hb.receiving.length_le.trans (by simp only [Session.view]; omega)
      · omega
    have hsends : ∀ segment, e = .segment segment → (s.b.view isnB q).Sends isnA segment := by
      intro segment heq
      obtain ⟨call, hcall, rfl⟩ := hsegment segment heq
      rcases hb with hb | ⟨-, hfresh⟩
      · exact hb.log call hcall
      · rw [System.sentTo, hfresh] at hcall
        cases hcall
    obtain ⟨p', ha', hle⟩ := ha.step hrun hsends ht.1 hs.2 hq
    exact ⟨p', q, ha', hb.imp_left fun hc => hc.view_mono hle⟩
  · -- a connection that is not listening has been opened
    have hb : Coupled isnB (s.a.view isnA p) q s.b := by
      refine hb.resolve_right fun hc => hopened ?_
      rw [hc.2]
      rfl
    have hp : p ≤ 2 ^ 30 := by
      have := hs.2
      exact ha.receiving.length_le.trans (by simp only [Session.view]; omega)
    have hsends : ∀ segment, e = .segment segment → (s.a.view isnA p).Sends isnB segment := by
      intro segment heq
      obtain ⟨call, hcall, rfl⟩ := hsegment segment heq
      exact ha.log call hcall
    obtain ⟨q', hb', hle⟩ := hb.step hrun hsends ht.2 hs.1 hp
    exact ⟨p, q', ha.view_mono hle, .inl hb'⟩

theorem Coupled.streamSafe (hx : Coupled isnX (y.view isnY q) p x)
    (hy : Coupled isnY (x.view isnX p) q y) : StreamSafe x y where
  delivered := hy.receiving.delivered
  retired := by
    have hretired : x.retired <+: x.accepted := by
      rw [hx.kept.stream, List.append_assoc]
      exact List.prefix_append ..
    refine List.prefix_of_prefix_length_le hretired hy.receiving.delivered ?_
    have hle := hx.retired
    simp only [Session.view] at hle
    rcases hy.receiving.progress with hq | ⟨-, hall, -⟩
    · omega
    · rw [hall]
      exact hretired.length_le
  whole := by
    intro hfin
    have hq := hy.receiving.byFin hfin
    rcases hy.receiving.progress with hq' | ⟨-, hall, -⟩
    · omega
    · exact hall

end Linked

theorem System.linked_of_runs {portA portB : UInt16} {isnA isnB : UInt32} {mssA mssB : UInt16}
    {algorithmA algorithmB : CongestionControlAlgorithm} {actions : List Action} {s : System}
    (hrun : runs System.step actions
      (.start portA portB isnA isnB mssA mssB algorithmA algorithmB) = some s) (hbounded : s.Bounded) :
    s.Linked isnA isnB (.fresh portB portA isnB mssB algorithmB) := by
  -- the bound holds in every earlier state, since the streams only grow
  refine runs_induction
    (I := fun s => s.Bounded → s.Linked isnA isnB (.fresh portB portA isnB mssB algorithmB))
    (fun action s t hs hstep ht => (hs (ht.of_step hstep)).step hstep (ht.of_step hstep) ht)
    (fun _ => ?_) hrun hbounded
  exact ⟨0, 0, coupled_initiateConnect portA portB isnA mssA algorithmA _, .inr ⟨rfl, rfl⟩⟩

/-- **End-to-end stream safety.**  In every run of two connections over a network
that loses, delays, duplicates and reorders segments, each side's application
receives a prefix of what the other side's `send` accepted; every byte retired
by a cumulative ack is in it; and with the FIN it is the whole stream. -/
theorem stream_safety (portA portB : UInt16) (isnA isnB : UInt32) (mssA mssB : UInt16)
    (algorithmA algorithmB : CongestionControlAlgorithm) (actions : List Action) (s : System)
    (hrun : runs System.step actions
      (.start portA portB isnA isnB mssA mssB algorithmA algorithmB) = some s)
    (hbounded : s.Bounded) : StreamSafe s.a s.b ∧ StreamSafe s.b s.a := by
  obtain ⟨p, q, ha, hb⟩ := System.linked_of_runs hrun hbounded
  rcases hb with hb | ⟨rfl, hfresh⟩
  · exact ⟨ha.streamSafe hb, hb.streamSafe ha⟩
  · -- nothing has reached `b`
    have hnil : s.a.retired = [] := List.eq_nil_of_length_eq_zero (Nat.le_zero.1 ha.retired)
    refine ⟨⟨?_, ?_, ?_⟩, ⟨ha.receiving.delivered, ?_, fun hfin => ?_⟩⟩
    · rw [hfresh]
      exact List.nil_prefix
    · rw [hnil]
      exact List.nil_prefix
    · rw [hfresh]
      nofun
    · rw [hfresh]
      exact List.nil_prefix
    · have hp := ha.receiving.byFin hfin
      rcases ha.receiving.progress with hp' | ⟨-, hall, -⟩
      · omega
      · exact hall

/-- The sequence numbers of `a` wrap inside its first three bytes, and the
segment that carries them arrives twice. -/
theorem stream_safety_wrap :
    ∃ s, runs System.step
        [.accept 0 { peerIsn := 0xFFFFFFFE }, .deliver .a 0, .deliver .b 1, .act .a (.send [1, 2, 3]),
          .deliver .b 2, .deliver .b 2, .act .b (.read 2), .deliver .a 1, .act .a .close, .deliver .b 3]
        (.start 9000 80 0xFFFFFFFE 7 1460 1460 .reno .reno) = some s ∧
      (StreamSafe s.a s.b ∧ StreamSafe s.b s.a) ∧
      s.b.returned = [1, 2] ∧ s.a.retired = [1, 2, 3] ∧ TcpState.closeWait ∈ s.b.entered := by
  refine ⟨_, (Option.some_get (by decide +kernel)).symm, stream_safety _ _ _ _ _ _ _ _ _ _ (Option.some_get _).symm ⟨?_, ?_⟩, ?_⟩
  · decide +kernel
  · decide +kernel
  · decide +kernel

/-! ### What is said and kept -/

/-- What a side has said is true: its sequence numbers are those of the bytes that `send` accepted,
its FIN is behind the last of them, and its acks are for what it can read, and a FIN. -/
def Session.SaysTrue (isn peerIsn : UInt32) (x : Session) : Prop :=
  ∀ call ∈ x.sent, Honest isn peerIsn x.accepted (sendEnded x.conn.state) (x.delivered.length + 1) call.segment

/-- What a side keeps for later are bytes of the stream, each at its place. -/
def Session.KeepsTrue (isn : UInt32) (stream : Bytes) (x : Session) : Prop :=
  ∀ entry ∈ x.conn.reorderBuffer.entries,
    entry.2 ≠ [] ∧ ∃ n, entry.1 = after isn (1 + n) ∧ Chunk.At stream n entry.2

section Said

variable {portA portB : UInt16} {isnA isnB : UInt32} {mssA mssB : UInt16}
  {algorithmA algorithmB : CongestionControlAlgorithm} {actions : List Action} {s : System}

theorem Coupled.saysTrue {isn : UInt32} {v : View} {p : ℕ} {x : Session} (h : Coupled isn v p x) :
    x.SaysTrue isn v.isn := by
  intro call hcall
  refine (h.log call hcall).mono (List.prefix_refl _) (fun hended => ⟨hended, rfl⟩) ?_
  rcases h.receiving.progress with hp | ⟨hp, -⟩ <;> omega

/-- **Every segment is true**, also those that are sent again, probe a closed window or keep the
connection alive, in every run over a network that loses, delays, duplicates and reorders. -/
theorem segments_true (hrun : runs System.step actions
      (.start portA portB isnA isnB mssA mssB algorithmA algorithmB) = some s) (hbounded : s.Bounded) :
    s.a.SaysTrue isnA isnB ∧ s.b.SaysTrue isnB isnA := by
  obtain ⟨p, q, ha, hb⟩ := System.linked_of_runs hrun hbounded
  refine ⟨ha.saysTrue, ?_⟩
  rcases hb with hb | ⟨-, hfresh⟩
  · exact hb.saysTrue
  · rw [hfresh]
    rintro call ⟨⟩

/-- **The reorder buffers are true** in every such run. -/
theorem reorder_buffers_true (hrun : runs System.step actions
      (.start portA portB isnA isnB mssA mssB algorithmA algorithmB) = some s) (hbounded : s.Bounded) :
    s.a.KeepsTrue isnB s.b.accepted ∧ s.b.KeepsTrue isnA s.a.accepted := by
  obtain ⟨p, q, ha, hb⟩ := System.linked_of_runs hrun hbounded
  refine ⟨ha.receiving.reorder, ?_⟩
  rcases hb with hb | ⟨-, hfresh⟩
  · exact hb.receiving.reorder
  · rw [hfresh]
    rintro entry ⟨⟩

end Said

/-- A segment of `a` is lost and sent again. -/
theorem segments_true_again :
    ∃ s, runs System.step
        [.accept 0 { peerIsn := 100 }, .deliver .a 0, .act .a (.send [1, 2, 3]), .act .a (.timePassed 3000)]
        (.start 9000 80 100 7 1460 1460 .reno .reno) = some s ∧
      s.a.sent.length = 4 ∧ s.a.SaysTrue 100 7 :=
  ⟨_, (Option.some_get (by decide +kernel)).symm, by decide +kernel,
    (segments_true (Option.some_get _).symm ⟨by decide +kernel, by decide +kernel⟩).1⟩

/-- Of two segments of `a` the second comes first. -/
theorem reorder_buffers_true_swapped :
    ∃ s, runs System.step
        [.accept 0 { peerIsn := 100 }, .deliver .a 0, .deliver .b 1, .act .a (.send [1, 2, 3, 4, 5, 6]),
          .deliver .b 2, .act .b (.timePassed 500), .deliver .a 1, .deliver .b 4] (.start 9000 80 100 7 2 2 .reno .reno) = some s ∧
      s.b.conn.reorderBuffer.entries.length = 1 ∧ s.b.KeepsTrue 100 s.a.accepted :=
  ⟨_, (Option.some_get (by decide +kernel)).symm, by decide +kernel,
    (reorder_buffers_true (Option.some_get _).symm ⟨by decide +kernel, by decide +kernel⟩).2⟩

end TcpIpStack
