/-
# Connections that the peer has finished

`close` is called in one place, after a response has been sent.  So a connection
whose peer finishes while a chunk of it is on its way, or with data that becomes
one, is closed when the chunk has been answered, and none is left half closed
when the server has nothing to do (`no_half_closed_connection`).

A peer that finishes when nothing is on its way is not noticed: nothing calls the
server back.  The connection stays in `CLOSE_WAIT` for good
(`finished_peer_not_noticed`).
-/

import TcpIpStack.Server.Echo

namespace TcpIpStack

open Runs Session TcpConnection

/-- A connection with a callback that the peer has finished has a chunk on its way,
or was asked to close. -/
structure Attended (v : Served) : Prop where
  counted : v.session.conn.receiveQueuedBytes = v.session.conn.receiveQueue.flatten.length
  attended : v.dataReady = true → v.session.conn.state = .closeWait →
    v.inFlight = true ∨ v.session.conn.finRequested = true

/-- What a FIN that ends the stream of a connection with a callback must find: a
chunk on its way, or data in its own segment. -/
def FinFinds (t : Tcp) (v : Served) : Prop :=
  t.fin = true → v.dataReady = true → v.session.conn.state = .established →
    v.inFlight = true ∨ Served.Brings v.session.conn t

/-- What `accept` must find if the peer has finished already: data. -/
def AcceptFinds (v : Served) : Prop :=
  v.session.conn.state = .closeWait → 0 < v.session.conn.receiveQueuedBytes

/-- The two conditions; a response may be any. -/
def attentiveConditions : Conditions := ⟨FinFinds, AcceptFinds, fun _ _ => True⟩

instance (t : Tcp) (v : Served) : Decidable (attentiveConditions.segment t v) :=
  inferInstanceAs (Decidable (_ → _ → _ → _))

instance (v : Served) : Decidable (attentiveConditions.accept v) :=
  inferInstanceAs (Decidable (_ → _))

instance (response : Bytes) (v : Served) : Decidable (attentiveConditions.response response v) :=
  isTrue trivial

namespace Attended

variable {v w : Served} {m : Served → Prop}

theorem of_state (h : Attended v) {x : Session} (hstate : x.conn.state ≠ .closeWait)
    (hqueue : x.conn.receiveQueue = v.session.conn.receiveQueue)
    (hbytes : x.conn.receiveQueuedBytes = v.session.conn.receiveQueuedBytes) :
    Attended { v with session := x } :=
  ⟨by rw [hqueue, hbytes]; exact h.counted, fun _ hclose => absurd hclose hstate⟩

theorem counted_tryDispatch
    (h : v.session.conn.receiveQueuedBytes = v.session.conn.receiveQueue.flatten.length) :
    v.tryDispatch.session.conn.receiveQueuedBytes =
      v.tryDispatch.session.conn.receiveQueue.flatten.length := by
  have hread := Served.watched_read readAll v.session
  have hcounted : (v.session.read readAll).conn.receiveQueuedBytes =
      (v.session.read readAll).conn.receiveQueue.flatten.length := by
    have htaken := congrArg List.length (takeFromQueue_flatten readAll v.session.conn.receiveQueue)
    have hbytes : (v.session.read readAll).conn.receiveQueuedBytes = _ :=
      congrArg (·.receiveQueuedBytes) hread
    have hqueue : (v.session.read readAll).conn.receiveQueue = _ := congrArg (·.receiveQueue) hread
    rw [List.length_append] at htaken
    rw [hbytes, hqueue, h]
    dsimp only
    omega
  unfold Served.tryDispatch
  split_ifs
  · exact h
  · exact hcounted
  · exact hcounted

theorem tryDispatch (h : Attended v) : Attended v.tryDispatch := by
  refine ⟨counted_tryDispatch h.counted, fun hready hclose => ?_⟩
  rw [Served.dataReady_tryDispatch] at hready
  rw [Served.state_tryDispatch] at hclose
  rcases h.attended hready hclose with hflight | hrequested
  · exact .inl (Served.inFlight_tryDispatch (.inl hflight))
  · exact .inr ((Served.finRequested_tryDispatch v).trans hrequested)

/-- The step lemma: one case for each kind of move. -/
theorem move (h : Attended v) (hm : m v → v.dataReady = true → v.session.conn.state = .established →
    v.inFlight = true) (hmove : Served.Move m v w) : Attended w := by
  cases hmove with
  | quiet x recvNext hx =>
    have hstate : x.conn.state = v.session.conn.state := congrArg (·.state) hx
    have hfin : x.conn.finRequested = v.session.conn.finRequested := congrArg (·.finRequested) hx
    have hqueue : x.conn.receiveQueue = v.session.conn.receiveQueue := congrArg (·.receiveQueue) hx
    have hbytes : x.conn.receiveQueuedBytes = v.session.conn.receiveQueuedBytes :=
      congrArg (·.receiveQueuedBytes) hx
    refine ⟨?_, ?_⟩
    · rw [hqueue, hbytes]
      exact h.counted
    · simp only [hstate, hfin]
      exact h.attended
  | enter newState hturns =>
    refine h.of_state ?_ rfl rfl
    rcases hturns with rfl | ⟨-, rfl⟩ | hfin | ⟨-, rfl⟩ | ⟨-, rfl⟩
    all_goals try exact TcpState.noConfusion
    rcases finAckedState_cases hfin with ⟨-, rfl⟩ | ⟨-, rfl⟩ | ⟨-, rfl⟩ <;>
      exact TcpState.noConfusion
  | peerFin hguard hstate => exact ⟨h.counted, fun hready _ => .inl (hm hguard hready hstate)⟩
  | ownFin =>
    refine h.of_state ?_ rfl rfl
    show (if v.session.conn.state = .established then TcpState.finWait1 else .lastAck) ≠ _
    split_ifs <;> decide
  | forget haccepts => exact h.of_state (fun hclose => haccepts (.inr hclose)) rfl rfl
  | deliver payload hdata =>
    refine ⟨?_, fun _ hclose => ?_⟩
    · show _ + _ = (v.session.conn.receiveQueue ++ [payload]).flatten.length
      rw [List.flatten_append, List.length_append, h.counted, List.flatten_singleton]
    · change v.session.conn.state = _ at hclose
      rw [hclose] at hdata
      exact absurd hdata (by decide)
  | dispatch => exact h.tryDispatch

theorem moves (h : Attended v) (hm : ∀ z, Served.Moves m v z → m z → z.dataReady = true →
    z.session.conn.state = .established → z.inFlight = true) (hmoves : Served.Moves m v w) : Attended w := by
  induction hmoves with
  | refl => exact h
  | tail hz hmove ih => exact ih.move (hm _ hz) hmove

theorem dataReady_moves (hmoves : Served.Moves m v w) : w.dataReady = v.dataReady := by
  induction hmoves with
  | refl => rfl
  | tail _ hmove ih =>
    cases hmove with
    | dispatch => exact (Served.dataReady_tryDispatch _).trans ih
    | quiet | enter | peerFin | ownFin | forget | deliver => exact ih

theorem onSegment (h : Attended v) {t : Tcp} (hok : FinFinds t v) : Attended (v.onSegment t) := by
  refine h.moves (fun z hz hguard hready hstate => ?_) (Served.onSegment_moves t v)
  obtain ⟨hfin, hopen⟩ := hguard
  obtain ⟨hbefore, hflight⟩ := hopen hstate
  have hready' : v.dataReady = true := (dataReady_moves hz).symm.trans hready
  exact hflight ((hok hfin hready' hbefore).imp_right fun hbrings => ⟨hready', hbrings⟩)

theorem setDataReadyCallback (h : Attended v) (hok : AcceptFinds v) : Attended v.setDataReadyCallback := by
  unfold Served.setDataReadyCallback
  dsimp only
  split_ifs with hbytes
  · have hunread : ({ v with dataReady := true } : Served).unread ≠ [] := by
      rw [Ne, Served.unread_eq_nil_iff]
      refine List.ne_nil_of_length_pos ?_
      rwa [← h.counted]
    exact ⟨counted_tryDispatch h.counted, fun _ _ => .inl (Served.inFlight_tryDispatch (.inr hunread))⟩
  · exact ⟨h.counted, fun _ hclose => absurd (hok hclose) hbytes⟩

theorem applyResponse (h : Attended v) {response : Bytes} (hrun : v.applyResponse none response = some w) :
    Attended w := by
  obtain ⟨⟨n, x⟩, hsend, rfl⟩ := Option.map_eq_some_iff.1 hrun
  obtain ⟨hx, -, -⟩ := watched_send hsend
  have hcounted : x.conn.receiveQueuedBytes = x.conn.receiveQueue.flatten.length := by
    have hqueue : x.conn.receiveQueue = v.session.conn.receiveQueue := congrArg (·.receiveQueue) hx
    have hbytes : x.conn.receiveQueuedBytes = v.session.conn.receiveQueuedBytes :=
      congrArg (·.receiveQueuedBytes) hx
    rw [hqueue, hbytes]
    exact h.counted
  refine tryDispatch ?_
  split_ifs with hstate
  · have haccepts : acceptsData x.conn.state := .inr hstate
    by_cases hwaiting : x.conn.inFlight ≠ [] ∨ x.conn.sendQueue ≠ []
    · rw [close_of_waiting haccepts hwaiting]
      exact ⟨hcounted, fun _ _ => .inr rfl⟩
    · rw [not_or, not_not, not_not] at hwaiting
      rw [close_of_empty haccepts hwaiting.1 hwaiting.2, sendFin, hstate, if_neg (by decide)]
      exact ⟨hcounted, fun _ hclose => TcpState.noConfusion hclose⟩
  · exact ⟨hcounted, fun _ hclose => absurd hclose hstate⟩

end Attended

/-! ### The server -/

theorem attentiveRule : ServerRule attentiveConditions fun _ => Attended where
  opened localPort remotePort isn localMss options := ⟨rfl, fun hready => absurd hready (by simp)⟩
  segment pending v t hok h := h.onSegment hok
  moves pending v w hmoves h := h.moves (fun _ _ hfalse => hfalse.elim) hmoves
  accept pending v hok h := h.setDataReadyCallback hok
  response response v w _ _ _ h hrun := h.applyResponse hrun
  submitted pending v h := ⟨h.counted, h.attended⟩

/-- No task is queued or running, the completion queue is empty, and the event loop
waits. -/
def Server.Idle (v : Server) : Prop :=
  v.tasks = [] ∧ v.running = [] ∧ v.completions = [] ∧ v.ready = []

instance (v : Server) : Decidable v.Idle := inferInstanceAs (Decidable (_ ∧ _))

/-- The peer has finished, everything is answered and acknowledged, and nobody has
closed the connection. -/
def TcpConnection.HalfClosed (c : TcpConnection) : Prop :=
  c.state = .closeWait ∧ c.receiveQueue = [] ∧ c.sendQueue = [] ∧ c.inFlight = [] ∧
    c.finRequested = false

instance (c : TcpConnection) : Decidable c.HalfClosed := inferInstanceAs (Decidable (_ ∧ _))

/-- **No connection is left half closed**, in a run in which no call of the callback
throws, every FIN that ends the stream of an accepted connection finds a chunk of it on its way or comes with data,
and a connection that is accepted after the FIN has data. -/
theorem no_half_closed_connection {port localMss : UInt16} {isn : ℕ → UInt32} {workerCount : ℕ}
    {steps : List ServerStep} {v : Server}
    (h : runs ServerStep.run steps (Server.new port localMss isn workerCount) = some v)
    (hok : Along ServerStep.run attentiveConditions.Met steps
      (Server.new port localMss isn workerCount))
    (hidle : v.Idle) {key : ConnectionKey} {c : Connection}
    (hc : v.table.connections.lookup key = some c) (haccepted : c.id ∈ v.dataReady) :
    ¬ c.session.conn.HalfClosed := by
  rintro ⟨hstate, -, -, -, hfin⟩
  have hholds := attentiveRule.runs hok h
  have hunmarked : c.id ∉ v.inFlight := by
    intro hmarked
    obtain ⟨htasks, hrunning, hcompletions, hready⟩ := hidle
    have hsingle := hholds.single c.id
    simp [Server.pending, Server.jobs, htasks, hrunning, hcompletions, hready, hmarked] at hsingle
  have hattended := (hholds.each key c hc).attended (decide_eq_true haccepted) hstate
  rcases hattended with hmarked | hrequested
  · exact hunmarked (of_decide_eq_true hmarked)
  · exact Bool.false_ne_true (hfin.symm.trans hrequested)

/-- The client sends a byte and finishes while it is in the pool: when the response
has been sent, the FIN is requested. -/
def finishWhileBusy : List ServerStep :=
  clientConnects ++ [clientSends flagAck 8 101 [1], clientSends (flagFin ||| flagAck) 9 101 []] ++
    roundTrip

theorem finishWhileBusy_runs : (runs ServerStep.run finishWhileBusy echoServer).isSome = true := by
  decide +kernel

theorem busy_connection_closed :
    ∃ v, runs ServerStep.run finishWhileBusy echoServer = some v ∧ v.Idle ∧
      ∃ c, v.table.connections.lookup clientKey = some c ∧ c.id ∈ v.dataReady ∧
        c.session.conn.state = .closeWait ∧ ¬ c.session.conn.HalfClosed := by
  have hrun := (Option.some_get finishWhileBusy_runs).symm
  refine ⟨_, hrun, ?_, _, (Option.some_get ?_).symm, ?_, ?_,
    no_half_closed_connection hrun ?_ ?_ (Option.some_get _).symm ?_⟩
  all_goals decide +kernel

/-- The client connects and finishes. -/
def finishWhileIdle : List ServerStep := clientConnects ++ [clientSends (flagFin ||| flagAck) 8 101 []]

theorem finishWhileIdle_runs : (runs ServerStep.run finishWhileIdle echoServer).isSome = true := by
  decide +kernel

/-- **A peer that finishes when nothing is on its way is not noticed.** -/
theorem finished_peer_not_noticed :
    ∃ v, runs ServerStep.run finishWhileIdle echoServer = some v ∧ v.Idle ∧
      ∃ c, v.table.connections.lookup clientKey = some c ∧ c.id ∈ v.dataReady ∧
        c.session.conn.HalfClosed := by
  refine ⟨_, (Option.some_get finishWhileIdle_runs).symm, by decide +kernel, _,
    (Option.some_get (by decide +kernel : (((runs ServerStep.run finishWhileIdle echoServer).get
      finishWhileIdle_runs).table.connections.lookup clientKey).isSome = true)).symm, ?_⟩
  decide +kernel

end TcpIpStack
