/-
# What the server sends back

Every byte the server has read of a connection has been accepted by its `send`, or
is in the one chunk on its way.  So the accepted bytes are a prefix of the received
ones, and all of them once the connection has sent its FIN
(`server_echoes`), provided that each response finds room in the send
buffer and, when the peer has finished, nothing unread.

Neither is looked at.  `_apply_response` ignores how much `send` has accepted.  And
it closes a connection in `CLOSE_WAIT` after the first response, though a second
chunk may be waiting in the receive queue: the FIN that `close` holds back goes out
when the first response is acknowledged, and the second one is then refused
(`second_chunk_not_echoed`).
-/

import TcpIpStack.Server.Pool

namespace TcpIpStack

open Runs Session TcpConnection

/-- The connection has sent its FIN: `close` enters one of two states when it does. -/
def Session.FinSent (x : Session) : Prop := .finWait1 ∈ x.entered ∨ .lastAck ∈ x.entered

instance (x : Session) : Decidable x.FinSent := inferInstanceAs (Decidable (_ ∨ _))

/-- The states that a connection of the server goes through. -/
def ServerState (state : TcpState) : Prop :=
  state = .synReceived ∨ state = .established ∨ state = .closeWait ∨ state = .lastAck ∨
    state = .closed

/-- The states after the peer's FIN. -/
def PeerFinished (state : TcpState) : Prop := state = .closeWait ∨ state = .lastAck ∨ state = .closed

/-- A connection and the chunks of it that were on their way when a call into it
began. -/
structure Echoing (pending : List Bytes) (v : Served) : Prop where
  states : ServerState v.session.conn.state
  opening : v.session.conn.state = .synReceived →
    v.session.returned = [] ∧ v.session.conn.receiveQueue.flatten = []
  chunks : ∀ chunk ∈ pending ++ v.submitted, chunk ≠ []
  marked : v.inFlight = false → pending ++ v.submitted = []
  /-- While the connection lives, what was read is accepted or on its way. -/
  stream : v.session.conn.state ≠ .closed →
    v.session.returned = v.session.accepted ++ (pending ++ v.submitted).flatten
  below : v.session.accepted <+: v.session.returned
  /-- Once it is asked to close, everything is answered. -/
  answered : v.session.conn.finRequested = true ∨ v.session.conn.state = .lastAck ∨
      .lastAck ∈ v.session.entered →
    PeerFinished v.session.conn.state ∧ v.session.conn.receiveQueue.flatten = [] ∧
      v.session.accepted = v.session.returned ∧ pending ++ v.submitted = []
  passive : .finWait1 ∉ v.session.entered

/-- What a response must find: room for all of it, and nothing unread if the peer
has finished. -/
def Answerable (response : Bytes) (v : Served) : Prop :=
  v.session.conn.state ≠ .closed → response.length ≤ sendSpaceAvailable v.session.conn ∧
    (v.session.conn.state = .closeWait → v.session.conn.receiveQueue.flatten = [])

instance (response : Bytes) (v : Served) : Decidable (Answerable response v) :=
  inferInstanceAs (Decidable (_ → _))

namespace Echoing

variable {pending : List Bytes} {response : Bytes} {v w : Served} {m : Served → Prop} {x : Session}

/-- What is watched stays. -/
theorem of_watched (h : Echoing pending v) {recvNext : UInt32}
    (hx : x.watched = { v.session.watched with recvNext := recvNext }) :
    Echoing pending { v with session := x } := by
  have hstate : x.conn.state = v.session.conn.state := congrArg (·.state) hx
  have hfin : x.conn.finRequested = v.session.conn.finRequested := congrArg (·.finRequested) hx
  have hqueue : x.conn.receiveQueue = v.session.conn.receiveQueue := congrArg (·.receiveQueue) hx
  have hentered : x.entered = v.session.entered := congrArg (·.entered) hx
  have haccepted : x.accepted = v.session.accepted := congrArg (·.accepted) hx
  have hreturned : x.returned = v.session.returned := congrArg (·.returned) hx
  refine ⟨?_, ?_, h.chunks, h.marked, ?_, ?_, ?_, ?_⟩
  all_goals simp only [hstate, hfin, hqueue, hentered, haccepted, hreturned]
  · exact h.states
  · exact h.opening
  · exact h.stream
  · exact h.below
  · exact h.answered
  · exact h.passive

theorem unanswered (h : Echoing pending v) (hstate : ¬ PeerFinished v.session.conn.state) :
    v.session.conn.finRequested = false ∧ .lastAck ∉ v.session.entered := by
  constructor
  · exact Bool.eq_false_iff.2 fun hfin => hstate (h.answered (.inl hfin)).1
  · exact fun hlast => hstate (h.answered (.inr (.inr hlast))).1

/-- The handshake ends, or the peer's FIN arrives. -/
theorem advance (h : Echoing pending v) (hstate : ¬ PeerFinished v.session.conn.state)
    {newState : TcpState} (hnew : newState = .established ∨ newState = .closeWait) :
    Echoing pending (v.run (Session.transition newState)) := by
  obtain ⟨hfin, hlast⟩ := h.unanswered hstate
  refine ⟨?_, ?_, h.chunks, h.marked, fun _ => h.stream fun hclosed => hstate (.inr (.inr hclosed)),
    h.below, ?_, ?_⟩
  · exact hnew.elim (.inr ∘ .inl) (.inr ∘ .inr ∘ .inl)
  · intro hopen
    change newState = _ at hopen
    subst hopen
    simp at hnew
  · rintro (hrequested | hlastAck | hmem)
    · exact absurd hrequested (by simp [Session.transition, hfin])
    · change newState = _ at hlastAck
      subst hlastAck
      simp at hnew
    · rcases List.mem_append.1 hmem with hmem | hmem
      · exact absurd hmem hlast
      · rw [← List.mem_singleton.1 hmem] at hnew
        simp at hnew
  · intro hmem
    rcases List.mem_append.1 hmem with hmem | hmem
    · exact h.passive hmem
    · rw [← List.mem_singleton.1 hmem] at hnew
      simp at hnew

theorem closed (h : Echoing pending v) : Echoing pending (v.run (Session.transition .closed)) where
  states := .inr (.inr (.inr (.inr rfl)))
  opening hopen := by cases hopen
  chunks := h.chunks
  marked := h.marked
  stream halive := absurd rfl halive
  below := h.below
  answered hend := by
    have hbefore : v.session.conn.finRequested = true ∨ v.session.conn.state = .lastAck ∨
        .lastAck ∈ v.session.entered := by
      rcases hend with hfin | hlast | hmem
      · exact .inl hfin
      · cases hlast
      · exact .inr (.inr ((List.mem_append.1 hmem).resolve_right (by decide)))
    exact ⟨.inr (.inr rfl), (h.answered hbefore).2⟩
  passive hmem := h.passive ((List.mem_append.1 hmem).resolve_right (by decide))

/-- The FIN goes out, which nobody has asked for before everything was answered. -/
theorem requestedFin (h : Echoing pending v) (hfin : v.session.conn.finRequested = true)
    (haccepts : acceptsData v.session.conn.state) : Echoing pending (v.run Session.requestedFin) := by
  obtain ⟨hfinished, hanswered⟩ := h.answered (.inl hfin)
  have hstate : v.session.conn.state = .closeWait := by
    refine haccepts.resolve_left fun hestablished => ?_
    rw [hestablished] at hfinished
    simp [PeerFinished] at hfinished
  have hrun : v.session.requestedFin = v.session.forgetFin.transition .lastAck := by
    rw [Session.requestedFin, hstate, if_neg (by decide)]
  unfold Served.run
  rw [hrun]
  refine ⟨.inr (.inr (.inr (.inl rfl))), ?_, h.chunks, h.marked, fun _ => h.stream (by simp [hstate]),
    h.below, fun _ => ⟨.inr (.inl rfl), hanswered⟩, ?_⟩
  · intro hopen
    cases hopen
  · exact fun hmem => h.passive ((List.mem_append.1 hmem).resolve_right (by decide))

theorem forgetFin (h : Echoing pending v) : Echoing pending (v.run Session.forgetFin) :=
  ⟨h.states, h.opening, h.chunks, h.marked, h.stream, h.below,
    fun hend => h.answered (.inr (hend.resolve_left Bool.false_ne_true)), h.passive⟩

theorem deliver (h : Echoing pending v) (hdata : receivesData v.session.conn.state) (payload : Bytes) :
    Echoing pending (v.run (Session.modify (·.deliver payload))) := by
  have hstate : ¬ PeerFinished v.session.conn.state := by
    rintro (hstate | hstate | hstate) <;> simp [hstate, receivesData] at hdata
  refine ⟨h.states, fun hopen => ?_, h.chunks, h.marked, h.stream, h.below, fun hend => ?_, h.passive⟩
  · change v.session.conn.state = _ at hopen
    simp [hopen, receivesData] at hdata
  · exact absurd (h.answered hend).1 hstate

/-- A chunk is read and submitted. -/
theorem tryDispatch (h : Echoing pending v) : Echoing pending v.tryDispatch := by
  have hread := Served.watched_read readAll v.session
  have hstate : (v.session.read readAll).conn.state = v.session.conn.state := congrArg (·.state) hread
  have hfin : (v.session.read readAll).conn.finRequested = v.session.conn.finRequested :=
    congrArg (·.finRequested) hread
  have hentered : (v.session.read readAll).entered = v.session.entered := congrArg (·.entered) hread
  have haccepted : (v.session.read readAll).accepted = v.session.accepted := congrArg (·.accepted) hread
  have hreturned : (v.session.read readAll).returned = v.session.returned ++ v.unread :=
    congrArg (·.returned) hread
  have hqueue : v.unread ++ (v.session.read readAll).conn.receiveQueue.flatten =
      v.session.conn.receiveQueue.flatten := by
    rw [show (v.session.read readAll).conn.receiveQueue = _ from congrArg (·.receiveQueue) hread]
    exact takeFromQueue_flatten readAll _
  unfold Served.tryDispatch
  split_ifs with hflight hunread
  · exact h
  · rw [hunread, List.nil_append] at hqueue
    rw [hunread, List.append_nil] at hreturned
    refine ⟨?_, ?_, h.chunks, h.marked, ?_, ?_, ?_, ?_⟩
    all_goals
      simp only [Served.run, hstate, hfin, hqueue, hentered, haccepted, hreturned]
    · exact h.states
    · exact h.opening
    · exact h.stream
    · exact h.below
    · exact h.answered
    · exact h.passive
  · -- something is read, so nothing was on its way, and nobody has asked to close
    have hnone : pending ++ v.submitted = [] := h.marked (by simpa using hflight)
    have hsome : v.session.conn.receiveQueue.flatten ≠ [] := by
      rwa [← Ne, Ne, Served.unread_eq_nil_iff] at hunread
    have hchunks : pending ++ (v.submitted ++ [v.unread]) = [v.unread] := by
      rw [← List.append_assoc, hnone, List.nil_append]
    refine ⟨?_, ?_, ?_, ?_, ?_, ?_, ?_, ?_⟩
    all_goals simp only [hstate, hfin, hentered, haccepted, hreturned, hchunks]
    · exact h.states
    · exact fun hopen => absurd (h.opening hopen).2 hsome
    · simpa using hunread
    · exact fun hmarked => by simp at hmarked
    · intro halive
      rw [h.stream halive, hnone]
      simp
    · exact h.below.trans (List.prefix_append _ _)
    · exact fun hend => absurd (h.answered hend).2.1 hsome
    · exact h.passive

/-- The step lemma: one case for each kind of move. -/
theorem move (h : Echoing pending v) (hmove : Served.Move m v w) : Echoing pending w := by
  cases hmove with
  | quiet x recvNext hx => exact h.of_watched hx
  | enter newState hturns =>
    have hstates := h.states
    rcases hturns with rfl | ⟨hstate, rfl⟩ | hfin | ⟨hstate, rfl⟩ | ⟨hstate, rfl⟩
    · exact h.closed
    · refine h.advance ?_ (.inl rfl)
      rcases hstate with hstate | hstate <;> simp [hstate, PeerFinished]
    · rcases finAckedState_cases hfin with ⟨hstate, rfl⟩ | ⟨hstate, rfl⟩ | ⟨hstate, rfl⟩
      · simp [hstate, ServerState] at hstates
      · simp [hstate, ServerState] at hstates
      · exact h.closed
    · simp [hstate, ServerState] at hstates
    · simp [hstate, ServerState] at hstates
  | peerFin hm hstate => exact h.advance (by simp [hstate, PeerFinished]) (.inr rfl)
  | ownFin haccepts hfin => exact h.requestedFin hfin haccepts
  | forget => exact h.forgetFin
  | deliver payload hdata => exact h.deliver hdata payload
  | dispatch => exact h.tryDispatch

theorem moves (h : Echoing pending v) (hmoves : Served.Moves m v w) : Echoing pending w := by
  induction hmoves with
  | refl => exact h
  | tail _ hmove ih => exact ih.move hmove

/-- The response to the only chunk on its way is accepted in full. -/
theorem send (h : Echoing [response] v) (hflight : v.submitted = []) (hok : Answerable response v)
    {n : ℕ} (hsend : v.session.send response = some (n, x)) :
    Echoing [] { v with session := x, inFlight := false } ∧
      (x.conn.state = .closeWait →
        x.conn.receiveQueue.flatten = [] ∧ x.accepted = x.returned) := by
  obtain ⟨hx, htakes, hrefuses⟩ := watched_send hsend
  have hstate : x.conn.state = v.session.conn.state := congrArg (·.state) hx
  have hfin : x.conn.finRequested = v.session.conn.finRequested := congrArg (·.finRequested) hx
  have hqueue : x.conn.receiveQueue = v.session.conn.receiveQueue := congrArg (·.receiveQueue) hx
  have hentered : x.entered = v.session.entered := congrArg (·.entered) hx
  have haccepted : x.accepted = v.session.accepted ++ response.take n := congrArg (·.accepted) hx
  have hreturned : x.returned = v.session.returned := congrArg (·.returned) hx
  have hpending : [response] ++ v.submitted ≠ [] := by simp
  have hunanswered : ¬ (v.session.conn.finRequested = true ∨ v.session.conn.state = .lastAck ∨
      .lastAck ∈ v.session.entered) := fun hend => hpending (h.answered hend).2.2.2
  have hnonempty : response ≠ [] := h.chunks response (by simp)
  have hall (halive : v.session.conn.state ≠ .closed) : x.accepted = x.returned := by
    have hstream := h.stream halive
    rw [hflight, List.append_nil, List.flatten_singleton] at hstream
    have haccepts : acceptsData v.session.conn.state := by
      rcases h.states with hopen | hopen | hopen | hopen | hopen
      · rw [(h.opening hopen).1] at hstream
        exact absurd (List.append_eq_nil_iff.1 hstream.symm).2 hnonempty
      · exact .inl hopen
      · exact .inr hopen
      · exact absurd (.inr (.inl hopen)) hunanswered
      · exact absurd hopen halive
    rw [haccepted, hreturned, hstream, htakes haccepts, min_eq_left (hok halive).1, List.take_length]
  have hbelow : x.accepted <+: x.returned := by
    by_cases hclosed : v.session.conn.state = .closed
    · have hzero : n = 0 := hrefuses (by simp [acceptsData, hclosed])
      rw [haccepted, hreturned, hzero, List.take_zero, List.append_nil]
      exact h.below
    · rw [hall hclosed]
  refine ⟨⟨?_, ?_, by simp [hflight], by simp [hflight], ?_, hbelow, ?_, ?_⟩, ?_⟩
  · rw [hstate]
    exact h.states
  · simp only [hstate, hreturned, hqueue]
    exact h.opening
  · intro halive
    rw [hstate] at halive
    simp [hall halive, hflight]
  · simp only [hstate, hfin, hentered]
    exact fun hend => absurd hend hunanswered
  · rw [hentered]
    exact h.passive
  · intro hclose
    rw [hstate] at hclose
    have halive : v.session.conn.state ≠ .closed := by simp [hclose]
    exact ⟨hqueue ▸ (hok halive).2 hclose, hall halive⟩

/-- The connection is asked to close when everything is answered. -/
theorem close (h : Echoing [] v) (hsubmitted : v.submitted = []) (hstate : v.session.conn.state = .closeWait)
    (hqueue : v.session.conn.receiveQueue.flatten = [])
    (hall : v.session.accepted = v.session.returned) : Echoing [] (v.run Session.close) := by
  have haccepts : acceptsData v.session.conn.state := .inr hstate
  have hanswered : v.session.conn.receiveQueue.flatten = [] ∧ v.session.accepted = v.session.returned ∧
      [] ++ v.submitted = [] := ⟨hqueue, hall, hsubmitted⟩
  unfold Served.run
  by_cases hwaiting : v.session.conn.inFlight ≠ [] ∨ v.session.conn.sendQueue ≠ []
  · rw [close_of_waiting haccepts hwaiting]
    exact ⟨h.states, h.opening, h.chunks, h.marked, h.stream, h.below,
      fun _ => ⟨.inl hstate, hanswered⟩, h.passive⟩
  · rw [not_or, not_not, not_not] at hwaiting
    rw [close_of_empty haccepts hwaiting.1 hwaiting.2, sendFin, hstate, if_neg (by decide)]
    refine ⟨.inr (.inr (.inr (.inl rfl))), ?_, h.chunks, h.marked, fun _ => h.stream (by simp [hstate]),
      h.below, fun _ => ⟨.inr (.inl rfl), hanswered⟩, ?_⟩
    · intro hopen
      cases hopen
    · exact fun hmem => h.passive ((List.mem_append.1 hmem).resolve_right (by decide))

theorem applyResponse (h : Echoing [response] v) (hsubmitted : v.submitted = [])
    (hok : Answerable response v) (hrun : v.applyResponse none response = some w) : Echoing [] w := by
  obtain ⟨⟨n, x⟩, hsend, rfl⟩ := Option.map_eq_some_iff.1 hrun
  obtain ⟨hsent, hclosing⟩ := h.send hsubmitted hok hsend
  refine tryDispatch ?_
  split_ifs with hstate
  · exact hsent.close hsubmitted hstate (hclosing hstate).1 (hclosing hstate).2
  · exact hsent

end Echoing

/-! ### The server -/

/-- The conditions under which the server echoes: every response is answerable. -/
def echoConditions : Conditions := ⟨fun _ _ => True, fun _ => True, Answerable⟩

instance (response : Bytes) (v : Served) : Decidable (echoConditions.response response v) :=
  inferInstanceAs (Decidable (Answerable response v))

instance (t : Tcp) (v : Served) : Decidable (echoConditions.segment t v) := isTrue trivial

instance (v : Served) : Decidable (echoConditions.accept v) := isTrue trivial

/-- The invariant holds at the start and across every step of the server. -/
theorem echoRule : ServerRule echoConditions Echoing where
  opened localPort remotePort isn localMss options := by
    have hentered (state : TcpState) (hstate : state ≠ .synReceived) : state ∉ [TcpState.synReceived] := by
      simpa using hstate
    refine ⟨.inl rfl, fun _ => ⟨rfl, rfl⟩, by simp, fun _ => rfl, fun _ => rfl, List.prefix_rfl, ?_,
      hentered .finWait1 (by decide)⟩
    rintro (hfin | hlast | hmem)
    · cases hfin
    · cases hlast
    · exact absurd hmem (hentered .lastAck (by decide))
  segment pending v t _ h := h.moves (Served.onSegment_moves t v)
  moves pending v w hmoves h := h.moves hmoves
  accept pending v _ h := by
    have hready : Echoing pending { v with dataReady := true } :=
      ⟨h.states, h.opening, h.chunks, h.marked, h.stream, h.below, h.answered, h.passive⟩
    exact hready.moves (ServerRule.setDataReadyCallback_moves v)
  response response v w hok _ hsubmitted h hrun := h.applyResponse hsubmitted hok hrun
  submitted pending v h := by
    have hchunks := List.append_nil (pending ++ v.submitted)
    exact ⟨h.states, h.opening, by simpa using h.chunks, by simpa using h.marked,
      by simpa using h.stream, h.below, by simpa using h.answered, h.passive⟩

/-- **The server echoes**: in every run whose responses are all answerable and
whose calls of the callback return, what `send` has accepted of a connection is a prefix of what was received on it, and all
of it once the connection has sent its FIN. -/
theorem server_echoes {port localMss : UInt16} {isn : ℕ → UInt32} {workerCount : ℕ}
    {steps : List ServerStep} {v : Server}
    (h : runs ServerStep.run steps (Server.new port localMss isn workerCount) = some v)
    (hok : Along ServerStep.run echoConditions.Met steps (Server.new port localMss isn workerCount))
    {key : ConnectionKey} {c : Connection} (hc : v.table.connections.lookup key = some c) :
    c.session.accepted <+: c.session.delivered ∧
      (c.session.FinSent → c.session.accepted = c.session.delivered) := by
  obtain hechoing := (echoRule.runs hok h).each key c hc
  refine ⟨hechoing.below.trans (List.prefix_append _ _), fun hfin => ?_⟩
  have hlast : TcpState.lastAck ∈ c.session.entered := hfin.resolve_left hechoing.passive
  obtain ⟨-, hqueue, hall, -⟩ := hechoing.answered (.inr (.inr hlast))
  rw [Session.delivered]
  exact hall.trans (by rw [show c.session.conn.receiveQueue.flatten = [] from hqueue, List.append_nil]; rfl)

/-! ### A client -/

/-- A server on port 80 with one worker. -/
def echoServer : Server := Server.new 80 1460 (fun _ => 100) 1

/-- The connection of a client. -/
def clientKey : ConnectionKey := ⟨⟨0x0A000002⟩, 5000, 80⟩

/-- A segment of the client. -/
def clientSends (flags : UInt8) (seq ack : UInt32) (payload : Bytes) : ServerStep :=
  .segment clientKey ((Tcp.ofFlags 5000 80 seq ack 5 flags 1000 0 0).carrying payload)

/-- The client connects, and the server accepts it. -/
def clientConnects : List ServerStep :=
  [clientSends flagSyn 7 0 [], clientSends flagAck 8 101 [], .accept]

/-- A chunk goes through the pool and back. -/
def roundTrip : List ServerStep := [.take, .finish 0, .drain, .complete none]

/-- The client sends a byte and finishes while it is in the pool. -/
def oneChunk : List ServerStep :=
  clientConnects ++ [clientSends flagAck 8 101 [1], clientSends (flagFin ||| flagAck) 9 101 []] ++
    roundTrip ++ [clientSends flagAck 10 102 []]

/-- The client sends a second byte while the first one is in the pool, and finishes. -/
def twoChunks : List ServerStep :=
  clientConnects ++ [clientSends flagAck 8 101 [1], clientSends flagAck 9 101 [2],
    clientSends (flagFin ||| flagAck) 10 101 []] ++ roundTrip ++ [clientSends flagAck 11 102 []] ++
    roundTrip

theorem oneChunk_runs : (runs ServerStep.run oneChunk echoServer).isSome = true := by decide +kernel

theorem twoChunks_runs : (runs ServerStep.run twoChunks echoServer).isSome = true := by decide +kernel

/-- One chunk comes back before the FIN. -/
theorem one_chunk_echoed :
    ∃ v, runs ServerStep.run oneChunk echoServer = some v ∧
      ∃ c, v.table.connections.lookup clientKey = some c ∧ c.session.FinSent ∧
        c.session.accepted = [1] ∧ c.session.accepted = c.session.delivered := by
  have hrun := (Option.some_get oneChunk_runs).symm
  refine ⟨_, hrun, _, (Option.some_get ?_).symm, ?_, ?_,
    (server_echoes hrun ?_ (Option.some_get _).symm).2 ?_⟩
  all_goals decide +kernel

/-- **The second chunk does not**: all work is done, the FIN has been sent, and of
the two bytes that were received only the first was accepted. -/
theorem second_chunk_not_echoed :
    ∃ v, runs ServerStep.run twoChunks echoServer = some v ∧ v.jobs = [] ∧
      ∃ c, v.table.connections.lookup clientKey = some c ∧ c.id ∈ v.dataReady ∧
        c.session.conn.state = .lastAck ∧ c.session.FinSent ∧
        c.session.accepted = [1] ∧ c.session.delivered = [1, 2] := by
  refine ⟨_, (Option.some_get twoChunks_runs).symm, by decide +kernel, _,
    (Option.some_get (by decide +kernel : (((runs ServerStep.run twoChunks echoServer).get
      twoChunks_runs).table.connections.lookup clientKey).isSome = true)).symm, ?_⟩
  decide +kernel

end TcpIpStack
