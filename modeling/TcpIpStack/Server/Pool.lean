/-
# One chunk of a connection at a time

A connection whose id is in `_in_flight` has exactly one chunk on its way: in the
pool's queue, with a worker, in the completion queue, or swapped out of it
(`Sound.single`).  So the chunk of a connection is well defined whatever the other
connections, the workers and the reactor do in between, and a property of a
connection and its chunk that the connection's own steps keep holds in every
state of the server (`ServerRule.runs`).
-/

import TcpIpStack.Stack.TableConsistency
import TcpIpStack.Server.State
import TcpIpStack.Server.Moves

namespace TcpIpStack

open Runs Session

theorem Reaches.trans {x y : Session} {c : TcpConnection} {entered : List TcpState}
    (h : Reaches x y.conn y.entered) (h' : Reaches y c entered) : Reaches x c entered := by
  obtain ⟨l, hl, hreceived, hstate⟩ := h
  obtain ⟨l', hl', hreceived', hstate'⟩ := h'
  refine ⟨l ++ l', by rw [hl', hl, List.append_assoc], by simp [hreceived, hreceived'], ?_⟩
  rw [hstate', hstate, List.getLast?_append, Option.getD_or]

/-! ### A connection -/

namespace Served

/-- With `pending` on its way before the call into it began, a connection has one
chunk on its way if it is marked, and none otherwise. -/
def Single (pending : List Bytes) (v : Served) : Prop :=
  (pending ++ v.submitted).length = if v.inFlight then 1 else 0

section Moves

variable {m : Served → Prop} {v w : Served} {pending : List Bytes}

theorem Single.tryDispatch (h : Single pending v) : Single pending v.tryDispatch := by
  unfold Served.tryDispatch
  split_ifs with hflight
  · exact h
  · exact h
  · unfold Single at h ⊢
    rw [if_neg hflight] at h
    rw [← List.append_assoc, List.length_append, h]
    rfl

theorem Single.move (h : Single pending v) (hmove : Move m v w) : Single pending w := by
  cases hmove with
  | quiet | enter | peerFin | ownFin | forget | deliver => exact h
  | dispatch => exact h.tryDispatch

theorem Single.moves (h : Single pending v) (hmoves : Moves m v w) : Single pending w := by
  induction hmoves with
  | refl => exact h
  | tail _ hmove ih => exact ih.move hmove

theorem reaches_of_watched {x y : Session} (hstate : y.watched.state = x.watched.state)
    (hentered : y.watched.entered = x.watched.entered) : Reaches x y.conn y.entered :=
  ⟨[], hentered.trans (List.append_nil _).symm, by simp, hstate⟩

theorem reaches_transition {x y : Session} (newState : TcpState) (hnew : newState ≠ .synReceived)
    (hstate : y.conn.state = newState) (hentered : y.entered = x.entered ++ [newState]) :
    Reaches x y.conn y.entered :=
  ⟨[newState], hentered, by simpa using hnew.symm, hstate⟩

theorem reaches_tryDispatch (v : Served) :
    Reaches v.session v.tryDispatch.session.conn v.tryDispatch.session.entered := by
  have hread := watched_read readAll v.session
  have hreaches : Reaches v.session (v.session.read readAll).conn (v.session.read readAll).entered :=
    reaches_of_watched (congrArg (·.state) hread) (congrArg (·.entered) hread)
  unfold Served.tryDispatch
  split_ifs
  · exact reaches_of_watched rfl rfl
  · exact hreaches
  · exact hreaches

theorem Move.reaches (h : Move m v w) : Reaches v.session w.session.conn w.session.entered := by
  cases h with
  | quiet x recvNext hx => exact reaches_of_watched (congrArg (·.state) hx) (congrArg (·.entered) hx)
  | enter newState hturns =>
    refine reaches_transition newState ?_ rfl rfl
    rcases hturns with rfl | ⟨-, rfl⟩ | hfin | ⟨-, rfl⟩ | ⟨-, rfl⟩
    · decide
    · decide
    · rcases finAckedState_cases hfin with ⟨-, rfl⟩ | ⟨-, rfl⟩ | ⟨-, rfl⟩ <;> decide
    · decide
    · decide
  | peerFin => exact reaches_transition .closeWait (by decide) rfl rfl
  | ownFin =>
    refine reaches_transition (if v.session.conn.state = .established then .finWait1 else .lastAck) ?_
      rfl rfl
    split_ifs <;> decide
  | forget => exact reaches_of_watched rfl rfl
  | deliver => exact reaches_of_watched rfl rfl
  | dispatch => exact reaches_tryDispatch v

theorem Moves.reaches (h : Moves m v w) : Reaches v.session w.session.conn w.session.entered := by
  induction h with
  | refl => exact reaches_of_watched rfl rfl
  | tail _ hmove ih => exact ih.trans hmove.reaches

theorem reaches_applyResponse {response : Bytes} (h : v.applyResponse none response = some w) :
    Reaches v.session w.session.conn w.session.entered := by
  obtain ⟨⟨n, x⟩, hsend, rfl⟩ := Option.map_eq_some_iff.1 h
  have hsent : Reaches v.session x.conn x.entered :=
    (Event.run_walks (e := .send response) (by simp [Event.run, hsend])).reaches.reaches
  refine Reaches.trans ?_ (reaches_tryDispatch _)
  dsimp only
  split_ifs
  · exact hsent.trans (Event.run_walks (e := .close) rfl).reaches.reaches
  · exact hsent

end Moves

end Served

/-! ### The server -/

/-- Reaping keeps the tables consistent, and puts nothing into them. -/
theorem ConnectionTable.Consistent.reapIds {ids : List ℕ} {t : ConnectionTable} (h : t.Consistent)
    (hids : t.pendingReapIds = ids) : (ConnectionTable.reapIds ids t).Consistent ∧
      (ConnectionTable.reapIds ids t).nextConnectionId = t.nextConnectionId ∧
      ∀ key c, (ConnectionTable.reapIds ids t).connections.lookup key = some c →
        t.connections.lookup key = some c := by
  induction ids generalizing t with
  | nil => exact ⟨h, rfl, fun _ _ hc => hc⟩
  | cons id ids ih =>
    have hreaped : ({ t with pendingReapIds := ids }.reapConnection id).Consistent :=
      (h.dropId hids).reapConnection (h.closed id (hids ▸ List.mem_cons_self))
    have hrest : ({ t with pendingReapIds := ids }.reapConnection id).pendingReapIds = ids := by
      unfold ConnectionTable.reapConnection
      split <;> rfl
    obtain ⟨hconsistent, hnext, hlookup⟩ := ih hreaped hrest
    have hone : ({ t with pendingReapIds := ids }.reapConnection id).nextConnectionId =
        t.nextConnectionId ∧ ∀ key c, ({ t with pendingReapIds := ids }.reapConnection id).connections.lookup
          key = some c → t.connections.lookup key = some c := by
      unfold ConnectionTable.reapConnection
      split
      · exact ⟨rfl, fun _ _ hc => hc⟩
      · refine ⟨rfl, fun key c hc => ?_⟩
        rw [Assoc.lookup_erase_eq] at hc
        split_ifs at hc
        exact hc
    exact ⟨hconsistent, hnext.trans hone.1, fun key c hc => hone.2 key c (hlookup key c hc)⟩

namespace Server

/-- Every chunk on its way. -/
def jobs (v : Server) : List Job := v.ready ++ v.completions ++ v.running ++ v.tasks

/-- The chunks of a connection on their way. -/
def pending (v : Server) (id : ℕ) : List Bytes := (v.jobs.filter (·.id = id)).map Job.data

/-- The tables are consistent, and a connection has one chunk on its way exactly if
it is marked. -/
structure Sound (v : Server) : Prop where
  consistent : v.table.Consistent
  keyed : ∀ key c, v.table.connections.lookup key = some c → c.key = key
  single : ∀ id, (v.pending id).length = if id ∈ v.inFlight then 1 else 0
  marked : ∀ id ∈ v.inFlight, id < v.table.nextConnectionId
  known : ∀ id ∈ v.dataReady, id < v.table.nextConnectionId

/-- What can be said when the connection with an id is in the middle of a call. -/
structure HoldsBut (id : ℕ) (I : List Bytes → Served → Prop) (v : Server) : Prop where
  consistent : v.table.Consistent
  keyed : ∀ key c, v.table.connections.lookup key = some c → c.key = key
  single : ∀ id' ≠ id, (v.pending id').length = if id' ∈ v.inFlight then 1 else 0
  marked : ∀ id' ∈ v.inFlight, id' < v.table.nextConnectionId
  known : ∀ id' ∈ v.dataReady, id' < v.table.nextConnectionId
  each : ∀ key c, v.table.connections.lookup key = some c → c.id ≠ id →
    I (v.pending c.id) (v.served c)

/-- Every connection of the table satisfies `I` together with its chunk. -/
structure Holds (I : List Bytes → Served → Prop) (v : Server) : Prop extends v.Sound where
  each : ∀ key c, v.table.connections.lookup key = some c → I (v.pending c.id) (v.served c)

section Holds

variable {I : List Bytes → Served → Prop} {v w : Server} {key : ConnectionKey} {c : Connection}
  {s : Served}

theorem pending_put (v : Server) (key : ConnectionKey) (c : Connection) (s : Served) (id : ℕ) :
    (v.put key c s).pending id = if id = c.id then v.pending id ++ s.submitted else v.pending id := by
  unfold pending
  have hjobs : (v.put key c s).jobs = v.jobs ++ s.submitted.map (Job.mk c.id) :=
    (List.append_assoc ..).symm
  rw [hjobs, List.filter_append, List.map_append]
  split_ifs with hid
  · subst hid
    simp [List.filter_map, Function.comp_def]
  · simp [List.filter_map, Function.comp_def, Ne.symm hid]

theorem lookup_put (key' : ConnectionKey) : (v.put key c s).table.connections.lookup key' =
    if key' = key then some { c with session := s.session } else v.table.connections.lookup key' :=
  Assoc.lookup_insert_eq ..

theorem mem_inFlight_put (id : ℕ) : id ∈ (v.put key c s).inFlight ↔
    if id = c.id then s.inFlight = true else id ∈ v.inFlight := by
  show id ∈ (if s.inFlight then insert c.id v.inFlight else v.inFlight.erase c.id) ↔ _
  split_ifs with hflight hid hid <;> simp_all

theorem mem_dataReady_put (id : ℕ) : id ∈ (v.put key c s).dataReady ↔
    if id = c.id then s.dataReady = true else id ∈ v.dataReady := by
  show id ∈ (if s.dataReady then insert c.id v.dataReady else v.dataReady.erase c.id) ↔ _
  split_ifs with hflight hid hid <;> simp_all

theorem served_put : (v.put key c s).served { c with session := s.session } = { s with submitted := [] } := by
  unfold served
  simp only [mem_inFlight_put, mem_dataReady_put, if_true, Bool.decide_eq_true]

theorem served_put_of_ne {c' : Connection} (hid : c'.id ≠ c.id) : (v.put key c s).served c' = v.served c' := by
  unfold served
  simp only [mem_inFlight_put, mem_dataReady_put, if_neg hid]

theorem Holds.but (h : v.Holds I) (id : ℕ) : v.HoldsBut id I where
  consistent := h.consistent
  keyed := h.keyed
  single id' _ := h.single id'
  marked := h.marked
  known := h.known
  each key c hc _ := h.each key c hc

/-- A connection has run. -/
theorem HoldsBut.put (h : v.HoldsBut c.id I) (hc : v.table.connections.lookup key = some c)
    (hreaches : Reaches c.session s.session.conn s.session.entered) (hsingle : Served.Single (v.pending c.id) s)
    (hI : I (v.pending c.id ++ s.submitted) { s with submitted := [] }) : (v.put key c s).Holds I := by
  have hused : c.id < v.table.nextConnectionId :=
    h.consistent.used c.id key ((h.consistent.inverse c.id key).2 ⟨c, hc, rfl⟩)
  refine ⟨⟨h.consistent.setSession hc hreaches, ?_, ?_, ?_, ?_⟩, ?_⟩
  · intro key' c' hc'
    rw [lookup_put] at hc'
    split_ifs at hc' with hkey
    · cases hc'
      exact (h.keyed key c hc).trans hkey.symm
    · exact h.keyed key' c' hc'
  · intro id
    simp only [pending_put, mem_inFlight_put]
    by_cases hid : id = c.id
    · subst hid
      simp only [if_true]
      exact hsingle
    · simpa only [if_neg hid] using h.single id hid
  · intro id hid
    rw [mem_inFlight_put] at hid
    split_ifs at hid with heq
    · exact heq ▸ hused
    · exact h.marked id hid
  · intro id hid
    rw [mem_dataReady_put] at hid
    split_ifs at hid with heq
    · exact heq ▸ hused
    · exact h.known id hid
  · intro key' c' hc'
    rw [lookup_put] at hc'
    split_ifs at hc' with hkey
    · cases hc'
      rw [served_put, pending_put, if_pos rfl]
      exact hI
    · have hid : c'.id ≠ c.id := fun hid => hkey (h.consistent.key_eq hc' hc hid)
      rw [served_put_of_ne hid, pending_put, if_neg hid]
      exact h.each key' c' hc' hid

theorem Holds.of_table (h : v.Holds I) {t : ConnectionTable} (hconsistent : t.Consistent)
    (hnext : v.table.nextConnectionId ≤ t.nextConnectionId)
    (hlookup : ∀ key c, t.connections.lookup key = some c → v.table.connections.lookup key = some c) :
    ({ v with table := t } : Server).Holds I where
  consistent := hconsistent
  keyed key c hc := h.keyed key c (hlookup key c hc)
  single := h.single
  marked id hid := (h.marked id hid).trans_le hnext
  known id hid := (h.known id hid).trans_le hnext
  each key c hc := h.each key c (hlookup key c hc)

theorem Holds.reap (h : v.Holds I) : ({ v with table := v.table.reapClosedConnections } : Server).Holds I := by
  obtain ⟨hconsistent, hnext, hlookup⟩ := h.consistent.reapIds rfl
  exact h.of_table hconsistent hnext.ge hlookup

theorem Holds.pushAccept (h : v.Holds I) (key : ConnectionKey) :
    ({ v with table := v.table.pushAccept key } : Server).Holds I :=
  h.of_table ⟨h.consistent.inverse, h.consistent.used, h.consistent.pending, h.consistent.closed,
    h.consistent.kept⟩ le_rfl fun _ _ => id

theorem Holds.accept (h : v.Holds I) : ({ v with table := v.table.accept v.port } : Server).Holds I := by
  have hsame : (v.table.accept v.port).connections = v.table.connections ∧
      (v.table.accept v.port).nextConnectionId = v.table.nextConnectionId := by
    obtain heq | ⟨heq, -⟩ | ⟨_, _, _, _, _, _, _, heq⟩ := v.table.accept_cases v.port
    all_goals
      rw [heq]
      exact ⟨rfl, rfl⟩
  exact h.of_table (h.consistent.accept v.port) hsame.2.ge fun key c hc => hsame.1 ▸ hc

/-- A connection is opened. -/
theorem Holds.openConnection (h : v.Holds I) (hfree : v.table.connections.lookup key = none)
    {x : Session} (hI : I [] ⟨x, false, false, []⟩) :
    ({ v with table := v.table.openConnection key x } : Server).Holds I where
  consistent := h.consistent.openConnection hfree
  keyed key' c hc := by
    rw [ConnectionTable.openConnection, Assoc.lookup_insert_eq] at hc
    split_ifs at hc with hkey
    · cases hc
      exact hkey.symm
    · exact h.keyed key' c hc
  single := h.single
  marked id hid := Nat.lt_succ_of_lt (h.marked id hid)
  known id hid := Nat.lt_succ_of_lt (h.known id hid)
  each key' c hc := by
    rw [ConnectionTable.openConnection, Assoc.lookup_insert_eq] at hc
    split_ifs at hc with hkey
    · cases hc
      have hmarked : v.table.nextConnectionId ∉ v.inFlight := fun hid => lt_irrefl _ (h.marked _ hid)
      have hknown : v.table.nextConnectionId ∉ v.dataReady := fun hid => lt_irrefl _ (h.known _ hid)
      have hpending : v.pending v.table.nextConnectionId = [] := by
        rw [← List.length_eq_zero_iff, h.single, if_neg hmarked]
      have hserved : ({ v with table := v.table.openConnection key x } : Server).served
          ⟨v.table.nextConnectionId, key, x⟩ = ⟨x, false, false, []⟩ := by
        simp [served, hmarked, hknown]
      rw [hserved]
      exact hpending ▸ hI
    · exact h.each key' c hc

/-- Chunks move on. -/
theorem Holds.of_perm (h : v.Holds I) (hjobs : w.jobs.Perm v.jobs) (htable : w.table = v.table)
    (hflight : w.inFlight = v.inFlight) (hready : w.dataReady = v.dataReady) : w.Holds I := by
  have hpending (id : ℕ) : w.pending id = v.pending id := by
    have hperm : (w.pending id).Perm (v.pending id) := (hjobs.filter _).map _
    have hlength : (v.pending id).length ≤ 1 := by
      rw [h.single]
      split_ifs <;> omega
    match hv : v.pending id with
    | [] => exact (hv ▸ hperm).eq_nil
    | [chunk] => exact (hv ▸ hperm).eq_singleton
    | _ :: _ :: _ => simp [hv] at hlength
  have hserved (c : Connection) : w.served c = v.served c := by
    rw [served, served, hflight, hready]
  refine ⟨⟨htable ▸ h.consistent, htable ▸ h.keyed, ?_, ?_, ?_⟩, ?_⟩
  · intro id
    rw [hpending, hflight]
    exact h.single id
  · rw [hflight, htable]
    exact h.marked
  · rw [hready, htable]
    exact h.known
  · intro key c hc
    rw [hpending, hserved]
    exact h.each key c (htable ▸ hc)

/-- `drain_and_run` takes the next chunk: it was the only one of its connection. -/
theorem Holds.take_ready (h : v.Holds I) {job : Job} {ready : List Job} (hready : v.ready = job :: ready) :
    ({ v with ready := ready } : Server).HoldsBut job.id I ∧ v.pending job.id = [job.data] ∧
      ({ v with ready := ready } : Server).pending job.id = [] ∧ job.id ∈ v.inFlight := by
  have hpending (id : ℕ) : v.pending id =
      if id = job.id then job.data :: ({ v with ready := ready } : Server).pending id
      else ({ v with ready := ready } : Server).pending id := by
    unfold pending jobs
    rw [hready, List.cons_append, List.cons_append, List.cons_append, List.filter_cons]
    split_ifs with hid heq heq
    · rfl
    · exact absurd (of_decide_eq_true hid).symm heq
    · exact absurd (decide_eq_true heq.symm) hid
    · rfl
  have hsingle := h.single job.id
  rw [hpending, if_pos rfl, List.length_cons] at hsingle
  have hmarked : job.id ∈ v.inFlight := by
    by_contra hnot
    rw [if_neg hnot] at hsingle
    omega
  have hnone : ({ v with ready := ready } : Server).pending job.id = [] := by
    rw [if_pos hmarked] at hsingle
    exact List.length_eq_zero_iff.1 (by omega)
  refine ⟨⟨h.consistent, h.keyed, fun id hid => ?_, h.marked, h.known, fun key c hc hid => ?_⟩,
    ?_, hnone, hmarked⟩
  · have := h.single id
    rwa [hpending, if_neg hid] at this
  · have := h.each key c hc
    rwa [hpending, if_neg hid] at this
  · rw [hpending, if_pos rfl, hnone]

/-- The connection has been reaped: its chunk is dropped. -/
theorem HoldsBut.unmark {id : ℕ} (h : v.HoldsBut id I) (hpending : v.pending id = [])
    (hgone : ∀ key c, v.table.connections.lookup key = some c → c.id ≠ id) :
    ({ v with inFlight := v.inFlight.erase id } : Server).Holds I where
  consistent := h.consistent
  keyed := h.keyed
  single id' := by
    by_cases hid : id' = id
    · subst hid
      show (v.pending id').length = _
      simp [hpending]
    · show (v.pending id').length = _
      simp [h.single id' hid, hid]
  marked id' hid := h.marked id' (Finset.mem_of_mem_erase hid)
  known := h.known
  each key c hc := by
    have hid := hgone key c hc
    have hserved : ({ v with inFlight := v.inFlight.erase id } : Server).served c = v.served c := by
      simp [served, hid]
    rw [hserved]
    exact h.each key c hc hid

end Holds

end Server

/-! ### Runs -/

/-- What a segment, a connection that is accepted and a response find. -/
structure Conditions where
  segment : Tcp → Served → Prop
  accept : Served → Prop
  response : Bytes → Served → Prop

/-- A step meets the conditions in the state it is made in, and no call of the
callback throws. -/
def Conditions.Met (C : Conditions) : ServerStep → Server → Prop
  | .segment key t, v => ∀ c ∈ v.table.connections.lookup key, C.segment t (v.served c)
  | .accept, v => ∀ c ∈ v.nextAccepted, C.accept (v.served c)
  | .complete failing, v => failing = none ∧
    ∀ job ∈ v.ready.head?, ∀ c ∈ v.table.findConnection job.id, C.response job.data (v.served c)
  | _, _ => True

instance (C : Conditions) [∀ t s, Decidable (C.segment t s)] [∀ s, Decidable (C.accept s)]
    [∀ response s, Decidable (C.response response s)] (a : ServerStep) (v : Server) :
    Decidable (C.Met a v) :=
  match a with
  | .segment key t =>
    inferInstanceAs (Decidable (∀ c ∈ v.table.connections.lookup key, C.segment t (v.served c)))
  | .accept => inferInstanceAs (Decidable (∀ c ∈ v.nextAccepted, C.accept (v.served c)))
  | .complete failing =>
    inferInstanceAs (Decidable (failing = none ∧ ∀ job ∈ v.ready.head?,
      ∀ c ∈ v.table.findConnection job.id, C.response job.data (v.served c)))
  | .unreachable _ | .fragmentationNeeded .. | .reap | .timePassed _ | .take | .finish _ | .drain =>
    isTrue trivial

open Served in
/-- What the steps of one connection keep: `I pending v` is about a connection in the
middle of a call, with the chunks that were on their way when it began and those
that it has submitted since. -/
structure ServerRule (C : Conditions) (I : List Bytes → Served → Prop) : Prop where
  opened : ∀ localPort remotePort isn localMss options,
    I [] ⟨(Session.fresh localPort remotePort isn localMss .cubic).acceptIncomingSyn options,
      false, false, []⟩
  segment : ∀ pending v t, C.segment t v → I pending v → I pending (v.onSegment t)
  moves : ∀ pending v w, Moves (fun _ => False) v w → I pending v → I pending w
  accept : ∀ pending v, C.accept v → I pending v → I pending v.setDataReadyCallback
  response : ∀ response v w, C.response response v → v.inFlight = true → v.submitted = [] →
    I [response] v → v.applyResponse none response = some w → I [] w
  submitted : ∀ pending v, I pending v → I (pending ++ v.submitted) { v with submitted := [] }

namespace ServerRule

open Server

variable {C : Conditions} {I : List Bytes → Served → Prop} {v w : Server}

theorem put (rule : ServerRule C I) (h : v.Holds I) {key : ConnectionKey} {c : Connection} {s : Served}
    {m : Served → Prop} {dataReady : Bool} (hc : v.table.connections.lookup key = some c)
    (hmoves : Served.Moves m { v.served c with dataReady := dataReady } s) (hI : I (v.pending c.id) s) :
    (v.put key c s).Holds I := by
  have hsingle : Served.Single (v.pending c.id) { v.served c with dataReady := dataReady } := by
    have := h.single c.id
    simpa [Served.Single, served] using this
  exact (h.but c.id).put hc hmoves.reaches (hsingle.moves hmoves) (rule.submitted _ _ hI)

theorem serve (rule : ServerRule C I) (h : v.Holds I) (key : ConnectionKey) {f : Served → Served}
    (hmoves : ∀ s, Served.Moves (fun _ => False) s (f s)) : (v.serve key f).Holds I := by
  unfold Server.serve
  split
  · exact h
  · next c hc =>
    exact rule.put h hc (hmoves (v.served c)) (rule.moves _ _ _ (hmoves _) (h.each key c hc))

theorem handleTcp (rule : ServerRule C I) (h : v.Holds I) (key : ConnectionKey) (t : Tcp)
    (hok : C.Met (.segment key t) v) : (v.handleTcp key t).Holds I := by
  unfold Server.handleTcp
  split
  · next c hc =>
    have hput := rule.put h hc (Served.onSegment_moves t (v.served c))
      (rule.segment _ _ t (hok c hc) (h.each key c hc))
    unfold deliverSegment
    dsimp only
    split_ifs
    · exact hput.pushAccept key
    · exact hput
  · next hfree =>
    split
    · exact h
    · split_ifs
      · exact h.openConnection hfree (rule.opened ..)
      · exact h

theorem onTimePassed (rule : ServerRule C I) (h : v.Holds I) (elapsedMs : UInt32) :
    (v.onTimePassed elapsedMs).Holds I := by
  have hrun (keys : List ConnectionKey) (v : Server) (h : v.Holds I) :
      (keys.foldl (fun v key => v.serve key (Served.run (Session.onTimePassed elapsedMs))) v).Holds I := by
    induction keys generalizing v with
    | nil => exact h
    | cons key keys ih => exact ih _ (rule.serve h key (Served.onTimePassed_moves elapsedMs))
  exact (hrun _ v h).reap

theorem serve_of_lookup {key : ConnectionKey} {c : Connection} {f : Served → Served}
    (hc : v.table.connections.lookup key = some c) : v.serve key f = v.put key c (f (v.served c)) := by
  unfold Server.serve
  rw [hc]

theorem setDataReadyCallback_moves (s : Served) :
    Served.Moves (fun _ => False) { s with dataReady := true } s.setDataReadyCallback := by
  unfold Served.setDataReadyCallback
  dsimp only
  split_ifs
  · exact .single (.dispatch _ rfl)
  · exact .refl

/-- What `accept` returns is in the table. -/
theorem lookup_of_nextAccepted {c : Connection} (h : v.Sound) (hc : v.nextAccepted = some c) :
    v.table.connections.lookup c.key = some c := by
  unfold nextAccepted at hc
  obtain heq | ⟨heq, -⟩ | ⟨_, key, c', _, _, _, hc', heq⟩ := v.table.accept_cases v.port
  · simp [heq] at hc
  · simp [heq] at hc
  · have hsame : c' = c := by simpa [heq] using hc
    subst hsame
    rw [h.keyed key c' hc']
    exact hc'

theorem handleNewConnection (rule : ServerRule C I) (h : v.Holds I) (hok : C.Met .accept v) :
    v.handleNewConnection.Holds I := by
  unfold Server.handleNewConnection
  dsimp only
  split
  · exact h.accept
  · next c hc =>
    have hlookup : (v.table.accept v.port).connections.lookup c.key = some c := by
      have hsame : (v.table.accept v.port).connections = v.table.connections := by
        obtain heq | ⟨heq, -⟩ | ⟨_, _, _, _, _, _, _, heq⟩ := v.table.accept_cases v.port <;> rw [heq]
      rw [hsame]
      exact lookup_of_nextAccepted h.toSound hc
    rw [serve_of_lookup hlookup]
    exact rule.put h.accept hlookup (setDataReadyCallback_moves _)
      (rule.accept _ _ (hok c hc) (h.accept.each c.key c hlookup))

theorem complete (rule : ServerRule C I) (h : v.Holds I) {failing : Option ℕ}
    (hok : C.Met (.complete failing) v) (hrun : v.complete failing = some w) : w.Holds I := by
  obtain ⟨rfl, hok⟩ := hok
  unfold Server.complete at hrun
  split at hrun
  · cases hrun
  · next job ready hready =>
    obtain ⟨hbut, hjob, hnone, hmarked⟩ := h.take_ready hready
    unfold Server.applyResponse at hrun
    dsimp only at hrun
    split at hrun
    · next hgone =>
      cases hrun
      refine hbut.unmark hnone fun key c hc hid => ?_
      rw [(h.consistent.inverse job.id key).2 ⟨c, hc, hid⟩] at hgone
      cases hgone
    · next key hkey =>
      obtain ⟨c, hc, hid⟩ := (h.consistent.inverse job.id key).1 hkey
      rw [hc] at hrun
      obtain ⟨s, hs, rfl⟩ := Option.map_eq_some_iff.1 hrun
      have hfind : v.table.findConnection job.id = some c := Option.bind_eq_some_iff.2 ⟨key, hkey, hc⟩
      have hresponse : C.response job.data (v.served c) := hok job (by simp [hready]) c hfind
      have hbefore : I [job.data] (v.served c) := by
        have := h.each key c hc
        rwa [hid, hjob] at this
      have hflight : (v.served c).inFlight = true := by simpa [served, hid] using hmarked
      have hI : I [] s := rule.response job.data (v.served c) s hresponse hflight rfl hbefore hs
      have hsingle : Served.Single [] s := by
        obtain ⟨⟨n, x⟩, -, rfl⟩ := Option.map_eq_some_iff.1 hs
        exact Served.Single.tryDispatch rfl
      rw [← hid] at hbut hnone
      refine hbut.put hc (Served.reaches_applyResponse hs) ?_ ?_
      · rw [hnone]
        exact hsingle
      · rw [hnone]
        exact rule.submitted [] s hI

theorem Server.Holds.take (h : v.Holds I) (hrun : v.take = some w) : w.Holds I := by
  unfold Server.take at hrun
  split at hrun
  · cases hrun
  · next job tasks htasks =>
    split_ifs at hrun
    cases hrun
    refine h.of_perm ?_ rfl rfl rfl
    unfold jobs
    rw [htasks]
    simp

theorem Server.Holds.finish {worker : ℕ} (h : v.Holds I) (hrun : v.finish worker = some w) : w.Holds I := by
  unfold Server.finish at hrun
  split at hrun
  · cases hrun
  · next job hjob =>
    cases hrun
    refine h.of_perm ?_ rfl rfl rfl
    obtain ⟨hlt, rfl⟩ := List.getElem?_eq_some_iff.1 hjob
    have hperm := List.getElem_cons_eraseIdx_perm hlt
    unfold jobs
    dsimp only
    refine List.Perm.append_right v.tasks ?_
    simp only [List.append_assoc, List.singleton_append]
    exact (hperm.append_left v.completions).append_left v.ready

theorem Server.Holds.drain (h : v.Holds I) (hready : v.ready = []) : v.drain.Holds I := by
  refine h.of_perm ?_ rfl rfl rfl
  unfold jobs Server.drain
  rw [hready]
  simp

/-- **What the steps of one connection keep, every step of the server keeps.** -/
theorem step (rule : ServerRule C I) (a : ServerStep) (h : v.Holds I) (hok : C.Met a v)
    (hrun : a.run v = some w) : w.Holds I := by
  have hbetween {f : Server → Server} (hf : (f v).Holds I)
      (hrun : ServerStep.betweenDrains v f = some w) : w.Holds I := by
    unfold ServerStep.betweenDrains at hrun
    split_ifs at hrun
    exact Option.some.inj hrun ▸ hf
  cases a with
  | segment key t => exact hbetween (rule.handleTcp h key t hok) hrun
  | unreachable key =>
    exact hbetween (rule.serve h key fun s => .single (.enter s .closed (.inl rfl))) hrun
  | fragmentationNeeded key pathMss =>
    refine hbetween (rule.serve h key fun s => Served.moves_run (watched_modify ?_)) hrun
    unfold reduceEffectiveMss
    dsimp only
    split_ifs <;> rfl
  | reap =>
    exact hbetween (f := fun v => { v with table := v.table.reapClosedConnections }) h.reap hrun
  | accept => exact hbetween (rule.handleNewConnection h hok) hrun
  | timePassed elapsedMs => exact hbetween (rule.onTimePassed h elapsedMs) hrun
  | take => exact Server.Holds.take h hrun
  | finish worker => exact Server.Holds.finish h hrun
  | drain =>
    simp only [ServerStep.run, ServerStep.betweenDrains, Option.ite_none_right_eq_some,
      Option.some.injEq] at hrun
    exact hrun.2 ▸ Server.Holds.drain h hrun.1
  | complete failing => exact rule.complete h hok hrun

theorem holds_new (I : List Bytes → Served → Prop) (port localMss : UInt16) (isn : ℕ → UInt32)
    (workerCount : ℕ) : (Server.new port localMss isn workerCount).Holds I where
  consistent := by
    have h := ConnectionTable.consistent_empty
    exact ⟨h.inverse, h.used, h.pending, h.closed, h.kept⟩
  keyed key c hc := by simp [Server.new, ConnectionTable.listen] at hc
  single id := by simp [Server.new, pending, jobs]
  marked id hid := by simp [Server.new] at hid
  known id hid := by simp [Server.new] at hid
  each key c hc := by simp [Server.new, ConnectionTable.listen] at hc

/-- **The property holds in every state of a run whose steps meet the conditions.** -/
theorem runs (rule : ServerRule C I) {port localMss : UInt16} {isn : ℕ → UInt32} {workerCount : ℕ}
    {steps : List ServerStep}
    (hok : Along ServerStep.run C.Met steps (Server.new port localMss isn workerCount))
    (h : Runs.runs ServerStep.run steps (Server.new port localMss isn workerCount) = some v) : v.Holds I :=
  runs_invariant (fun a _ _ hI hok hrun => rule.step a hI hok hrun)
    (holds_new I port localMss isn workerCount) hok h

end ServerRule

end TcpIpStack
