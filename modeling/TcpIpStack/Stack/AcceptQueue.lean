/-
# What `accept` returns

`accept` returns passive connections of its port that have been established, and
each of them once (`accept_exact`), as long as no connection is opened under a
key that still waits in an accept queue.

The queue holds keys, and reaping a connection does not take its key out.  So a
peer that completes the handshake, resets the connection and opens it again from
the same port has a key in the queue before its second handshake is complete:
`accept` returns the connection half-open, and returns it again once it is
established (`accept_returns_twice`).
-/

import TcpIpStack.Stack.TableConsistency

namespace TcpIpStack

open Runs

/-- A session that began with `SYN_RECEIVED` and has not gone back there. -/
def Session.BeganPassive (x : Session) : Prop :=
  ∃ l, x.entered = .synReceived :: l ∧ .synReceived ∉ l ∧ x.conn.state = l.getLast?.getD .synReceived

section Session

variable {x y : Session}

theorem Session.BeganPassive.reaches (h : x.BeganPassive) (hy : Reaches x y.conn y.entered) :
    y.BeganPassive := by
  obtain ⟨l, hl, hnot, hstate⟩ := h
  obtain ⟨l', hl', hnot', hstate'⟩ := hy
  refine ⟨l ++ l', by rw [hl', hl, List.cons_append], by simp [hnot, hnot'], ?_⟩
  rw [hstate', hstate, List.getLast?_append, Option.getD_or]

/-- In `SYN_RECEIVED` nothing has been established. -/
theorem Session.BeganPassive.not_established (h : x.BeganPassive) (hstate : x.conn.state = .synReceived) :
    TcpState.established ∉ x.entered := by
  obtain ⟨l, hl, hnot, hlast⟩ := h
  cases hl' : l.getLast? with
  | none =>
    rw [List.getLast?_eq_none_iff] at hl'
    simp [hl, hl']
  | some state =>
    rw [hl', Option.getD_some, hstate] at hlast
    exact absurd (hlast ▸ List.mem_of_getLast? hl') hnot

/-- In `ESTABLISHED` it has. -/
theorem Session.BeganPassive.established (h : x.BeganPassive) (hstate : x.conn.state = .established) :
    TcpState.established ∈ x.entered := by
  obtain ⟨l, hl, -, hlast⟩ := h
  rw [hl]
  refine List.mem_cons_of_mem _ ?_
  cases hl' : l.getLast? with
  | none =>
    rw [hl', Option.getD_none, hstate] at hlast
    cases hlast
  | some state =>
    rw [hl', Option.getD_some, hstate] at hlast
    exact hlast ▸ List.mem_of_getLast? hl'

end Session

namespace ConnectionTable

theorem acceptQueue_insert (t : ConnectionTable) (port port' : UInt16) (keys : List ConnectionKey) :
    ({ t with pendingAccepts := t.pendingAccepts.insert port keys } : ConnectionTable).acceptQueue port' =
      if port' = port then keys else t.acceptQueue port' := by
  unfold acceptQueue
  rw [Assoc.lookup_insert_eq]
  split_ifs <;> rfl

/-- Only passive connections are in the table, and the accept queues hold the
keys of those that are established and were not returned yet, and keys that are
not in the table any more. -/
structure Accepting (t : ConnectionTable) : Prop where
  consistent : t.Consistent
  keyed : ∀ key c, t.connections.lookup key = some c → c.key = key ∧ c.session.BeganPassive
  ports : ∀ port, ∀ key ∈ t.acceptQueue port, key.localPort = port
  nodup : ∀ port, (t.acceptQueue port).Nodup
  ready : ∀ port, ∀ key ∈ t.acceptQueue port, ∀ c, t.connections.lookup key = some c →
    c.wasEstablished = true ∧ ∀ r ∈ t.acceptReturns, r.2.id ≠ c.id
  returned : ∀ r ∈ t.acceptReturns,
    r.2.passive = true ∧ r.2.key.localPort = r.1 ∧ r.2.wasEstablished = true
  settled : ∀ r ∈ t.acceptReturns, ∀ key c, t.connections.lookup key = some c → c.id = r.2.id →
    c.wasEstablished = true
  ids : (t.acceptReturns.map fun r => r.2.id).Nodup
  used : ∀ r ∈ t.acceptReturns, r.2.id < t.nextConnectionId

section Changes

variable {t : ConnectionTable} {key : ConnectionKey} {c : Connection} {y : Session}

theorem accepting_empty : Accepting {} where
  consistent := consistent_empty
  keyed key c h := by simp at h
  ports port key h := by simp [acceptQueue] at h
  nodup port := by simp [acceptQueue]
  ready port key h := by simp [acceptQueue] at h
  returned r h := by simp at h
  settled r h := by simp at h
  ids := by simp
  used r h := by simp at h

theorem wasEstablished_of_reaches (hy : Reaches c.session y.conn y.entered)
    (h : c.wasEstablished = true) : ({ c with session := y } : Connection).wasEstablished = true := by
  obtain ⟨l, hl, -, -⟩ := hy
  simp only [Connection.wasEstablished, decide_eq_true_iff] at h ⊢
  exact hl ▸ List.mem_append_left _ h

theorem Accepting.setSession (h : Accepting t) (hc : t.connections.lookup key = some c)
    (hy : Reaches c.session y.conn y.entered) : Accepting (t.setSession key c y) := by
  obtain ⟨hkey, hbegan⟩ := h.keyed key c hc
  refine ⟨h.consistent.setSession hc hy, fun key' c' hc' => ?_, h.ports, h.nodup,
    fun port key' hmem c' hc' => ?_, h.returned, fun r hr key' c' hc' hid => ?_, h.ids, h.used⟩
  · rcases Assoc.lookup_insert_cases hc' with ⟨rfl, rfl⟩ | ⟨-, hc'⟩
    · exact ⟨hkey, hbegan.reaches hy⟩
    · exact h.keyed key' c' hc'
  · rcases Assoc.lookup_insert_cases hc' with ⟨rfl, rfl⟩ | ⟨-, hc'⟩
    · obtain ⟨hest, hunreturned⟩ := h.ready port _ hmem c hc
      exact ⟨wasEstablished_of_reaches hy hest, hunreturned⟩
    · exact h.ready port key' hmem c' hc'
  · rcases Assoc.lookup_insert_cases hc' with ⟨rfl, rfl⟩ | ⟨-, hc'⟩
    · exact wasEstablished_of_reaches hy (h.settled r hr _ c hc hid)
    · exact h.settled r hr key' c' hc' hid

/-- A connection that was in `SYN_RECEIVED` is established, and queued. -/
theorem Accepting.establish (h : Accepting t) (hc : t.connections.lookup key = some c)
    (hy : Reaches c.session y.conn y.entered) (hbefore : c.session.conn.state = .synReceived)
    (hafter : y.conn.state = .established) : Accepting ((t.setSession key c y).pushAccept key) := by
  have hset := h.setSession hc hy
  obtain ⟨-, hbegan⟩ := h.keyed key c hc
  have hyoung : ¬ c.wasEstablished = true := by
    simpa [Connection.wasEstablished] using hbegan.not_established hbefore
  have hqueue (port : UInt16) : ((t.setSession key c y).pushAccept key).acceptQueue port =
      if port = key.localPort then t.acceptQueue key.localPort ++ [key] else t.acceptQueue port :=
    acceptQueue_insert ..
  -- the key was not queued, since the connection was not established
  have hnew : key ∉ t.acceptQueue key.localPort := fun hmem =>
    hyoung (h.ready key.localPort key hmem c hc).1
  refine ⟨⟨hset.consistent.inverse, hset.consistent.used, hset.consistent.pending,
    hset.consistent.closed, hset.consistent.kept⟩, hset.keyed, fun port key' hmem => ?_, fun port => ?_,
    fun port key' hmem c' hc' => ?_, hset.returned, hset.settled, hset.ids, hset.used⟩
  · rw [hqueue] at hmem
    split_ifs at hmem with hport
    · rcases List.mem_append.1 hmem with hmem | hmem
      · exact (h.ports _ key' hmem).trans hport.symm
      · rw [List.mem_singleton.1 hmem, hport]
    · exact h.ports port key' hmem
  · rw [hqueue]
    split_ifs
    · rw [List.nodup_append]
      refine ⟨h.nodup _, List.nodup_singleton _, fun key' hmem key'' hmem'' => ?_⟩
      rw [List.mem_singleton.1 hmem'']
      exact fun heq => hnew (heq ▸ hmem)
    · exact h.nodup port
  · rw [hqueue] at hmem
    have hold (hmem : key' ∈ t.acceptQueue port) := hset.ready port key' hmem c' hc'
    split_ifs at hmem with hport
    · rcases List.mem_append.1 hmem with hmem | hmem
      · exact hold (hport ▸ hmem)
      · obtain rfl := List.mem_singleton.1 hmem
        have hlookup : (t.setSession key' c y).connections.lookup key' = some { c with session := y } :=
          AList.lookup_insert _
        obtain rfl := Option.some.inj (hlookup.symm.trans hc')
        refine ⟨?_, fun r hr hid => hyoung (h.settled r hr key' c hc hid.symm)⟩
        simpa [Connection.wasEstablished] using (hbegan.reaches hy).established hafter
    · exact hold hmem

theorem Accepting.openConnection (h : Accepting t) (hfree : t.connections.lookup key = none)
    (hqueued : key ∉ t.acceptQueue key.localPort) (hentered : y.entered = [.synReceived])
    (hstate : y.conn.state = .synReceived) : Accepting (t.openConnection key y) := by
  refine ⟨h.consistent.openConnection hfree, fun key' c hc => ?_, h.ports, h.nodup,
    fun port key' hmem c hc => ?_, h.returned, fun r hr key' c hc hid => ?_, h.ids,
    fun r hr => Nat.lt_succ_of_lt (h.used r hr)⟩
  · rcases Assoc.lookup_insert_cases hc with ⟨rfl, rfl⟩ | ⟨-, hc⟩
    · exact ⟨rfl, [], hentered, by simp, hstate⟩
    · exact h.keyed key' c hc
  · rcases Assoc.lookup_insert_cases hc with ⟨rfl, -⟩ | ⟨-, hc⟩
    · have hport := h.ports port _ hmem
      subst hport
      exact absurd hmem hqueued
    · exact h.ready port key' hmem c hc
  · rcases Assoc.lookup_insert_cases hc with ⟨-, rfl⟩ | ⟨-, hc⟩
    · have hused := h.used r hr
      rw [← hid] at hused
      exact absurd hused (Nat.lt_irrefl _)
    · exact h.settled r hr key' c hc hid

/-- Connections leave the table. -/
theorem Accepting.of_lookup {t' : ConnectionTable} (h : Accepting t) (hconsistent : t'.Consistent)
    (hconnections : ∀ key c, t'.connections.lookup key = some c → t.connections.lookup key = some c)
    (hqueues : t'.pendingAccepts = t.pendingAccepts) (hreturns : t'.acceptReturns = t.acceptReturns)
    (hids : t.nextConnectionId ≤ t'.nextConnectionId) : Accepting t' := by
  have hqueue (port : UInt16) : t'.acceptQueue port = t.acceptQueue port := by
    rw [acceptQueue, hqueues, acceptQueue]
  refine ⟨hconsistent, fun key c hc => h.keyed key c (hconnections key c hc), ?_, ?_, ?_, ?_, ?_, ?_, ?_⟩
  · simpa only [hqueue] using h.ports
  · simpa only [hqueue] using h.nodup
  · intro port key hmem c hc
    rw [hreturns]
    exact h.ready port key (hqueue port ▸ hmem) c (hconnections key c hc)
  · rw [hreturns]
    exact h.returned
  · rw [hreturns]
    exact fun r hr key c hc => h.settled r hr key c (hconnections key c hc)
  · rw [hreturns]
    exact h.ids
  · rw [hreturns]
    exact fun r hr => (h.used r hr).trans_le hids

theorem lookup_reapConnection {id : ℕ} (h : (t.reapConnection id).connections.lookup key = some c) :
    t.connections.lookup key = some c := by
  unfold reapConnection at h
  split at h
  · exact h
  · exact (Assoc.lookup_of_erase h).2

theorem Accepting.shorten (h : Accepting t) {port : UInt16} {rest : List ConnectionKey}
    (hrest : rest.Sublist (t.acceptQueue port)) :
    Accepting { t with pendingAccepts := t.pendingAccepts.insert port rest } := by
  have hsub (port' : UInt16) : (({ t with pendingAccepts := t.pendingAccepts.insert port rest } :
      ConnectionTable).acceptQueue port').Sublist (t.acceptQueue port') := by
    rw [acceptQueue_insert]
    split_ifs with hport
    · exact hport ▸ hrest
    · exact List.Sublist.refl _
  exact ⟨⟨h.consistent.inverse, h.consistent.used, h.consistent.pending, h.consistent.closed,
    h.consistent.kept⟩, h.keyed, fun port key hmem => h.ports port key ((hsub port).subset hmem),
    fun port => (h.nodup port).sublist (hsub port),
    fun port key hmem => h.ready port key ((hsub port).subset hmem), h.returned, h.settled, h.ids, h.used⟩

theorem Accepting.accept (h : Accepting t) (port : UInt16) : Accepting (t.accept port) := by
  have hconsistent := h.consistent.accept port
  obtain heq | ⟨heq, -⟩ | ⟨skipped, key, c, rest, hqueue, -, hc, heq⟩ := t.accept_cases port
  · rwa [heq]
  · rw [heq]
    exact h.shorten (List.nil_sublist _)
  · rw [heq] at hconsistent ⊢
    have hrest : (key :: rest).Sublist (t.acceptQueue port) := hqueue ▸ List.sublist_append_right ..
    have hmem : key ∈ t.acceptQueue port := hrest.subset List.mem_cons_self
    obtain ⟨hkey, hbegan⟩ := h.keyed key c hc
    obtain ⟨hest, hunreturned⟩ := h.ready port key hmem c hc
    have hshort := h.shorten ((List.sublist_cons_self key rest).trans hrest)
    -- the key is in no queue any more
    have hgone (port' : UInt16) : key ∉ ({ t with pendingAccepts := t.pendingAccepts.insert port rest } :
        ConnectionTable).acceptQueue port' := by
      rw [acceptQueue_insert]
      split_ifs with hport
      · exact (List.nodup_cons.1 ((h.nodup port).sublist hrest)).1
      · exact fun hmem' => hport ((h.ports port' key hmem').symm.trans (h.ports port key hmem))
    refine ⟨hconsistent, h.keyed, hshort.ports, hshort.nodup, fun port' key' hmem' c' hc' => ?_, ?_, ?_, ?_, ?_⟩
    · obtain ⟨hest', hunreturned'⟩ := hshort.ready port' key' hmem' c' hc'
      refine ⟨hest', fun r hr hid => ?_⟩
      rcases List.mem_append.1 hr with hr | hr
      · exact hunreturned' r hr hid
      · rw [List.mem_singleton.1 hr] at hid
        exact hgone port' (h.consistent.key_eq hc hc' hid ▸ hmem')
    · intro r hr
      rcases List.mem_append.1 hr with hr | hr
      · exact h.returned r hr
      · rw [List.mem_singleton.1 hr]
        refine ⟨?_, by rw [hkey, h.ports port key hmem], hest⟩
        obtain ⟨l, hl, -, -⟩ := hbegan
        simp [Connection.passive, hl]
    · intro r hr key' c' hc' hid
      rcases List.mem_append.1 hr with hr | hr
      · exact h.settled r hr key' c' hc' hid
      · rw [List.mem_singleton.1 hr] at hid
        obtain rfl := h.consistent.key_eq hc hc' hid.symm
        rwa [← Option.some.inj (hc.symm.trans hc')]
    · rw [List.map_append, List.nodup_append]
      refine ⟨h.ids, List.nodup_singleton _, fun id hid id' hid' => ?_⟩
      obtain ⟨r, hr, rfl⟩ := List.mem_map.1 hid
      rw [List.mem_singleton.1 hid']
      exact hunreturned r hr
    · intro r hr
      rcases List.mem_append.1 hr with hr | hr
      · exact h.used r hr
      · rw [List.mem_singleton.1 hr]
        exact h.consistent.used c.id key ((h.consistent.inverse c.id key).2 ⟨c, hc, rfl⟩)

/-- **A change that opens no connection under a queued key keeps `accept` exact**,
if no connection is opened actively. -/
theorem Accepting.change {a : Step} {s₀ : NetworkStack} {t' : ConnectionTable} (h : Accepting t)
    (hchange : TableChange a s₀ t t') (ha : ∀ remoteIp remotePort, a ≠ .connect remoteIp remotePort)
    (hqueued : ∀ r ∈ t'.registered, r.key ∉ r.queued) : Accepting t' := by
  have hconsistent := h.consistent.change hchange (.inl ha)
  cases hchange with
  | session key c y hc hy => exact h.setSession hc hy.reaches
  | initiate key c y _ hc hy => exact h.setSession hc hy
  | establish key c y hc hy _ hbefore hafter => exact h.establish hc hy hbefore hafter
  | openPassive key y backlog hnone _ _ hentered hstate =>
    exact h.openConnection hnone (hqueued _ (List.mem_append_right _ List.mem_cons_self)) hentered hstate
  | openActive remoteIp remotePort _ _ hconnect => exact absurd hconnect (ha remoteIp remotePort)
  | skipId => exact h.of_lookup hconsistent (fun _ _ hc => hc) rfl rfl (Nat.le_succ _)
  | returned | listen => exact h.of_lookup hconsistent (fun _ _ hc => hc) rfl rfl le_rfl
  | accept port => exact h.accept port
  | reap id ids hids =>
    refine h.of_lookup hconsistent (fun key c hc => ?_) ?_ ?_ ?_
    · exact lookup_reapConnection (t := { t with pendingReapIds := ids }) hc
    all_goals
      unfold reapConnection
      split <;> rfl

end Changes

end ConnectionTable

/-! ### Runs -/

/-- **`accept` is exact** in every run in which no connection is opened under a
key that waits in an accept queue: what it returns are passive connections of its
port that have been established, and none of them twice. -/
theorem accept_exact {config : InterfaceConfig} {isn : ℕ → UInt32} {steps : List Step} {s : NetworkStack}
    (hsteps : ∀ a ∈ steps, ∀ remoteIp remotePort, a ≠ .connect remoteIp remotePort)
    (h : runs Step.run steps (NetworkStack.new config isn) = some s)
    (hqueued : ∀ r ∈ s.registered, r.key ∉ r.queued) :
    (∀ r ∈ s.acceptReturns,
      r.2.passive = true ∧ r.2.key.localPort = r.1 ∧ r.2.wasEstablished = true) ∧
    (s.acceptReturns.map fun r => r.2.id).Nodup := by
  have haccepting : s.Accepting := by
    refine runs_table (I := fun t => (∀ r ∈ t.registered, r.key ∉ r.queued) → t.Accepting)
      (fun a => ∀ remoteIp remotePort, a ≠ .connect remoteIp remotePort)
      (fun a s₀ t t' ha hchange ht hqueued => ?_) hsteps (fun _ => ConnectionTable.accepting_empty) h hqueued
    exact (ht fun r hr => hqueued r (hchange.registered.subset hr)).change hchange ha hqueued
  exact ⟨haccepting.returned, haccepting.ids⟩

/-- Two connections from two ports of the neighbour. -/
def twoAccepts : List Step :=
  [.listen 80 5, neighbourAsks, neighbourSends 5000 80 flagSyn 7 0, neighbourSends 5001 80 flagSyn 7 0,
    neighbourSends 5000 80 flagAck 8 101, neighbourSends 5001 80 flagAck 8 101, .accept 80, .accept 80]

/-- Both are returned, once. -/
theorem two_accepts_exact :
    ∃ s, runs Step.run twoAccepts host = some s ∧ s.acceptReturns.length = 2 ∧
      (s.acceptReturns.map fun r => r.2.id).Nodup := by
  refine ⟨_, (Option.some_get (by decide +kernel)).symm, by decide +kernel,
    (accept_exact ?_ (Option.some_get _).symm (by decide +kernel)).2⟩
  simp [twoAccepts, neighbourAsks, neighbourSends]

/-- The neighbour completes a handshake, resets the connection, and opens it again
from the same port. -/
def reopened : List Step :=
  [.listen 80 5, neighbourAsks, neighbourSends 5000 80 flagSyn 7 0, neighbourSends 5000 80 flagAck 8 101,
    neighbourSends 5000 80 flagRst 8 0, .reap, neighbourSends 5000 80 flagSyn 7 0, .accept 80,
    neighbourSends 5000 80 flagAck 8 101, .accept 80]

/-- **`accept` returns a half-open connection, and then the same one again.** -/
theorem accept_returns_twice :
    (runs Step.run reopened host).map (fun s =>
      s.acceptReturns.map fun r => (r.1, r.2.id, r.2.wasEstablished)) =
      some [(80, 2, false), (80, 2, true)] := by
  decide +kernel

end TcpIpStack
