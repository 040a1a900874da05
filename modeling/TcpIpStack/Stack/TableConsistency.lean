/-
# The two tables of connections

`_connections` maps keys to connections and `_connections_by_id` maps their ids
back to the keys.  They are inverse to each other as long as no connection is
put under a key that is taken (`connection_table_consistent`): then an id finds
its own connection, and what the application holds stays in the table until it
has closed and been reaped.

`_handle_tcp` opens a connection only under a free key.  `connect` does not look:
the ephemeral port it allocates may be one that a peer has connected to, or one
from before the counter wrapped, and then the connection that was there is
destroyed while its id and the application still refer to it
(`connect_replaces_connection`).
-/

import TcpIpStack.Stack.Changes

namespace TcpIpStack

open Runs

namespace ConnectionTable

/-- The connections that were handed to the application. -/
def HandedOut (t : ConnectionTable) (id : ℕ) : Prop :=
  id ∈ t.connectReturns ∨ ∃ r ∈ t.acceptReturns, r.2.id = id

/-- The connection has closed and been reaped. -/
def Reaped (t : ConnectionTable) (id : ℕ) : Prop :=
  ∃ c ∈ t.reaped, c.id = id ∧ TcpState.closed ∈ c.session.entered

/-- The tables are inverse to each other, and ids are in use only once. -/
structure Consistent (t : ConnectionTable) : Prop where
  inverse : ∀ id key, t.connectionsById.lookup id = some key ↔
    ∃ c, t.connections.lookup key = some c ∧ c.id = id
  used : ∀ id key, t.connectionsById.lookup id = some key → id < t.nextConnectionId
  pending : ∀ id ∈ t.pendingReapIds, id < t.nextConnectionId
  closed : ∀ id ∈ t.pendingReapIds, ∀ key c, t.connections.lookup key = some c → c.id = id →
    TcpState.closed ∈ c.session.entered
  kept : ∀ id, t.HandedOut id → (∃ key, t.connectionsById.lookup id = some key) ∨ t.Reaped id

section Changes

variable {t : ConnectionTable} {key : ConnectionKey} {c : Connection} {y : Session}

theorem consistent_empty : Consistent {} where
  inverse id key := by simp
  used id key h := by simp at h
  pending id h := by simp at h
  closed id h := by simp at h
  kept id h := by
    rcases h with h | ⟨r, h, -⟩ <;> simp at h

theorem Consistent.key_eq (h : Consistent t) {key' : ConnectionKey} {c' : Connection}
    (hc : t.connections.lookup key = some c) (hc' : t.connections.lookup key' = some c')
    (hid : c.id = c'.id) : key = key' := by
  have hkey := (h.inverse c.id key).2 ⟨c, hc, rfl⟩
  have hkey' := (h.inverse c.id key').2 ⟨c', hc', hid.symm⟩
  exact Option.some.inj (hkey.symm.trans hkey')

theorem mem_pendingReapIds_setSession {id : ℕ} (h : id ∈ (t.setSession key c y).pendingReapIds) :
    id ∈ t.pendingReapIds ∨ id = c.id ∧ TcpState.closed ∈ y.entered := by
  rcases List.mem_append.1 h with h | h
  · exact .inl h
  · obtain ⟨state, hstate, rfl⟩ := List.mem_map.1 h
    obtain ⟨hmem, hclosed⟩ := List.mem_filter.1 hstate
    rw [decide_eq_true_iff] at hclosed
    exact .inr ⟨rfl, hclosed ▸ List.mem_of_mem_drop hmem⟩

theorem Consistent.setSession (h : Consistent t) (hc : t.connections.lookup key = some c)
    (hy : Reaches c.session y.conn y.entered) : Consistent (t.setSession key c y) := by
  have hid := (h.inverse c.id key).2 ⟨c, hc, rfl⟩
  refine ⟨fun id key' => ?_, h.used, fun id hmem => ?_, fun id hmem key' c' hc' heq => ?_, h.kept⟩
  · show t.connectionsById.lookup id = some key' ↔ ∃ c', (t.connections.insert key _).lookup key' = _ ∧ _
    rw [h.inverse, Assoc.lookup_insert_eq]
    split_ifs with hkey
    · subst hkey
      simp [hc]
    · rfl
  · rcases mem_pendingReapIds_setSession hmem with hmem | ⟨rfl, -⟩
    · exact h.pending id hmem
    · exact h.used _ key hid
  · rcases Assoc.lookup_insert_cases hc' with ⟨rfl, rfl⟩ | ⟨hkey, hc'⟩
    · rcases mem_pendingReapIds_setSession hmem with hmem | ⟨-, hclosed⟩
      · obtain ⟨l, hl, -, -⟩ := hy
        exact hl ▸ List.mem_append_left _ (h.closed id hmem _ c hc heq)
      · exact hclosed
    · rcases mem_pendingReapIds_setSession hmem with hmem | ⟨rfl, -⟩
      · exact h.closed id hmem key' c' hc' heq
      · exact absurd (h.key_eq hc' hc heq) hkey

theorem Consistent.openConnection (h : Consistent t) (hfree : t.connections.lookup key = none) :
    Consistent (t.openConnection key y) := by
  have hlookup (key' : ConnectionKey) : (t.openConnection key y).connections.lookup key' =
      if key' = key then some ⟨t.nextConnectionId, key, y⟩ else t.connections.lookup key' :=
    Assoc.lookup_insert_eq ..
  have hids (id : ℕ) : (t.openConnection key y).connectionsById.lookup id =
      if id = t.nextConnectionId then some key else t.connectionsById.lookup id :=
    Assoc.lookup_insert_eq ..
  have hnew (key' : ConnectionKey) (c : Connection) (hc : t.connections.lookup key' = some c) :
      c.id < t.nextConnectionId := h.used _ key' ((h.inverse c.id key').2 ⟨c, hc, rfl⟩)
  refine ⟨fun id key' => ?_, fun id key' hid => ?_, fun id hmem => ?_, fun id hmem key' c hc heq => ?_,
    fun id hid => ?_⟩
  · rw [hids, hlookup]
    split_ifs with hid hkey hkey
    · simp [hid, hkey]
    · constructor
      · intro heq
        exact absurd (Option.some.inj heq).symm hkey
      · rintro ⟨c, hc, rfl⟩
        exact absurd (hnew key' c hc) (by omega)
    · subst hkey
      rw [h.inverse, hfree]
      simpa using fun heq => hid heq.symm
    · exact h.inverse id key'
  · rcases Assoc.lookup_insert_cases hid with ⟨rfl, -⟩ | ⟨-, hid⟩
    · exact Nat.lt_succ_self _
    · exact Nat.lt_succ_of_lt (h.used id key' hid)
  · exact Nat.lt_succ_of_lt (h.pending id hmem)
  · rcases Assoc.lookup_insert_cases hc with ⟨-, rfl⟩ | ⟨-, hc⟩
    · exact absurd (h.pending id hmem) (by simp [← heq])
    · exact h.closed id hmem key' c hc heq
  · rcases h.kept id hid with ⟨key', hkey'⟩ | hreaped
    · refine .inl ?_
      rw [hids]
      split_ifs
      · exact ⟨key, rfl⟩
      · exact ⟨key', hkey'⟩
    · exact .inr hreaped

theorem Consistent.dropId (h : Consistent t) {id : ℕ} {ids : List ℕ} (hids : t.pendingReapIds = id :: ids) :
    Consistent { t with pendingReapIds := ids } where
  inverse := h.inverse
  used := h.used
  pending id' hmem := h.pending id' (hids ▸ List.mem_cons_of_mem _ hmem)
  closed id' hmem := h.closed id' (hids ▸ List.mem_cons_of_mem _ hmem)
  kept := h.kept

theorem Consistent.reapConnection (h : Consistent t) {id : ℕ}
    (hclosed : ∀ key c, t.connections.lookup key = some c → c.id = id → TcpState.closed ∈ c.session.entered) :
    Consistent (t.reapConnection id) := by
  unfold ConnectionTable.reapConnection
  split
  · exact h
  · next key hkey =>
    obtain ⟨c, hc, hid⟩ := (h.inverse id key).1 hkey
    refine ⟨fun id' key' => ?_, fun id' key' hid' => ?_, h.pending, fun id' hmem key' c' hc' => ?_,
      fun id' hid' => ?_⟩
    · rw [Assoc.lookup_erase_eq, Assoc.lookup_erase_eq]
      split_ifs with hid' hkey' hkey'
      · simp
      · refine ⟨nofun, ?_⟩
        rintro ⟨c', hc', heq⟩
        exact absurd (h.key_eq hc' hc (by rw [heq, hid', hid])) hkey'
      · subst hkey'
        rw [h.inverse, hc]
        simpa [hid] using fun heq => hid' heq.symm
      · exact h.inverse id' key'
    · exact h.used id' key' (Assoc.lookup_of_erase hid').2
    · exact h.closed id' hmem key' c' (Assoc.lookup_of_erase hc').2
    · rcases h.kept id' hid' with ⟨key', hkey'⟩ | ⟨c', hmem, hc'⟩
      · rw [Assoc.lookup_erase_eq]
        split_ifs with heq
        · subst heq
          refine .inr ⟨c, ?_, hid, hclosed key c hc hid⟩
          simp [hc]
        · exact .inl ⟨key', hkey'⟩
      · exact .inr ⟨c', List.mem_append_left _ hmem, hc'⟩

/-- The loop of `accept`: keys that are not in the table are skipped. -/
theorem popReady_cases (connections : Assoc ConnectionKey Connection) (keys : List ConnectionKey) :
    popReady connections keys = (none, []) ∧ (∀ key ∈ keys, connections.lookup key = none) ∨
      ∃ skipped key c rest, keys = skipped ++ key :: rest ∧
        (∀ key ∈ skipped, connections.lookup key = none) ∧ connections.lookup key = some c ∧
        popReady connections keys = (some c, rest) := by
  induction keys with
  | nil => exact .inl ⟨rfl, by simp⟩
  | cons key keys ih =>
    unfold popReady
    cases hc : connections.lookup key with
    | some c => exact .inr ⟨[], key, c, keys, rfl, by simp, hc, rfl⟩
    | none =>
      rcases ih with ⟨hpop, hall⟩ | ⟨skipped, key', c, rest, rfl, hskipped, hc', hpop⟩
      · exact .inl ⟨hpop, by simpa [hc] using hall⟩
      · exact .inr ⟨key :: skipped, key', c, rest, rfl, by simpa [hc] using hskipped, hc', hpop⟩

/-- What `accept` does: nothing, or the queue runs empty, or a connection of the
table is returned and its key is off the queue.  Only keys that are not in the
table any more are skipped. -/
theorem accept_cases (t : ConnectionTable) (port : UInt16) : t.accept port = t ∨
      t.accept port = { t with pendingAccepts := t.pendingAccepts.insert port [] } ∧
        (∀ key ∈ t.acceptQueue port, t.connections.lookup key = none) ∨
      ∃ skipped key c rest, t.acceptQueue port = skipped ++ key :: rest ∧
        (∀ key ∈ skipped, t.connections.lookup key = none) ∧ t.connections.lookup key = some c ∧
        t.accept port = { t with
          pendingAccepts := t.pendingAccepts.insert port rest
          acceptReturns := t.acceptReturns ++ [(port, c)] } := by
  unfold accept acceptQueue
  split
  · exact .inl rfl
  · next keys hkeys =>
    rw [hkeys, Option.getD_some]
    obtain ⟨hpop, hall⟩ | ⟨skipped, key, c, rest, hsplit, hskipped, hc, hpop⟩ :=
      popReady_cases t.connections keys
    · refine .inr (.inl ⟨?_, hall⟩)
      simp [hpop]
    · refine .inr (.inr ⟨skipped, key, c, rest, hsplit, hskipped, hc, ?_⟩)
      simp [hpop]

theorem Consistent.accept (h : Consistent t) (port : UInt16) : Consistent (t.accept port) := by
  obtain heq | ⟨heq, -⟩ | ⟨skipped, key, c, rest, -, -, hc, heq⟩ := t.accept_cases port
  · rwa [heq]
  · rw [heq]
    exact ⟨h.inverse, h.used, h.pending, h.closed, h.kept⟩
  · rw [heq]
    refine ⟨h.inverse, h.used, h.pending, h.closed, fun id hid => ?_⟩
    rcases hid with hid | ⟨r, hr, rfl⟩
    · exact h.kept id (.inl hid)
    · rcases List.mem_append.1 hr with hr | hr
      · exact h.kept _ (.inr ⟨r, hr, rfl⟩)
      · rw [List.mem_singleton.1 hr]
        exact .inl ⟨key, (h.inverse c.id key).2 ⟨c, hc, rfl⟩⟩

/-- **A change that opens no connection under a taken key keeps the tables
consistent**; only `connect` could. -/
theorem Consistent.change {a : Step} {s₀ : NetworkStack} {t' : ConnectionTable} (h : Consistent t)
    (hchange : TableChange a s₀ t t') (hfree : (∀ remoteIp remotePort, a ≠ .connect remoteIp remotePort) ∨
      ∀ r ∈ t'.registered, r.replaced = none) : Consistent t' := by
  cases hchange with
  | session key c y hc hy => exact h.setSession hc hy.reaches
  | initiate key c y _ hc hy => exact h.setSession hc hy
  | establish key c y hc hy =>
    have hset := h.setSession hc hy
    exact ⟨hset.inverse, hset.used, hset.pending, hset.closed, hset.kept⟩
  | openPassive key y backlog hnone => exact h.openConnection hnone
  | openActive remoteIp remotePort _ _ ha =>
    rcases hfree with hother | hfree
    · exact absurd ha (hother remoteIp remotePort)
    · exact h.openConnection (hfree _ (List.mem_append_right _ List.mem_cons_self))
  | skipId =>
    exact ⟨h.inverse, fun id key hid => Nat.lt_succ_of_lt (h.used id key hid),
      fun id hid => Nat.lt_succ_of_lt (h.pending id hid), h.closed, h.kept⟩
  | returned id key hkey =>
    refine ⟨h.inverse, h.used, h.pending, h.closed, fun id' hid' => ?_⟩
    rcases hid' with hid' | hid'
    · rcases List.mem_append.1 hid' with hid' | hid'
      · exact h.kept id' (.inl hid')
      · exact .inl ⟨key, List.mem_singleton.1 hid' ▸ hkey⟩
    · exact h.kept id' (.inr hid')
  | listen => exact ⟨h.inverse, h.used, h.pending, h.closed, h.kept⟩
  | accept port => exact h.accept port
  | reap id ids hids =>
    exact (h.dropId hids).reapConnection (h.closed id (hids ▸ List.mem_cons_self))

end Changes

end ConnectionTable

/-! ### Runs -/

/-- **The tables of connections stay inverse to each other** in every run in which
no connection is opened under a key that is taken: an id finds its own
connection, and a connection that was handed out is in the table until it has
closed and been reaped. -/
theorem connection_table_consistent {config : InterfaceConfig} {isn : ℕ → UInt32} {steps : List Step}
    {s : NetworkStack} (h : runs Step.run steps (NetworkStack.new config isn) = some s)
    (hfree : ∀ r ∈ s.registered, r.replaced = none) :
    (∀ id key, s.connectionsById.lookup id = some key ↔
      ∃ c, s.connections.lookup key = some c ∧ c.id = id) ∧
    (∀ id c, s.findConnection id = some c → c.id = id) ∧
    ∀ id, s.HandedOut id →
      (∃ key c, s.connections.lookup key = some c ∧ c.id = id) ∨ s.Reaped id := by
  have hconsistent : s.Consistent := by
    refine runs_table (I := fun t => (∀ r ∈ t.registered, r.replaced = none) → t.Consistent)
      (fun _ => True) (fun a s₀ t t' _ hchange ht hfree => ?_) (fun _ _ => trivial)
      (fun _ => ConnectionTable.consistent_empty) h hfree
    exact (ht fun r hr => hfree r (hchange.registered.subset hr)).change hchange (.inr hfree)
  refine ⟨hconsistent.inverse, fun id c hc => ?_, fun id hid => ?_⟩
  · obtain ⟨key, hkey, hlookup⟩ := Option.bind_eq_some_iff.1 hc
    obtain ⟨c', hc', rfl⟩ := (hconsistent.inverse id key).1 hkey
    rw [Option.some.inj (hlookup.symm.trans hc')]
  · rcases hconsistent.kept id hid with ⟨key, hkey⟩ | hreaped
    · exact .inl ⟨key, (hconsistent.inverse id key).1 hkey⟩
    · exact .inr hreaped

/-! ### A host and its neighbour -/

/-- A host at 10.0.0.1. -/
def host : NetworkStack := NetworkStack.new { mac := MacAddress.zero, ip := ⟨0x0A000001⟩ } fun _ => 100

def neighbourIp : IPv4Address := ⟨0x0A000002⟩

def neighbourMac : MacAddress := ⟨[2, 0, 0, 0, 0, 2], rfl⟩

/-- The neighbour asks for the address of the host, and is known from then on. -/
def neighbourAsks : Step :=
  .frame 0 (Ethernet.toBytes ⟨neighbourMac, MacAddress.broadcast, Ethernet.etherTypeArp,
    .arp (Arp.request neighbourMac neighbourIp ⟨0x0A000001⟩)⟩)

/-- A segment from the neighbour to a port of the host. -/
def neighbourSends (srcPort destPort : UInt16) (flags : UInt8) (seq ack : UInt32) : Step :=
  let segment := Tcp.ofFlags srcPort destPort seq ack 5 flags 1000 0 0
  let checksum := transportChecksum neighbourIp ⟨0x0A000001⟩ Ip.protocolTcp segment.toBytes
  .frame 0 (ipFrame neighbourMac MacAddress.zero ⟨0x0A000001⟩ (ipPacket neighbourIp ⟨0x0A000001⟩
    Ip.protocolTcp 0 0 0 { segment with checksum := checksum }.toBytes)).frame.toBytes

/-- The neighbour opens a connection and the host opens another one. -/
def twoConnections : List Step :=
  [.listen 80 5, neighbourAsks, neighbourSends 5000 80 flagSyn 7 0, .connect neighbourIp 5000]

/-- Their tables are consistent. -/
theorem two_connections_consistent :
    ∃ s, runs Step.run twoConnections host = some s ∧ s.registered.length = 2 ∧
      ∀ id key, s.connectionsById.lookup id = some key ↔
        ∃ c, s.connections.lookup key = some c ∧ c.id = id := by
  refine ⟨_, (Option.some_get (by decide +kernel)).symm, by decide +kernel,
    (connection_table_consistent (Option.some_get _).symm fun r hr => ?_).1⟩
  exact Option.isNone_iff_eq_none.1
    ((List.all_eq_true (p := fun r => r.replaced.isNone)).1 (by decide +kernel) r hr)

/-- The neighbour connects to the first ephemeral port, from the port that the
host then connects to. -/
def collidingConnections : List Step :=
  [.listen firstEphemeralPort 5, neighbourAsks, neighbourSends 5000 firstEphemeralPort flagSyn 7 0,
    .connect neighbourIp 5000]

/-- **`connect` replaces a connection**: the id of the first one is still there and
finds the second, and the first has not been reaped. -/
theorem connect_replaces_connection :
    ∃ s, runs Step.run collidingConnections host = some s ∧
      s.connectionsById.lookup 1 = some ⟨neighbourIp, 5000, firstEphemeralPort⟩ ∧
      (s.findConnection 1).map Connection.id = some 2 ∧ s.reaped.length = 0 := by
  refine ⟨(runs Step.run collidingConnections host).get (by decide +kernel),
    (Option.some_get (by decide +kernel)).symm, ?_⟩
  decide +kernel

end TcpIpStack
