/-
# The backlog of a port that listens

A SYN is refused when the accept queue of its port is full, but the queue grows
only when a handshake is complete.  So the connections that are half-open at the
time do not count, and a backlog of one lets two connections be queued
(`backlog_of_one_queues_two`).

If they did count, the backlog would hold (`backlog_holds`).  A connection on the
port that `accept` has not returned is half-open or has its key in the queue,
since establishing it queues the key (`Admitting.queued`); and establishing it
moves it from the half-open ones to the queue (`Admitting.bounded`).
-/

import TcpIpStack.Stack.AcceptQueue

namespace TcpIpStack

open Runs

section Session

variable {x y : Session}

/-- A session that began with a SYN of the peer, and never sent one of its own,
is not in `SYN_SENT`. -/
theorem Session.BeganPassive.ne_synSent (h : x.BeganPassive) (hsent : TcpState.synSent ∉ x.entered) :
    x.conn.state ≠ .synSent := by
  obtain ⟨l, hl, -, hstate⟩ := h
  intro hsynSent
  cases hlast : l.getLast? with
  | none =>
    rw [hlast, Option.getD_none, hsynSent] at hstate
    cases hstate
  | some state =>
    rw [hlast, Option.getD_some, hsynSent] at hstate
    refine hsent ?_
    rw [hl, hstate]
    exact List.mem_cons_of_mem _ (List.mem_of_getLast? hlast)

theorem Continues.established_iff (h : Continues x y.conn y.entered) (hstate : x.conn.state ≠ .synSent) :
    TcpState.established ∈ y.entered ↔ TcpState.established ∈ x.entered := by
  obtain ⟨l, hl, -, -, hest, -⟩ := h
  rw [hl, List.mem_append, or_iff_left]
  exact fun hmem => hstate (hest hmem)

theorem Continues.synSent_iff (h : Continues x y.conn y.entered) :
    TcpState.synSent ∈ y.entered ↔ TcpState.synSent ∈ x.entered := by
  obtain ⟨l, hl, -, hsent, -, -⟩ := h
  rw [hl, List.mem_append, or_iff_left hsent]

end Session

namespace ConnectionTable

/-- A connection that `accept` has returned. -/
def Returned (t : ConnectionTable) (c : Connection) : Prop := ∃ r ∈ t.acceptReturns, r.2.id = c.id

instance (t : ConnectionTable) (c : Connection) : Decidable (t.Returned c) :=
  inferInstanceAs (Decidable (∃ r ∈ t.acceptReturns, r.2.id = c.id))

/-- The connections on a port that a SYN has opened and `accept` has not
returned. -/
def unreturned (t : ConnectionTable) (port : UInt16) : ℕ :=
  t.connections.entries.countP fun e =>
    e.1.localPort = port && e.2.passive && !decide (t.Returned e.2)

/-- What counts as half-open. -/
def isHalfOpen (port : UInt16) (e : (_ : ConnectionKey) × Connection) : Bool :=
  e.1.localPort = port && e.2.passive && !e.2.wasEstablished

theorem halfOpen_eq (t : ConnectionTable) (port : UInt16) :
    t.halfOpen port = t.connections.entries.countP (isHalfOpen port) := rfl

/-- Only passive connections are in the table, those of a port that are half-open
or queued are at most as many as its backlog, and those that are established have
been returned or are queued. -/
structure Admitting (port : UInt16) (backlog : ℕ) (t : ConnectionTable) : Prop where
  passive : ∀ key c, t.connections.lookup key = some c →
    c.session.BeganPassive ∧ TcpState.synSent ∉ c.session.entered
  bounded : (t.acceptQueue port).length + t.halfOpen port ≤ backlog
  queued : ∀ key c, t.connections.lookup key = some c → key.localPort = port →
    c.wasEstablished = true → t.Returned c ∨ key ∈ t.acceptQueue port

section Changes

variable {port : UInt16} {backlog : ℕ} {t : ConnectionTable} {key : ConnectionKey} {c : Connection}
  {y : Session}

theorem admitting_empty : Admitting port backlog {} where
  passive key c h := by simp at h
  bounded := by simp [acceptQueue, halfOpen]
  queued key c h := by simp at h

/-- Both bounds: a connection that is neither returned nor half-open has its key in
the queue, and no two have the same key. -/
theorem Admitting.unreturned_le (h : Admitting port backlog t) : t.unreturned port ≤ backlog := by
  have hqueued : t.connections.entries.countP (fun e => e.1.localPort = port && e.2.wasEstablished &&
      !decide (t.Returned e.2)) ≤ (t.acceptQueue port).length := by
    refine Assoc.countP_le_length _ fun key c hc hcount => ?_
    simp only [Bool.and_eq_true, decide_eq_true_iff, Bool.not_eq_true', decide_eq_false_iff_not] at hcount
    exact (h.queued key c hc hcount.1.1 hcount.1.2).resolve_left hcount.2
  have hsplit : t.unreturned port ≤ t.connections.entries.countP (fun e => e.1.localPort = port &&
      e.2.wasEstablished && !decide (t.Returned e.2)) + t.halfOpen port := by
    refine Assoc.countP_le_add (fun e hcount => ?_) t.connections.entries
    simp only [Bool.and_eq_true, Bool.not_eq_true'] at hcount ⊢
    cases hest : e.2.wasEstablished with
    | true => exact .inl ⟨⟨hcount.1.1, rfl⟩, hcount.2⟩
    | false => exact .inr ⟨hcount.1, rfl⟩
  have hbounded := h.bounded
  omega

theorem passive_of_beganPassive (h : c.session.BeganPassive) : c.passive = true := by
  obtain ⟨l, hl, -, -⟩ := h
  simp [Connection.passive, hl]

/-- A connection runs. -/
theorem Admitting.setSession (h : Admitting port backlog t) (hc : t.connections.lookup key = some c)
    (hy : Continues c.session y.conn y.entered) : Admitting port backlog (t.setSession key c y) := by
  obtain ⟨hbegan, hsent⟩ := h.passive key c hc
  have hest : ({ c with session := y } : Connection).wasEstablished = c.wasEstablished := by
    simp only [Connection.wasEstablished, hy.established_iff (hbegan.ne_synSent hsent)]
  refine ⟨fun key' c' hc' => ?_, ?_, fun key' c' hc' hport hest' => ?_⟩
  · rcases Assoc.lookup_insert_cases hc' with ⟨-, rfl⟩ | ⟨-, hc'⟩
    · exact ⟨hbegan.reaches hy.reaches, fun hmem => hsent (hy.synSent_iff.1 hmem)⟩
    · exact h.passive key' c' hc'
  · have hcount := Assoc.countP_insert_of_lookup (isHalfOpen port) hc { c with session := y }
    have hsame : isHalfOpen port ⟨key, { c with session := y }⟩ = isHalfOpen port ⟨key, c⟩ := by
      simp only [isHalfOpen, hest, passive_of_beganPassive hbegan]
      rw [passive_of_beganPassive (hbegan.reaches hy.reaches)]
    rw [hsame] at hcount
    have hbounded := h.bounded
    rw [halfOpen_eq] at hbounded ⊢
    change (t.acceptQueue port).length +
      (t.connections.insert key { c with session := y }).entries.countP (isHalfOpen port) ≤ backlog
    omega
  · rcases Assoc.lookup_insert_cases hc' with ⟨rfl, rfl⟩ | ⟨-, hc'⟩
    · exact h.queued _ c hc hport (hest ▸ hest')
    · exact h.queued key' c' hc' hport hest'

/-- A handshake is complete: one connection less is half-open, one more queued. -/
theorem Admitting.establish (h : Admitting port backlog t) (hc : t.connections.lookup key = some c)
    (hy : Reaches c.session y.conn y.entered) (hsent : TcpState.synSent ∉ y.entered)
    (hbefore : c.session.conn.state = .synReceived) (hafter : y.conn.state = .established) :
    Admitting port backlog ((t.setSession key c y).pushAccept key) := by
  have hqueue : ((t.setSession key c y).pushAccept key).acceptQueue port =
      if port = key.localPort then t.acceptQueue key.localPort ++ [key] else t.acceptQueue port :=
    acceptQueue_insert ..
  obtain ⟨hbegan, -⟩ := h.passive key c hc
  have hyoung : c.wasEstablished = false := by
    simpa [Connection.wasEstablished] using hbegan.not_established hbefore
  have hest : ({ c with session := y } : Connection).wasEstablished = true := by
    simpa [Connection.wasEstablished] using (hbegan.reaches hy).established hafter
  refine ⟨fun key' c' hc' => ?_, ?_, fun key' c' hc' hport hest' => ?_⟩
  · rcases Assoc.lookup_insert_cases hc' with ⟨-, rfl⟩ | ⟨-, hc'⟩
    · exact ⟨hbegan.reaches hy, hsent⟩
    · exact h.passive key' c' hc'
  · have hcount := Assoc.countP_insert_of_lookup (isHalfOpen port) hc { c with session := y }
    have hbounded := h.bounded
    rw [halfOpen_eq] at hbounded ⊢
    change (ConnectionTable.acceptQueue _ port).length +
      (t.connections.insert key { c with session := y }).entries.countP (isHalfOpen port) ≤ backlog
    simp only [isHalfOpen, hest, hyoung, passive_of_beganPassive hbegan, Bool.not_true, Bool.and_false,
      Bool.not_false, Bool.and_true, decide_eq_true_iff, Bool.false_eq_true, if_false] at hcount
    rw [hqueue]
    by_cases hport : port = key.localPort
    · rw [if_pos hport.symm] at hcount
      rw [if_pos hport, List.length_append, List.length_singleton, ← hport]
      omega
    · rw [if_neg fun heq => hport heq.symm] at hcount
      rw [if_neg hport]
      omega
  · rw [hqueue]
    rcases Assoc.lookup_insert_cases hc' with ⟨rfl, -⟩ | ⟨-, hc'⟩
    · rw [if_pos hport.symm]
      exact .inr (List.mem_append_right _ List.mem_cons_self)
    · refine (h.queued key' c' hc' hport hest').imp id fun hmem => ?_
      split_ifs with hport'
      · exact List.mem_append_left _ (hport' ▸ hmem)
      · exact hmem

/-- A SYN opens a connection, on a port with room for it. -/
theorem Admitting.openConnection (h : Admitting port backlog t) (hfree : t.connections.lookup key = none)
    (hroom : key.localPort = port → (t.acceptQueue port).length + t.halfOpen port < backlog)
    (hentered : y.entered = [.synReceived]) (hstate : y.conn.state = .synReceived) :
    Admitting port backlog (t.openConnection key y) := by
  refine ⟨fun key' c hc => ?_, ?_, fun key' c hc hport hest => ?_⟩
  · rcases Assoc.lookup_insert_cases hc with ⟨-, rfl⟩ | ⟨-, hc⟩
    · exact ⟨⟨[], hentered, by simp, hstate⟩, by simp [hentered]⟩
    · exact h.passive key' c hc
  · have hcount := Assoc.countP_insert_of_lookup_eq_none (isHalfOpen port)
      (v := (⟨t.nextConnectionId, key, y⟩ : Connection)) hfree
    have hbounded := h.bounded
    rw [halfOpen_eq] at hbounded hroom ⊢
    change (t.acceptQueue port).length +
      (t.connections.insert key ⟨t.nextConnectionId, key, y⟩).entries.countP (isHalfOpen port) ≤ backlog
    by_cases hport : key.localPort = port
    · have := hroom hport
      split_ifs at hcount <;> omega
    · have hnot : isHalfOpen port ⟨key, ⟨t.nextConnectionId, key, y⟩⟩ = false := by
        simp [isHalfOpen, hport]
      rw [hnot, if_neg (by simp)] at hcount
      omega
  · rcases Assoc.lookup_insert_cases hc with ⟨-, rfl⟩ | ⟨-, hc⟩
    · simp [Connection.wasEstablished, hentered] at hest
    · exact h.queued key' c hc hport hest

theorem Admitting.of_le {t' : ConnectionTable} (h : Admitting port backlog t)
    (hconnections : ∀ key c, t'.connections.lookup key = some c → t.connections.lookup key = some c)
    (hhalfOpen : t'.halfOpen port ≤ t.halfOpen port) (hqueues : t'.pendingAccepts = t.pendingAccepts)
    (hreturns : t'.acceptReturns = t.acceptReturns) : Admitting port backlog t' := by
  have hqueue : t'.acceptQueue port = t.acceptQueue port := by rw [acceptQueue, hqueues, acceptQueue]
  refine ⟨fun key c hc => h.passive key c (hconnections key c hc), ?_, fun key c hc hport hest => ?_⟩
  · have hbounded := h.bounded
    rw [hqueue]
    omega
  · rw [Returned, hreturns, hqueue]
    exact h.queued key c (hconnections key c hc) hport hest

theorem halfOpen_reapConnection_le (t : ConnectionTable) (id : ℕ) :
    (t.reapConnection id).halfOpen port ≤ t.halfOpen port := by
  unfold reapConnection
  split
  · exact le_rfl
  · exact Assoc.countP_erase_le ..

theorem Admitting.accept (h : Admitting port backlog t) (port' : UInt16) :
    Admitting port backlog (t.accept port') := by
  have hbounded := h.bounded
  obtain heq | ⟨heq, hnone⟩ | ⟨skipped, key, c, rest, hsplit, hskipped, hc, heq⟩ := t.accept_cases port'
  · rwa [heq]
  · rw [heq]
    refine ⟨h.passive, ?_, fun key c hc hport hest => ?_⟩
    · rw [acceptQueue_insert]
      split_ifs
      · exact (Nat.add_le_add_right (Nat.zero_le _) _).trans hbounded
      · exact hbounded
    · rw [acceptQueue_insert]
      refine (h.queued key c hc hport hest).imp id fun hmem => ?_
      rw [if_neg]
      · exact hmem
      · -- every key of the queue that ran empty is out of the table
        rintro rfl
        rw [hnone key hmem] at hc
        cases hc
  · rw [heq]
    have hlength : (t.acceptQueue port').length = skipped.length + (rest.length + 1) := by
      rw [hsplit, List.length_append, List.length_cons]
    refine ⟨h.passive, ?_, fun key' c' hc' hport hest => ?_⟩
    · rw [acceptQueue_insert (t := { t with acceptReturns := t.acceptReturns ++ [(port', c)] })]
      change List.length _ + t.halfOpen port ≤ backlog
      split_ifs with hport
      · rw [hport] at hbounded ⊢
        omega
      · exact hbounded
    · rw [acceptQueue_insert (t := { t with acceptReturns := t.acceptReturns ++ [(port', c)] })]
      rcases h.queued key' c' hc' hport hest with ⟨r, hr, hid⟩ | hmem
      · exact .inl ⟨r, List.mem_append_left _ hr, hid⟩
      · split_ifs with hport'
        · rw [hport', hsplit] at hmem
          rcases List.mem_append.1 hmem with hmem | hmem
          · rw [hskipped key' hmem] at hc'
            cases hc'
          · rcases List.mem_cons.1 hmem with rfl | hmem
            · -- the key that came off the queue: its connection is the one returned
              rw [hc] at hc'
              cases hc'
              exact .inl ⟨(port', c), List.mem_append_right _ List.mem_cons_self, rfl⟩
            · exact .inr hmem
        · exact .inr hmem

/-- **A change that opens connections only where there is room keeps the bound**, if
no connection is opened actively. -/
theorem Admitting.change {a : Step} {s₀ : NetworkStack} {t' : ConnectionTable}
    (h : Admitting port backlog t) (hchange : TableChange a s₀ t t') (ha : ¬ a.Connects)
    (hinitiates : ¬ a.Initiates s₀)
    (hroom : ∀ r ∈ t'.registered, r.key.localPort = port → r.queued.length + r.halfOpen < backlog) :
    Admitting port backlog t' := by
  cases hchange with
  | session key c y hc hy => exact h.setSession hc hy
  | initiate key c y ha' => exact absurd ha' hinitiates
  | establish key c y hc hy hsent hbefore hafter =>
    exact h.establish hc hy (fun hmem => (h.passive key c hc).2 (hsent hmem)) hbefore hafter
  | openPassive key y backlog' hnone _ _ hentered hstate =>
    refine h.openConnection hnone (fun hport => ?_) hentered hstate
    have := hroom _ (List.mem_append_right _ List.mem_cons_self) hport
    exact hport ▸ this
  | openActive remoteIp remotePort _ _ hconnect => exact absurd ⟨remoteIp, remotePort, hconnect⟩ ha
  | skipId | returned | listen => exact h.of_le (fun _ _ hc => hc) le_rfl rfl rfl
  | accept port' => exact h.accept port'
  | reap id ids hids =>
    refine h.of_le (fun key c hc => ?_) (halfOpen_reapConnection_le ..) ?_ ?_
    · exact lookup_reapConnection (t := { t with pendingReapIds := ids }) hc
    all_goals
      unfold reapConnection
      split <;> rfl

end Changes

end ConnectionTable

/-! ### Runs -/

/-- Only `connect` makes a connection wait for a neighbour. -/
theorem Path.connecting {a : Step} {s₀ s s' : NetworkStack} (h : Path a s₀ s s')
    (ha : ¬ a.Connects) (hs' : s'.Connecting) : s.Connecting := by
  induction h with
  | refl => exact hs'
  | tail _ hchange ih =>
    cases hchange with
    | link _ hlink => exact ih (hlink.connecting ha hs')
    | table f => exact ih hs'
    | configure _ _ _ hconnecting => exact ih (hconnecting hs')

theorem not_initiates {a : Step} {s : NetworkStack} (ha : ¬ a.Connects) (hs : ¬ s.Connecting) :
    ¬ a.Initiates s := by
  cases a with
  | frame => exact hs
  | connect remoteIp remotePort => exact fun _ => ha ⟨remoteIp, remotePort, rfl⟩
  | _ => exact id

/-- **The backlog holds** for every port, in every run without `connect` in which
every SYN for the port finds fewer connections queued and half-open than its
backlog: no more connections are queued, and no more wait for `accept`. -/
theorem backlog_holds {config : InterfaceConfig} {isn : ℕ → UInt32} {port : UInt16} {backlog : ℕ}
    {steps : List Step} {s : NetworkStack} (hsteps : ∀ a ∈ steps, ¬ a.Connects)
    (h : runs Step.run steps (NetworkStack.new config isn) = some s)
    (hroom : ∀ r ∈ s.registered, r.key.localPort = port → r.queued.length + r.halfOpen < backlog) :
    (s.acceptQueue port).length ≤ backlog ∧ s.unreturned port ≤ backlog := by
  let I (s : NetworkStack) : Prop := ¬ s.Connecting ∧
    ((∀ r ∈ s.registered, r.key.localPort = port → r.queued.length + r.halfOpen < backlog) →
      s.Admitting port backlog)
  have hstep (a : Step) (s s' : NetworkStack) (hs : I s) (ha : ¬ a.Connects ∧ True)
      (hrun : a.run s = some s') : I s' := by
    obtain ⟨hconnecting, hadmitting⟩ := hs
    have hpath := Step.run_path hrun
    refine ⟨fun h => hconnecting (hpath.connecting ha.1 h), ?_⟩
    refine hpath.table_invariant (I := fun t =>
      (∀ r ∈ t.registered, r.key.localPort = port → r.queued.length + r.halfOpen < backlog) →
        t.Admitting port backlog) (fun t t' hchange ht hroom => ?_) hadmitting
    exact (ht fun r hr => hroom r (hchange.registered.subset hr)).change hchange ha.1
      (not_initiates ha.1 hconnecting) hroom
  have hstart : I (NetworkStack.new config isn) := by
    refine ⟨?_, fun _ => ConnectionTable.admitting_empty⟩
    rintro ⟨interface, hmem, hpending⟩
    obtain rfl := List.mem_singleton.1 hmem
    exact hpending rfl
  have hfinal := runs_invariant (I := I) hstep hstart (Along.and_of_forall along_true hsteps) h
  have hadmitting := hfinal.2 hroom
  exact ⟨(Nat.le_add_right _ _).trans hadmitting.bounded, hadmitting.unreturned_le⟩

/-- A connection is queued, a second one is refused, and is opened once the first
has been returned. -/
def oneAtATime : List Step :=
  [.listen 80 1, neighbourAsks, neighbourSends 5000 80 flagSyn 7 0,
    neighbourSends 5000 80 flagAck 8 101, neighbourSends 5001 80 flagSyn 7 0, .accept 80, neighbourSends 5001 80 flagSyn 7 0]

theorem one_at_a_time_within_backlog :
    ∃ s, runs Step.run oneAtATime host = some s ∧ s.registered.length = 2 ∧
      (s.acceptQueue 80).length ≤ 1 ∧ s.unreturned 80 ≤ 1 := by
  refine ⟨_, (Option.some_get (by decide +kernel)).symm, by decide +kernel,
    backlog_holds ?_ (Option.some_get _).symm (by decide +kernel)⟩
  simp [oneAtATime, neighbourAsks, neighbourSends, Step.Connects]

/-- Two connections are half-open before either is established. -/
def twoHandshakes : List Step :=
  [.listen 80 1, neighbourAsks, neighbourSends 5000 80 flagSyn 7 0, neighbourSends 5001 80 flagSyn 7 0,
    neighbourSends 5000 80 flagAck 8 101, neighbourSends 5001 80 flagAck 8 101]

/-- **With a backlog of one, two connections are queued.** -/
theorem backlog_of_one_queues_two :
    (runs Step.run twoHandshakes host).map (fun s => ((s.acceptQueue 80).length, s.unreturned 80)) =
      some (2, 2) := by
  decide +kernel

end TcpIpStack
