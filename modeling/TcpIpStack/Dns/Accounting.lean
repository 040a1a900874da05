/-
# Callbacks, ports and queries add up

A callback that was passed to `resolve` has been called, waits in a loop that calls
callbacks, or is held by a pending query: the three counts add up to one.  A port has been
released as often as it was taken, less one while a query is pending under it.  The queries
sent for one `resolve`, and those its pending query may still send, are together at most
two for each server and each of the nine names an alias chain can have.

`Balanced` says this about the parts of the state that matter, with one lemma for each way
they change; `balanced_move` goes through the moves.
-/

import TcpIpStack.Dns.Servers

namespace TcpIpStack

/-- The callback is called. -/
def DnsEffect.isCall (callback : ℕ) : DnsEffect → Bool
  | .resolved callback' _ _ => callback' = callback
  | _ => false

/-- A query is entered under the port. -/
def DnsEffect.isTake (port : UInt16) : DnsEffect → Bool
  | .take port' => port' = port
  | _ => false

/-- The port of a query is given up. -/
def DnsEffect.isRelease (port : UInt16) : DnsEffect → Bool
  | .release port' => port' = port
  | _ => false

/-- A query goes out that the `resolve` call number `opener` opened. -/
def DnsEffect.isSendFor (opener : ℕ) : DnsEffect → Bool
  | .send _ _ _ opener' => opener' = opener
  | _ => false

/-- The callback is still to be called. -/
def DnsWork.owes (callback : ℕ) : DnsWork → Bool
  | .callback callback' _ _ => callback' = callback
  | _ => false

namespace DnsResolver

open DnsEffect DnsWork
open TcpConnection (asInt)

/-- How often an entry holds a callback. -/
def holds (callback : ℕ) (entry : UInt16 × PendingQuery) : ℕ := entry.2.callbacks.count callback

/-- Whether an entry stands under a port. -/
def under (port : UInt16) (entry : UInt16 × PendingQuery) : ℕ := if entry.1 = port then 1 else 0

/-- What a query may still send: two for each server and each name of the chain. -/
def remaining (servers : ℕ) (query : PendingQuery) : ℕ :=
  2 * servers * (maxCnameDepth + 1 - query.cnameDepth) - (2 * query.serverIndex + query.attempts)

/-- What an entry may still send for a call of `resolve`. -/
def remainingFor (servers opener : ℕ) (entry : UInt16 × PendingQuery) : ℕ :=
  if entry.2.opener = opener then remaining servers entry.2 else 0

/-- An entry under its own port, within its limits. -/
structure Proper (servers : ℕ) (entry : UInt16 × PendingQuery) : Prop where
  port : entry.2.sourcePort = entry.1
  server : entry.2.serverIndex < servers
  attempts : entry.2.attempts ≤ attemptsPerServer
  depth : entry.2.cnameDepth ≤ maxCnameDepth

/-- The books are balanced. -/
structure Balanced (servers : ℕ) (effects : List DnsEffect) (agenda : List DnsWork)
    (pending : OrderedMap UInt16 PendingQuery) (resolves : ℕ) : Prop where
  callbacks : ∀ callback, effects.countP (isCall callback) + agenda.countP (owes callback) +
    pending.total (holds callback) = if callback < resolves then 1 else 0
  ports : ∀ port, effects.countP (isTake port) =
    effects.countP (isRelease port) + pending.total (under port)
  budget : ∀ opener, effects.countP (isSendFor opener) +
    pending.total (remainingFor servers opener) ≤ if opener < resolves then 18 * servers else 0
  proper : ∀ entry ∈ pending.entries, Proper servers entry

section Sent

variable {query : PendingQuery} {sent : List DnsEffect} (h : Sent query sent)
include h

theorem Sent.countP_isCall (callback : ℕ) : sent.countP (isCall callback) = 0 := by
  rcases h with rfl | ⟨_, _, rfl⟩ <;> rfl

theorem Sent.countP_isTake (port : UInt16) : sent.countP (isTake port) = 0 := by
  rcases h with rfl | ⟨_, _, rfl⟩ <;> rfl

theorem Sent.countP_isRelease (port : UInt16) : sent.countP (isRelease port) = 0 := by
  rcases h with rfl | ⟨_, _, rfl⟩ <;> rfl

theorem Sent.countP_isSendFor (opener : ℕ) :
    sent.countP (isSendFor opener) ≤ if query.opener = opener then 1 else 0 := by
  rcases h with rfl | ⟨_, _, rfl⟩
  · exact Nat.zero_le _
  · simp [isSendFor]

end Sent

/-! ### What a query may still send -/

theorem chain_succ (servers : ℕ) {depth : ℕ} (h : depth ≤ 8) :
    2 * servers * (8 + 1 - depth) = 2 * servers * (8 - depth) + 2 * servers := by
  rw [Nat.succ_sub h, Nat.mul_succ]

theorem remaining_retried {servers : List IPv4Address} {port : UInt16} {query query' : PendingQuery}
    (hproper : Proper servers.length (port, query)) (hretried : Retried servers query query') :
    remaining servers.length (sentOnce query') + 1 ≤ remaining servers.length query := by
  obtain ⟨-, hserver, hattempts, hdepth⟩ := hproper
  dsimp only [Retried, attemptsPerServer, maxCnameDepth] at *
  have hsplit := chain_succ servers.length hdepth
  rcases hretried with ⟨rfl, hmore⟩ | ⟨rfl, hnext⟩ <;>
    simp only [remaining, sentOnce, maxCnameDepth, hsplit] <;> omega

theorem remaining_alias {servers : ℕ} {port : UInt16} {query query' : PendingQuery}
    (hproper : Proper servers (port, query)) (hdepth : query.cnameDepth < maxCnameDepth)
    (hindex : query'.serverIndex = 0) (hattempts : query'.attempts = 0)
    (hdepth' : query'.cnameDepth = query.cnameDepth + 1) :
    remaining servers (sentOnce query') + 1 ≤ remaining servers query := by
  obtain ⟨-, hserver, hattempts₀, -⟩ := hproper
  dsimp only [attemptsPerServer, maxCnameDepth] at *
  have hsplit := chain_succ servers hdepth.le
  have hpos : 2 * servers ≤ 2 * servers * (8 - query.cnameDepth) :=
    Nat.le_mul_of_pos_right _ (by omega)
  simp only [remaining, sentOnce, maxCnameDepth, hindex, hattempts, hdepth', hsplit,
    show 8 + 1 - (query.cnameDepth + 1) = 8 - query.cnameDepth by omega]
  omega

/-! ### The ways the books change -/

section Changes

variable {servers resolves : ℕ} {effects sent : List DnsEffect} {agenda : List DnsWork}
  {pending : OrderedMap UInt16 PendingQuery} {port : UInt16} {query query' : PendingQuery}
  (h : Balanced servers effects agenda pending resolves)
include h

theorem Balanced.idle {agenda' : List DnsWork}
    (hagenda : ∀ callback, agenda'.countP (owes callback) = agenda.countP (owes callback)) :
    Balanced servers effects agenda' pending resolves :=
  ⟨fun callback => by rw [hagenda, h.callbacks], h.ports, h.budget, h.proper⟩

theorem Balanced.call {callback : ℕ} {name : Bytes} {addresses : List IPv4Address}
    {rest : List DnsWork} (hagenda : agenda = .callback callback name addresses :: rest) :
    Balanced servers (effects ++ [.resolved callback name addresses]) (.inside :: rest) pending
      resolves := by
  subst hagenda
  refine ⟨fun c => ?_, fun p => ?_, fun o => ?_, h.proper⟩
  · rw [← h.callbacks c, List.countP_append, List.countP_cons, List.countP_cons, List.countP_cons,
      List.countP_nil]
    simp only [isCall, owes, decide_eq_true_eq, Bool.false_eq_true, if_false]
    omega
  · simpa [isTake, isRelease] using h.ports p
  · simpa [isSendFor] using h.budget o

theorem Balanced.answer (name : Bytes) (addresses : List IPv4Address) :
    Balanced servers effects (.callback resolves name addresses :: agenda) pending (resolves + 1) := by
  refine ⟨fun c => ?_, h.ports, fun o => ?_, h.proper⟩
  · have hc := h.callbacks c
    rw [List.countP_cons]
    simp only [owes, decide_eq_true_eq]
    split_ifs at * <;> omega
  · have ho := h.budget o
    split_ifs at * <;> omega

/-- A name joins a query. -/
theorem Balanced.join (hfind : pending.find? port = some query) : Balanced servers effects agenda
      (pending.insert port { query with callbacks := query.callbacks ++ [resolves] })
      (resolves + 1) := by
  refine ⟨fun c => ?_, fun p => ?_, fun o => ?_, fun entry hentry => ?_⟩
  · have hc := h.callbacks c
    rw [OrderedMap.total_of_find? hfind] at hc
    rw [OrderedMap.total_insert]
    simp only [holds, List.count_append, List.count_singleton, beq_iff_eq] at *
    split_ifs at * <;> omega
  · rw [OrderedMap.total_insert, h.ports p, OrderedMap.total_of_find? hfind]
    rfl
  · have ho := h.budget o
    rw [OrderedMap.total_of_find? hfind] at ho
    rw [OrderedMap.total_insert]
    have hsame : remainingFor servers o
        (port, { query with callbacks := query.callbacks ++ [resolves] }) =
        remainingFor servers o (port, query) := rfl
    rw [hsame]
    split_ifs at * <;> omega
  · rcases OrderedMap.mem_insert hentry with rfl | hentry
    · obtain ⟨hport, hserver, hattempts, hdepth⟩ := h.proper _ (OrderedMap.mem_of_find? hfind)
      exact ⟨hport, hserver, hattempts, hdepth⟩
    · exact h.proper entry hentry

/-- A query is sent again. -/
theorem Balanced.resend (hfind : pending.find? port = some query) (hsent : Sent query' sent)
    (hcallbacks : query'.callbacks = query.callbacks) (hopener : query'.opener = query.opener)
    (hproper : Proper servers (port, query'))
    (hremaining : remaining servers query' + 1 ≤ remaining servers query) :
    Balanced servers (effects ++ sent) agenda (pending.insert port query') resolves := by
  refine ⟨fun c => ?_, fun p => ?_, fun o => ?_, fun entry hentry => ?_⟩
  · rw [← h.callbacks c, List.countP_append, hsent.countP_isCall, OrderedMap.total_insert,
      OrderedMap.total_of_find? hfind]
    simp only [holds, hcallbacks, Nat.add_zero]
  · rw [List.countP_append, List.countP_append, hsent.countP_isTake, hsent.countP_isRelease,
      OrderedMap.total_insert, Nat.add_zero, Nat.add_zero, h.ports p, OrderedMap.total_of_find? hfind]
    rfl
  · have ho := h.budget o
    have hcount := hsent.countP_isSendFor o
    rw [OrderedMap.total_of_find? hfind] at ho
    rw [List.countP_append, OrderedMap.total_insert]
    simp only [remainingFor, hopener] at *
    split_ifs at * <;> omega
  · rcases OrderedMap.mem_insert hentry with rfl | hentry
    · exact hproper
    · exact h.proper entry hentry

/-- A query is over: its port is released, and its callbacks are owed. -/
theorem Balanced.retire (hfind : pending.find? port = some query) (name : Bytes)
    (addresses : List IPv4Address) : Balanced servers (effects ++ [.release port])
      (query.callbacks.map (.callback · name addresses) ++ agenda) (pending.erase port) resolves := by
  refine ⟨fun c => ?_, fun p => ?_, fun o => ?_, fun entry hentry => ?_⟩
  · have howed : (query.callbacks.map (DnsWork.callback · name addresses)).countP (owes c) =
        query.callbacks.count c := by
      rw [List.countP_map]
      exact List.countP_congr fun callback _ => by simp [owes]
    rw [← h.callbacks c, OrderedMap.total_of_find? hfind, List.countP_append, List.countP_append,
      howed]
    simp only [holds, isCall, List.countP_singleton, Bool.false_eq_true, if_false]
    omega
  · have hp := h.ports p
    rw [OrderedMap.total_of_find? hfind] at hp
    rw [List.countP_append, List.countP_append]
    simp only [under, isTake, isRelease, List.countP_singleton, decide_eq_true_eq, Bool.false_eq_true,
      if_false] at *
    omega
  · have ho := h.budget o
    rw [OrderedMap.total_of_find? hfind] at ho
    rw [List.countP_append]
    simp only [isSendFor, List.countP_singleton, Bool.false_eq_true, if_false]
    omega
  · exact h.proper entry (OrderedMap.mem_erase hentry)

/-- A query is opened for a new name. -/
theorem Balanced.start (hfree : pending.find? port = none) (hsent : Sent query sent)
    (hcallbacks : query.callbacks = [resolves]) (hopener : query.opener = resolves)
    (hproper : Proper servers (port, query)) (hremaining : remaining servers query + 1 ≤ 18 * servers) :
    Balanced servers (effects ++ .take port :: sent) agenda (pending.insert port query)
      (resolves + 1) := by
  refine ⟨fun c => ?_, fun p => ?_, fun o => ?_, fun entry hentry => ?_⟩
  · have hc := h.callbacks c
    rw [List.countP_append, List.countP_cons, hsent.countP_isCall, OrderedMap.total_insert,
      OrderedMap.erase_eq_self hfree]
    simp only [holds, hcallbacks, List.count_singleton, beq_iff_eq, isCall, Bool.false_eq_true,
      if_false] at *
    split_ifs at * <;> omega
  · have hp := h.ports p
    rw [List.countP_append, List.countP_append, List.countP_cons, List.countP_cons,
      hsent.countP_isTake, hsent.countP_isRelease, OrderedMap.total_insert,
      OrderedMap.erase_eq_self hfree]
    simp only [under, isTake, isRelease, decide_eq_true_eq, Bool.false_eq_true, if_false] at *
    omega
  · have ho := h.budget o
    have hcount := hsent.countP_isSendFor o
    rw [List.countP_append, List.countP_cons, OrderedMap.total_insert,
      OrderedMap.erase_eq_self hfree]
    simp only [remainingFor, hopener, isSendFor, Bool.false_eq_true, if_false] at *
    split_ifs at * <;> omega
  · rcases OrderedMap.mem_insert hentry with rfl | hentry
    · exact hproper
    · exact h.proper entry hentry

/-- A query is replaced by one for its alias, under another port. -/
theorem Balanced.chase {port' : UInt16} (hfind : pending.find? port = some query)
    (hfree : (pending.erase port).find? port' = none) (hsent : Sent query' sent)
    (hcallbacks : query'.callbacks = query.callbacks) (hopener : query'.opener = query.opener)
    (hproper : Proper servers (port', query'))
    (hremaining : remaining servers query' + 1 ≤ remaining servers query) :
    Balanced servers (effects ++ [.release port] ++ .take port' :: sent) agenda
      ((pending.erase port).insert port' query') resolves := by
  refine ⟨fun c => ?_, fun p => ?_, fun o => ?_, fun entry hentry => ?_⟩
  · rw [← h.callbacks c, OrderedMap.total_insert, OrderedMap.erase_eq_self hfree,
      OrderedMap.total_of_find? hfind]
    simp only [List.countP_append, List.countP_cons, List.countP_nil, hsent.countP_isCall, holds,
      hcallbacks, isCall, Bool.false_eq_true, if_false, Nat.add_zero]
  · have hp := h.ports p
    rw [OrderedMap.total_of_find? hfind] at hp
    simp only [List.countP_append, List.countP_cons, List.countP_nil, hsent.countP_isTake,
      hsent.countP_isRelease, OrderedMap.total_insert, OrderedMap.erase_eq_self hfree, under, isTake, isRelease,
      decide_eq_true_eq, Bool.false_eq_true, if_false] at *
    omega
  · have ho := h.budget o
    have hcount := hsent.countP_isSendFor o
    rw [OrderedMap.total_of_find? hfind] at ho
    simp only [List.countP_append, List.countP_cons, List.countP_nil, OrderedMap.total_insert,
      OrderedMap.erase_eq_self hfree, remainingFor, hopener, isSendFor, Bool.false_eq_true, if_false] at *
    split_ifs at * <;> omega
  · rcases OrderedMap.mem_insert hentry with rfl | hentry
    · exact hproper
    · exact h.proper entry (OrderedMap.mem_erase hentry)

theorem Balanced.age {g : PendingQuery → PendingQuery}
    (hsame : ∀ q, (g q).callbacks = q.callbacks ∧ (g q).opener = q.opener ∧
      (g q).sourcePort = q.sourcePort ∧ (g q).serverIndex = q.serverIndex ∧
      (g q).attempts = q.attempts ∧ (g q).cnameDepth = q.cnameDepth) :
    Balanced servers effects agenda (pending.mapValues g) resolves := by
  refine ⟨fun c => ?_, fun p => ?_, fun o => ?_, fun entry hentry => ?_⟩
  · rw [OrderedMap.total_mapValues (fun e => by simp only [holds, hsame]), h.callbacks c]
  · rw [OrderedMap.total_mapValues (fun e => rfl), h.ports p]
  · rw [OrderedMap.total_mapValues (fun e => by simp only [remainingFor, remaining, hsame])]
    exact h.budget o
  · obtain ⟨before, hbefore, rfl⟩ := List.mem_map.1 hentry
    obtain ⟨hport, hserver, hattempts, hdepth⟩ := h.proper before hbefore
    obtain ⟨-, -, hport', hserver', hattempts', hdepth'⟩ := hsame before.2
    exact ⟨hport'.trans hport, hserver'.symm ▸ hserver, hattempts'.symm ▸ hattempts,
      hdepth'.symm ▸ hdepth⟩

end Changes

/-! ### Runs -/

variable {r t : DnsResolver}

/-- The books of a resolver are balanced. -/
def Balances (r : DnsResolver) : Prop :=
  Balanced r.servers.length r.effects r.agenda r.pending r.resolves

theorem balances_new (seed : UInt32) (servers : List IPv4Address) : Balances (new seed servers) :=
  ⟨fun _ => rfl, fun _ => rfl, fun _ => Nat.zero_le _, fun _ h => (nomatch h)⟩

theorem Idle.countP_owes {rest : List DnsWork} (h : Idle r rest) (callback : ℕ) :
    rest.countP (owes callback) = r.agenda.countP (owes callback) := by
  rcases h with rfl | h | ⟨port, h⟩
  · rfl
  · rw [h, List.countP_cons_of_neg (by simp [owes])]
  · rw [h, List.countP_cons_of_neg (by simp [owes])]

theorem proper_sentOnce {servers : ℕ} {port : UInt16} {query : PendingQuery}
    (hport : query.sourcePort = port) (hserver : query.serverIndex < servers)
    (hattempts : query.attempts < attemptsPerServer) (hdepth : query.cnameDepth ≤ maxCnameDepth) :
    Proper servers (port, sentOnce query) :=
  ⟨hport, hserver, hattempts, hdepth⟩

theorem not_threw {effects : List DnsEffect} {portEntropy idEntropy : UInt32} {agenda : List DnsWork}
    (h : .threw ∉ t.effects) : t ≠ { r with
      idEntropy := idEntropy
      portEntropy := portEntropy
      effects := effects ++ [.threw]
      agenda := agenda } := by
  rintro rfl
  exact h (List.mem_append_right _ (List.mem_singleton_self _))

/-- What one move does to the books, if it finds a port when it needs one. -/
theorem balances_move (h : Balances r) (hmove : DnsMove r t) (hport : .threw ∉ t.effects) : Balances t := by
  cases hmove with
  | quiet hidle => exact h.idle hidle.countP_owes
  | answered name addresses => exact h.answer name addresses
  | joined hfind => exact h.join hfind
  | opened name caught idEntropy hservers hfresh =>
    obtain ⟨port, sent, outOfRange, hdraw, hsent, heq⟩ :=
      (enterQuery_cases ..).resolve_left (not_threw hport)
    have hpos : 0 < r.servers.length := List.length_pos_iff.2 hservers
    rw [heq]
    refine h.start (hfresh port hdraw) hsent rfl rfl
      (proper_sentOnce rfl hpos Nat.two_pos (Nat.zero_le _)) ?_
    simp only [remaining, sentOnce, newQuery, maxCnameDepth]
    omega
  | @resent rest port query query' hidle hfind hretried =>
    have hproper := h.proper _ (OrderedMap.mem_of_find? hfind)
    have hremaining := remaining_retried hproper hretried
    rcases hretried with ⟨rfl, hattempts⟩ | ⟨rfl, hnext⟩
    · obtain ⟨sent, outOfRange, hsent, heq⟩ := sendQuery_cases { r with agenda := rest } port query'
      rw [heq]
      exact (h.idle hidle.countP_owes).resend hfind hsent rfl rfl
        (proper_sentOnce hproper.port hproper.server hattempts hproper.depth) hremaining
    · obtain ⟨sent, outOfRange, hsent, heq⟩ := sendQuery_cases { r with agenda := rest } port
        { query with serverIndex := query.serverIndex + 1, attempts := 0 }
      rw [heq]
      exact (h.idle hidle.countP_owes).resend hfind hsent rfl rfl
        (proper_sentOnce hproper.port hnext Nat.two_pos hproper.depth) hremaining
  | @finished rest port query cache addresses hidle hfind =>
    have hproper := h.proper _ (OrderedMap.mem_of_find? hfind)
    have hretire := (h.idle hidle.countP_owes).retire hfind query.name addresses
    unfold finish
    rw [hproper.port]
    exact hretire
  | chased name idEntropy hfind hdepth hfresh =>
    have hproper := h.proper _ (OrderedMap.mem_of_find? hfind)
    have hservers : r.servers ≠ [] := List.length_pos_iff.1 (Nat.zero_lt_of_lt hproper.server)
    obtain ⟨port, sent, outOfRange, hdraw, hsent, heq⟩ :=
      (enterQuery_cases ..).resolve_left (not_threw hport)
    have hpos : 0 < r.servers.length := List.length_pos_iff.2 hservers
    rw [heq]
    exact h.chase hfind (hfresh port hdraw) hsent rfl rfl
      (proper_sentOnce rfl hpos Nat.two_pos hdepth) (remaining_alias hproper hdepth rfl rfl rfl)
  | aged elapsedMs =>
    have haged := h.age (g := fun query =>
      { query with timeoutMsRemaining := query.timeoutMsRemaining - asInt elapsedMs })
      fun _ => ⟨rfl, rfl, rfl, rfl, rfl, rfl⟩
    refine haged.idle fun callback => ?_
    rw [onTimePassed, List.countP_append, List.countP_eq_zero.2, Nat.zero_add]
    intro work hwork
    obtain ⟨port, -, rfl⟩ := List.mem_map.1 hwork
    simp [owes]
  | called hagenda => exact h.call hagenda
  | strayed hfind hindex => exact h

/-- What is done outside stays done, and the server list stays. -/
def Extends (r t : DnsResolver) : Prop := r.effects <+: t.effects ∧ t.servers = r.servers

theorem extends_sendQuery (h : Extends r t) (port : UInt16) (query : PendingQuery) :
    Extends r (t.sendQuery port query) := by
  obtain ⟨sent, outOfRange, -, heq⟩ := t.sendQuery_cases port query
  rw [heq]
  exact ⟨h.1.trans (List.prefix_append _ _), h.2⟩

theorem extends_enterQuery (h : Extends r t) (name : Bytes) (depth : ℕ) (callbacks : List ℕ)
    (opener : ℕ) (caught : Bool) (idEntropy : UInt32) (draw : UInt32 × Option UInt16) :
    Extends r (t.enterQuery name depth callbacks opener caught idEntropy draw) := by
  rcases t.enterQuery_cases name depth callbacks opener caught idEntropy draw with
    heq | ⟨port, sent, outOfRange, -, -, heq⟩ <;> rw [heq] <;>
    exact ⟨h.1.trans (List.prefix_append _ _), h.2⟩

theorem extends_move (hmove : DnsMove r t) : Extends r t := by
  cases hmove with
  | opened =>
    apply extends_enterQuery
    exact ⟨List.prefix_rfl, rfl⟩
  | resent =>
    apply extends_sendQuery
    exact ⟨List.prefix_rfl, rfl⟩
  | chased =>
    apply extends_enterQuery
    exact ⟨List.prefix_append _ _, rfl⟩
  | finished => exact ⟨List.prefix_append _ _, rfl⟩
  | called => exact ⟨List.prefix_append _ _, rfl⟩
  | _ => exact ⟨List.prefix_rfl, rfl⟩

theorem balances_runs {servers : List IPv4Address} {steps : List DnsStep}
    (hsteps : ∀ step ∈ steps, KeepsList step) (hr : r.servers = servers) (h : Balances r)
    (ht : Runs.runs DnsStep.run steps r = some t) (hport : .threw ∉ t.effects) :
    t.servers = servers ∧ Balances t := by
  suffices hall : t.servers = servers ∧ (.threw ∉ t.effects → Balances t) from ⟨hall.1, hall.2 hport⟩
  refine Runs.runs_invariant
    (I := fun t => t.servers = servers ∧ (.threw ∉ t.effects → Balances t)) ?_ ⟨hr, fun _ => h⟩
    (Runs.along_true.and_of_forall hsteps) ht
  rintro step s t ⟨hservers, hs⟩ ⟨hstep, -⟩ hrun
  have hmove := move_of_keepsList hstep hrun
  obtain ⟨heffects, hsame⟩ := extends_move hmove
  refine ⟨hsame.trans hservers, fun hnone => balances_move (hs fun hthrew => ?_) hmove hnone⟩
  exact hnone (heffects.subset hthrew)

/-- The callbacks that pending queries hold. -/
def held (r : DnsResolver) : List ℕ := r.pending.entries.flatMap fun entry => entry.2.callbacks

theorem count_held (callback : ℕ) : r.held.count callback = r.pending.total (holds callback) := by
  rw [held, List.count_flatMap]
  rfl

theorem total_under (pending : OrderedMap UInt16 PendingQuery) (port : UInt16) :
    pending.total (under port) = if (pending.find? port).isSome then 1 else 0 := by
  have hothers : (pending.erase port).total (under port) = 0 := by
    rw [OrderedMap.total, List.sum_eq_zero_iff]
    intro count hcount
    obtain ⟨entry, hentry, rfl⟩ := List.mem_map.1 hcount
    exact if_neg (of_decide_eq_true (List.mem_filter.1 hentry).2)
  cases hfind : pending.find? port with
  | none => rw [← OrderedMap.erase_eq_self hfind, hothers]; rfl
  | some query => rw [OrderedMap.total_of_find? hfind, hothers, under, if_pos rfl]; rfl

/-- **Callbacks are called once, ports are conserved, queries are bounded.**  In every state of
a run with a fixed server list in which a port was always found, each callback passed to
`resolve` was called, waits in a loop, or is held, once; when the resolver is at rest it was
called once and is held by no query, or was not called and is held once.  Every entry stands
under its own port, and a port was released as often as it was taken, but for the entry now
pending under it. -/
theorem callbacks_once_ports_conserved {seed : UInt32} {servers : List IPv4Address}
    {steps : List DnsStep} {r : DnsResolver} (hsteps : ∀ step ∈ steps, KeepsList step)
    (hrun : Runs.runs DnsStep.run steps (new seed servers) = some r) (hport : .threw ∉ r.effects) :
    (∀ callback < r.resolves, r.effects.countP (isCall callback) +
      r.agenda.countP (owes callback) + r.held.count callback = 1) ∧
    (r.agenda = [] → ∀ callback < r.resolves,
      r.effects.countP (isCall callback) = 1 ∧ callback ∉ r.held ∨
      r.effects.countP (isCall callback) = 0 ∧ r.held.count callback = 1) ∧
    (∀ entry ∈ r.pending.entries, entry.2.sourcePort = entry.1) ∧
    (∀ port, r.effects.countP (isTake port) = r.effects.countP (isRelease port) +
      if (r.pending.find? port).isSome then 1 else 0) ∧
    ∀ opener, r.effects.countP (isSendFor opener) ≤ 2 * servers.length * 9 := by
  obtain ⟨hservers, hbooks⟩ : r.servers = servers ∧ Balances r :=
    balances_runs hsteps rfl (balances_new seed servers) hrun hport
  have honce : ∀ callback < r.resolves, r.effects.countP (isCall callback) +
      r.agenda.countP (owes callback) + r.held.count callback = 1 := by
    intro callback hcallback
    rw [count_held, hbooks.callbacks callback, if_pos hcallback]
  refine ⟨honce, fun hrest callback hcallback => ?_, fun entry hentry => ?_, fun port => ?_,
    fun opener => ?_⟩
  · have hsum := honce callback hcallback
    rw [hrest, List.countP_nil, Nat.add_zero] at hsum
    rw [← List.count_eq_zero (a := callback)]
    omega
  · exact (hbooks.proper entry hentry).port
  · rw [hbooks.ports port, total_under]
  · have hbudget := hbooks.budget opener
    rw [hservers] at hbudget
    split_ifs at hbudget <;> omega

/-- Two calls for one name share a query, which is sent twice and then given up: both
callbacks are called. -/
def sharedQuery : List DnsStep :=
  [.resolve [97] false, .resolve [65] false, .timePassed 2000, .proceed, .timePassed 2000, .proceed,
    .proceed, .returned, .proceed, .returned]

theorem sharedQuery_runs : (Runs.runs DnsStep.run sharedQuery (new 1 [⟨1⟩])).isSome = true := by
  decide +kernel

theorem sharedQuery_conserved : ∃ r, Runs.runs DnsStep.run sharedQuery (new 1 [⟨1⟩]) = some r ∧
    r.agenda = [] ∧ r.resolves = 2 ∧ ∀ callback < r.resolves,
      r.effects.countP (isCall callback) = 1 ∧ callback ∉ r.held ∨
      r.effects.countP (isCall callback) = 0 ∧ r.held.count callback = 1 := by
  have hrun := (Option.some_get sharedQuery_runs).symm
  obtain ⟨-, hrest, -⟩ := callbacks_once_ports_conserved (by simp [sharedQuery, KeepsList]) hrun
    (by decide +kernel)
  exact ⟨_, hrun, by decide +kernel, by decide +kernel, hrest (by decide +kernel)⟩

end DnsResolver
end TcpIpStack
