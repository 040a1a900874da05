/-
# What a step does to a DNS resolver

`DnsMove` says once what a step other than `set_servers` can do, and everything about runs
is derived from it.  A name is answered at once, joins a query or opens one; a query is sent
again, finished, or replaced by one for its alias; a callback is called; time passes.
-/

import TcpIpStack.Dns.Resolver

namespace TcpIpStack
namespace DnsResolver

variable {r t : DnsResolver}

/-- Work that calls no callback is taken off the agenda, or nothing is. -/
def Idle (r : DnsResolver) (rest : List DnsWork) : Prop :=
  rest = r.agenda ∨ r.agenda = .inside :: rest ∨ ∃ port, r.agenda = .expired port :: rest

/-- The query that is sent when another gets no answer: the same once more, or to the next
server. -/
def Retried (servers : List IPv4Address) (query query' : PendingQuery) : Prop :=
  query' = query ∧ query.attempts < attemptsPerServer ∨
  query' = { query with serverIndex := query.serverIndex + 1, attempts := 0 } ∧
    query.serverIndex + 1 < servers.length

/-- A port was drawn that no query has. -/
def Fresh (pending : OrderedMap UInt16 PendingQuery) (draw : UInt32 × Option UInt16) : Prop :=
  ∀ port, draw.2 = some port → pending.find? port = none

/-- What a step can do. -/
inductive DnsMove (r : DnsResolver) : DnsResolver → Prop
  | quiet {rest : List DnsWork} (hidle : Idle r rest) : DnsMove r { r with agenda := rest }
  | answered (name : Bytes) (addresses : List IPv4Address) :
      DnsMove r { r with
        resolves := r.resolves + 1, agenda := .callback r.resolves name addresses :: r.agenda }
  | joined {port : UInt16} {query : PendingQuery} (hfind : r.pending.find? port = some query) :
      DnsMove r { r with
        resolves := r.resolves + 1
        pending := r.pending.insert port { query with callbacks := query.callbacks ++ [r.resolves] } }
  | opened (name : Bytes) (caught : Bool) (idEntropy : UInt32) {draw : UInt32 × Option UInt16}
      (hservers : r.servers ≠ []) (hfresh : Fresh r.pending draw) :
      DnsMove r ({ r with resolves := r.resolves + 1 }.enterQuery name 0 [r.resolves] r.resolves caught
        idEntropy draw)
  | resent {rest : List DnsWork} {port : UInt16} {query query' : PendingQuery} (hidle : Idle r rest)
      (hfind : r.pending.find? port = some query) (hretried : Retried r.servers query query') :
      DnsMove r ({ r with agenda := rest }.sendQuery port query')
  | finished {rest : List DnsWork} {port : UInt16} {query : PendingQuery}
      (cache : OrderedMap Bytes CacheEntry) (addresses : List IPv4Address) (hidle : Idle r rest)
      (hfind : r.pending.find? port = some query) :
      DnsMove r ({ r with agenda := rest, cache := cache }.finish query addresses)
  | chased {port : UInt16} {query : PendingQuery} (name : Bytes) (idEntropy : UInt32)
      {draw : UInt32 × Option UInt16} (hfind : r.pending.find? port = some query)
      (hdepth : query.cnameDepth < maxCnameDepth) (hfresh : Fresh (r.release port).pending draw) :
      DnsMove r ((r.release port).enterQuery name (query.cnameDepth + 1) query.callbacks query.opener
        false idEntropy draw)
  | aged (elapsedMs : UInt32) : DnsMove r (r.onTimePassed elapsedMs)
  | called {callback : ℕ} {name : Bytes} {addresses : List IPv4Address} {rest : List DnsWork}
      (hagenda : r.agenda = .callback callback name addresses :: rest) :
      DnsMove r { r.emit (.resolved callback name addresses) with agenda := .inside :: rest }
  | strayed {port : UInt16} {query : PendingQuery} (hfind : r.pending.find? port = some query)
      (hindex : r.servers[query.serverIndex]? = none) : DnsMove r { r with outOfRange := true }

/-- What `_send_query` changes about a query. -/
def sentOnce (query : PendingQuery) : PendingQuery :=
  { query with attempts := query.attempts + 1, timeoutMsRemaining := queryTimeoutMs }

/-- A query was handed to the send callback, or none. -/
def Sent (query : PendingQuery) (sent : List DnsEffect) : Prop :=
  sent = [] ∨ ∃ server payload, sent = [.send server query.sourcePort payload query.opener]

theorem Sent.length_le {query : PendingQuery} {sent : List DnsEffect} (h : Sent query sent) :
    sent.length ≤ 1 := by
  rcases h with rfl | ⟨_, _, rfl⟩
  · exact Nat.zero_le 1
  · exact le_rfl

theorem release_effects_length (r : DnsResolver) (port : UInt16) :
    (r.release port).effects.length = r.effects.length + 1 :=
  List.length_append

section SendQuery

variable (r : DnsResolver) (port : UInt16) (query : PendingQuery)

/-- `_send_query` enters the query anew, and hands at most one datagram to the send callback. -/
theorem sendQuery_cases : ∃ (sent : List DnsEffect) (outOfRange : Bool), Sent query sent ∧
    r.sendQuery port query =
      { r with
        pending := r.pending.insert port (sentOnce query)
        effects := r.effects ++ sent
        outOfRange := outOfRange } := by
  unfold sendQuery
  dsimp only
  split
  · exact ⟨[], true, .inl rfl, by rw [List.append_nil]; rfl⟩
  · split
    · exact ⟨_, r.outOfRange, .inr ⟨_, _, rfl⟩, rfl⟩
    · exact ⟨[], r.outOfRange, .inl rfl, by rw [List.append_nil]; rfl⟩

theorem sendQuery_pending : (r.sendQuery port query).pending = r.pending.insert port (sentOnce query) := by
  obtain ⟨sent, outOfRange, -, heq⟩ := r.sendQuery_cases port query
  rw [heq]

theorem sendQuery_agenda : (r.sendQuery port query).agenda = r.agenda := by
  obtain ⟨sent, outOfRange, -, heq⟩ := r.sendQuery_cases port query
  rw [heq]

theorem sendQuery_cache : (r.sendQuery port query).cache = r.cache := by
  obtain ⟨sent, outOfRange, -, heq⟩ := r.sendQuery_cases port query
  rw [heq]

theorem sendQuery_effects_length : (r.sendQuery port query).effects.length ≤ r.effects.length + 1 := by
  obtain ⟨sent, outOfRange, hsent, heq⟩ := r.sendQuery_cases port query
  rw [heq]
  dsimp only
  rw [List.length_append]
  exact Nat.add_le_add_left hsent.length_le _

end SendQuery

/-- A query before it is sent. -/
def newQuery (name : Bytes) (transactionId port : UInt16) (depth : ℕ) (callbacks : List ℕ)
    (opener : ℕ) : PendingQuery :=
  ⟨name, transactionId, port, 0, 0, queryTimeoutMs, depth, callbacks, opener⟩

section EnterQuery

variable (r) (name : Bytes) (depth : ℕ) (callbacks : List ℕ) (opener : ℕ) (caught : Bool)
  (idEntropy : UInt32) (draw : UInt32 × Option UInt16)

/-- A new query finds no port, or is entered under the port that was drawn and sent. -/
theorem enterQuery_cases : (r.enterQuery name depth callbacks opener caught idEntropy draw =
      { r with
        idEntropy := idEntropy
        portEntropy := draw.1
        effects := r.effects ++ [.threw]
        agenda := if caught then r.agenda else [] }) ∨
    ∃ port sent outOfRange, draw.2 = some port ∧
      let query := newQuery name (idEntropy >>> 16).toUInt16 port depth callbacks opener
      Sent query sent ∧ r.enterQuery name depth callbacks opener caught idEntropy draw =
        { r with
          idEntropy := idEntropy
          portEntropy := draw.1
          pending := r.pending.insert port (sentOnce query)
          effects := r.effects ++ .take port :: sent
          outOfRange := outOfRange } := by
  obtain ⟨entropy, port⟩ := draw
  cases port with
  | none => exact .inl rfl
  | some port =>
    let query := newQuery name (idEntropy >>> 16).toUInt16 port depth callbacks opener
    obtain ⟨sent, outOfRange, hsent, heq⟩ := sendQuery_cases
      { r with
        idEntropy := idEntropy
        portEntropy := entropy
        pending := r.pending.insert port query
        effects := r.effects ++ [.take port] } port query
    refine .inr ⟨port, sent, outOfRange, rfl, hsent, heq.trans ?_⟩
    dsimp only
    rw [OrderedMap.insert_insert, List.append_assoc, List.singleton_append]

theorem enterQuery_cache :
    (r.enterQuery name depth callbacks opener caught idEntropy draw).cache = r.cache := by
  rcases r.enterQuery_cases name depth callbacks opener caught idEntropy draw with
    heq | ⟨port, sent, outOfRange, -, -, heq⟩ <;> rw [heq]

theorem enterQuery_effects_length : r.effects.length + 1 ≤
    (r.enterQuery name depth callbacks opener caught idEntropy draw).effects.length := by
  rcases r.enterQuery_cases name depth callbacks opener caught idEntropy draw with
    heq | ⟨port, sent, outOfRange, -, -, heq⟩ <;> rw [heq] <;> dsimp only <;>
    rw [List.length_append, List.length_cons] <;> omega

theorem enterQuery_agenda (h : r.agenda = []) :
    (r.enterQuery name depth callbacks opener caught idEntropy draw).agenda = [] := by
  rcases r.enterQuery_cases name depth callbacks opener caught idEntropy draw with
    heq | ⟨port, sent, outOfRange, -, -, heq⟩ <;> rw [heq] <;> dsimp only
  · rw [h]
    exact ite_self _
  · exact h

end EnterQuery

theorem drawPort_fresh (pending : OrderedMap UInt16 PendingQuery) (attempts : ℕ) (entropy : UInt32) :
    Fresh pending (drawPort pending attempts entropy) := by
  intro port hport
  induction attempts generalizing entropy with
  | zero => cases hport
  | succ attempts ih =>
    rw [drawPort] at hport
    split_ifs at hport with hfound
    · exact ih _ hport
    · obtain rfl := Option.some.inj hport
      exact Option.not_isSome_iff_eq_none.1 hfound

theorem move_refl : DnsMove r r := .quiet (.inl rfl)

theorem move_resolve (name : Bytes) (caught : Bool) : DnsMove r (r.resolve name caught) := by
  unfold resolve
  dsimp only
  split
  · exact .answered name _
  split
  · next port query hjoin =>
    exact .joined (OrderedMap.find?_of_mem (List.mem_of_find?_eq_some hjoin))
  split_ifs with hservers
  · exact .answered name []
  · exact .opened (normalise name) caught _ hservers (drawPort_fresh _ _ _)

section Pending

variable {port : UInt16} {query : PendingQuery} (hfind : r.pending.find? port = some query)
include hfind

theorem move_finish (addresses : List IPv4Address) : DnsMove r (r.finish query addresses) :=
  .finished r.cache addresses (.inl rfl) hfind

theorem move_retryOrFail {rest : List DnsWork} (hidle : Idle r rest) :
    DnsMove r ({ r with agenda := rest }.retryOrFail port query) := by
  unfold retryOrFail
  split_ifs with hattempts hnext
  · exact .resent hidle hfind (.inl ⟨rfl, hattempts⟩)
  · exact .resent hidle hfind (.inr ⟨rfl, hnext⟩)
  · exact .finished r.cache [] hidle hfind

theorem move_onAnswers (answers : List DnsRecord) : DnsMove r (r.onAnswers port query answers) := by
  unfold onAnswers
  split
  · split_ifs with hdepth
    · exact move_finish hfind []
    · exact .chased _ _ hfind (Nat.lt_of_not_le hdepth) (drawPort_fresh _ _ _)
  · exact move_finish hfind []
  · exact .finished _ _ (.inl rfl) hfind

theorem move_onReply (message : Dns) : DnsMove r (r.onReply port query message) := by
  unfold onReply
  split_ifs
  · exact move_finish hfind []
  · exact move_finish hfind []
  · exact move_retryOrFail hfind (.inl rfl)
  · exact move_onAnswers hfind message.answers

end Pending

theorem move_onDatagram (source : IPv4Address) (sourcePort destinationPort : UInt16)
    (payload : Bytes) : DnsMove r (r.onDatagram source sourcePort destinationPort payload) := by
  unfold onDatagram
  split
  · exact move_refl
  next query hfind =>
  split_ifs
  · exact move_refl
  split
  · next hindex => exact .strayed hfind hindex
  split_ifs
  · exact move_refl
  split
  · exact move_refl
  split_ifs
  · exact move_refl
  · exact move_onReply hfind _
  · exact move_refl

theorem move_proceed (ht : r.proceed = some t) : DnsMove r t := by
  unfold proceed at ht
  split at ht
  · next hagenda =>
    obtain rfl := Option.some.inj ht
    exact .called hagenda
  · next port rest hagenda =>
    have hidle : Idle r rest := .inr (.inr ⟨port, hagenda⟩)
    dsimp only at ht
    split at ht <;> obtain rfl := Option.some.inj ht
    · next query hfind => exact move_retryOrFail hfind hidle
    · exact .quiet hidle
  · cases ht

/-- **What a step does.** -/
theorem move_run {step : DnsStep} (ht : step.run r = some t) :
    (∃ servers, step = .setServers servers ∧ t = { r with servers := servers }) ∨ DnsMove r t := by
  cases step with
  | setServers servers =>
    obtain ⟨-, ht⟩ := Option.ite_none_right_eq_some.1 ht
    exact .inl ⟨servers, rfl, (Option.some.inj ht).symm⟩
  | resolve name caught =>
    obtain ⟨-, ht⟩ := Option.ite_none_right_eq_some.1 ht
    exact .inr (Option.some.inj ht ▸ move_resolve name caught)
  | datagram source sourcePort destinationPort payload =>
    obtain ⟨-, ht⟩ := Option.ite_none_right_eq_some.1 ht
    exact .inr (Option.some.inj ht ▸ move_onDatagram ..)
  | timePassed elapsedMs =>
    obtain ⟨-, ht⟩ := Option.ite_none_right_eq_some.1 ht
    exact .inr (Option.some.inj ht ▸ .aged elapsedMs)
  | proceed => exact .inr (move_proceed ht)
  | returned =>
    simp only [DnsStep.run] at ht
    split at ht
    · next hagenda => exact .inr (Option.some.inj ht ▸ .quiet (.inr (.inl hagenda)))
    · cases ht

/-- A step that leaves the server list alone. -/
def KeepsList (step : DnsStep) : Prop := ∀ servers, step ≠ .setServers servers

theorem move_of_keepsList {step : DnsStep} (hstep : KeepsList step) (ht : step.run r = some t) : DnsMove r t :=
  (move_run ht).resolve_left fun ⟨servers, heq, _⟩ => hstep servers heq

/-! ### Pending queries -/

/-- An entry stands under the port its query is sent from, and somebody waits for it. -/
structure EnteredUnder (entry : UInt16 × PendingQuery) : Prop where
  port : entry.2.sourcePort = entry.1
  awaited : entry.2.callbacks ≠ []

/-- Every pending query was entered so. -/
def Entered (r : DnsResolver) : Prop := ∀ entry ∈ r.pending.entries, EnteredUnder entry

theorem Entered.insert (h : Entered r) {port : UInt16} {query : PendingQuery}
    (hquery : EnteredUnder (port, query)) :
    ∀ entry ∈ (r.pending.insert port query).entries, EnteredUnder entry := by
  intro entry hentry
  rcases OrderedMap.mem_insert hentry with rfl | hentry
  · exact hquery
  · exact h entry hentry

theorem entered_sendQuery (h : Entered r) {port : UInt16} {query : PendingQuery}
    (hquery : EnteredUnder (port, query)) : Entered (r.sendQuery port query) := by
  unfold Entered
  rw [sendQuery_pending]
  exact h.insert ⟨hquery.port, hquery.awaited⟩

theorem entered_enterQuery (h : Entered r) (name : Bytes) (depth : ℕ) {callbacks : List ℕ}
    (hcallbacks : callbacks ≠ []) (opener : ℕ) (caught : Bool) (idEntropy : UInt32)
    (draw : UInt32 × Option UInt16) :
    Entered (r.enterQuery name depth callbacks opener caught idEntropy draw) := by
  rcases r.enterQuery_cases name depth callbacks opener caught idEntropy draw with
    heq | ⟨port, sent, outOfRange, -, -, heq⟩ <;> rw [heq]
  · exact h
  · exact h.insert ⟨rfl, hcallbacks⟩

theorem entered_move (h : Entered r) (hmove : DnsMove r t) : Entered t := by
  have hfound : ∀ {port query}, r.pending.find? port = some query → EnteredUnder (port, query) :=
    fun hfind => h _ (OrderedMap.mem_of_find? hfind)
  cases hmove with
  | joined hfind => exact h.insert ⟨(hfound hfind).port, by simp⟩
  | opened =>
    apply entered_enterQuery
    · exact h
    · exact List.cons_ne_nil _ _
  | resent hidle hfind hretried =>
    apply entered_sendQuery
    · exact h
    have hquery := hfound hfind
    rcases hretried with ⟨rfl, -⟩ | ⟨rfl, -⟩
    · exact hquery
    · exact ⟨hquery.port, hquery.awaited⟩
  | finished => exact fun entry hentry => h entry (OrderedMap.mem_erase hentry)
  | chased name idEntropy hfind =>
    apply entered_enterQuery
    · exact fun entry hentry => h entry (OrderedMap.mem_erase hentry)
    · exact (hfound hfind).awaited
  | aged elapsedMs =>
    intro entry hentry
    obtain ⟨before, hbefore, rfl⟩ := List.mem_map.1 hentry
    exact ⟨(h before hbefore).port, (h before hbefore).awaited⟩
  | _ => exact h

theorem entered_new (seed : UInt32) (servers : List IPv4Address) : Entered (new seed servers) :=
  fun _ h => absurd h List.not_mem_nil

theorem entered_step {step : DnsStep} (h : Entered r) (ht : step.run r = some t) : Entered t := by
  rcases move_run ht with ⟨servers, rfl, rfl⟩ | hmove
  · exact h
  · exact entered_move h hmove

theorem entered_runs {seed : UInt32} {servers : List IPv4Address} {steps : List DnsStep}
    (hrun : Runs.runs DnsStep.run steps (new seed servers) = some r) : Entered r :=
  Runs.runs_induction (fun _ _ _ h ht => entered_step h ht) (entered_new seed servers) hrun

end DnsResolver
end TcpIpStack
