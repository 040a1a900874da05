/-
# The DNS resolver

`src/include/dns_resolver.h` and `src/src/dns_resolver.cpp`.  A result callback is named by
the number of the `resolve` call it was passed to.  What the resolver does outside is
recorded in order: queries handed to the send callback, ports released, result callbacks
called.  The send callback returns or throws, which `_send_query` catches alike.

A result callback may call `resolve`.  So the loops that call callbacks are not run to
their end in one step: what they still have to do stands in `agenda`, innermost first,
and the next piece is done in a step of its own (`DnsStep.proceed`).  While a callback
runs, `inside` stands at the front.

`_servers[server_index]` is not checked in the source; an index out of range is recorded
in `outOfRange`.
-/

import TcpIpStack.Dns.Entropy
import TcpIpStack.Lib.OrderedMap
import TcpIpStack.Lib.Runs
import TcpIpStack.Tcp.Bookkeeping
import TcpIpStack.Wire.Dns

namespace TcpIpStack

open TcpConnection (asInt)

/-- `normalise`: lower case, and no trailing dots. -/
def normalise (name : Bytes) : Bytes :=
  (name.map fun c => if 65 ≤ c ∧ c ≤ 90 then c - 65 + 97 else c).rdropWhile (· = Dns.dot)

/-- `DnsResolver::Pending`.  `opener` is the `resolve` call that opened the query. -/
structure PendingQuery where
  name : Bytes
  transactionId : UInt16
  sourcePort : UInt16
  serverIndex : ℕ
  attempts : ℕ
  timeoutMsRemaining : ℤ
  cnameDepth : ℕ
  callbacks : List ℕ
  opener : ℕ
deriving DecidableEq

/-- `DnsResolver::CacheEntry` -/
structure CacheEntry where
  addresses : List IPv4Address
  msRemaining : ℤ
deriving DecidableEq

/-- What a loop of the resolver still has to do. -/
inductive DnsWork
  | callback (callback : ℕ) (name : Bytes) (addresses : List IPv4Address)
  | inside
  | expired (port : UInt16)
deriving DecidableEq

/-- What the resolver does outside.  `take` records that a query was entered under a port,
and `threw` that `_next_source_port` found none. -/
inductive DnsEffect
  | take (port : UInt16)
  | send (server : IPv4Address) (sourcePort : UInt16) (payload : Bytes) (opener : ℕ)
  | release (port : UInt16)
  | resolved (callback : ℕ) (name : Bytes) (addresses : List IPv4Address)
  | threw
deriving DecidableEq

/-- `DnsResolver`, with the loops it is in and what it has done. -/
structure DnsResolver where
  idEntropy : UInt32
  portEntropy : UInt32
  servers : List IPv4Address := []
  pending : OrderedMap UInt16 PendingQuery := .empty
  cache : OrderedMap Bytes CacheEntry := .empty
  agenda : List DnsWork := []
  effects : List DnsEffect := []
  /-- How many calls of `resolve` there were. -/
  resolves : ℕ := 0
  outOfRange : Bool := false
deriving DecidableEq

namespace DnsResolver

def serverPort : UInt16 := 53
def queryTimeoutMs : ℤ := 2000
def attemptsPerServer : ℕ := 2
def maxCnameDepth : ℕ := 8
def minCacheMs : ℤ := 1000
def maxCacheMs : ℤ := 3600000
def maxCacheEntries : ℕ := 256
def firstEphemeralPort : UInt16 := 49152

/-- The constructor. -/
def new (randomSeed : UInt32) (servers : List IPv4Address) : DnsResolver where
  idEntropy := randomSeed
  portEntropy := randomSeed ^^^ 0x9e3779b9
  servers := servers

/-- What the resolver does is recorded in order. -/
def emit (r : DnsResolver) (effect : DnsEffect) : DnsResolver :=
  { r with effects := r.effects ++ [effect] }

/-! ### Queries -/

/-- The loop of `_next_source_port`: the entropy after it, and the port if one is free. -/
def drawPort (pending : OrderedMap UInt16 PendingQuery) : ℕ → UInt32 → UInt32 × Option UInt16
  | 0, entropy => (entropy, none)
  | attempts + 1, entropy =>
    let entropy := advance entropy portKeyLow portKeyHigh
    let port := firstEphemeralPort + (entropy % 16384).toUInt16
    if (pending.find? port).isSome then drawPort pending attempts entropy else (entropy, some port)

/-- The message of a query. -/
def queryMessage (query : PendingQuery) : Dns :=
  (({ id := query.transactionId, questions := [{ name := query.name }] } : Dns).setResponse
    false).setRecursionDesired true

/-- `_send_query` for the query under this port. -/
def sendQuery (r : DnsResolver) (port : UInt16) (query : PendingQuery) : DnsResolver :=
  let query := { query with
    attempts := query.attempts + 1
    timeoutMsRemaining := queryTimeoutMs }
  let r := { r with pending := r.pending.insert port query }
  match r.servers[query.serverIndex]? with
  | none => { r with outOfRange := true }
  | some server =>
    match (queryMessage query).toBytes with
    | .ok payload => r.emit (.send server query.sourcePort payload query.opener)
    -- a name that cannot be encoded is caught like a failure to send
    | .error _ => r

/-- A new query under what was drawn for it: the entropy of its transaction id, and the entropy
of its port with the port.  If there is no port the exception leaves the resolver, and every
loop it is in unless a callback catches it. -/
def enterQuery (r : DnsResolver) (name : Bytes) (cnameDepth : ℕ) (callbacks : List ℕ) (opener : ℕ)
    (caught : Bool) (idEntropy : UInt32) (draw : UInt32 × Option UInt16) : DnsResolver :=
  let r := { r with idEntropy := idEntropy, portEntropy := draw.1 }
  match draw.2 with
  | none => { r.emit .threw with agenda := if caught then r.agenda else [] }
  | some port =>
    let query : PendingQuery :=
      { name := name
        transactionId := (idEntropy >>> 16).toUInt16
        sourcePort := port
        serverIndex := 0
        attempts := 0
        timeoutMsRemaining := queryTimeoutMs
        cnameDepth := cnameDepth
        callbacks := callbacks
        opener := opener }
    ({ r with pending := r.pending.insert port query }.emit (.take port)).sendQuery port query

/-- A new query: a fresh transaction id, then a fresh port. -/
def openQuery (r : DnsResolver) (name : Bytes) (cnameDepth : ℕ) (callbacks : List ℕ) (opener : ℕ)
    (caught : Bool) : DnsResolver :=
  r.enterQuery name cnameDepth callbacks opener caught (advance r.idEntropy idKeyLow idKeyHigh)
    (drawPort r.pending 64 r.portEntropy)

/-- `_release` -/
def release (r : DnsResolver) (port : UInt16) : DnsResolver :=
  { r with pending := r.pending.erase port }.emit (.release port)

/-- `_finish`: the port is released, and the callbacks are called one after the other. -/
def finish (r : DnsResolver) (query : PendingQuery) (addresses : List IPv4Address) : DnsResolver :=
  let r := r.release query.sourcePort
  { r with agenda := query.callbacks.map (.callback · query.name addresses) ++ r.agenda }

/-- `_retry_or_fail` for the query under this port. -/
def retryOrFail (r : DnsResolver) (port : UInt16) (query : PendingQuery) : DnsResolver :=
  if query.attempts < attemptsPerServer then r.sendQuery port query
  else if query.serverIndex + 1 < r.servers.length then
    r.sendQuery port { query with serverIndex := query.serverIndex + 1, attempts := 0 }
  else r.finish query []

/-- The pending query for a name, and its port. -/
def pendingFor (r : DnsResolver) (name : Bytes) : Option (UInt16 × PendingQuery) :=
  r.pending.entries.find? fun entry => entry.2.name = name

/-- `resolve` -/
def resolve (r : DnsResolver) (name : Bytes) (caught : Bool) : DnsResolver :=
  let callback := r.resolves
  let r := { r with resolves := r.resolves + 1 }
  match r.cache.find? (normalise name) with
  | some entry => { r with agenda := .callback callback name entry.addresses :: r.agenda }
  | none =>
    match r.pendingFor (normalise name) with
    | some (port, query) =>
      { r with
        pending := r.pending.insert port { query with callbacks := query.callbacks ++ [callback] } }
    | none =>
      if r.servers = [] then { r with agenda := .callback callback name [] :: r.agenda }
      else r.openQuery (normalise name) 0 [callback] callback caught

/-! ### Replies -/

/-- The addresses of the A records. -/
def addressesOf (answers : List DnsRecord) : List IPv4Address :=
  answers.filterMap fun record =>
    if record.klass = Dns.classIn ∧ record.type = Dns.typeA ∧ record.rdata.length = 4 then
      some record.address
    else none

/-- The first alias that is not empty. -/
def aliasOf (answers : List DnsRecord) : Option Bytes :=
  (answers.filterMap fun record =>
    if record.klass = Dns.classIn ∧ record.type = Dns.typeCname then some (normalise record.target)
    else none).find? (· ≠ [])

/-- The shortest TTL of the A records; a TTL of zero counts as none seen so far. -/
def ttlOf (answers : List DnsRecord) : UInt32 :=
  answers.foldl (fun ttl record =>
    if record.type = Dns.typeA then if ttl = 0 then record.ttl else min ttl record.ttl else ttl) 0

/-- How long an answer is kept. -/
def cacheMsFor (answers : List DnsRecord) : ℤ :=
  max minCacheMs (min maxCacheMs (asInt (min (ttlOf answers) 3600 * 1000)))

/-- `std::min_element`: the first of the entries that expire soonest. -/
def soonest : List (Bytes × CacheEntry) → Option (Bytes × CacheEntry)
  | [] => none
  | entry :: rest =>
    match soonest rest with
    | some later => if later.2.msRemaining < entry.2.msRemaining then some later else some entry
    | none => some entry

/-- A full cache loses the entry that expires soonest. -/
def evict (cache : OrderedMap Bytes CacheEntry) : OrderedMap Bytes CacheEntry :=
  if maxCacheEntries ≤ cache.entries.length then
    match soonest cache.entries with
    | some entry => cache.erase entry.1
    | none => cache
  else cache

/-- The answers of a reply without error. -/
def onAnswers (r : DnsResolver) (port : UInt16) (query : PendingQuery) (answers : List DnsRecord) :
    DnsResolver :=
  match addressesOf answers, aliasOf answers with
  | [], some name =>
    if maxCnameDepth ≤ query.cnameDepth then r.finish query []
    else (r.release port).openQuery name (query.cnameDepth + 1) query.callbacks query.opener false
  | [], none => r.finish query []
  | addresses, _ =>
    { r with
      cache := (evict r.cache).insert query.name ⟨addresses, cacheMsFor answers⟩ }.finish query
      addresses

/-- A reply that passed every test. -/
def onReply (r : DnsResolver) (port : UInt16) (query : PendingQuery) (message : Dns) :
    DnsResolver :=
  if message.isTruncated then r.finish query []
  else if message.responseCode ≠ Dns.rcodeNoError then
    if message.responseCode = Dns.rcodeNameError then r.finish query []
    else r.retryOrFail port query
  else r.onAnswers port query message.answers

/-- Whether a reply echoes the question of a query. -/
def echoes (message : Dns) (query : PendingQuery) : Bool :=
  match message.questions with
  | question :: _ => normalise question.name = query.name
  | [] => false

/-- `on_datagram` -/
def onDatagram (r : DnsResolver) (source : IPv4Address) (sourcePort destinationPort : UInt16)
    (payload : Bytes) : DnsResolver :=
  match r.pending.find? destinationPort with
  | none => r
  | some query =>
    if sourcePort ≠ serverPort then r
    else match r.servers[query.serverIndex]? with
      | none => { r with outOfRange := true }
      | some server =>
        if source ≠ server then r
        else match Dns.fromBytes payload with
          | .error _ => r
          | .ok message =>
            if ¬ message.isResponse ∨ message.id ≠ query.transactionId then r
            else if ¬ echoes message query then r
            else r.onReply destinationPort query message

/-! ### Time -/

/-- `on_time_passed` up to its last loop, which retries the expired queries. -/
def onTimePassed (r : DnsResolver) (elapsedMs : UInt32) : DnsResolver :=
  let cache := (r.cache.mapValues fun entry =>
    { entry with msRemaining := entry.msRemaining - asInt elapsedMs }).filterValues
      fun entry => 0 < entry.msRemaining
  let pending := r.pending.mapValues fun query =>
    { query with timeoutMsRemaining := query.timeoutMsRemaining - asInt elapsedMs }
  let expired := (pending.filterValues fun query => query.timeoutMsRemaining ≤ 0).entries.map Prod.fst
  { r with cache := cache, pending := pending, agenda := expired.map .expired ++ r.agenda }

/-- The next piece of work. -/
def proceed (r : DnsResolver) : Option DnsResolver :=
  match r.agenda with
  | .callback callback name addresses :: rest =>
    some { r.emit (.resolved callback name addresses) with agenda := .inside :: rest }
  | .expired port :: rest =>
    let r := { r with agenda := rest }
    match r.pending.find? port with
    | some query => some (r.retryOrFail port query)
    | none => some r
  | _ => none

/-- The application has the floor: nothing is to be done, or a callback runs. -/
def calm (r : DnsResolver) : Bool :=
  match r.agenda with
  | [] | .inside :: _ => true
  | _ => false

end DnsResolver

/-- What happens to a resolver. -/
inductive DnsStep
  | setServers (servers : List IPv4Address)
  | resolve (name : Bytes) (caught : Bool)
  | datagram (source : IPv4Address) (sourcePort destinationPort : UInt16) (payload : Bytes)
  | timePassed (elapsedMs : UInt32)
  | proceed
  /-- The callback that runs returns. -/
  | returned

/-- The resolver after a step, if the step is possible. -/
def DnsStep.run : DnsStep → DnsResolver → Option DnsResolver
  | setServers servers, r => if r.calm then some { r with servers := servers } else none
  | resolve name caught, r => if r.calm then some (r.resolve name caught) else none
  | datagram source sourcePort destinationPort payload, r =>
    if r.agenda = [] then some (r.onDatagram source sourcePort destinationPort payload) else none
  | timePassed elapsedMs, r => if r.agenda = [] then some (r.onTimePassed elapsedMs) else none
  | proceed, r => r.proceed
  | returned, r =>
    match r.agenda with
    | .inside :: rest => some { r with agenda := rest }
    | _ => none

end TcpIpStack
