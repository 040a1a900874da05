/-
# Whose addresses an answer has

A reply is accepted for the query it answers: the port, the server, the transaction id and
the question fit.  The records of its answer section are then taken as they stand.  The loop
in `on_datagram` reads the class, the type and the data of a record, and never its owner: an
address counts as the answer whoever it belongs to, and the first alias is followed whoever
it is an alias of.

`answers_owned_iff` says for which messages the addresses delivered and cached belong to the
name that was asked for, or to an alias of it.
-/

import TcpIpStack.Dns.Moves

namespace TcpIpStack
namespace DnsResolver

variable {r t : DnsResolver}

/-- The names that an answer section makes of a name: itself, and its aliases. -/
inductive Reached (answers : List DnsRecord) (name : Bytes) : Bytes → Prop
  | asked : Reached answers name name
  | renamed {record : DnsRecord} (howner : Reached answers name (normalise record.name))
      (hrecord : record ∈ answers) (htype : record.type = Dns.typeCname) :
      Reached answers name (normalise record.target)

/-- An address that the answer section gives to a name or an alias of it. -/
def Owned (answers : List DnsRecord) (name : Bytes) (address : IPv4Address) : Prop :=
  ∃ record ∈ answers, record.klass = Dns.classIn ∧ record.type = Dns.typeA ∧
    record.rdata.length = 4 ∧ record.address = address ∧
    Reached answers name (normalise record.name)

/-- The record of the alias that is followed. -/
def aliasRecord (answers : List DnsRecord) : Option DnsRecord :=
  answers.find? fun record => record.klass = Dns.classIn ∧ record.type = Dns.typeCname ∧
    normalise record.target ≠ []

theorem aliasOf_eq (answers : List DnsRecord) :
    aliasOf answers = (aliasRecord answers).map fun record => normalise record.target := by
  unfold aliasOf aliasRecord
  induction answers with
  | nil => rfl
  | cons record rest ih =>
    by_cases halias : record.klass = Dns.classIn ∧ record.type = Dns.typeCname
    · simp only [List.filterMap_cons, if_pos halias]
      by_cases hempty : normalise record.target = []
      · rw [List.find?_cons_of_neg (by simp [hempty]), List.find?_cons_of_neg (by simp [hempty]), ih]
      · rw [List.find?_cons_of_pos (by simp [hempty]), List.find?_cons_of_pos (by simp [halias, hempty])]
        rfl
    · simp only [List.filterMap_cons, if_neg halias]
      rw [List.find?_cons_of_neg, ih]
      exact fun h => halias ⟨(of_decide_eq_true h).1, (of_decide_eq_true h).2.1⟩

/-- A datagram passes every test of the query pending on its destination port. -/
structure Accepts (r : DnsResolver) (source : IPv4Address) (port : UInt16) (payload : Bytes)
    (query : PendingQuery) (message : Dns) : Prop where
  pending : r.pending.find? port = some query
  server : r.servers[query.serverIndex]? = some source
  read : Dns.fromBytes payload = .ok message
  response : message.isResponse = true
  id : message.id = query.transactionId
  question : echoes message query = true

theorem onDatagram_of_accepts {source : IPv4Address} {port : UInt16} {payload : Bytes}
    {query : PendingQuery} {message : Dns} (h : Accepts r source port payload query message) :
    r.onDatagram source serverPort port payload = r.onReply port query message := by
  simp [onDatagram, h.pending, h.server, h.read, h.response, h.id, h.question]

/-- What a reply brings about belongs to the name that was asked for: the addresses that
callbacks are called with, those that are cached, and the alias that is followed. -/
structure AnswersOwned (r t : DnsResolver) (port : UInt16) (query : PendingQuery)
    (message : Dns) : Prop where
  called : ∀ callback name addresses, .callback callback name addresses ∈ t.agenda →
    ∀ address ∈ addresses, Owned message.answers query.name address
  cached : t.cache.find? query.name ≠ r.cache.find? query.name →
    ∀ entry ∈ t.cache.find? query.name, ∀ address ∈ entry.addresses,
      Owned message.answers query.name address
  followed : ∀ record ∈ aliasRecord message.answers,
    t = (r.release port).openQuery (normalise record.target) (query.cnameDepth + 1) query.callbacks
      query.opener false → Reached message.answers query.name (normalise record.name)

/-- A message without error whose addresses, or else the alias it is followed for, belong to
the name that was asked for. -/
def OwnersMatch (query : PendingQuery) (message : Dns) : Prop :=
  message.isTruncated = false → message.responseCode = Dns.rcodeNoError →
    (∀ address ∈ addressesOf message.answers, Owned message.answers query.name address) ∧
    (addressesOf message.answers = [] → query.cnameDepth < maxCnameDepth →
      ∀ record ∈ aliasRecord message.answers,
        Reached message.answers query.name (normalise record.name))

/-! ### The branches of a reply -/

section Branches

variable {port : UInt16} {query : PendingQuery} {message : Dns}

theorem opened_effects_length {name : Bytes} {depth : ℕ} {callbacks : List ℕ} {opener : ℕ}
    {caught : Bool} (ht : t = (r.release port).openQuery name depth callbacks opener caught) :
    r.effects.length + 2 ≤ t.effects.length := by
  rw [ht, openQuery]
  refine le_trans ?_ (enterQuery_effects_length ..)
  exact Nat.succ_le_succ (release_effects_length ..).ge

theorem answersOwned_of_quiet
    (hagenda : ∀ callback name addresses, .callback callback name addresses ∈ t.agenda → addresses = [])
    (hcache : t.cache = r.cache) (heffects : t.effects.length ≤ r.effects.length + 1) :
    AnswersOwned r t port query message := by
  refine ⟨fun callback name addresses hwork address haddress => ?_, fun hne => ?_,
    fun record _ ht => ?_⟩
  · rw [hagenda callback name addresses hwork] at haddress
    cases haddress
  · exact absurd (by rw [hcache]) hne
  · have hlength := opened_effects_length ht
    omega

theorem mem_agenda_finish (hrest : r.agenda = []) {addresses : List IPv4Address} {callback : ℕ}
    {name : Bytes} {addresses' : List IPv4Address}
    (h : .callback callback name addresses' ∈ (r.finish query addresses).agenda) : addresses' = addresses := by
  have hwork : .callback callback name addresses' ∈
      query.callbacks.map (DnsWork.callback · query.name addresses) ++ r.agenda := h
  rw [hrest, List.append_nil] at hwork
  obtain ⟨_, -, heq⟩ := List.mem_map.1 hwork
  exact (DnsWork.callback.inj heq).2.2.symm

theorem answersOwned_fail (hrest : r.agenda = []) : AnswersOwned r (r.finish query []) port query message :=
  answersOwned_of_quiet (fun _ _ _ h => mem_agenda_finish hrest h) rfl (List.length_append ..).le

theorem answersOwned_retryOrFail (hrest : r.agenda = []) :
    AnswersOwned r (r.retryOrFail port query) port query message := by
  have hsend : ∀ query', AnswersOwned r (r.sendQuery port query') port query message := by
    intro query'
    refine answersOwned_of_quiet (fun _ _ _ h => ?_) (sendQuery_cache ..)
      (sendQuery_effects_length ..)
    rw [sendQuery_agenda, hrest] at h
    cases h
  unfold retryOrFail
  split_ifs
  · exact hsend _
  · exact hsend _
  · exact answersOwned_fail hrest

/-- The answers of a reply: all addresses are delivered, or the alias is followed. -/
theorem answersOwned_onAnswers (hrest : r.agenda = []) (hcallbacks : query.callbacks ≠ []) :
    AnswersOwned r (r.onAnswers port query message.answers) port query message ↔
      (∀ address ∈ addressesOf message.answers, Owned message.answers query.name address) ∧
      (addressesOf message.answers = [] → query.cnameDepth < maxCnameDepth →
        ∀ record ∈ aliasRecord message.answers,
          Reached message.answers query.name (normalise record.name)) := by
  unfold onAnswers
  rw [aliasOf_eq]
  cases haddresses : addressesOf message.answers with
  | cons address rest =>
    dsimp only
    constructor
    · intro h
      obtain ⟨callback, more, hmore⟩ := List.exists_cons_of_ne_nil hcallbacks
      refine ⟨fun address' haddress' => ?_, fun hnil => (nomatch hnil)⟩
      refine h.called callback query.name (address :: rest) ?_ address' haddress'
      rw [finish, hmore]
      exact List.mem_cons_self
    · rintro ⟨howned, -⟩
      refine ⟨fun callback name addresses hwork address' haddress' => ?_,
        fun _ entry hentry address' haddress' => ?_, fun record _ ht => ?_⟩
      · rw [mem_agenda_finish (by exact hrest) hwork] at haddress'
        exact howned address' haddress'
      · have hfind : entry = ⟨address :: rest, cacheMsFor message.answers⟩ := by
          have hentry' : ((evict r.cache).insert query.name
              ⟨address :: rest, cacheMsFor message.answers⟩).find? query.name = some entry := hentry
          rw [OrderedMap.find?_insert, if_pos rfl] at hentry'
          exact (Option.some.inj hentry').symm
        rw [hfind] at haddress'
        exact howned address' haddress'
      · have hfinish : (r.finish query (address :: rest)).effects.length = r.effects.length + 1 :=
          List.length_append
        exact absurd (opened_effects_length ht) (Nat.not_le.2 (hfinish ▸ Nat.lt_succ_self _))
  | nil =>
    cases hrecord : aliasRecord message.answers with
    | none =>
      simp only [Option.map_none]
      exact ⟨fun _ => ⟨fun _ h => (nomatch h), fun _ _ _ h => (nomatch h)⟩,
        fun _ => answersOwned_fail hrest⟩
    | some record =>
      simp only [Option.map_some]
      by_cases hdepth : maxCnameDepth ≤ query.cnameDepth
      · rw [if_pos hdepth]
        exact ⟨fun _ => ⟨fun _ h => (nomatch h), fun _ hlt => absurd hlt (Nat.not_lt.2 hdepth)⟩,
          fun _ => answersOwned_fail hrest⟩
      · rw [if_neg hdepth]
        constructor
        · intro h
          refine ⟨fun _ hmem => (nomatch hmem), fun _ _ record' hrecord' => ?_⟩
          obtain rfl := Option.some.inj hrecord'
          exact h.followed record hrecord rfl
        · rintro ⟨-, hreached⟩
          refine ⟨fun callback name addresses hwork => ?_, fun hne => absurd ?_ hne,
            fun record' hrecord' _ => ?_⟩
          · rw [openQuery, enterQuery_agenda _ _ _ _ _ _ _ _ (by exact hrest)] at hwork
            exact absurd hwork List.not_mem_nil
          · rw [openQuery, enterQuery_cache]
            rfl
          · obtain rfl := Option.some.inj (hrecord.symm.trans hrecord')
            exact hreached trivial (Nat.lt_of_not_le hdepth) record rfl

end Branches

/-- **Whose addresses are delivered.**  A reply that is accepted brings only addresses of the
name that was asked for, and follows only its alias, exactly if the owners of its answers
match. -/
theorem answers_owned_iff {seed : UInt32} {servers : List IPv4Address} {steps : List DnsStep}
    {source : IPv4Address} {port : UInt16} {payload : Bytes} {query : PendingQuery} {message : Dns}
    (hrun : Runs.runs DnsStep.run steps (new seed servers) = some r) (hrest : r.agenda = [])
    (haccepts : Accepts r source port payload query message) :
    AnswersOwned r (r.onDatagram source serverPort port payload) port query message ↔
      OwnersMatch query message := by
  have hcallbacks := (entered_runs hrun _ (OrderedMap.mem_of_find? haccepts.pending)).awaited
  rw [onDatagram_of_accepts haccepts]
  unfold onReply OwnersMatch
  cases htruncated : message.isTruncated with
  | true =>
    rw [if_pos rfl]
    exact ⟨fun _ h => (nomatch h), fun _ => answersOwned_fail hrest⟩
  | false =>
    rw [if_neg Bool.false_ne_true]
    by_cases hcode : message.responseCode = Dns.rcodeNoError
    · rw [if_neg (not_not.2 hcode), answersOwned_onAnswers hrest hcallbacks]
      exact ⟨fun h _ _ => h, fun h => h rfl hcode⟩
    · rw [if_pos hcode]
      refine ⟨fun _ _ h => absurd h hcode, fun _ => ?_⟩
      split_ifs
      · exact answersOwned_fail hrest
      · exact answersOwned_retryOrFail hrest

/-! ### A name, and another -/

/-- A reply to the query for `a` with one address, owned by the name of one letter. -/
def addressReply (owner : UInt8) : Bytes :=
  [0x9e, 0x02, 0x81, 0x80, 0, 1, 0, 1, 0, 0, 0, 0,
    1, 97, 0, 0, 1, 0, 1,
    1, owner, 0, 0, 1, 0, 1, 0, 0, 0, 60, 0, 4, 10, 0, 0, 9]

/-- The resolver that waits for an answer about `a`. -/
theorem asked_runs : (Runs.runs DnsStep.run [.resolve [97] false] (new 1 [⟨1⟩])).isSome = true := by
  decide +kernel

def asked : DnsResolver :=
  (Runs.runs DnsStep.run [.resolve [97] false] (new 1 [⟨1⟩])).get asked_runs

theorem asked_run : Runs.runs DnsStep.run [.resolve [97] false] (new 1 [⟨1⟩]) = some asked :=
  (Option.some_get asked_runs).symm

/-- The query it has open. -/
def askedQuery : PendingQuery := ⟨[97], 0x9e02, 55200, 0, 1, 2000, 0, [0], 0⟩

/-- The message that is read from the reply. -/
def addressMessage (owner : UInt8) : Dns :=
  { id := 0x9e02
    flags := 0x8180
    questions := [{ name := [97] }]
    answers := [{ name := [owner], type := 1, klass := 1, ttl := 60, rdata := [10, 0, 0, 9] }] }

theorem accepts_a : Accepts asked ⟨1⟩ 55200 (addressReply 97) askedQuery (addressMessage 97) := by
  constructor <;> decide +kernel

theorem accepts_b : Accepts asked ⟨1⟩ 55200 (addressReply 98) askedQuery (addressMessage 98) := by
  constructor <;> decide +kernel

theorem eq_of_reached {answers : List DnsRecord} {name name' : Bytes}
    (hnone : ∀ record ∈ answers, record.type ≠ Dns.typeCname) (h : Reached answers name name') :
    name' = name := by
  cases h with
  | asked => rfl
  | renamed _ hrecord htype => exact absurd htype (hnone _ hrecord)

theorem own_address_delivered :
    Runs.runs DnsStep.run [.resolve [97] false] (new 1 [⟨1⟩]) = some asked ∧
    AnswersOwned asked (asked.onDatagram ⟨1⟩ serverPort 55200 (addressReply 97)) 55200 askedQuery
      (addressMessage 97) := by
  refine ⟨asked_run, (answers_owned_iff asked_run (by decide +kernel) accepts_a).2 fun _ _ =>
    ⟨fun address haddress => ?_, fun hnil => absurd hnil (by decide +kernel)⟩⟩
  have hname : normalise [97] = [97] := by decide +kernel
  have haddresses : addressesOf (addressMessage 97).answers = [⟨0x0a000009⟩] := by decide +kernel
  rw [haddresses, List.mem_singleton] at haddress
  subst haddress
  refine ⟨_, List.mem_singleton_self _, rfl, rfl, rfl, by decide +kernel, ?_⟩
  rw [hname]
  exact .asked

/-- The address of `b` is delivered and cached as the address of `a`. -/
theorem other_address_delivered :
    Runs.runs DnsStep.run [.resolve [97] false] (new 1 [⟨1⟩]) = some asked ∧
    Accepts asked ⟨1⟩ 55200 (addressReply 98) askedQuery (addressMessage 98) ∧
    ¬ AnswersOwned asked (asked.onDatagram ⟨1⟩ serverPort 55200 (addressReply 98)) 55200 askedQuery
      (addressMessage 98) := by
  refine ⟨asked_run, accepts_b, fun h => ?_⟩
  obtain ⟨record, hrecord, -, -, -, -, hreached⟩ :=
    h.called 0 [97] [⟨0x0a000009⟩] (by decide +kernel) ⟨0x0a000009⟩ (List.mem_singleton_self _)
  obtain rfl := List.mem_singleton.1 hrecord
  exact absurd (eq_of_reached (by decide) hreached) (by decide +kernel)

end DnsResolver
end TcpIpStack
