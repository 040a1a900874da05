/-
# The server a query asks

`_send_query` and `on_datagram` index the server list with the index a pending query keeps,
and neither checks it.  The index is in range as long as every new list is longer than the
indices kept: then no run goes out of range (`safe_step`).  `set_servers` checks nothing, so
a lease renewed with fewer servers leaves queries behind whose index is past the end; one
datagram from port 53 to such a query reads past the end (`outOfRange_of_datagram`).
-/

import TcpIpStack.Dns.Moves

namespace TcpIpStack
namespace DnsResolver

variable {r t : DnsResolver}

/-- Every pending query keeps the index of a server. -/
def InRange (r : DnsResolver) : Prop :=
  ∀ entry ∈ r.pending.entries, entry.2.serverIndex < r.servers.length

instance : DecidablePred InRange := fun r =>
  inferInstanceAs (Decidable (∀ entry ∈ r.pending.entries, entry.2.serverIndex < r.servers.length))

/-- Indices in range, and none ever out of it. -/
structure Safe (r : DnsResolver) : Prop where
  inRange : r.InRange
  never : r.outOfRange = false

variable {query : PendingQuery}

theorem Safe.find (h : Safe r) {port : UInt16}
    (hfind : r.pending.find? port = some query) : query.serverIndex < r.servers.length :=
  h.inRange _ (OrderedMap.mem_of_find? hfind)

theorem safe_new (seed : UInt32) (servers : List IPv4Address) : Safe (new seed servers) :=
  ⟨fun _ h => (nomatch h), rfl⟩

theorem InRange.insert (h : r.InRange) (port : UInt16)
    (hquery : query.serverIndex < r.servers.length) :
    ∀ entry ∈ (r.pending.insert port query).entries, entry.2.serverIndex < r.servers.length := by
  intro entry hentry
  rcases OrderedMap.mem_insert hentry with rfl | hentry
  · exact hquery
  · exact h entry hentry

theorem safe_sendQuery (h : Safe r) {port : UInt16}
    (hquery : query.serverIndex < r.servers.length) : Safe (r.sendQuery port query) := by
  unfold sendQuery
  dsimp only
  rw [List.getElem?_eq_getElem hquery]
  dsimp only
  split
  · exact ⟨h.inRange.insert port hquery, h.never⟩
  · exact ⟨h.inRange.insert port hquery, h.never⟩

theorem safe_enterQuery (h : Safe r) (hservers : r.servers ≠ []) (name : Bytes) (depth : ℕ)
    (callbacks : List ℕ) (opener : ℕ) (caught : Bool) (idEntropy : UInt32) (draw : UInt32 × Option UInt16) :
    Safe (r.enterQuery name depth callbacks opener caught idEntropy draw) := by
  have hpos : 0 < r.servers.length := List.length_pos_iff.2 hservers
  unfold enterQuery
  dsimp only
  split
  · exact ⟨h.inRange, h.never⟩
  · next port _ =>
    apply safe_sendQuery
    · exact ⟨h.inRange.insert port hpos, h.never⟩
    · exact hpos

theorem safe_release (h : Safe r) (port : UInt16) : Safe (r.release port) :=
  ⟨fun entry hentry => h.inRange entry (OrderedMap.mem_erase hentry), h.never⟩

theorem safe_finish (h : Safe r) (query : PendingQuery) (addresses : List IPv4Address) :
    Safe (r.finish query addresses) :=
  ⟨(safe_release h query.sourcePort).inRange, h.never⟩

/-- A step that leaves the list alone keeps the indices in it. -/
theorem safe_move (h : Safe r) (hmove : DnsMove r t) : Safe t := by
  cases hmove with
  | quiet => exact ⟨h.inRange, h.never⟩
  | answered => exact ⟨h.inRange, h.never⟩
  | joined hfind =>
    -- the query that is joined keeps its server
    have hindex := h.find hfind
    exact ⟨h.inRange.insert _ hindex, h.never⟩
  | opened name caught idEntropy hservers hfresh =>
    apply safe_enterQuery
    · exact ⟨h.inRange, h.never⟩
    · exact hservers
  | resent hidle hfind hretried =>
    apply safe_sendQuery
    · exact ⟨h.inRange, h.never⟩
    · rcases hretried with ⟨rfl, -⟩ | ⟨rfl, hnext⟩
      · exact h.find hfind
      · exact hnext
  | finished cache addresses hidle hfind =>
    apply safe_finish
    exact ⟨h.inRange, h.never⟩
  | chased name idEntropy hfind hdepth hfresh =>
    apply safe_enterQuery (safe_release h _)
    exact List.length_pos_iff.1 (Nat.zero_lt_of_lt (h.find hfind))
  | aged elapsedMs =>
    refine ⟨fun entry hentry => ?_, h.never⟩
    obtain ⟨before, hbefore, rfl⟩ := List.mem_map.1 hentry
    exact h.inRange before hbefore
  | called => exact ⟨h.inRange, h.never⟩
  | strayed hfind hindex =>
    exact absurd (h.find hfind) (Nat.not_lt.2 (List.getElem?_eq_none_iff.1 hindex))

/-- A new server list has a server for every index kept. -/
def KeepsServers : DnsStep → DnsResolver → Prop
  | .setServers servers, r => ∀ entry ∈ r.pending.entries, entry.2.serverIndex < servers.length
  | _, _ => True

instance (step : DnsStep) (r : DnsResolver) : Decidable (KeepsServers step r) := by
  cases step <;> unfold KeepsServers <;> infer_instance

theorem safe_step (step : DnsStep) (r t : DnsResolver) (h : Safe r) (hok : KeepsServers step r)
    (ht : step.run r = some t) : Safe t := by
  rcases move_run ht with ⟨servers, rfl, rfl⟩ | hmove
  · exact ⟨hok, h.never⟩
  · exact safe_move h hmove

theorem safe_runs {steps : List DnsStep} (h : Safe r) (hok : Runs.Along DnsStep.run KeepsServers steps r)
    (ht : Runs.runs DnsStep.run steps r = some t) : Safe t :=
  Runs.runs_invariant safe_step h hok ht

theorem keepsServers_of_keepsList {step : DnsStep} (h : KeepsList step) (r : DnsResolver) :
    KeepsServers step r := by
  cases step with
  | setServers servers => exact absurd rfl (h servers)
  | _ => trivial

theorem safe_runs_fixed {steps : List DnsStep} (h : Safe r) (hsteps : ∀ step ∈ steps, KeepsList step)
    (ht : Runs.runs DnsStep.run steps r = some t) : Safe t :=
  Runs.runs_invariant
    (fun step r t hsafe hstep => safe_step step r t hsafe (keepsServers_of_keepsList hstep.1 r))
    h (Runs.along_true.and_of_forall hsteps) ht

theorem outOfRange_of_datagram {entry : UInt16 × PendingQuery} (hagenda : r.agenda = [])
    (hentry : entry ∈ r.pending.entries) (hindex : r.servers.length ≤ entry.2.serverIndex)
    (source : IPv4Address) (payload : Bytes) :
    (DnsStep.datagram source serverPort entry.1 payload).run r = some { r with outOfRange := true } := by
  simp only [DnsStep.run, hagenda, if_true, onDatagram, OrderedMap.find?_of_mem hentry,
    List.getElem?_eq_none hindex, ne_eq, not_true_eq_false, if_false]

/-- **The indices of a list that changes.**  As long as every new list has a server for each
index kept, no index is out of range, and none is kept when the list is empty.  When the
resolver is at rest, a new list is safe for all that can follow exactly if it has a server for
each index kept. -/
theorem servers_replaced_safely {seed : UInt32} {servers : List IPv4Address} {steps : List DnsStep}
    {r : DnsResolver} (hrun : Runs.runs DnsStep.run steps (new seed servers) = some r)
    (hok : Runs.Along DnsStep.run KeepsServers steps (new seed servers)) :
    r.InRange ∧ r.outOfRange = false ∧ (r.servers = [] → r.pending.entries = []) ∧
    ∀ servers', r.agenda = [] →
      ((∀ steps' t, (∀ step ∈ steps', KeepsList step) →
        Runs.runs DnsStep.run (.setServers servers' :: steps') r = some t → t.outOfRange = false) ↔
      ∀ entry ∈ r.pending.entries, entry.2.serverIndex < servers'.length) := by
  have hsafe := safe_runs (safe_new seed servers) hok hrun
  refine ⟨hsafe.inRange, hsafe.never, fun hempty => ?_, fun servers' hagenda => ⟨fun hall => ?_, ?_⟩⟩
  · refine List.eq_nil_iff_forall_not_mem.2 fun entry hentry => ?_
    have hindex := hsafe.inRange entry hentry
    rw [hempty] at hindex
    exact Nat.not_lt_zero _ hindex
  · intro entry hentry
    by_contra hindex
    -- the datagram that finds the query reads past the end of the list
    have hbad := outOfRange_of_datagram (r := { r with servers := servers' }) hagenda hentry
      (Nat.le_of_not_lt hindex) {} []
    have hset : (DnsStep.setServers servers').run r = some { r with servers := servers' } := by
      simp only [DnsStep.run, calm, hagenda, if_true]
    have hcontra := hall [.datagram {} serverPort entry.1 []] _
      (by intro step hstep servers heq; simp_all)
      (by rw [Runs.runs, hset, Option.bind_some, Runs.runs, hbad]; rfl)
    exact absurd hcontra (by simp)
  · intro hlonger steps' t hsteps ht
    obtain ⟨r', hset, hrest⟩ := Option.bind_eq_some_iff.1 ht
    exact (safe_runs_fixed (safe_step (.setServers servers') r r' hsafe hlonger hset) hsteps hrest).never

theorem longer_list_runs : (Runs.runs DnsStep.run
    [.resolve [97] false, .setServers [⟨2⟩, ⟨3⟩], .timePassed 2000, .proceed] (new 1 [⟨1⟩])).isSome = true := by
  decide +kernel

theorem longer_list_safe : ∃ r, Runs.runs DnsStep.run
    [.resolve [97] false, .setServers [⟨2⟩, ⟨3⟩], .timePassed 2000, .proceed]
    (new 1 [⟨1⟩]) = some r ∧ r.InRange ∧ r.outOfRange = false := by
  have hrun := (Option.some_get longer_list_runs).symm
  obtain ⟨hindex, hnever, -⟩ := servers_replaced_safely hrun (by decide +kernel)
  exact ⟨_, hrun, hindex, hnever⟩

/-- A query that waits for the second of two servers when the list shrinks to one, and a query
that waits when the list becomes empty: the next retry reads past the end. -/
theorem shorter_list_read_past_end :
    ((Runs.runs DnsStep.run
      [.resolve [97] false, .timePassed 2000, .proceed, .timePassed 2000, .proceed,
        .setServers [⟨1⟩], .timePassed 2000, .proceed]
      (new 1 [⟨1⟩, ⟨2⟩])).map (·.outOfRange) = some true) ∧
    ((Runs.runs DnsStep.run [.resolve [97] false, .setServers [], .timePassed 2000, .proceed]
      (new 1 [⟨1⟩])).map (·.outOfRange) = some true) := by
  decide +kernel

end DnsResolver
end TcpIpStack
