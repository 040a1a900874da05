/-
# Replies that fail a test

`on_datagram` looks for the query pending on the destination port, and then tests the
source port, the source address, the message, its transaction id and its question, in this
order.  Nothing is written before the last test.  So a datagram that fails one of them
leaves the resolver as it was, and a run with such datagrams put in anywhere ends in the
state it ends in without them: the queries sent, the ports released and the callbacks called
are in the state with the rest.
-/

import TcpIpStack.Dns.AnswerOwners
import TcpIpStack.Dns.Servers

namespace TcpIpStack
namespace DnsResolver

variable {r : DnsResolver}

/-- A reply does not answer a query. -/
def Mismatched (query : PendingQuery) (message : Dns) : Prop :=
  message.isResponse = false ∨ message.id ≠ query.transactionId ∨
    ∀ question ∈ message.questions.head?, normalise question.name ≠ query.name

/-- A datagram that fails a test of the query pending on its destination port, if there is
one, while the resolver is at rest. -/
def Forged : DnsStep → DnsResolver → Prop
  | .datagram source sourcePort destinationPort payload, r =>
    r.agenda = [] ∧ ∀ query, r.pending.find? destinationPort = some query →
      sourcePort ≠ serverPort ∨ r.servers[query.serverIndex]? ≠ some source ∨
        ∀ message, Dns.fromBytes payload = .ok message → Mismatched query message
  | _, _ => False

theorem echoes_eq_false {query : PendingQuery} {message : Dns}
    (h : ∀ question ∈ message.questions.head?, normalise question.name ≠ query.name) :
    echoes message query = false := by
  unfold echoes
  cases hquestions : message.questions with
  | nil => rfl
  | cons question rest =>
    rw [hquestions] at h
    exact decide_eq_false (h question rfl)

theorem onDatagram_of_forged (hsafe : Safe r) {source : IPv4Address}
    {sourcePort destinationPort : UInt16} {payload : Bytes}
    (h : Forged (.datagram source sourcePort destinationPort payload) r) :
    r.onDatagram source sourcePort destinationPort payload = r := by
  unfold onDatagram
  cases hfind : r.pending.find? destinationPort with
  | none => rfl
  | some query =>
    have htest := h.2 query hfind
    have hlt := hsafe.find hfind
    have hindex := List.getElem?_eq_getElem hlt
    by_cases hport : sourcePort = serverPort
    swap
    · exact if_pos hport
    dsimp only
    rw [if_neg (not_not.2 hport), hindex]
    by_cases hsource : source = r.servers[query.serverIndex]
    swap
    · exact if_pos hsource
    dsimp only
    rw [if_neg (not_not.2 hsource)]
    cases hread : Dns.fromBytes payload with
    | error => rfl
    | ok message =>
      have hmismatch : Mismatched query message :=
        ((htest.resolve_left (not_not.2 hport)).resolve_left
          (not_not.2 (hindex.trans (congrArg some hsource.symm)))) message hread
      dsimp only
      rcases hmismatch with hresponse | hid | hname
      · rw [if_pos (.inl (by rw [hresponse]; exact Bool.false_ne_true))]
      · rw [if_pos (.inr hid)]
      · rw [echoes_eq_false hname]
        exact ite_self r

theorem run_of_forged (step : DnsStep) (r : DnsResolver) (hsafe : Safe r) (h : Forged step r) :
    step.run r = some r := by
  cases step with
  | datagram source sourcePort destinationPort payload =>
    rw [DnsStep.run, if_pos h.1, onDatagram_of_forged hsafe h]
  | _ => exact h.elim

/-- **Forged replies are invisible.**  A run with a fixed server list, and the same run with
forged datagrams put in anywhere, end in the same state. -/
theorem forged_replies_invisible {seed : UInt32} {servers : List IPv4Address}
    {steps steps' : List DnsStep} (hsteps : ∀ step ∈ steps, KeepsList step)
    (hforged : Runs.Interspersed DnsStep.run Forged (new seed servers) steps steps') :
    Runs.runs DnsStep.run steps' (new seed servers) = Runs.runs DnsStep.run steps (new seed servers) :=
  Runs.runs_interspersed
    (fun step r t hstep hsafe => safe_step step r t hsafe (keepsServers_of_keepsList hstep r))
    run_of_forged hforged hsteps (safe_new seed servers)

theorem first_query_runs : ((DnsStep.resolve [97] false).run (new 1 [⟨1⟩])).isSome = true := by
  decide +kernel

/-- A reply that would be accepted (`accepts_a`), from port 54 of the server it is asked of. -/
theorem wrong_port_invisible :
    Runs.runs DnsStep.run [.resolve [97] false, .datagram ⟨1⟩ 54 55200 (addressReply 97)] (new 1 [⟨1⟩]) =
      Runs.runs DnsStep.run [.resolve [97] false] (new 1 [⟨1⟩]) := by
  refine forged_replies_invisible ?_
    (.same (Option.some_get first_query_runs).symm (.extra ⟨?_, ?_⟩ (.done _)))
  · intro step hstep servers
    rw [List.mem_singleton.1 hstep]
    exact nofun
  · decide +kernel
  · exact fun _ _ => .inl (by decide)

end DnsResolver
end TcpIpStack
