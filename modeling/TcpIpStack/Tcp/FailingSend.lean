/-
# A callback that throws

`NetworkStack`'s `_send_segment` callback throws when the next hop's ARP entry
has aged out, and the stack goes on using the connection.  The statements after
the failing call do not run and the ones before it are not undone, so what is
left is the connection as it stood at that call.

`_send_flags` calls back before it records anything.  In `send` that is safe:
the chunk has not left the caller, and the accepted prefix ends before it.  The
acks, the probes and the retransmissions have nothing to record.  The other
callers of `_send_flags` have already acted on the segment when the callback
fails: `_send_queued_while_window_allows` has popped the chunk off the queue,
and `close`, `initiate_connect` and `accept_incoming_syn` have made their
transition.  If none of those calls fails, nothing is ever lost
(`failing_callback_loses_nothing`); if the drain's call fails, the chunk it had
popped is gone (`failing_drain_loses_its_chunk`).
-/

import TcpIpStack.Lib.Runs
import TcpIpStack.Tcp.Sender

namespace TcpIpStack

open Serial TcpConnection Session Runs

/-! ### Events whose callback may throw -/

/-- The calls of the callback made on the way from one session to another. -/
def Session.callsSince (x y : Session) : List Call := y.sent.drop x.sent.length

theorem Session.callsSince_eq {x y : Session} {calls : List Call} (h : y.sent = x.sent ++ calls) :
    x.callsSince y = calls := by
  simp [Session.callsSince, h]

/-- The call that throws, if the one chosen to fail is made at all. -/
def Session.failingCall (failing : Option ℕ) (x y : Session) : Option Call :=
  failing.bind fun i => (x.callsSince y)[i]?

/-- What is left when `call` throws on the way from `x` to `y`.  Of the argument
of a `send`, what was placed before the call counts as accepted; a `read`
returns nothing. -/
def Session.thrown (argument : Bytes) (failing : Option ℕ) (x y : Session) (call : Call) : Session where
  conn := call.conn
  sent := y.sent.take (x.sent.length + failing.getD 0)
  received := y.received
  entered := call.entered
  accepted := x.accepted ++ argument.take (call.accepted.length - x.accepted.length)
  retired := call.retired
  returned := x.returned

/-- The outcome of an operation that would take `x` to `y` and return `count`. -/
def Session.outcome (argument : Bytes) (count : ℕ) (failing : Option ℕ) (x y : Session) : Session :=
  match failingCall failing x y with
  | some call => thrown argument failing x y call
  | none => { y with accepted := x.accepted ++ argument.take count }

def Event.isSend : Event → Bool
  | .send _ => true
  | _ => false

/-- The bytes an event asks to be sent. -/
def Event.argument : Event → Bytes
  | .send data => data
  | _ => []

/-- The number of bytes `send` says it has accepted. -/
def Event.count (x : Session) : Event → ℕ
  | .send data => ((x.send data).map Prod.fst).getD 0
  | _ => 0

/-- An event whose call number `failing`, if there is one, throws. -/
def Event.runFailing (e : Event) (failing : Option ℕ) (x : Session) : Option Session :=
  (e.run x).map (outcome e.argument (e.count x) failing x)

/-- An opening whose call number `failing`, if there is one, throws. -/
def Opener.runFailing (o : Opener) (failing : Option ℕ) (x : Session) : Session :=
  outcome [] 0 failing x (o.run x)

/-- An event together with the choice of the call that fails. -/
abbrev Attempt := Event × Option ℕ

def Attempt.run (a : Attempt) (x : Session) : Option Session := a.1.runFailing a.2 x

/-! ### What must not be lost -/

/-- Every accepted byte that is not acknowledged is in flight or queued, in
order, and a SYN or FIN that is owed can be sent again. -/
structure Session.LosesNothing (x : Session) : Prop where
  stream : x.accepted = x.retired ++ x.conn.inFlight.flatMap (·.payload) ++ x.conn.sendQueue.flatten
  queued : x.conn.sendQueuedBytes = x.conn.sendQueue.flatten.length
  syn : x.conn.state = .synSent ∨ x.conn.state = .synReceived →
    ∃ s ∈ x.conn.inFlight, hasFlag s.flags flagSyn
  fin : x.conn.state = .finWait1 ∨ x.conn.state = .closing ∨ x.conn.state = .lastAck →
    ∃ s ∈ x.conn.inFlight, hasFlag s.flags flagFin

theorem Session.Kept.losesNothing {isn : UInt32} {x : Session} (h : x.Kept isn) : x.LosesNothing := by
  obtain ⟨phase, stream, queued, -, -⟩ := h
  have hmem {s : Flight} (hs : x.conn.core.flight = [s]) :
      ∃ e ∈ x.conn.inFlight, e.flags = s.flags := by
    obtain ⟨e, he, rfl⟩ := List.map_eq_singleton_iff.1 hs
    exact ⟨e, by simp [he], rfl⟩
  refine ⟨?_, queued, ?_, ?_⟩
  · rw [stream, flightBytes, core, List.flatMap_map]; rfl
  · rintro (hstate | hstate) <;> rw [Phase, core, hstate] at phase <;>
      obtain ⟨e, he, hflags⟩ := hmem phase.flight <;>
      exact ⟨e, he, by simp [hflags]⟩
  · rintro (hstate | hstate | hstate) <;> rw [Phase, core, hstate] at phase <;>
      obtain ⟨sacked, hflight⟩ := phase.flight <;>
      obtain ⟨e, he, hflags⟩ := hmem hflight <;>
      exact ⟨e, he, by simp [hflags]⟩

/-! ### The connection at each call -/

/-- The call may fail: it is not one of `_send_flags`, or it is one of `send`. -/
def Call.sparedIn (e : Event) (call : Call) : Bool := call.site ≠ .sendFlags || e.isSend

/-- What a call that fails leaves of the send side. -/
def Call.left (call : Call) : Session :=
  { conn := call.conn, accepted := call.accepted, retired := call.retired }

section Calls

variable {isn : UInt32} {e : Event} {s₀ : TcpState} {x y : Session}

/-- The calls that may fail are made with the accounts in order, and the others
are not. -/
def CallsKept (isn : UInt32) (e : Event) (calls : List Call) : Prop :=
  ∀ call ∈ calls, if call.sparedIn e then call.left.Kept isn else ¬ call.left.LosesNothing

theorem CallsKept.append {calls calls' : List Call} (h : CallsKept isn e calls)
    (h' : CallsKept isn e calls') : CallsKept isn e (calls ++ calls') := by
  intro call hcall
  rcases List.mem_append.1 hcall with hcall | hcall
  · exact h call hcall
  · exact h' call hcall

theorem Session.Kept.callsKept {call : Call} (h : call.left.Kept isn)
    (hspared : call.sparedIn e = true) : CallsKept isn e [call] := by
  intro call' hmem
  rw [List.mem_singleton.1 hmem, if_pos hspared]
  exact h

/-- A call of `_send_flags` outside `send` that is made after the send side has
changed. -/
theorem callsKept_of_not_losesNothing {call : Call} (h : ¬ call.left.LosesNothing)
    (hsite : call.site = .sendFlags) (hsend : e.isSend = false) : CallsKept isn e [call] := by
  intro call' hmem
  rw [List.mem_singleton.1 hmem, if_neg (by simp [Call.sparedIn, hsite, hsend])]
  exact h

theorem Session.Kept.not_losesNothing_popped {front : Bytes} {rest : List Bytes} {c : TcpConnection}
    (h : x.Kept isn) (hqueue : x.conn.sendQueue = front :: rest) (hflight : c.inFlight = x.conn.inFlight)
    (hrest : c.sendQueue = rest) :
    ¬ ({ conn := c, accepted := x.accepted, retired := x.retired } : Session).LosesNothing := by
  rintro ⟨hstream, -, -, -⟩
  have hkept := h.losesNothing.stream
  have hfront : front ≠ [] := h.chunks front (by simp [core, hqueue])
  simp only [hflight, hrest] at hstream
  rw [hqueue, hstream, List.append_cancel_left_eq, List.flatten_cons] at hkept
  exact hfront (List.self_eq_append_left.1 hkept)

theorem not_losesNothing_finless {z : Session}
    (hstate : z.conn.state = .finWait1 ∨ z.conn.state = .lastAck) (hflight : z.conn.inFlight = []) :
    ¬ z.LosesNothing := by
  rintro ⟨-, -, -, hfin⟩
  obtain ⟨s, hs, -⟩ := hfin (hstate.imp_right .inr)
  simp [hflight] at hs

/-- **At the calls that may fail the accounts are in order, and at no others.** -/
theorem Effect.callsKept (h : x.Kept isn) (he : Effect e s₀ x y) :
    ∃ calls, y.sent = x.sent ++ calls ∧ CallsKept isn e calls := by
  rcases he.emits with hsame | ⟨call, hsent, hemits⟩
  · exact ⟨[], by simp [hsame], by simp [CallsKept]⟩
  refine ⟨[call], hsent, ?_⟩
  cases hemits with
  | ack | probe | keepalive => exact Session.Kept.callsKept h rfl
  | retransmit site s hsite => exact Session.Kept.callsKept h (by rcases hsite with rfl | rfl <;> rfl)
  | drain t front rest c hsegment hqueue _ hc =>
    subst hc
    exact callsKept_of_not_losesNothing (h.not_losesNothing_popped hqueue rfl rfl) rfl (by rw [hsegment]; rfl)
  | fin z hsend _ hflight _ _ hz =>
    subst hz
    refine callsKept_of_not_losesNothing (not_losesNothing_finless ?_ hflight) rfl ?_
    · simp only [Call.left, transition]
      split_ifs <;> simp
    · cases e with
      | send data => exact absurd rfl (hsend data)
      | _ => rfl
  | place chunk data hdata => exact Session.Kept.callsKept h (by rw [hdata]; rfl)
  | finAck c entered _ hstate hcore =>
    -- the ack goes out before or after the transition: the send side is the same
    have hphase : sendPhase c.state = sendPhase x.conn.state := by
      rcases hstate with hstate | hstate
      · rw [hstate]
      · rw [hstate, sendPhase_stateAfterFin]
    refine Session.Kept.callsKept ?_ rfl
    rw [Session.Kept, Call.left, hcore]
    exact Bookkeeping.congr h hphase rfl rfl rfl rfl rfl

theorem Steps.callsKept (h : x.Kept isn) (hsteps : Steps e s₀ x y) :
    y.Kept isn ∧ ∃ calls, y.sent = x.sent ++ calls ∧ CallsKept isn e calls := by
  refine hsteps.preserves
    (P := fun z => z.Kept isn ∧ ∃ calls, z.sent = x.sent ++ calls ∧ CallsKept isn e calls) ?_
    ⟨h, [], by simp, by simp [CallsKept]⟩
  rintro y z he ⟨hy, calls, hsent, hcalls⟩
  obtain ⟨calls', hsent', hcalls'⟩ := he.callsKept hy
  exact ⟨hy.effect he, calls ++ calls', by simp [hsent', hsent], hcalls.append hcalls'⟩

/-- An event that is not a `send` accepts nothing. -/
theorem Effect.accepted_eq (hsend : e.isSend = false) (he : Effect e s₀ x y) :
    y.accepted = x.accepted ∧ Calls (·.accepted = x.accepted) x y := by
  refine ⟨?_, he.calls fun call hcall => ?_⟩
  · cases he with
    | place chunk data hdata => rw [hdata] at hsend; cases hsend
    | consumeFin =>
      obtain ⟨-, heq⟩ | ⟨c, entered, -, -, -, heq⟩ := consumeFin_cases x
      · rw [heq]
        rfl
      · rw [heq]
    | slide t =>
      obtain ⟨_, _, -, -, -, -, haccepted, -⟩ := core_slide t x
      exact haccepted
    | _ => rfl
  · cases hcall with
    | fin z _ _ _ _ _ hz => rw [hz]; rfl
    | _ => rfl

theorem Steps.accepted_eq (hsend : e.isSend = false) (hsteps : Steps e s₀ x y) :
    y.accepted = x.accepted ∧ Calls (·.accepted = x.accepted) x y := by
  refine hsteps.preserves (P := fun z => z.accepted = x.accepted ∧ Calls (·.accepted = x.accepted) x z) ?_
    ⟨rfl, .none rfl⟩
  rintro y z he ⟨hy, hcalls⟩
  obtain ⟨hz, hcalls'⟩ := he.accepted_eq hsend
  exact ⟨hz.trans hy, hcalls.trans (hy ▸ hcalls')⟩

/-- **What an event has accepted is a prefix of its argument**: the bytes it
says, when it returns, and some of them at each call of the callback. -/
theorem Event.run_accepted (h : e.run x = some y) : y.accepted = x.accepted ++ e.argument.take (e.count x) ∧
      ∃ calls, y.sent = x.sent ++ calls ∧
        ∀ call ∈ calls, ∃ n, call.accepted = x.accepted ++ e.argument.take n := by
  cases hsend : e.isSend with
  | true =>
    cases e with
    | send data =>
      obtain ⟨⟨n, z⟩, hz, rfl⟩ := Option.map_eq_some_iff.1 h
      simpa [Event.argument, Event.count, hz] using send_record hz
    | _ => cases hsend
  | false =>
    have harg : e.argument = [] := by
      cases e with
      | send => cases hsend
      | _ => rfl
    obtain ⟨haccepted, calls, hsent, hcalls⟩ := (Event.run_steps h).accepted_eq hsend
    refine ⟨by simp [haccepted, harg], calls, hsent, fun call hcall => ⟨0, ?_⟩⟩
    simp [hcalls call hcall]

end Calls

/-! ### Runs -/

/-- The attempt's failing call, if there is one, is not `_send_flags`'s own,
except in `send`. -/
def Attempt.spared (a : Attempt) (x : Session) : Prop :=
  ∀ y ∈ a.1.run x, ∀ call ∈ failingCall a.2 x y, call.sparedIn a.1

instance (a : Attempt) (x : Session) : Decidable (a.spared x) :=
  inferInstanceAs (Decidable (∀ y ∈ a.1.run x, ∀ call ∈ failingCall a.2 x y, call.sparedIn a.1))

theorem Session.mem_callsSince {failing : Option ℕ} {x y : Session} {call : Call}
    (h : failingCall failing x y = some call) : call ∈ x.callsSince y := by
  obtain ⟨i, -, hi⟩ := Option.bind_eq_some_iff.1 h
  exact List.mem_of_getElem? hi

/-- What an attempt leaves: the accounts in order, or the send side of an
unspared call. -/
theorem Session.Kept.attempt_cases {isn : UInt32} {a : Attempt} {x y : Session} (h : x.Kept isn)
    (hrun : a.run x = some y) : a.spared x ∧ y.Kept isn ∨ ¬ a.spared x ∧ ¬ y.LosesNothing := by
  obtain ⟨z, hz, rfl⟩ := Option.map_eq_some_iff.1 hrun
  obtain ⟨haccepted, calls, hsent, hprefix⟩ := Event.run_accepted hz
  obtain ⟨hkept, calls', hsent', hcalls⟩ := (Event.run_steps hz).callsKept h
  obtain rfl : calls' = calls := List.append_cancel_left (hsent' ▸ hsent)
  have hspared : a.spared x ↔ ∀ call ∈ failingCall a.2 x z, call.sparedIn a.1 := by
    simp [Attempt.spared, hz]
  rw [hspared]
  unfold outcome
  cases hfailing : failingCall a.2 x z with
  | none => exact .inl ⟨by simp, by rwa [← haccepted]⟩
  | some call =>
    have hmem : call ∈ calls' := callsSince_eq hsent ▸ mem_callsSince hfailing
    obtain ⟨n, hn⟩ := hprefix call hmem
    have hplaced : x.accepted ++ a.1.argument.take (call.accepted.length - x.accepted.length) =
        call.accepted := by
      rw [hn, List.length_append, Nat.add_sub_cancel_left, List.length_take, ← List.take_take,
        List.take_length]
    have hleft := hcalls call hmem
    by_cases hsp : call.sparedIn a.1
    · rw [if_pos hsp] at hleft
      refine .inl ⟨by simpa using hsp, ?_⟩
      simp only [Session.Kept, thrown, hplaced]
      exact hleft
    · rw [if_neg hsp] at hleft
      refine .inr ⟨by simpa using hsp, ?_⟩
      rintro ⟨stream, queued, syn, fin⟩
      exact hleft ⟨hplaced.symm.trans stream, queued, syn, fin⟩

/-- An opener whose call fails leaves a state that owes a SYN it cannot send. -/
theorem Opener.not_losesNothing_thrown (o : Opener) {failing : Option ℕ} {x : Session} {call : Call}
    (hflight : x.conn.inFlight = []) (hcall : failingCall failing x (o.run x) = some call) :
    ¬ (o.runFailing failing x).LosesNothing := by
  rintro ⟨-, -, hsyn, -⟩
  have hmem := mem_callsSince hcall
  rw [Opener.runFailing, outcome, hcall] at hsyn
  have hopened : call.conn.inFlight = [] ∧
      (call.conn.state = .synSent ∨ call.conn.state = .synReceived) := by
    cases o with
    | active =>
      rw [callsSince_eq rfl] at hmem
      rw [List.mem_singleton.1 hmem]
      exact ⟨hflight, .inl rfl⟩
    | passive options =>
      rw [callsSince_eq rfl] at hmem
      rw [List.mem_singleton.1 hmem]
      exact ⟨hflight, .inr rfl⟩
  obtain ⟨s, hs, -⟩ := hsyn hopened.2
  simp [thrown, hopened.1] at hs

/-- **A callback that fails loses nothing exactly as long as `_send_flags` is
spared** outside `send`.  The opener must not fail.  Then after every event of a
run that spares `_send_flags`, returned or thrown, the bytes in flight and in
the queue are the accepted ones that are not acknowledged, and a SYN or FIN that
is owed is in flight; and the first attempt that does not spare it loses
something. -/
theorem failing_callback_loses_nothing (localPort remotePort : UInt16) (initialSeq : UInt32)
    (localMss : UInt16) (algorithm : CongestionControlAlgorithm) (o : Opener) (failing : Option ℕ)
    (x : Session) (hx : x = .fresh localPort remotePort initialSeq localMss algorithm) :
    ((o.runFailing failing x).LosesNothing ↔ failingCall failing x (o.run x) = none) ∧
      ∀ (attempts : List Attempt) (y : Session), failingCall failing x (o.run x) = none →
        Along Attempt.run Attempt.spared attempts (o.runFailing failing x) →
        runs Attempt.run attempts (o.runFailing failing x) = some y →
        y.LosesNothing ∧
          ∀ (a : Attempt) (z : Session), a.run y = some z → (z.LosesNothing ↔ a.spared y) := by
  have hkept (hopen : failingCall failing x (o.run x) = none) :
      (o.runFailing failing x).Kept initialSeq := by
    have hopened := kept_open o localPort remotePort initialSeq localMss algorithm
    rw [← hx] at hopened
    have haccepted : (o.run x).accepted = x.accepted := by cases o <;> rfl
    rw [Opener.runFailing, outcome, hopen]
    simpa [← haccepted] using hopened
  refine ⟨⟨fun h => ?_, fun hopen => (hkept hopen).losesNothing⟩, ?_⟩
  · by_contra hopen
    obtain ⟨call, hcall⟩ := Option.ne_none_iff_exists'.1 hopen
    exact o.not_losesNothing_thrown (by rw [hx]; rfl) hcall h
  · intro attempts y hopen hspared hrun
    have hy : y.Kept initialSeq := by
      refine runs_invariant (fun a s t hs hok hst => ?_) (hkept hopen) hspared hrun
      exact (hs.attempt_cases hst).resolve_right (fun h => h.1 hok) |>.2
    refine ⟨hy.losesNothing, fun a z hz => ?_⟩
    rcases hy.attempt_cases hz with ⟨hsp, hz⟩ | ⟨hsp, hz⟩
    · exact iff_of_true hz.losesNothing hsp
    · exact iff_of_false hz hsp

/-- The callback fails in `send` and in a retransmission. -/
theorem failing_callback_loses_nothing_timeout :
    ∃ y, runs Attempt.run
        [(.segment (Tcp.ofFlags 9000 80 8 101 5 flagAck 1000 0 0), none), (.send [1, 2, 3, 4], some 0),
          (.send [1, 2], none), (.timePassed 2000, some 0)]
        ((Opener.passive { peerIsn := 7 }).runFailing none (.fresh 80 9000 100 2 .reno)) = some y ∧
      y.LosesNothing ∧ y.accepted = [1, 2] := by
  have hloses := (failing_callback_loses_nothing 80 9000 100 2 .reno (.passive { peerIsn := 7 }) none _
    rfl).2 [(.segment (Tcp.ofFlags 9000 80 8 101 5 flagAck 1000 0 0), none),
      (.send [1, 2, 3, 4], some 0), (.send [1, 2], none), (.timePassed 2000, some 0)]
  refine ⟨_, rfl, (hloses _ rfl (by decide +kernel) rfl).1, ?_⟩
  decide +kernel

/-- The cumulative ack of the first chunk drains the queue; the callback fails
there, and the chunk `[3, 4]` is neither in flight nor in the queue. -/
theorem failing_drain_loses_its_chunk :
    ∃ y, runs Attempt.run
        [(.segment (Tcp.ofFlags 9000 80 8 101 5 flagAck 1000 0 0), none), (.send [1, 2, 3, 4], none),
          (.segment (Tcp.ofFlags 9000 80 8 103 5 flagAck 1000 0 0), some 0)]
        ((Opener.passive { peerIsn := 7 }).runFailing none (.fresh 80 9000 100 2 .reno)) = some y ∧
      y.accepted = [1, 2, 3, 4] ∧ y.retired = [1, 2] ∧ y.conn.inFlight = [] ∧ y.conn.sendQueue = [] ∧
      ¬ y.LosesNothing := by
  refine ⟨_, rfl, by decide +kernel, by decide +kernel, by decide +kernel, by decide +kernel, ?_⟩
  rintro ⟨hstream, -, -, -⟩
  exact absurd hstream (by decide +kernel)

end TcpIpStack
