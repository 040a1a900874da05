/-
# The states a connection enters

A connection changes its state only by `_transition`, so its state is always the
last one it has entered.  Only `accept_incoming_syn` enters `SYN_RECEIVED`, only
`initiate_connect` enters `SYN_SENT`, and only a segment that finds the
connection in one of the two enters `ESTABLISHED` (`Proceeds`).

That holds for the way from a session to any later point: to the end of an event
(`Event.run_walks`), and to each call of the callback on the way, which is where
the connection is left when that call throws (`Walks.outcome`).
-/

import TcpIpStack.Tcp.FailingSend

namespace TcpIpStack

open TcpConnection Session

/-- From `x` on, the states of a list are entered, `SYN_RECEIVED` not among them,
and the state is the last of them. -/
def Reaches (x : Session) (c : TcpConnection) (entered : List TcpState) : Prop :=
  ∃ l, entered = x.entered ++ l ∧ .synReceived ∉ l ∧ c.state = l.getLast?.getD x.conn.state

/-- The same, without going back to a handshake; and the only one that may be
completed is that of an active open. -/
def Continues (x : Session) (c : TcpConnection) (entered : List TcpState) : Prop :=
  ∃ l, entered = x.entered ++ l ∧ .synReceived ∉ l ∧ .synSent ∉ l ∧
    (.established ∈ l → x.conn.state = .synSent) ∧ c.state = l.getLast?.getD x.conn.state

/-- What an event does: it does not go back to a handshake, and a segment may
complete one. -/
def Proceeds (e : Event) (x : Session) (c : TcpConnection) (entered : List TcpState) : Prop :=
  ∃ l, entered = x.entered ++ l ∧ .synReceived ∉ l ∧ .synSent ∉ l ∧
    (.established ∈ l → (∃ t, e = .segment t) ∧
      (x.conn.state = .synSent ∨ x.conn.state = .synReceived)) ∧
    c.state = l.getLast?.getD x.conn.state

section Reaches

variable {e : Event} {x y : Session} {c : TcpConnection} {entered : List TcpState}

theorem Continues.reaches (h : Continues x c entered) : Reaches x c entered := by
  obtain ⟨l, hl, hreceived, -, -, hstate⟩ := h
  exact ⟨l, hl, hreceived, hstate⟩

theorem Proceeds.reaches (h : Proceeds e x c entered) : Reaches x c entered := by
  obtain ⟨l, hl, hreceived, -, -, hstate⟩ := h
  exact ⟨l, hl, hreceived, hstate⟩

theorem Proceeds.synSent (h : Proceeds e x c entered) (hmem : TcpState.synSent ∈ entered) :
    TcpState.synSent ∈ x.entered := by
  obtain ⟨l, hl, -, hsent, -, -⟩ := h
  rw [hl] at hmem
  exact (List.mem_append.1 hmem).resolve_right hsent

theorem Proceeds.continues (h : Proceeds e x c entered)
    (hother : (∀ t, e ≠ .segment t) ∨ x.conn.state ≠ .synReceived) : Continues x c entered := by
  obtain ⟨l, hl, hreceived, hsent, hest, hstate⟩ := h
  refine ⟨l, hl, hreceived, hsent, fun hmem => ?_, hstate⟩
  obtain ⟨⟨t, rfl⟩, hhandshake⟩ := hest hmem
  rcases hother with hother | hother
  · exact absurd rfl (hother t)
  · exact hhandshake.resolve_right hother

theorem Proceeds.of_eq (hstate : c.state = x.conn.state) (hentered : entered = x.entered) :
    Proceeds e x c entered := ⟨[], by simp [hentered], by simp, by simp, by simp, by simp [hstate]⟩

theorem Proceeds.of_transition (newState : TcpState) (hstate : c.state = newState)
    (hentered : entered = x.entered ++ [newState])
    (hnew : newState ≠ .synReceived ∧ newState ≠ .synSent ∧ newState ≠ .established) :
    Proceeds e x c entered := by
  refine ⟨[newState], hentered, ?_, ?_, fun hmem => ?_, by simp [hstate]⟩
  · simpa using hnew.1.symm
  · simpa using hnew.2.1.symm
  · exact absurd (List.mem_singleton.1 hmem).symm hnew.2.2

theorem Proceeds.of_establish {t : Tcp} (he : e = .segment t)
    (hbefore : x.conn.state = .synSent ∨ x.conn.state = .synReceived) (hstate : c.state = .established)
    (hentered : entered = x.entered ++ [.established]) : Proceeds e x c entered :=
  ⟨[.established], hentered, by simp, by simp, fun _ => ⟨⟨t, he⟩, hbefore⟩, by simp [hstate]⟩

theorem Proceeds.trans (h : Proceeds e x y.conn y.entered) (h' : Proceeds e y c entered) :
    Proceeds e x c entered := by
  obtain ⟨l, hl, hreceived, hsent, hest, hstate⟩ := h
  obtain ⟨l', hl', hreceived', hsent', hest', hstate'⟩ := h'
  refine ⟨l ++ l', by rw [hl', hl, List.append_assoc], by simp [hreceived, hreceived'],
    by simp [hsent, hsent'], fun hmem => ?_, ?_⟩
  · rcases List.mem_append.1 hmem with hmem | hmem
    · exact hest hmem
    · -- the second part completes a handshake, so the first has entered nothing
      obtain ⟨hsegment, hhandshake⟩ := hest' hmem
      refine ⟨hsegment, ?_⟩
      cases hlast : l.getLast? with
      | none => rwa [hstate, hlast, Option.getD_none] at hhandshake
      | some state =>
        rw [hstate, hlast, Option.getD_some] at hhandshake
        have hmem := List.mem_of_getLast? hlast
        rcases hhandshake with rfl | rfl
        · exact absurd hmem hsent
        · exact absurd hmem hreceived
  · rw [hstate', hstate, List.getLast?_append, Option.getD_or]

end Reaches

/-- From `x` to `y`, and to every call of the callback on the way. -/
structure Walks (P : Session → TcpConnection → List TcpState → Prop) (x y : Session) : Prop where
  reaches : P x y.conn y.entered
  calls : ∃ calls, y.sent = x.sent ++ calls ∧ ∀ call ∈ calls, P x call.conn call.entered

section Walks

variable {P : Session → TcpConnection → List TcpState → Prop} {e : Event} {s₀ : TcpState}
  {x y z : Session}

theorem Walks.silent (h : P x y.conn y.entered) (hsent : y.sent = x.sent) : Walks P x y :=
  ⟨h, [], by simp [hsent], by simp⟩

theorem Walks.trans (htrans : ∀ c entered, P x y.conn y.entered → P y c entered → P x c entered)
    (h : Walks P x y) (h' : Walks P y z) : Walks P x z := by
  obtain ⟨calls, hsent, hcalls⟩ := h.calls
  obtain ⟨calls', hsent', hcalls'⟩ := h'.calls
  refine ⟨htrans _ _ h.reaches h'.reaches, calls ++ calls', by rw [hsent', hsent, List.append_assoc], ?_⟩
  intro call hcall
  rcases List.mem_append.1 hcall with hcall | hcall
  · exact hcalls call hcall
  · exact htrans _ _ h.reaches (hcalls' call hcall)

/-- **What the effects of an event do at every call, the event does.** -/
theorem Event.walks_of_effects (hrefl : P x x.conn x.entered)
    (htrans : ∀ y c entered, P x y.conn y.entered → P y c entered → P x c entered)
    (heffect : ∀ y z, Effect e x.conn.state y z → Walks P y z) (h : e.run x = some y) : Walks P x y := by
  have hsteps := Event.run_steps h
  clear h
  induction hsteps with
  | refl => exact .silent hrefl rfl
  | tail _ he ih => exact ih.trans (htrans _) (heffect _ _ he)

theorem Walks.sends {call : Call} (h : P x y.conn y.entered) (hsent : y.sent = x.sent ++ [call])
    (hcall : P x call.conn call.entered) : Walks P x y :=
  ⟨h, [call], hsent, by simpa using hcall⟩

theorem walks_placeChunk (chunk : Bytes) (x : Session) : Walks (Proceeds e) x (x.placeChunk chunk) := by
  unfold placeChunk
  dsimp only
  split_ifs
  · exact .silent (.of_eq rfl rfl) rfl
  · exact .sends (.of_eq rfl rfl) rfl (.of_eq rfl rfl)

theorem walks_sendFin (x : Session) : Walks (Proceeds e) x x.sendFin := by
  have hstate : ∀ newState, newState = (if x.conn.state = .established then TcpState.finWait1 else .lastAck) →
      newState ≠ .synReceived ∧ newState ≠ .synSent ∧ newState ≠ .established := by
    rintro _ rfl
    split_ifs <;> decide
  exact .sends (.of_transition _ rfl rfl (hstate _ rfl)) rfl (.of_transition _ rfl rfl (hstate _ rfl))

theorem walks_consumeFin (x : Session) : Walks (Proceeds e) x x.consumeFin := by
  unfold consumeFin
  split
  · exact .sends (.of_transition .closeWait rfl rfl (by decide)) rfl
      (.of_transition .closeWait rfl rfl (by decide))
  · exact .sends (.of_transition .timeWait rfl rfl (by decide)) rfl (.of_eq rfl rfl)
  · exact .sends (.of_transition .closing rfl rfl (by decide)) rfl (.of_eq rfl rfl)
  · exact .silent (.of_eq rfl rfl) rfl

theorem walks_slide (t : Tcp) (x : Session) : Walks (Proceeds e) x (x.slide t) := by
  have hstate : (x.retireAcked t).conn.state = x.conn.state := congrArg Core.state (core_retireAcked t x)
  obtain ⟨newState, hfin, heq⟩ | heq := slide_cases t x
  · rw [heq]
    refine .silent (.of_transition newState rfl rfl ?_) rfl
    rcases hfin with ⟨-, rfl⟩ | ⟨-, rfl⟩ | ⟨-, rfl⟩ <;> decide
  · rw [heq]
    exact .silent (.of_eq hstate rfl) rfl

theorem Effect.walks (he : Effect e s₀ x y) : Walks (Proceeds e) x y := by
  cases he with
  | quiet c hcore => exact .silent (.of_eq (congrArg Core.state hcore).symm rfl) rfl
  | scoreboard t => exact .silent (.of_eq (applySackBlocks_state t x.conn) rfl) rfl
  | place chunk => exact walks_placeChunk chunk x
  | fin => exact walks_sendFin x
  | slide t => exact walks_slide t x
  | consumeFin => exact walks_consumeFin x
  | buffer t =>
    simp only [Session.modify, bufferOutOfOrder]
    split_ifs <;> exact .silent (.of_eq rfl rfl) rfl
  | lowerMss pathMss =>
    simp only [Session.modify, reduceEffectiveMss]
    split_ifs <;> exact .silent (.of_eq rfl rfl) rfl
  | establishActive t hsegment hstate =>
    exact .silent (.of_establish hsegment (.inl hstate) rfl rfl) rfl
  | establishPassive t hsegment hstate =>
    exact .silent (.of_establish hsegment (.inr hstate) rfl rfl) rfl
  | abort => exact .silent (.of_transition .closed rfl rfl (by decide)) rfl
  | ack | probe | keepalive | retransmit | drain => exact .sends (.of_eq rfl rfl) rfl (.of_eq rfl rfl)
  | receive | holdAck | window | deliver | unblock | take => exact .silent (.of_eq rfl rfl) rfl

/-- **An event only moves forward**, at every call of the callback too. -/
theorem Event.run_walks (h : e.run x = some y) : Walks (Proceeds e) x y :=
  Event.walks_of_effects (.of_eq rfl rfl) (fun _ _ _ h h' => h.trans h') (fun _ _ he => he.walks) h

theorem walks_initiateConnect (x : Session) : Walks Reaches x x.initiateConnect := by
  have hreaches (c : TcpConnection) (hc : c.state = .synSent) : Reaches x c (x.entered ++ [.synSent]) :=
    ⟨[.synSent], rfl, by simp, by simp [hc]⟩
  exact .sends (hreaches _ rfl) rfl (hreaches _ rfl)

/-- In `SYN_RECEIVED` nothing is sent in answer to a segment, and if that segment
completes the handshake the state says so. -/
theorem onSegment_of_synReceived (t : Tcp) (h : x.conn.state = .synReceived) :
    (x.onSegment t).sent = x.sent ∧ ((x.onSegment t).conn.state = .established ∨
      Continues x (x.onSegment t).conn (x.onSegment t).entered) := by
  have hstate : (x.noteArrival t).conn.state = .synReceived := h
  unfold Session.onSegment Session.dispatch
  rw [hstate]
  split_ifs
  · unfold handleRst
    dsimp only
    rw [if_neg (by simp [hstate])]
    exact ⟨rfl, .inr ⟨[.closed], rfl, by simp, by simp, by simp, rfl⟩⟩
  · dsimp only
    unfold handleSynReceived
    split_ifs
    · exact ⟨rfl, .inl rfl⟩
    · exact ⟨rfl, .inr ⟨[], (List.append_nil _).symm, by simp, by simp, by simp, hstate.trans h.symm⟩⟩

theorem Walks.outcome (h : Walks P x y) (argument : Bytes) (count : ℕ) (failing : Option ℕ) :
    P x (Session.outcome argument count failing x y).conn
      (Session.outcome argument count failing x y).entered := by
  obtain ⟨calls, hsent, hcalls⟩ := h.calls
  unfold Session.outcome
  cases hfailing : failingCall failing x y with
  | none => exact h.reaches
  | some call =>
    obtain ⟨i, -, hi⟩ := Option.bind_eq_some_iff.1 hfailing
    rw [callsSince_eq hsent] at hi
    exact hcalls call (List.mem_of_getElem? hi)

end Walks

end TcpIpStack
