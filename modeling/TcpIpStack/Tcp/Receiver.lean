/-
# The receive side and its peer

What a connection receives is what its peer accepted, in order.  The peer is
seen through four things (`View`): its initial sequence number, the bytes its
`send` has accepted, whether it can accept no more, and how far it has got
with what it receives from here.  A segment is honest (`Honest`) if it says of
its sender what is true: its payload stands in the accepted stream at the place
its sequence number names, a FIN stands at the end of a stream that has ended,
and its ack names a place the sender has reached.

`Receiving v p x` is the state of the receive side: `p` sequence numbers past
the SYN have been taken, the delivered bytes are a prefix of the peer's stream,
and everything in the reorder buffer stands in the stream where its key says.
Every effect of an honest segment keeps that (`Receiving.effect`), also where
the source compares sequence numbers without regard to the wrap.
-/

import TcpIpStack.Tcp.Sender

namespace TcpIpStack

open Serial TcpConnection Session

/-! ### Honest segments -/

/-- A segment tells the truth about its sender: `isn` and `accepted` are the
sender's, `ended` says that it accepts nothing more, `peerIsn` is the receiver's,
and the sender has taken `progress` sequence numbers past the receiver's SYN. -/
structure Honest (isn peerIsn : UInt32) (accepted : Bytes) (ended : Prop) (progress : ℕ) (t : Tcp) :
    Prop where
  rst : t.rst = false
  syn : t.syn → t.sequenceNumber = isn
  data : t.payload ≠ [] →
    ∃ n, t.sequenceNumber = after isn (1 + n) ∧ Chunk.At accepted n t.payload
  fin : t.fin → ended ∧ t.payload = [] ∧ t.sequenceNumber = after isn (1 + accepted.length)
  ack : t.ack → ∃ q ≤ progress, t.acknowledgementNumber = after peerIsn (1 + q)

/-- What was true when a segment was sent stays true. -/
theorem Honest.mono {isn peerIsn : UInt32} {accepted accepted' : Bytes} {ended ended' : Prop}
    {p p' : ℕ} {t : Tcp} (h : Honest isn peerIsn accepted ended p t) (haccepted : accepted <+: accepted')
    (hover : ended → ended' ∧ accepted' = accepted) (hp : p ≤ p') :
    Honest isn peerIsn accepted' ended' p' t where
  rst := h.rst
  syn := h.syn
  data := by
    intro hpayload
    obtain ⟨n, hseq, hat⟩ := h.data hpayload
    obtain ⟨more, rfl⟩ := haccepted
    exact ⟨n, hseq, hat.append more⟩
  fin := by
    intro hfin
    obtain ⟨ho, hpayload, hseq⟩ := h.fin hfin
    obtain ⟨ho', heq⟩ := hover ho
    exact ⟨ho', hpayload, by rw [heq, hseq]⟩
  ack := by
    intro hack
    obtain ⟨q, hq, hseq⟩ := h.ack hack
    exact ⟨q, hq.trans hp, hseq⟩

/-- The peer, as far as a connection can rely on it. -/
structure View where
  isn : UInt32
  stream : Bytes
  ended : Prop
  progress : ℕ

/-- The segments an honest peer sends to a connection with initial sequence
number `isn`. -/
def View.Sends (v : View) (isn : UInt32) (t : Tcp) : Prop :=
  Honest v.isn isn v.stream v.ended v.progress t

/-- The peer has moved on. -/
structure View.Le (v w : View) : Prop where
  isn : w.isn = v.isn
  stream : v.stream <+: w.stream
  ended : v.ended → w.ended ∧ w.stream = v.stream
  progress : v.progress ≤ w.progress

/-! ### The receive side -/

/-- What the application has been given, or will be given by the next `read`. -/
def Session.delivered (x : Session) : Bytes := x.returned ++ x.conn.receiveQueue.flatten

/-- The states as the receive side sees them. -/
inductive RecvPhase
  | unopened
  | reading
  | finished
  | closed

/-- The phase of the receiving half in each state. -/
def recvPhase : TcpState → RecvPhase
  | .listen | .synSent => .unopened
  | .synReceived | .established | .finWait1 | .finWait2 => .reading
  | .closeWait | .closing | .lastAck | .timeWait => .finished
  | .closed => .closed

/-- The peer's initial sequence number is known: `RCV.NXT` has been set. -/
def Session.Opened (x : Session) : Prop := .established ∈ x.entered ∨ .synReceived ∈ x.entered

/-- The states entered by consuming the peer's FIN. -/
def Session.EnteredByFin (x : Session) : Prop :=
  .closeWait ∈ x.entered ∨ .closing ∈ x.entered ∨ .timeWait ∈ x.entered

/-- How many sequence numbers past the SYN a receive side has taken when it has
delivered `n` bytes. -/
def RecvPhase.taken (n p : ℕ) : RecvPhase → Prop
  | .unopened => p = 0
  | .reading => p = n
  | .finished => p = n + 1
  | .closed => True

/-- The receive side of a connection that has taken `p` sequence numbers past
the peer's SYN. -/
structure Receiving (v : View) (p : ℕ) (x : Session) : Prop where
  delivered : x.delivered <+: v.stream
  progress : p = x.delivered.length ∨ p = x.delivered.length + 1 ∧ x.delivered = v.stream ∧ v.ended
  next : x.Opened → x.conn.recvNext = after v.isn (1 + p)
  opened : recvPhase x.conn.state = .reading ∨ recvPhase x.conn.state = .finished → x.Opened
  phase : (recvPhase x.conn.state).taken x.delivered.length p
  byFin : x.EnteredByFin → p = x.delivered.length + 1
  reorder : ∀ entry ∈ x.conn.reorderBuffer.entries, entry.2 ≠ [] ∧
    ∃ n, entry.1 = after v.isn (1 + n) ∧ Chunk.At v.stream n entry.2
  pending : x.conn.ackPending → x.Opened

section Receiving

variable {v : View} {p : ℕ} {x y : Session} {e : Event} {s₀ : TcpState} {isn : UInt32}

theorem Receiving.view_mono (h : Receiving v p x) {w : View} (hw : v.Le w) : Receiving w p x := by
  obtain ⟨hisn, hstream, hover, -⟩ := hw
  refine ⟨h.delivered.trans hstream, ?_, hisn ▸ h.next, h.opened, h.phase, h.byFin, ?_, h.pending⟩
  · rcases h.progress with hp | ⟨hp, hall, ho⟩
    · exact .inl hp
    · obtain ⟨ho', heq⟩ := hover ho
      exact .inr ⟨hp, by rw [heq, hall], ho'⟩
  · intro entry hentry
    obtain ⟨hne, n, hkey, hat⟩ := h.reorder entry hentry
    obtain ⟨more, hmore⟩ := hstream
    exact ⟨hne, n, hisn ▸ hkey, hmore ▸ hat.append more⟩

theorem Receiving.congr (h : Receiving v p x) (hdelivered : y.delivered = x.delivered)
    (hnext : y.conn.recvNext = x.conn.recvNext) (hreorder : y.conn.reorderBuffer = x.conn.reorderBuffer)
    (hstate : recvPhase y.conn.state = recvPhase x.conn.state) (hopened : y.Opened ↔ x.Opened)
    (hbyFin : y.EnteredByFin → p = x.delivered.length + 1)
    (hpending : y.conn.ackPending → x.Opened) : Receiving v p y where
  delivered := by rw [hdelivered]; exact h.delivered
  progress := by rw [hdelivered]; exact h.progress
  next := by rw [hopened, hnext]; exact h.next
  opened := by rw [hopened, hstate]; exact h.opened
  phase := by rw [hstate, hdelivered]; exact h.phase
  byFin := by rw [hdelivered]; exact hbyFin
  reorder := by rw [hreorder]; exact h.reorder
  pending := by rw [hopened]; exact hpending

theorem Receiving.congr_modify (h : Receiving v p x) {f : TcpConnection → TcpConnection}
    (hqueue : (f x.conn).receiveQueue = x.conn.receiveQueue) (hnext : (f x.conn).recvNext = x.conn.recvNext)
    (hreorder : (f x.conn).reorderBuffer = x.conn.reorderBuffer) (hstate : (f x.conn).state = x.conn.state)
    (hpending : (f x.conn).ackPending → x.Opened) : Receiving v p (x.modify f) := by
  refine h.congr ?_ hnext hreorder (congrArg recvPhase hstate) Iff.rfl h.byFin hpending
  simp only [Session.delivered, Session.modify, hqueue]

theorem Receiving.reading (h : Receiving v p x) (hstate : receivesData x.conn.state) :
    p = x.delivered.length ∧ x.conn.recvNext = after v.isn (1 + p) := by
  have hphase : recvPhase x.conn.state = .reading := by
    cases hs : x.conn.state <;> simp_all [receivesData, recvPhase]
  have hp := h.phase
  rw [hphase] at hp
  exact ⟨hp, h.next (h.opened (.inl hphase))⟩

theorem Receiving.length_le (h : Receiving v p x) : p ≤ v.stream.length + 1 := by
  have hle := h.delivered.length_le
  rcases h.progress with hp | ⟨hp, -, -⟩ <;> omega

/-! ### Data -/

/-- The bytes at `RCV.NXT` are delivered. -/
theorem Receiving.deliver (h : Receiving v p x) (hstate : receivesData x.conn.state) {payload : Bytes}
    (hat : Chunk.At v.stream p payload) : Receiving v (p + payload.length) (x.modify (·.deliver payload)) := by
  obtain ⟨hp, hnext⟩ := h.reading hstate
  have hdelivered : (x.modify (·.deliver payload)).delivered = x.delivered ++ payload := by
    simp [Session.delivered, Session.modify, TcpConnection.deliver]
  have hlength : p + payload.length = (x.delivered ++ payload).length := by
    rw [List.length_append, hp]
  refine ⟨?_, ?_, ?_, h.opened, ?_, ?_, h.reorder, h.pending⟩
  · rw [hdelivered]
    exact (hp ▸ hat).prefix_append h.delivered
  · rw [hdelivered]
    exact .inl hlength
  · intro hopened
    show x.conn.recvNext + UInt32.ofNat payload.length = _
    rw [hnext, ← Nat.add_assoc, after_add v.isn (1 + p)]
  · have hphase : recvPhase x.conn.state = .reading := by
      cases hs : x.conn.state <;> simp_all [receivesData, recvPhase]
    rw [hdelivered]
    show (recvPhase x.conn.state).taken _ _
    rw [hphase]
    exact hlength
  · intro hentered
    have := h.byFin hentered
    omega

variable {t : Tcp}

/-- The new part of a payload stands at `RCV.NXT`: nothing that the peer has not
accepted can look like an overlap. -/
theorem Honest.new_part {accepted : Bytes} {peerIsn : UInt32} {ended : Prop} {q : ℕ}
    (ht : Honest isn peerIsn accepted ended q t) (haccepted : accepted.length < 2 ^ 30)
    (hp : p ≤ accepted.length + 1) (hseen : (after isn (1 + p) - t.sequenceNumber).toNat < t.payload.length) :
    Chunk.At accepted p (t.payload.drop (after isn (1 + p) - t.sequenceNumber).toNat) := by
  have hne : t.payload ≠ [] := by
    intro hnil
    simp [hnil] at hseen
  obtain ⟨n, hseq, hat⟩ := ht.data hne
  have hn := hat.length_le hne
  rw [hseq] at hseen ⊢
  rcases Nat.lt_or_ge p n with hlt | hge
  · rw [toNat_after_sub_after_of_lt isn (by omega) (by omega)] at hseen
    omega
  · rw [toNat_after_sub_after isn (by omega) (by omega)]
    have hdrop := hat.drop (1 + p - (1 + n))
    rwa [show n + (1 + p - (1 + n)) = p by omega] at hdrop

theorem Receiving.erase (h : Receiving v p x) (k : UInt32) :
    Receiving v p (x.modify fun c => { c with reorderBuffer := c.reorderBuffer.erase k }) :=
  ⟨h.delivered, h.progress, h.next, h.opened, h.phase, h.byFin,
    fun entry hentry => h.reorder entry (OrderedMap.mem_erase hentry), h.pending⟩

theorem Receiving.unblock (h : Receiving v p x) (hstate : receivesData x.conn.state) {buffered : Bytes}
    (hv : v.stream.length < 2 ^ 30) (hfind : x.conn.reorderBuffer.find? x.conn.recvNext = some buffered) :
    Receiving v (p + buffered.length) (x.modify (unblock buffered)) := by
  obtain ⟨-, hnext⟩ := h.reading hstate
  have hp := h.length_le
  obtain ⟨hne, n, hkey, hat⟩ := h.reorder _ (OrderedMap.mem_of_find? hfind)
  have hn := hat.length_le hne
  rw [hnext, after_inj v.isn (by omega) (by omega)] at hkey
  obtain rfl : n = p := by omega
  exact (h.erase x.conn.recvNext).deliver hstate hat

theorem Receiving.buffer (h : Receiving v p x) (ht : v.Sends isn t) (hne : t.payload ≠ []) :
    Receiving v p (x.modify (bufferOutOfOrder t.sequenceNumber t.payload)) := by
  simp only [Session.modify, bufferOutOfOrder]
  split_ifs
  · refine ⟨h.delivered, h.progress, h.next, h.opened, h.phase, h.byFin, ?_, h.pending⟩
    intro entry hentry
    rcases OrderedMap.mem_insert hentry with rfl | hentry
    · exact ⟨hne, ht.data hne⟩
    · exact h.reorder entry hentry
  · exact h

/-- What `read` takes off the queue was at its front. -/
theorem takeFromQueue_flatten (maxBytes : ℕ) (queue : List Bytes) :
    (takeFromQueue maxBytes queue).1 ++ (takeFromQueue maxBytes queue).2.flatten = queue.flatten := by
  induction queue generalizing maxBytes with
  | nil => rfl
  | cons front rest ih =>
    rw [takeFromQueue]
    split_ifs with hzero hfits
    · rfl
    · simp [ih]
    · rw [List.flatten_cons, List.flatten_cons, ← List.append_assoc, List.take_append_drop]

theorem Session.delivered_take (maxBytes : ℕ) (x : Session) : (x.take maxBytes).delivered = x.delivered := by
  simp only [Session.delivered, Session.take, List.append_assoc, takeFromQueue_flatten]

/-! ### The handshake and the FIN -/

/-- The SYN-ACK of an honest peer sets `RCV.NXT` past its SYN. -/
theorem Receiving.establishActive (h : Receiving v p x) (hstate : x.conn.state = .synSent)
    (ht : v.Sends isn t) (hsyn : t.syn) :
    Receiving v p ((x.modify (recordSynAck t)).transition .established) := by
  have hp : p = 0 := by
    have := h.phase
    rwa [hstate] at this
  have hlength : p = x.delivered.length := by
    rcases h.progress with hp' | ⟨hp', -, -⟩ <;> omega
  have hopened : ((x.modify (recordSynAck t)).transition .established).Opened :=
    .inl (List.mem_append_right _ (List.mem_singleton_self _))
  refine ⟨h.delivered, h.progress, ?_, fun _ => hopened, hlength, ?_, h.reorder, fun _ => hopened⟩
  · intro _
    show t.sequenceNumber + 1 = _
    rw [ht.syn hsyn, hp]
    rfl
  · intro hentered
    refine h.byFin ?_
    simpa [Session.EnteredByFin, transition, Session.modify] using hentered

theorem Receiving.establishPassive (h : Receiving v p x) (hstate : x.conn.state = .synReceived) :
    Receiving v p ((x.modify (recordHandshakeAck t)).transition .established) := by
  have hopened : x.Opened := h.opened (by rw [hstate]; exact .inl rfl)
  have hphase := h.phase
  rw [hstate] at hphase
  refine ⟨h.delivered, h.progress, fun _ => h.next hopened, fun _ => ?_, hphase, ?_, h.reorder,
    fun _ => ?_⟩
  · exact .inl (List.mem_append_right _ (List.mem_singleton_self _))
  · intro hentered
    refine h.byFin ?_
    simpa [Session.EnteredByFin, transition, Session.modify] using hentered
  · exact .inl (List.mem_append_right _ (List.mem_singleton_self _))

/-- The FIN of an honest peer stands at `RCV.NXT` only when its whole stream has
been delivered. -/
theorem Receiving.all_delivered (h : Receiving v p x) (hopened : x.Opened)
    (hv : v.stream.length < 2 ^ 30) (ht : v.Sends isn t) (hfin : t.fin)
    (hseq : t.sequenceNumber + UInt32.ofNat t.payload.length = x.conn.recvNext) :
    p = x.delivered.length ∧ x.delivered = v.stream ∧ v.ended := by
  obtain ⟨hended, hnil, hplace⟩ := ht.fin hfin
  have hle := h.length_le
  have hp : p = v.stream.length := by
    rw [hnil, hplace, h.next hopened] at hseq
    have hsame : after v.isn (1 + v.stream.length) = after v.isn (1 + p) := by simpa using hseq
    rw [after_inj v.isn (by omega) (by omega)] at hsame
    omega
  rcases h.progress with hp' | ⟨hp', hall, -⟩
  · exact ⟨hp', h.delivered.eq_of_length (hp' ▸ hp), hended⟩
  · rw [hall] at hp'
    omega

/-- The FIN is consumed. -/
theorem Receiving.finish (h : Receiving v p x) (hp : p = x.delivered.length)
    (hall : x.delivered = v.stream) (hended : v.ended) (hopened : x.Opened)
    (hdelivered : y.delivered = x.delivered) (hnext : y.conn.recvNext = x.conn.recvNext + 1)
    (hreorder : y.conn.reorderBuffer = x.conn.reorderBuffer)
    (hphase : recvPhase y.conn.state = .finished ∨ recvPhase y.conn.state = .closed)
    (hentered : x.entered <+: y.entered) : Receiving v (p + 1) y := by
  have hopened' : y.Opened :=
    hopened.imp (fun hmem => hentered.subset hmem) (fun hmem => hentered.subset hmem)
  refine ⟨?_, ?_, fun _ => ?_, fun _ => hopened', ?_, fun _ => ?_, ?_, fun _ => hopened'⟩
  · rw [hdelivered]
    exact h.delivered
  · rw [hdelivered]
    exact .inr ⟨by rw [hp], hall, hended⟩
  · rw [hnext, h.next hopened, ← after_succ]
    rfl
  · rw [hdelivered]
    rcases hphase with hphase | hphase
    · rw [hphase]
      exact congrArg (· + 1) hp
    · rw [hphase]
      trivial
  · rw [hdelivered, hp]
  · rw [hreorder]
    exact h.reorder

/-- The handshake is behind the connection. -/
def handshakeOver (state : TcpState) : Prop :=
  state ≠ .listen ∧ state ≠ .synSent ∧ state ≠ .synReceived

theorem Receiving.consumeFin (h : Receiving v p x) (hv : v.stream.length < 2 ^ 30)
    (hopened : x.Opened) (hover : handshakeOver x.conn.state) (ht : v.Sends isn t)
    (hfin : t.fin) (hseq : t.sequenceNumber + UInt32.ofNat t.payload.length = x.conn.recvNext) :
    Receiving v (p + 1) x.consumeFin := by
  obtain ⟨hp, hall, hended⟩ := h.all_delivered hopened hv ht hfin hseq
  -- a FIN that was consumed before would have moved `RCV.NXT` past this one
  have hphase : recvPhase (stateAfterFin x.conn.state) = .finished ∨
      recvPhase (stateAfterFin x.conn.state) = .closed := by
    have hnot : recvPhase x.conn.state ≠ .finished := by
      intro hfinished
      have htaken := h.phase
      rw [hfinished] at htaken
      simp only [RecvPhase.taken] at htaken
      omega
    obtain ⟨h₁, h₂, h₃⟩ := hover
    cases hs : x.conn.state <;> simp_all [recvPhase, stateAfterFin]
  obtain ⟨hsame, heq⟩ | ⟨c, entered, -, -, hcore, heq⟩ := consumeFin_cases x
  · rw [heq]
    exact h.finish hp hall hended hopened rfl rfl rfl (hsame ▸ hphase) (List.prefix_refl _)
  · have hstate : x.consumeFin.conn.state = stateAfterFin x.conn.state := congrArg Core.state hcore
    have hqueue : x.consumeFin.conn.receiveQueue = x.conn.receiveQueue :=
      congrArg Core.receiveQueue hcore
    have hreturned : x.consumeFin.returned = x.returned := by rw [heq]
    refine h.finish hp hall hended hopened ?_ (congrArg Core.recvNext hcore)
      (congrArg Core.reorderBuffer hcore) (hstate ▸ hphase) ?_
    · simp only [Session.delivered, hqueue, hreturned]
    · rw [heq]
      exact List.prefix_append ..

/-! ### Every effect -/

theorem recvPhase_of_receivesData {state : TcpState} (h : receivesData state) : recvPhase state = .reading := by
  cases state <;> simp_all [receivesData, recvPhase]

/-- A transition that makes no difference to the receive side, or closes it. -/
theorem Receiving.transition (h : Receiving v p x) {newState : TcpState}
    (hphase : recvPhase newState = recvPhase x.conn.state ∨ recvPhase newState = .closed)
    (hnew : newState ≠ .established ∧ newState ≠ .synReceived) : Receiving v p (x.transition newState) := by
  have hopened : (x.transition newState).Opened ↔ x.Opened := by
    simp [Session.Opened, Session.transition, hnew.1.symm, hnew.2.symm]
  refine ⟨h.delivered, h.progress, fun ho => h.next (hopened.1 ho), fun hs => hopened.2 ?_, ?_, ?_,
    h.reorder, fun ha => hopened.2 (h.pending ha)⟩
  · refine h.opened ?_
    rcases hphase with hphase | hphase
    · exact hphase ▸ hs
    · rw [show recvPhase (x.transition newState).conn.state = .closed from hphase] at hs
      simp at hs
  · show (recvPhase newState).taken _ _
    rcases hphase with hphase | hphase
    · rw [hphase]
      exact h.phase
    · rw [hphase]
      trivial
  · intro hentered
    by_cases hbefore : x.EnteredByFin
    · exact h.byFin hbefore
    · have hfinished : recvPhase newState = .finished := by
        simp only [Session.EnteredByFin, Session.transition, List.mem_append, List.mem_singleton]
          at hentered hbefore
        rcases hentered with hs | hs | hs <;> rcases hs with hs | hs <;>
          first | exact absurd hs (by tauto) | (rw [← hs]; rfl)
      rcases hphase with hphase | hphase
      · have htaken := h.phase
        rw [← hphase, hfinished] at htaken
        exact htaken
      · rw [hfinished] at hphase
        cases hphase

theorem Receiving.core_congr (h : Receiving v p x) {c : TcpConnection}
    (hqueue : c.receiveQueue = x.conn.receiveQueue) (hnext : c.recvNext = x.conn.recvNext)
    (hreorder : c.reorderBuffer = x.conn.reorderBuffer) (hstate : c.state = x.conn.state)
    (hpending : c.ackPending → x.conn.ackPending) : Receiving v p { x with conn := c } :=
  h.congr_modify (f := fun _ => c) hqueue hnext hreorder hstate fun ha => h.pending (hpending ha)

theorem Receiving.retireAcked (h : Receiving v p x) (t : Tcp) : Receiving v p (x.retireAcked t) := by
  have hcore := core_retireAcked t x
  have hqueue : (x.retireAcked t).conn.receiveQueue = x.conn.receiveQueue :=
    congrArg Core.receiveQueue hcore
  refine h.congr ?_ (congrArg Core.recvNext hcore) (congrArg Core.reorderBuffer hcore)
    (congrArg (fun k => recvPhase k.state) hcore) Iff.rfl h.byFin
    fun ha => h.pending ((congrArg Core.ackPending hcore).symm.trans ha)
  rw [Session.delivered, hqueue]
  rfl

theorem Receiving.slide (h : Receiving v p x) (t : Tcp) : Receiving v p (x.slide t) := by
  have hretired := h.retireAcked t
  have hstate : (x.retireAcked t).conn.state = x.conn.state :=
    congrArg Core.state (core_retireAcked t x)
  obtain ⟨newState, hfin, heq⟩ | heq := slide_cases t x
  · rw [heq]
    refine hretired.transition ?_ ?_
    · rw [hstate]
      rcases hfin with ⟨hs, rfl⟩ | ⟨hs, rfl⟩ | ⟨hs, rfl⟩ <;> simp [hs, recvPhase]
    · rcases hfin with ⟨-, rfl⟩ | ⟨-, rfl⟩ | ⟨-, rfl⟩ <;> simp
  · rw [heq]
    exact hretired

theorem Receiving.fin (h : Receiving v p x) (hstate : acceptsData x.conn.state) : Receiving v p x.sendFin := by
  have hmoved : Receiving v p
      (x.transition (if x.conn.state = .established then .finWait1 else .lastAck)) := by
    refine h.transition ?_ ?_
    · rcases hstate with hstate | hstate <;> simp [hstate, recvPhase]
    · split_ifs <;> simp
  exact ⟨hmoved.delivered, hmoved.progress, hmoved.next, hmoved.opened, hmoved.phase, hmoved.byFin,
    hmoved.reorder, nofun⟩

/-- What the effects of an event may assume when it began past the handshake. -/
def Past (s₀ : TcpState) (x : Session) : Prop :=
  handlesAcks s₀ → x.Opened ∧ handshakeOver x.conn.state

/-- **Every effect of an honest segment keeps the receive side in step with the
peer.** -/
theorem Receiving.effect (h : Receiving v p x) (hpast : Past s₀ x) (he : Effect e s₀ x y)
    (ht : ∀ t, e = .segment t → v.Sends isn t) (hv : v.stream.length < 2 ^ 30) :
    ∃ p', p ≤ p' ∧ Receiving v p' y := by
  cases he with
  | quiet c hcore =>
    exact ⟨p, le_rfl, h.core_congr (congrArg Core.receiveQueue hcore).symm
      (congrArg Core.recvNext hcore).symm (congrArg Core.reorderBuffer hcore).symm
      (congrArg Core.state hcore).symm fun ha => (congrArg Core.ackPending hcore).trans ha⟩
  | holdAck hstate =>
    have hopened : x.Opened := h.opened (.inl (recvPhase_of_receivesData hstate))
    exact ⟨p, le_rfl, h.congr_modify (f := fun c => { c with ackPending := true }) rfl rfl rfl rfl
      fun _ => hopened⟩
  | scoreboard t =>
    obtain ⟨flight, bytes, heq⟩ := applySackBlocks_eq t x.conn
    refine ⟨p, le_rfl, ?_⟩
    rw [Session.modify, heq]
    exact h.core_congr rfl rfl rfl rfl id
  | slide t => exact ⟨p, le_rfl, h.slide t⟩
  | fin _ hstate => exact ⟨p, le_rfl, h.fin hstate⟩
  | place chunk =>
    refine ⟨p, le_rfl, ?_⟩
    unfold placeChunk
    dsimp only
    split_ifs
    · exact ⟨h.delivered, h.progress, h.next, h.opened, h.phase, h.byFin, h.reorder, h.pending⟩
    · exact ⟨h.delivered, h.progress, h.next, h.opened, h.phase, h.byFin, h.reorder, by rintro ⟨⟩⟩
  | deliver t hsegment hstate hseen =>
    obtain ⟨-, hnext⟩ := h.reading hstate
    rw [hnext] at hseen ⊢
    exact ⟨_, Nat.le_add_right .., h.deliver hstate ((ht t hsegment).new_part hv h.length_le hseen)⟩
  | unblock buffered hstate hfind => exact ⟨_, Nat.le_add_right .., h.unblock hstate hv hfind⟩
  | buffer t hsegment _ hne => exact ⟨p, le_rfl, h.buffer (ht t hsegment) hne⟩
  | consumeFin t hsegment hfin hseq hs₀ =>
    obtain ⟨hopened, hover⟩ := hpast hs₀
    exact ⟨_, Nat.le_add_right .., h.consumeFin hv hopened hover (ht t hsegment) hfin hseq⟩
  | establishActive t hsegment hstate hsyn =>
    exact ⟨p, le_rfl, h.establishActive hstate (ht t hsegment) hsyn⟩
  | establishPassive t _ hstate => exact ⟨p, le_rfl, h.establishPassive hstate⟩
  | abort => exact ⟨p, le_rfl, h.transition (.inr rfl) (by simp)⟩
  | take maxBytes =>
    exact ⟨p, le_rfl, h.congr (delivered_take maxBytes x) rfl rfl rfl Iff.rfl h.byFin h.pending⟩
  | lowerMss pathMss =>
    refine ⟨p, le_rfl, ?_⟩
    simp only [Session.modify, reduceEffectiveMss]
    split_ifs <;> exact h.core_congr rfl rfl rfl rfl id
  | ack | drain =>
    exact ⟨p, le_rfl, h.delivered, h.progress, h.next, h.opened, h.phase, h.byFin, h.reorder,
      by rintro ⟨⟩⟩
  | receive | probe | keepalive | retransmit | window =>
    exact ⟨p, le_rfl, h.delivered, h.progress, h.next, h.opened, h.phase, h.byFin, h.reorder,
      h.pending⟩

end Receiving

end TcpIpStack
