/-
# The size of a segment

`send` cuts what it accepts into chunks of at most the effective MSS.  Two
things follow from where that number comes from.

It has to be positive, or the loop of `send` makes no progress.  The number is
the smaller of our MSS and the peer's, and the two handshakes read the peer's
differently: `accept_incoming_syn` takes a value of zero to mean that there was
no option, `on_segment` in `SYN_SENT` takes it as it is.  A SYN-ACK with an MSS
of zero therefore makes the next `send` loop forever
(`zero_mss_makes_send_loop`); without one, `send` is exact in every state
(`send_is_exact`).

And a chunk keeps the size it was cut to.  `reduce_effective_mss` changes the
size of what is cut later; what is queued or in flight already goes out, and
out again, as it is (`reduced_mss_sends_bigger`).  Where nothing bigger is
left, the reduction holds from then on (`path_mtu_takes_effect`).
-/

import TcpIpStack.Lib.Runs
import TcpIpStack.Tcp.Options

namespace TcpIpStack

open TcpConnection Session Runs

/-! ### What one call of `send` adds -/

/-- `taken` has been added behind what was in flight and queued, in new chunks
of the right size. -/
structure Appended (taken : Bytes) (x y : Session) : Prop where
  /-- The new chunks, those that went out and those that wait. -/
  chunks : ∃ out waiting : List Bytes,
    y.conn.inFlight.map (·.payload) = x.conn.inFlight.map (·.payload) ++ out ∧
    y.conn.sendQueue = x.conn.sendQueue ++ waiting ∧
    ∀ chunk ∈ out ++ waiting, chunk ≠ [] ∧ chunk.length ≤ x.conn.effectiveMss.toNat
  stream : y.conn.inFlight.flatMap (·.payload) ++ y.conn.sendQueue.flatten =
    x.conn.inFlight.flatMap (·.payload) ++ x.conn.sendQueue.flatten ++ taken

/-- What `send` returns. -/
def Session.accepts (data : Bytes) (x : Session) : ℕ :=
  if x.conn.state = .established ∨ x.conn.state = .closeWait then
    min data.length (sendSpaceAvailable x.conn) else 0

/-- `send` returns, with the right number, and takes exactly that much. -/
def Session.SendsExactly (x : Session) : Prop :=
  ∀ data, ∃ y, x.send data = some (x.accepts data, y) ∧ Appended (data.take (x.accepts data)) x y

section Send

variable {x y z : Session} {data taken taken' : Bytes}

theorem Appended.refl (x : Session) : Appended [] x x where
  chunks := ⟨[], [], by simp, by simp, by simp⟩
  stream := by simp

theorem Appended.trans (h : Appended taken x y) (h' : Appended taken' y z)
    (hmss : y.conn.effectiveMss = x.conn.effectiveMss) : Appended (taken ++ taken') x z := by
  obtain ⟨⟨out, waiting, hout, hwaiting, hsize⟩, hstream⟩ := h
  obtain ⟨⟨out', waiting', hout', hwaiting', hsize'⟩, hstream'⟩ := h'
  refine ⟨⟨out ++ out', waiting ++ waiting', ?_, ?_, ?_⟩, ?_⟩
  · rw [hout', hout, List.append_assoc]
  · rw [hwaiting', hwaiting, List.append_assoc]
  · intro chunk hchunk
    rw [hmss] at hsize'
    simp only [List.mem_append] at hchunk hsize hsize'
    rcases hchunk with (h | h) | (h | h)
    · exact hsize chunk (.inl h)
    · exact hsize' chunk (.inl h)
    · exact hsize chunk (.inr h)
    · exact hsize' chunk (.inr h)
  · rw [hstream', hstream, List.append_assoc]

/-- One turn of the loop: the chunk goes to the queue, or out if nothing is
queued before it. -/
theorem appended_placeChunk {chunk : Bytes} (hne : chunk ≠ [])
    (hsize : chunk.length ≤ x.conn.effectiveMss.toNat) : Appended chunk x (x.placeChunk chunk) := by
  unfold placeChunk
  dsimp only
  split_ifs with hqueue
  · refine ⟨⟨[], [chunk], ?_, rfl, ?_⟩, ?_⟩
    · simp [Session.modify]
    · simpa using ⟨hne, hsize⟩
    · simp [Session.modify]
  · have hnil : x.conn.sendQueue = [] := by
      simp only [mustQueue, Bool.or_eq_true, decide_eq_true_eq, not_or] at hqueue
      exact not_not.1 hqueue.1.1
    refine ⟨⟨[chunk], [], ?_, ?_, ?_⟩, ?_⟩
    · simp [sendFlags, Session.modify, recordSent, sendSegment]
    · simp [sendFlags, Session.modify, recordSent, sendSegment]
    · simpa using ⟨hne, hsize⟩
    · simp [sendFlags, Session.modify, recordSent, sendSegment, hnil]

/-- **The loop of `send` places all it is given.** -/
theorem sendLoop_appended (fuel : ℕ) (rest : Bytes) (hmss : 0 < x.conn.effectiveMss.toNat)
    (hfuel : rest.length ≤ fuel) : ∃ y, x.sendLoop fuel rest = some y ∧ Appended rest x y := by
  induction fuel generalizing x rest with
  | zero =>
    obtain rfl : rest = [] := by simpa using hfuel
    exact ⟨x, by simp [sendLoop], .refl x⟩
  | succ fuel ih =>
    by_cases hrest : rest = []
    · exact ⟨x, by simp [sendLoop, hrest], hrest ▸ .refl x⟩
    · set m := x.conn.effectiveMss.toNat with hm
      have hchunk : rest.take m ≠ [] := by
        simp only [ne_eq, List.take_eq_nil_iff, not_or]
        exact ⟨hmss.ne', hrest⟩
      have hplaced : Appended (rest.take m) x (x.placeChunk (rest.take m)) :=
        appended_placeChunk hchunk (List.length_take_le _ _)
      obtain ⟨y, hy, happended⟩ := ih (x := x.placeChunk (rest.take m)) (rest.drop m)
        (by simpa using hmss) (by simp only [List.length_drop]; omega)
      refine ⟨y, by simpa only [sendLoop, hrest, if_false] using hy, ?_⟩
      have hall := hplaced.trans happended (placeChunk_effectiveMss _ _)
      rwa [List.take_append_drop] at hall

/-- **With a positive effective MSS, `send` is exact.** -/
theorem sendsExactly_of_pos (hmss : 0 < x.conn.effectiveMss.toNat) : x.SendsExactly := by
  intro data
  unfold Session.send Session.accepts
  by_cases hstate : x.conn.state = .established ∨ x.conn.state = .closeWait
  · rw [if_neg (by tauto), if_pos hstate]
    dsimp only
    split_ifs with hzero
    · exact ⟨x, by rw [hzero], by rw [hzero]; exact .refl x⟩
    · obtain ⟨y, hy, happended⟩ := sendLoop_appended (x := x)
        (min data.length (sendSpaceAvailable x.conn))
        (data.take (min data.length (sendSpaceAvailable x.conn))) hmss (List.length_take_le _ _)
      refine ⟨y.modify (·.armOrDisarmPersist), by rw [hy]; rfl, ?_⟩
      have hcore := core_armOrDisarmPersist y.conn
      have hflight : y.conn.armOrDisarmPersist.inFlight = y.conn.inFlight := by
        unfold armOrDisarmPersist
        split_ifs <;> rfl
      have hqueue : y.conn.armOrDisarmPersist.sendQueue = y.conn.sendQueue :=
        congrArg Core.sendQueue hcore
      obtain ⟨hchunks, hstream⟩ := happended
      refine ⟨?_, ?_⟩
      · simpa only [Session.modify, hflight, hqueue] using hchunks
      · simpa only [Session.modify, hflight, hqueue] using hstream
  · rw [if_pos (by tauto), if_neg hstate]
    exact ⟨x, rfl, .refl x⟩

end Send

/-! ### Where the effective MSS comes from -/

/-- The segment ends the active handshake: it is the SYN-ACK for our SYN. -/
def completesConnect (t : Tcp) (c : TcpConnection) : Prop :=
  c.state = .synSent ∧ t.rst = false ∧ t.syn ∧ t.ack ∧ t.acknowledgementNumber = c.sendNext

instance (t : Tcp) (c : TcpConnection) : Decidable (completesConnect t c) :=
  inferInstanceAs (Decidable (_ ∧ _))

/-- The effective MSS that a SYN-ACK leads to. -/
def mssAfterConnect (t : Tcp) (c : TcpConnection) : UInt16 :=
  min c.localMss (t.mssOption.getD defaultPeerMss)

/-- The effective MSS after an event: it changes at the end of an active
handshake and when the path MTU turns out to be smaller. -/
def Event.mssAfter : Event → TcpConnection → UInt16
  | .segment t, c => if completesConnect t c then mssAfterConnect t c else c.effectiveMss
  | .reduceEffectiveMss pathMss, c => (Session.reduceEffectiveMss pathMss c).effectiveMss
  | _, c => c.effectiveMss

section Mss

variable {e : Event} {x y : Session} {t : Tcp}

theorem reduceEffectiveMss_eq (pathMss : UInt16) (c : TcpConnection) :
    ∃ mss, Session.reduceEffectiveMss pathMss c = { c with effectiveMss := mss } := by
  unfold Session.reduceEffectiveMss
  dsimp only
  split_ifs
  all_goals exact ⟨_, rfl⟩

theorem onSegment_synSent (hstate : x.conn.state = .synSent) (hrst : t.rst = false) :
    x.onSegment t = (x.noteArrival t).handleSynSent t := by
  have hz : (x.noteArrival t).conn.state = .synSent := hstate
  unfold Session.onSegment dispatch
  rw [if_neg (by simp [hrst]), hz]

/-- **An event changes the effective MSS as `mssAfter` says, and our own MSS not
at all.** -/
theorem Event.run_mss (he : e.run x = some y) :
    y.conn.effectiveMss = e.mssAfter x.conn ∧ y.conn.localMss = x.conn.localMss := by
  by_cases hmtu : ∃ pathMss, e = .reduceEffectiveMss pathMss
  · obtain ⟨pathMss, rfl⟩ := hmtu
    obtain rfl := Option.some.inj he
    obtain ⟨mss, heq⟩ := reduceEffectiveMss_eq pathMss x.conn
    refine ⟨rfl, ?_⟩
    show (Session.reduceEffectiveMss pathMss x.conn).localMss = x.conn.localMss
    rw [heq]
  have hunsettled (h : ∀ t, e = .segment t → x.conn.state ≠ .synSent) :
      y.conn.effectiveMss = x.conn.effectiveMss ∧ y.conn.localMss = x.conn.localMss := by
    have hu := Event.unsettling he h fun pathMss heq => hmtu ⟨pathMss, heq⟩
    exact ⟨congrArg Negotiated.effectiveMss hu.negotiated, hu.localMss⟩
  cases e with
  | segment t =>
    obtain rfl := Option.some.inj he
    by_cases hstate : x.conn.state = .synSent
    · by_cases hrst : t.rst = false
      · rw [Event.mssAfter, onSegment_synSent hstate hrst]
        unfold handleSynSent
        split_ifs with hsyn hcompletes hcompletes
        · exact ⟨rfl, rfl⟩
        · simp only [Bool.and_eq_true, decide_eq_true_eq] at hsyn
          exact absurd ⟨hstate, hrst, hsyn.1.1, hsyn.1.2, hsyn.2⟩ hcompletes
        · obtain ⟨-, -, h₁, h₂, h₃⟩ := hcompletes
          exact absurd (by simpa using ⟨⟨h₁, h₂⟩, h₃⟩) hsyn
        · exact ⟨rfl, rfl⟩
      · have hrst' : t.rst = true := by simpa using hrst
        rw [Event.mssAfter, if_neg fun h => hrst h.2.1]
        unfold Session.onSegment dispatch
        rw [if_pos hrst']
        unfold handleRst
        dsimp only
        split_ifs <;> exact ⟨rfl, rfl⟩
    · rw [Event.mssAfter, if_neg fun h => hstate h.1]
      exact hunsettled fun _ _ => hstate
  | reduceEffectiveMss pathMss => exact absurd ⟨pathMss, rfl⟩ hmtu
  | timePassed | send | read | close | setKeepalive | fail =>
    exact hunsettled fun _ heq => Event.noConfusion heq

end Mss

/-! ### `send` is exact -/

/-- The SYN-ACK of an active handshake does not carry an MSS of zero. -/
def Event.sensibleMss : Event → Session → Prop
  | .segment t, x => completesConnect t x.conn → t.mssOption ≠ some 0
  | _, _ => True

instance : (e : Event) → (x : Session) → Decidable (e.sensibleMss x)
  | .segment t, x => inferInstanceAs (Decidable (completesConnect t x.conn → t.mssOption ≠ some 0))
  | .timePassed _, _ | .send _, _ | .read _, _ | .close, _ | .setKeepalive _, _
  | .reduceEffectiveMss _, _ | .fail, _ => isTrue trivial

/-- Both our own MSS and the effective one are positive. -/
structure Session.MssPos (x : Session) : Prop where
  localMss : 0 < x.conn.localMss.toNat
  effectiveMss : 0 < x.conn.effectiveMss.toNat

section Exact

variable {e : Event} {x y : Session}

theorem toNat_min (a b : UInt16) : (min a b).toNat = min a.toNat b.toNat := by
  show (if a ≤ b then a else b).toNat = _
  split_ifs with h
  · rw [UInt16.le_iff_toNat_le] at h
    omega
  · rw [UInt16.le_iff_toNat_le] at h
    omega

theorem toNat_reduceEffectiveMss_pos (pathMss : UInt16) {c : TcpConnection}
    (h : 0 < c.effectiveMss.toNat) : 0 < (reduceEffectiveMss pathMss c).effectiveMss.toNat := by
  have hdefault : defaultPeerMss.toNat = 536 := rfl
  unfold reduceEffectiveMss
  dsimp only
  split_ifs with hlow
  · exact h
  · show 0 < defaultPeerMss.toNat
    omega
  · exact h
  · have hle := UInt16.le_iff_toNat_le.1 (UInt16.not_lt.1 hlow)
    show 0 < pathMss.toNat
    omega

/-- **An event keeps the effective MSS positive, unless it is a SYN-ACK with an
MSS of zero.** -/
theorem Session.MssPos.run (h : x.MssPos) (he : e.run x = some y) :
    0 < y.conn.effectiveMss.toNat ↔ e.sensibleMss x := by
  rw [(Event.run_mss he).1]
  cases e with
  | segment t =>
    simp only [Event.mssAfter, Event.sensibleMss]
    split_ifs with hcompletes
    · have hlocal := h.localMss
      rw [mssAfterConnect, toNat_min]
      cases hmss : t.mssOption with
      | none =>
        have hdefault : defaultPeerMss.toNat = 536 := rfl
        simp only [Option.getD_none, hdefault]
        simp
        omega
      | some mss =>
        have hzero : mss.toNat = 0 ↔ mss = 0 := by
          rw [← UInt16.toNat_inj]
          rfl
        simp only [Option.getD_some, hcompletes, forall_const, ne_eq, Option.some.injEq]
        rw [← hzero]
        omega
    · simpa only [hcompletes, false_implies, iff_true] using h.effectiveMss
  | reduceEffectiveMss pathMss =>
    simpa only [Event.mssAfter, Event.sensibleMss, iff_true] using
      toNat_reduceEffectiveMss_pos pathMss h.effectiveMss
  | timePassed | send | read | close | setKeepalive | fail =>
    simpa only [Event.mssAfter, Event.sensibleMss, iff_true] using h.effectiveMss

theorem Session.MssPos.next (h : x.MssPos) (he : e.run x = some y) (hok : e.sensibleMss x) : y.MssPos :=
  ⟨(Event.run_mss he).2 ▸ h.localMss, (h.run he).2 hok⟩

theorem mssPos_open (o : Opener) (localPort remotePort : UInt16) (initialSeq : UInt32)
    {localMss : UInt16} (h : 0 < localMss.toNat) (algorithm : CongestionControlAlgorithm) :
    (o.run (.fresh localPort remotePort initialSeq localMss algorithm)).MssPos := by
  have hdefault : defaultPeerMss.toNat = 536 := rfl
  cases o with
  | active =>
    refine ⟨h, ?_⟩
    show 0 < (min localMss defaultPeerMss).toNat
    rw [toNat_min]
    omega
  | passive o =>
    refine ⟨h, ?_⟩
    show 0 < (min localMss (if o.peerMss ≠ 0 then o.peerMss else defaultPeerMss)).toNat
    rw [toNat_min]
    split_ifs with hmss
    · have hpos : o.peerMss.toNat ≠ 0 := fun h0 => hmss (UInt16.toNat_inj.1 h0)
      omega
    · omega

/-- An established connection with an effective MSS of zero and room in its
queue cannot send. -/
theorem not_sendsExactly {c : UInt8} (hstate : x.conn.state = .established)
    (hmss : x.conn.effectiveMss.toNat = 0) (hqueue : x.conn.sendQueuedBytes = 0) : x.send [c] = none := by
  have hspace : min [c].length (sendSpaceAvailable x.conn) = 1 := by
    rw [sendSpaceAvailable, hqueue]
    rfl
  unfold Session.send
  rw [if_neg (by simp [hstate])]
  dsimp only
  rw [hspace, if_neg (by decide), sendLoop_eq_none hmss _ (by simp)]
  rfl

/-- A SYN-ACK with an MSS of zero leaves a connection that cannot send. -/
theorem not_sensibleMss {isn : UInt32} (hkept : x.Kept isn) (he : e.run x = some y)
    (hok : ¬ e.sensibleMss x) : ¬ y.SendsExactly := by
  cases e with
  | segment t =>
    simp only [Event.sensibleMss, not_forall, not_not] at hok
    obtain ⟨hcompletes, hzero⟩ := hok
    have hmss : y.conn.effectiveMss.toNat = 0 := by
      rw [(Event.run_mss he).1, Event.mssAfter, if_pos hcompletes, mssAfterConnect, hzero, toNat_min]
      simp
    obtain ⟨hstate, hrst, hsyn, hack, hnumber⟩ := hcompletes
    have hopening : Opening isn flagSyn x.retired.length x.conn.core :=
      hkept.phase.opening (by rw [core, hstate]; rfl)
    have hqueued : x.conn.sendQueuedBytes = 0 := by
      have hbytes := hkept.queued
      rw [hopening.queue] at hbytes
      exact hbytes
    have hy : y = (((x.noteArrival t).modify (recordSynAck t)).transition .established).sendPureAck := by
      have hguard : (t.syn && t.ack &&
          decide (t.acknowledgementNumber = (x.noteArrival t).conn.sendNext)) = true := by
        simp only [hsyn, hack, Bool.and_self, Bool.true_and, decide_eq_true_eq]
        exact hnumber
      rw [← Option.some.inj he, onSegment_synSent hstate hrst, handleSynSent, if_pos hguard]
    intro hexact
    obtain ⟨z, hz, -⟩ := hexact [0]
    have hnone : y.send [0] = none := by
      refine not_sendsExactly ?_ hmss ?_
      · rw [hy]
        rfl
      · rw [hy]
        exact hqueued
    rw [hnone] at hz
    cases hz
  | timePassed | send | read | close | setKeepalive | reduceEffectiveMss | fail =>
    exact absurd trivial hok

end Exact

/-- **`send` is exact in every state**, as long as no SYN-ACK carries an MSS of
zero: it returns, with the smaller of the size of its argument and the space in
the buffer, and adds exactly that much to the stream in chunks that are not
empty and not larger than the effective MSS.  The condition is exact: from any
such state the next event leads to a state in which `send` is exact if and only
if it meets it. -/
theorem send_is_exact (o : Opener) (localPort remotePort : UInt16) (initialSeq : UInt32)
    (localMss : UInt16) (algorithm : CongestionControlAlgorithm) (hmss : 1 ≤ localMss.toNat)
    (events : List Event) (x : Session)
    (hok : Along Event.run Event.sensibleMss events
      (o.run (.fresh localPort remotePort initialSeq localMss algorithm)))
    (hrun : runs Event.run events
      (o.run (.fresh localPort remotePort initialSeq localMss algorithm)) = some x) :
    x.SendsExactly ∧ ∀ (e : Event) (y : Session), e.run x = some y →
      (y.SendsExactly ↔ e.sensibleMss x) := by
  have hpos : x.MssPos :=
    runs_invariant (I := Session.MssPos) (fun _ _ _ hx hok he => hx.next he hok)
      (mssPos_open o localPort remotePort initialSeq hmss algorithm) hok hrun
  have hkept : x.Kept initialSeq :=
    runs_induction (I := Session.Kept initialSeq) (fun _ _ _ hx he => hx.run he)
      (kept_open o localPort remotePort initialSeq localMss algorithm) hrun
  refine ⟨sendsExactly_of_pos hpos.effectiveMss, fun e y he => ⟨fun hexact => ?_, fun hok => ?_⟩⟩
  · by_contra hok
    exact not_sensibleMss hkept he hok hexact
  · exact sendsExactly_of_pos ((hpos.run he).2 hok)

/-- The SYN-ACK a peer with port 9000 sends to port 80 for the ISN 100. -/
def synAck (mss : Option UInt16) : Tcp :=
  { Tcp.ofFlags 9000 80 7 101 6 (flagSyn ||| flagAck) 1000 0 0 with mssOption := mss }

/-- A peer with an MSS of one byte: `send` puts each byte in a chunk of its
own. -/
theorem send_is_exact_one_byte :
    ∃ x, runs Event.run [.segment (synAck (some 1))]
        (Opener.active.run (.fresh 80 9000 100 1460 .reno)) = some x ∧
      x.conn.effectiveMss = 1 ∧ x.SendsExactly ∧ x.accepts [1, 2, 3] = 3 := by
  refine ⟨_, rfl, rfl, ?_, by decide +kernel⟩
  exact (send_is_exact .active 80 9000 100 1460 .reno (by decide)
    [.segment (synAck (some 1))] _ (by decide +kernel) rfl).1

/-- A SYN-ACK with an MSS of zero: the effective MSS is zero, and no number of
turns of the loop places the first byte. -/
theorem zero_mss_makes_send_loop :
    ∃ x, runs Event.run [.segment (synAck (some 0))]
        (Opener.active.run (.fresh 80 9000 100 1460 .reno)) = some x ∧
      x.conn.state = .established ∧ x.conn.effectiveMss = 0 ∧ sendSpaceAvailable x.conn = 131072 ∧
      (∀ fuel, x.sendLoop fuel [1] = none) ∧ x.send [1] = none := by
  refine ⟨_, rfl, rfl, rfl, rfl, fun fuel => sendLoop_eq_none rfl fuel (by simp), ?_⟩
  exact not_sendsExactly rfl rfl rfl

/-! ### Chunks keep their size -/

/-- Nothing longer than `m` is left to send: not in the chunks to come, not in
the queue, and not among the segments in flight that may be sent again. -/
structure Capped (m : ℕ) (k : Core) : Prop where
  mss : k.effectiveMss.toNat ≤ m
  flight : ∀ s ∈ k.flight, s.sacked = false → s.payload.length ≤ m
  queue : ∀ chunk ∈ k.sendQueue, chunk.length ≤ m

/-- Between the two nothing longer than `m` was sent. -/
def SentCapped (m : ℕ) (x y : Session) : Prop :=
  ∃ calls, y.sent = x.sent ++ calls ∧ ∀ call ∈ calls, call.payload.length ≤ m

section Capped

variable {m : ℕ} {e : Event} {s₀ : TcpState} {x y z : Session} {k k' : Core}

theorem SentCapped.refl (m : ℕ) (x : Session) : SentCapped m x x := ⟨[], by simp, by simp⟩

theorem SentCapped.trans (h : SentCapped m x y) (h' : SentCapped m y z) : SentCapped m x z := by
  obtain ⟨calls, hsent, hcalls⟩ := h
  obtain ⟨calls', hsent', hcalls'⟩ := h'
  refine ⟨calls ++ calls', by rw [hsent', hsent, List.append_assoc], fun call hcall => ?_⟩
  exact (List.mem_append.1 hcall).elim (hcalls call) (hcalls' call)

theorem SentCapped.of_eq (h : y.sent = x.sent) : SentCapped m x y := ⟨[], by simp [h], by simp⟩

theorem SentCapped.single {call : Call} (h : y.sent = x.sent ++ [call])
    (hcall : call.payload.length ≤ m) : SentCapped m x y :=
  ⟨[call], h, by simpa using hcall⟩

theorem Capped.congr (h : Capped m k) (hmss : k'.effectiveMss = k.effectiveMss)
    (hflight : k'.flight = k.flight) (hqueue : k'.sendQueue = k.sendQueue) : Capped m k' :=
  ⟨hmss ▸ h.mss, hflight ▸ h.flight, hqueue ▸ h.queue⟩

theorem Capped.transmit (h : Capped m k) (flags : UInt8) {payload : Bytes} (consumed : ℕ)
    (hpayload : payload.length ≤ m) : Capped m (k.transmit flags payload consumed) := by
  refine ⟨h.mss, fun s hs hsacked => ?_, h.queue⟩
  rcases List.mem_append.1 hs with hs | hs
  · exact h.flight s hs hsacked
  · rw [List.mem_singleton.1 hs]
    exact hpayload

theorem toNat_reduceEffectiveMss_le (pathMss : UInt16) (c : TcpConnection) :
    (Session.reduceEffectiveMss pathMss c).effectiveMss.toNat ≤ c.effectiveMss.toNat := by
  have hle {a b : UInt16} (h : ¬ a ≥ b) : a.toNat ≤ b.toNat := by
    have := UInt16.le_iff_toNat_le.not.1 h
    omega
  unfold Session.reduceEffectiveMss
  dsimp only
  split_ifs with hlow hge hge
  · exact le_rfl
  · exact hle hge
  · exact le_rfl
  · exact hle hge

/-- **Every effect keeps the cap and sends nothing longer**, the end of an active
handshake included if the MSS it brings is under the cap. -/
theorem Capped.effect (h : Capped m x.conn.core) (he : Effect e s₀ x y)
    (hsyn : ∀ t, e = .segment t → x.conn.state = .synSent → (mssAfterConnect t x.conn).toNat ≤ m) :
    Capped m y.conn.core ∧ SentCapped m x y := by
  cases he with
  | quiet c hcore => exact ⟨hcore ▸ h, .of_eq rfl⟩
  | probe front rest hqueue _ _ _ =>
    have hfront : front.length ≤ m := h.queue front (by
      show front ∈ x.conn.sendQueue
      rw [hqueue]
      exact List.mem_cons_self ..)
    exact ⟨h.congr rfl rfl rfl, .single rfl ((List.length_take_le' ..).trans hfront)⟩
  | retransmit site s _ hs hsacked _ => exact ⟨h.congr rfl rfl rfl, .single rfl (h.flight s hs hsacked)⟩
  | drain _ front rest _ hqueue _ _ =>
    have hqueue' : x.conn.core.sendQueue = front :: rest := hqueue
    have hfront : front.length ≤ m := h.queue front (hqueue' ▸ List.mem_cons_self ..)
    refine ⟨?_, .single rfl hfront⟩
    rw [sendFront, core_sendFlags_data]
    have hrest : ∀ chunk ∈ rest, chunk.length ≤ m := fun chunk hchunk =>
      h.queue chunk (hqueue' ▸ List.mem_cons_of_mem _ hchunk)
    have hpopped : Capped m (x.modify fun c => { c with
        sendQueue := rest, sendQueuedBytes := c.sendQueuedBytes - front.length }).conn.core :=
      ⟨h.mss, h.flight, hrest⟩
    exact hpopped.transmit _ _ hfront
  | place chunk _ _ _ _ hsize =>
    have hchunk : chunk.length ≤ m := hsize.trans h.mss
    unfold placeChunk
    dsimp only
    split_ifs
    · refine ⟨⟨h.mss, h.flight, fun c hc => ?_⟩, .of_eq rfl⟩
      rcases List.mem_append.1 hc with hc | hc
      · exact h.queue c hc
      · rwa [List.mem_singleton.1 hc]
    · refine ⟨?_, .single rfl hchunk⟩
      show Capped m (x.sendFlags 0 chunk true).conn.core
      rw [core_sendFlags_data]
      exact h.transmit _ _ hchunk
  | fin =>
    refine ⟨?_, .single rfl (Nat.zero_le _)⟩
    rw [sendFin, core_sendFlags_fin]
    have hmoved : Capped m (x.transition
        (if x.conn.state = .established then .finWait1 else .lastAck)).conn.core := h.congr rfl rfl rfl
    exact hmoved.transmit _ _ (Nat.zero_le _)
  | scoreboard t =>
    obtain ⟨flight, bytes, heq⟩ := applySackBlocks_eq t x.conn
    refine ⟨⟨?_, fun s hs hsacked => ?_, ?_⟩, .of_eq rfl⟩
    · show (x.conn.applySackBlocks t).1.effectiveMss.toNat ≤ m
      rw [heq]
      exact h.mss
    · -- a mark takes a segment out of the ones that may be sent again
      obtain ⟨mark, hmark, heq⟩ := applySackBlocks_inFlight t x.conn
      obtain ⟨marked, hmarked, rfl⟩ := List.mem_map.1 hs
      obtain ⟨seg, hseg, rfl⟩ := List.mem_map.1 (heq ▸ hmarked)
      have hunmarked : seg.sacked = false := by
        by_contra hne
        exact absurd (hmark seg (by simpa using hne)) (by simpa using hsacked)
      exact h.flight seg.flight (List.mem_map_of_mem hseg) hunmarked
    · show ∀ chunk ∈ (x.conn.applySackBlocks t).1.sendQueue, chunk.length ≤ m
      rw [heq]
      exact h.queue
  | slide t =>
    obtain ⟨popped, rest, hflight, -, hcore, -, -, hsent⟩ := core_slide t x
    refine ⟨?_, .of_eq hsent⟩
    rw [hcore]
    refine ⟨h.mss, fun s hs => h.flight s ?_, h.queue⟩
    rw [hflight]
    exact List.mem_append_right _ hs
  | consumeFin =>
    obtain ⟨-, heq⟩ | ⟨c, entered, -, -, hcore, heq⟩ := consumeFin_cases x
    · rw [heq]
      exact ⟨h.congr rfl rfl rfl, .of_eq rfl⟩
    · refine ⟨hcore ▸ h.congr rfl rfl rfl, ?_⟩
      rw [heq]
      exact .single rfl (Nat.zero_le _)
  | establishActive t ht hstate _ _ _ => exact ⟨⟨hsyn t ht hstate, by rintro _ ⟨⟩, h.queue⟩, .of_eq rfl⟩
  | establishPassive => exact ⟨⟨h.mss, by rintro _ ⟨⟩, h.queue⟩, .of_eq rfl⟩
  | buffer t =>
    simp only [Session.modify, bufferOutOfOrder]
    split_ifs <;> exact ⟨h.congr rfl rfl rfl, .of_eq rfl⟩
  | lowerMss pathMss =>
    refine ⟨?_, .of_eq rfl⟩
    have hle := toNat_reduceEffectiveMss_le pathMss x.conn
    obtain ⟨mss, heq⟩ := reduceEffectiveMss_eq pathMss x.conn
    rw [heq] at hle
    simp only [Session.modify, heq]
    exact ⟨hle.trans h.mss, h.flight, h.queue⟩
  | ack | keepalive => exact ⟨h.congr rfl rfl rfl, .single rfl (Nat.zero_le _)⟩
  | receive | holdAck | window | deliver | unblock | abort | take =>
    exact ⟨h.congr rfl rfl rfl, .of_eq rfl⟩

/-- **Past the active handshake every event keeps the cap and sends nothing
longer.** -/
theorem Capped.run (h : Capped m x.conn.core) (hstate : x.conn.state ≠ .synSent) (he : e.run x = some y) :
    Capped m y.conn.core ∧ y.conn.state ≠ .synSent ∧ SentCapped m x y := by
  by_cases hmtu : ∃ pathMss, e = .reduceEffectiveMss pathMss
  · obtain ⟨pathMss, rfl⟩ := hmtu
    have heffect : Effect (.reduceEffectiveMss pathMss) x.conn.state x y :=
      Option.some.inj he ▸ .lowerMss x pathMss rfl
    obtain ⟨hcapped, hsent⟩ := h.effect heffect fun _ _ hs => absurd hs hstate
    refine ⟨hcapped, ?_, hsent⟩
    obtain ⟨mss, heq⟩ := reduceEffectiveMss_eq pathMss x.conn
    rw [← Option.some.inj he]
    show (Session.reduceEffectiveMss pathMss x.conn).state ≠ .synSent
    rw [heq]
    exact hstate
  · refine Steps.preserves
      (P := fun y => Capped m y.conn.core ∧ y.conn.state ≠ .synSent ∧ SentCapped m x y)
      (fun u v heffect hu => ?_) (Event.run_steps he) ⟨h, hstate, .refl m x⟩
    obtain ⟨hcapped, hnot, hsent⟩ := hu
    obtain ⟨hcapped', hsent'⟩ := hcapped.effect heffect fun _ _ hs => absurd hs hnot
    have hmoved := heffect.unsettling (fun _ _ => hnot) fun pathMss heq => hmtu ⟨pathMss, heq⟩
    exact ⟨hcapped', hmoved.notSent hnot, hsent.trans hsent'⟩

end Capped

/-- The reduction comes past the active handshake, at a moment when nothing
longer than the new effective MSS is queued or may be sent again. -/
def NothingBigger (pathMss : UInt16) (c : TcpConnection) : Prop :=
  c.state ≠ .synSent ∧
    (∀ s ∈ c.inFlight, s.sacked = false →
      s.payload.length ≤ (Session.reduceEffectiveMss pathMss c).effectiveMss.toNat) ∧
    ∀ chunk ∈ c.sendQueue, chunk.length ≤ (Session.reduceEffectiveMss pathMss c).effectiveMss.toNat

instance (pathMss : UInt16) (c : TcpConnection) : Decidable (NothingBigger pathMss c) :=
  inferInstanceAs (Decidable (_ ∧ _ ∧ _))

/-- **A smaller path MTU takes effect** where nothing bigger is left: whatever
happens afterwards, no payload is longer than the effective MSS that
`reduce_effective_mss` left. -/
theorem path_mtu_takes_effect (pathMss : UInt16) (x y z : Session) (events : List Event)
    (hreduce : (Event.reduceEffectiveMss pathMss).run x = some y) (hok : NothingBigger pathMss x.conn)
    (hrun : runs Event.run events y = some z) : SentCapped y.conn.effectiveMss.toNat y z := by
  obtain rfl := Option.some.inj hreduce
  obtain ⟨hstate, hflight, hqueue⟩ := hok
  obtain ⟨mss, heq⟩ := reduceEffectiveMss_eq pathMss x.conn
  rw [heq] at hflight hqueue
  simp only [Session.modify, heq] at hrun ⊢
  have hstart : Capped mss.toNat ({ x.conn with effectiveMss := mss } : TcpConnection).core := by
    refine ⟨le_rfl, fun s hs => ?_, hqueue⟩
    obtain ⟨seg, hseg, rfl⟩ := List.mem_map.1 hs
    exact hflight seg hseg
  exact (runs_induction
    (I := fun z => Capped mss.toNat z.conn.core ∧ z.conn.state ≠ .synSent ∧
      SentCapped mss.toNat { x with conn := { x.conn with effectiveMss := mss } } z)
    (fun e u v hu he => by
      obtain ⟨hcapped, hnot, hsent⟩ := hu
      obtain ⟨hcapped', hnot', hsent'⟩ := hcapped.run hnot he
      exact ⟨hcapped', hnot', hsent.trans hsent'⟩)
    ⟨hstart, hstate, .refl _ _⟩ hrun).2.2

/-- An established connection with an effective MSS of 600, whose peer has port
9000 and has sent nothing. -/
def established600 : Session :=
  (((Session.fresh 80 9000 100 600 .reno).acceptIncomingSyn { peerIsn := 7, peerMss := 600 }).onSegment
    (Tcp.ofFlags 9000 80 8 101 5 flagAck 2000 0 0))

/-- 536 bytes are in flight and the effective MSS comes down to 536: the
retransmission and what is sent later are no longer. -/
theorem path_mtu_takes_effect_small_segment :
    ∃ x y z, (Event.send (List.replicate 536 1)).run established600 = some x ∧
      (Event.reduceEffectiveMss 500).run x = some y ∧
      runs Event.run [.timePassed 1000, .segment (Tcp.ofFlags 9000 80 8 637 5 flagAck 2000 0 0),
        .send (List.replicate 600 2)] y = some z ∧
      y.conn.effectiveMss = 536 ∧ SentCapped y.conn.effectiveMss.toNat y z ∧
      (z.sent.map fun call => call.payload.length) = [0, 536, 536, 536] := by
  refine ⟨_, _, _, (Option.some_get (by decide +kernel)).symm, rfl,
    (Option.some_get (by decide +kernel)).symm, by decide +kernel, ?_, by decide +kernel⟩
  exact path_mtu_takes_effect 500 _ _ _
    [.timePassed 1000, .segment (Tcp.ofFlags 9000 80 8 637 5 flagAck 2000 0 0),
      .send (List.replicate 600 2)] rfl (by decide +kernel) (Option.some_get _).symm

/-- The effective MSS comes down from 600 to 536 while 600 bytes are in flight
and 600 wait.  The timeout sends the first 600 again, and the ack that follows
releases the other 600.  And in `SYN_SENT`, where the effective MSS is 536, the
reduction is undone by the SYN-ACK. -/
theorem reduced_mss_sends_bigger :
    (∃ x y z, (Event.send (List.replicate 1200 1)).run established600 = some x ∧
      (Event.reduceEffectiveMss 500).run x = some y ∧ y.conn.effectiveMss = 536 ∧
      runs Event.run [.timePassed 1000, .segment (Tcp.ofFlags 9000 80 8 701 5 flagAck 2000 0 0)] y =
        some z ∧
      ((z.sent.drop y.sent.length).map fun call => (call.site, call.payload.length)) =
        [(.timeoutRetransmit, 600), (.sendFlags, 600)]) ∧
    ∃ y z, (Event.reduceEffectiveMss 500).run
        (Opener.active.run (.fresh 80 9000 100 1460 .reno)) = some y ∧ y.conn.effectiveMss = 536 ∧
      runs Event.run [.segment (synAck (some 1460)), .send (List.replicate 1000 1)] y = some z ∧
      ((z.sent.drop y.sent.length).map fun call => (call.site, call.payload.length)) =
        [(.pureAck, 0), (.sendFlags, 1000)] := by
  refine ⟨⟨_, _, _, (Option.some_get (by decide +kernel)).symm, rfl, by decide +kernel,
      (Option.some_get (by decide +kernel)).symm, by decide +kernel⟩,
    _, _, rfl, by decide +kernel, (Option.some_get (by decide +kernel)).symm, by decide +kernel⟩

end TcpIpStack
