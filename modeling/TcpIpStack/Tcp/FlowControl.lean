/-
# Flow control

What is sent for the first time must end at or before a right edge the peer has
granted: the acknowledgement number of some segment of his plus its window,
scaled unless the segment is a SYN.

The code does not keep the right edge.  It compares the bytes in flight with the
window of whatever ack came last, so it is right as long as that window counts
from `SND.UNA` and everything from `SND.UNA` on is counted.  Three things break
this.  A segment that a SACK block has named is not counted any more; an old
ack brings a window that counts from further back; and `SYN_SENT` scales the
window of the SYN-ACK, which the peer did not.  Where segments do none of the
three, nothing is sent past the edge (`flow_control`);
`sent_past_the_right_edge` has a run for each.
-/

import TcpIpStack.Lib.Runs
import TcpIpStack.Tcp.Sender

namespace TcpIpStack

open Serial TcpConnection Session Runs

/-! ### Grants -/

/-- The window of a segment under a shift. -/
def scaledWindow (shift : UInt8) (t : Tcp) : UInt32 := t.window.toUInt32 <<< shift.toUInt32

/-- The right edge a segment grants.  The window of a SYN is never scaled. -/
def rightEdge (shift : UInt8) (t : Tcp) : UInt32 :=
  t.acknowledgementNumber + scaledWindow (if t.syn then 0 else shift) t

/-- Some ack among the segments grants this right edge. -/
def Granted (received : List Tcp) (shift : UInt8) (edge : UInt32) : Prop :=
  ∃ t ∈ received, t.ack ∧ rightEdge shift t = edge

/-- The call sends data for the first time: it is not a retransmission and not a
probe. -/
def Call.sendsData (call : Call) : Prop := call.site = .sendFlags ∧ call.payload ≠ []

/-- The segment ends at or before a right edge that one of the segments
`received` grants. -/
def Call.WithinGrants (received : List Tcp) (call : Call) : Prop :=
  ∃ t ∈ received, t.ack ∧
    atOrBefore (call.header.sequenceNumber + UInt32.ofNat call.payload.length)
      (rightEdge call.conn.peerShift t)

/-- Nothing has been sent past the right edge.  Every beginning of a run is a
run, so the grant was there when the segment was sent. -/
def Session.WithinGrants (x : Session) : Prop :=
  ∀ call ∈ x.sent, call.sendsData → call.WithinGrants x.received

instance (call : Call) : Decidable call.sendsData := inferInstanceAs (Decidable (_ ∧ _))

instance (received : List Tcp) (call : Call) : Decidable (call.WithinGrants received) :=
  inferInstanceAs (Decidable (∃ t ∈ received, _))

instance (x : Session) : Decidable x.WithinGrants :=
  inferInstanceAs (Decidable (∀ call ∈ x.sent, _))

section Grants

variable {received received' : List Tcp} {shift : UInt8} {edge : UInt32} {t : Tcp}

theorem Granted.mono (h : Granted received shift edge) (hsub : received ⊆ received') :
    Granted received' shift edge := by
  obtain ⟨t, ht, hgrant⟩ := h
  exact ⟨t, hsub ht, hgrant⟩

theorem Call.WithinGrants.mono {call : Call} (h : call.WithinGrants received)
    (hsub : received ⊆ received') : call.WithinGrants received' := by
  obtain ⟨t, ht, hgrant⟩ := h
  exact ⟨t, hsub ht, hgrant⟩

/-- A window of sixteen bits and a shift of at most 14 stay below `2^30`. -/
theorem scaledWindow_lt (h : shift ≤ 14) (t : Tcp) : (scaledWindow shift t).toNat < 2 ^ 30 := by
  have hshift : shift.toNat ≤ 14 := UInt8.le_iff_toNat_le.1 h
  have hwindow : t.window.toNat < 2 ^ 16 := t.window.toNat_lt
  have hmod : shift.toNat % 32 = shift.toNat := Nat.mod_eq_of_lt (by omega)
  rw [scaledWindow, UInt32.toNat_shiftLeft, UInt16.toNat_toUInt32, UInt8.toNat_toUInt32, hmod,
    Nat.shiftLeft_eq]
  calc t.window.toNat * 2 ^ shift.toNat % 2 ^ 32
      ≤ t.window.toNat * 2 ^ shift.toNat := Nat.mod_le _ _
    _ ≤ t.window.toNat * 2 ^ 14 := Nat.mul_le_mul_left _ (Nat.pow_le_pow_right (by norm_num) hshift)
    _ < 2 ^ 30 := by omega

theorem rightEdge_eq (h : t.syn → scaledWindow shift t = scaledWindow 0 t) :
    rightEdge shift t = t.acknowledgementNumber + scaledWindow shift t := by
  unfold rightEdge
  split_ifs with hsyn
  · rw [h hsyn]
  · rfl

end Grants

/-! ### Room in the window -/

/-- The shift by which the peer scales the windows it grants. -/
def Core.peerShift (k : Core) : UInt8 := if k.windowScalingNegotiated then k.peerWindowScale else 0

/-- With `n` bytes acknowledged, the window counts from byte `n` on and everything
in flight is counted: the peer has granted what `SND.UNA` and the window allow. -/
structure Room (isn : UInt32) (n : ℕ) (received : List Tcp) (k : Core) : Prop where
  unmarked : ∀ s ∈ k.flight, s.sacked = false
  small : (flightBytes k.flight).length < 2 ^ 30
  window : k.peerWindow.toNat < 2 ^ 30
  granted : ∃ d < 2 ^ 31, k.peerWindow.toNat ≤ d ∧
    Granted received k.peerShift (after isn (1 + n + d))

/-- The ack is at or past `SND.UNA`. -/
def AckForward (isn ack : UInt32) (n : ℕ) : Prop := ∃ d < 2 ^ 30, ack = after isn (1 + n + d)

/-- The ack is at or before `SND.UNA`. -/
def AckBackward (isn ack : UInt32) (n : ℕ) : Prop := ∃ d < 2 ^ 30, after isn (1 + n) = after ack d

section Room

variable {isn ack : UInt32} {n : ℕ} {received : List Tcp} {k : Core} {t : Tcp}

/-- An ack that is not old brings a window that counts from `SND.UNA`. -/
theorem granted_of_ackForward {shift : UInt8} (hshift : shift ≤ 14)
    (hgrant : Granted received shift (rightEdge shift t))
    (hunscaled : t.syn → scaledWindow shift t = scaledWindow 0 t)
    (hforward : AckForward isn t.acknowledgementNumber n) :
    ∃ d < 2 ^ 31, (scaledWindow shift t).toNat ≤ d ∧ Granted received shift (after isn (1 + n + d)) := by
  obtain ⟨d, hd, hack⟩ := hforward
  have hlt := scaledWindow_lt hshift t
  refine ⟨d + (scaledWindow shift t).toNat, by omega, by omega, ?_⟩
  rw [rightEdge_eq hunscaled, hack] at hgrant
  rwa [← Nat.add_assoc, after_add, UInt32.ofNat_toNat]

theorem unsackedBytes_of_unmarked {flight : List Flight} (htiles : Tiles isn n flight)
    (h : ∀ s ∈ flight, s.sacked = false) : unsackedBytes flight = UInt32.ofNat (flightBytes flight).length := by
  induction flight generalizing n with
  | nil => rfl
  | cons s rest ih =>
    obtain ⟨hseq, hend, -, -, hrest⟩ := htiles
    have hsize : s.unsackedSize = UInt32.ofNat s.payload.length := by
      rw [Flight.unsackedSize, h s (List.mem_cons_self ..), hseq, hend, after_add isn (1 + n)]
      simp
    have hlength : (flightBytes (s :: rest)).length = s.payload.length + (flightBytes rest).length := by
      simp [flightBytes]
    rw [unsackedBytes, hsize, ih hrest fun s hs => h s (List.mem_cons_of_mem _ hs), hlength,
      UInt32.ofNat_add]

/-- **A chunk that fits is within the grants, and there is still room after it.** -/
theorem Room.transmit {x : Session} {chunk : Bytes} (h : Room isn n received x.conn.core)
    (hstreaming : Streaming isn n x.conn.core)
    (hcount : x.conn.unsackedInFlightBytes = unsackedBytes x.conn.core.flight)
    (hfits : x.conn.unsackedInFlightBytes.toNat + chunk.length ≤ x.conn.peerWindow.toNat) :
    Room isn n received (x.sendFlags 0 chunk true).conn.core ∧
      ∀ call ∈ (x.sendFlags 0 chunk true).sent, call ∈ x.sent ∨ call.WithinGrants received := by
  have hcounted : x.conn.unsackedInFlightBytes.toNat = (flightBytes x.conn.core.flight).length := by
    have hsmall := h.small
    rw [hcount, unsackedBytes_of_unmarked hstreaming.tiles h.unmarked, UInt32.toNat_ofNat']
    exact Nat.mod_eq_of_lt (by omega)
  have hwindow : x.conn.peerWindow.toNat < 2 ^ 30 := h.window
  obtain ⟨d, hd, hle, t, ht, hack, hedge⟩ := h.granted
  have hle : x.conn.peerWindow.toNat ≤ d := hle
  constructor
  · rw [core_sendFlags_data]
    refine ⟨?_, ?_, h.window, h.granted⟩
    · intro s hs
      rcases List.mem_append.1 hs with hs | hs
      · exact h.unmarked s hs
      · rw [List.mem_singleton.1 hs]
    · have hlength : (flightBytes (x.conn.core.transmit flagAck chunk chunk.length).flight).length =
          (flightBytes x.conn.core.flight).length + chunk.length := by
        simp [Core.transmit, flightBytes]
      omega
  · intro call hcall
    rcases List.mem_append.1 hcall with hcall | hcall
    · exact .inl hcall
    · -- the call is the one just made, and it starts at `SND.NXT`
      rw [List.mem_singleton.1 hcall]
      refine .inr ⟨t, ht, hack, ?_⟩
      have hnext : x.conn.sendNext = after isn (1 + n + (flightBytes x.conn.core.flight).length) :=
        hstreaming.sendNext
      have hright : rightEdge x.conn.peerShift t = after isn (1 + n + d) := hedge
      show atOrBefore (x.conn.sendNext + UInt32.ofNat chunk.length) (rightEdge x.conn.peerShift t)
      rw [hnext, hright, ← after_add, atOrBefore_after isn (by omega) (by omega)]
      omega

/-- A forward ack stays one when what it covers is retired. -/
theorem AckForward.retire {popped rest : List Flight} (h : AckForward isn ack n)
    (htiles : Tiles isn n k.flight) (hflight : k.flight = popped ++ rest)
    (hsmall : (flightBytes k.flight).length < 2 ^ 30) (hcovered : ∀ s ∈ popped, atOrBefore s.endSeq ack) :
    AckForward isn ack (n + (flightBytes popped).length) := by
  obtain ⟨d, hd, rfl⟩ := h
  rw [hflight, tiles_append] at htiles
  rw [hflight, flightBytes_append, List.length_append] at hsmall
  have hle : (flightBytes popped).length ≤ d := by
    by_cases hnil : popped = []
    · simp [hnil, flightBytes]
    · obtain ⟨s, hs, hend⟩ := htiles.1.last hnil
      have hbefore := hcovered s hs
      rw [hend, atOrBefore_after isn (by omega) (by omega)] at hbefore
      omega
  exact ⟨d - (flightBytes popped).length, by omega, by congr 1; omega⟩

/-- An old ack covers nothing. -/
theorem AckBackward.popped_eq_nil {popped rest : List Flight} (h : AckBackward isn ack n)
    (htiles : Tiles isn n k.flight) (hflight : k.flight = popped ++ rest)
    (hsmall : (flightBytes k.flight).length < 2 ^ 30)
    (hcovered : ∀ s ∈ popped, atOrBefore s.endSeq ack) : popped = [] := by
  obtain ⟨d, hd, hback⟩ := h
  cases popped with
  | nil => rfl
  | cons s popped =>
    exfalso
    rw [hflight] at htiles hsmall
    obtain ⟨-, hend, -, hpayload, -⟩ := htiles
    have hpos : 0 < s.payload.length := List.length_pos_iff.2 hpayload
    have hle : s.payload.length ≤ (flightBytes (s :: popped ++ rest)).length := by
      simp [flightBytes]
    have hbefore := hcovered s (List.mem_cons_self ..)
    rw [hend, after_add, hback, ← after_add] at hbefore
    have hafter : atOrBefore (after ack (d + s.payload.length)) (after ack 0) := by
      rwa [after_zero]
    rw [atOrBefore_after ack (by omega) (by omega)] at hafter
    omega

end Room

/-! ### Effects -/

/-- The accounts are in order, the shift is a legal one, there is room while
data may be sent, and nothing went past the edge. -/
structure Flow (isn : UInt32) (x : Session) : Prop where
  kept : x.Kept isn
  shift : x.conn.peerShift ≤ 14
  room : acceptsData x.conn.state → Room isn x.retired.length x.received x.conn.core
  calls : x.WithinGrants

/-- A segment that leaves the window counting from `SND.UNA`, with everything in
flight counted. -/
structure Honours (isn : UInt32) (t : Tcp) (x : Session) : Prop where
  blocks : t.sackBlocks = []
  granted : ∀ shift, Granted x.received shift (rightEdge shift t)
  unscaled : t.syn → scaledWindow x.conn.peerShift t = scaledWindow 0 t
  timely : AckForward isn t.acknowledgementNumber x.retired.length ∨
    AckBackward isn t.acknowledgementNumber x.retired.length ∧
      scaledWindow x.conn.peerShift t ≤ x.conn.peerWindow

/-- The handshake is over, and a segment whose ack is taken in while data may be
sent honours the window. -/
def Admits (isn : UInt32) (e : Event) (x : Session) : Prop :=
  ∀ t, e = .segment t → (x.conn.state ≠ .synSent ∧ x.conn.state ≠ .synReceived) ∧
    (acceptsData x.conn.state → t.ack → Honours isn t x)

/-- What the window is about stays, and no data is sent. -/
structure WindowSame (x y : Session) : Prop where
  flight : acceptsData y.conn.state → y.conn.core.flight = x.conn.core.flight
  window : y.conn.peerWindow = x.conn.peerWindow
  shift : y.conn.peerShift = x.conn.peerShift
  retired : y.retired = x.retired
  received : x.received ⊆ y.received
  accepts : acceptsData y.conn.state → acceptsData x.conn.state
  past : x.conn.state ≠ .synSent ∧ x.conn.state ≠ .synReceived →
    y.conn.state ≠ .synSent ∧ y.conn.state ≠ .synReceived
  sent : ∀ call ∈ y.sent, call ∈ x.sent ∨ ¬ call.sendsData

section Effects

variable {isn : UInt32} {e : Event} {s₀ : TcpState} {x y : Session} {t : Tcp}

theorem WindowSame.of_conn {c : TcpConnection} (hflight : c.core.flight = x.conn.core.flight)
    (hwindow : c.peerWindow = x.conn.peerWindow) (hshift : c.peerShift = x.conn.peerShift)
    (hstate : c.state = x.conn.state) : WindowSame x { x with conn := c } :=
  ⟨fun _ => hflight, hwindow, hshift, rfl, List.Subset.refl _, fun h => by rwa [← hstate],
    fun h => by rwa [← hstate] at h, fun _ h => .inl h⟩

theorem WindowSame.of_core {c : TcpConnection} (h : x.conn.core = c.core) : WindowSame x { x with conn := c } :=
  .of_conn (congrArg Core.flight h).symm (congrArg Core.peerWindow h).symm
    (congrArg Core.peerShift h).symm (congrArg Core.state h).symm

theorem WindowSame.sendSegment {site : CallSite} (header : Tcp) {payload : Bytes}
    (h : site ≠ .sendFlags ∨ payload = []) : WindowSame x (x.sendSegment site header payload) := by
  refine ⟨fun _ => rfl, rfl, rfl, rfl, List.Subset.refl _, id, id, fun call hcall => ?_⟩
  rcases List.mem_append.1 hcall with hcall | hcall
  · exact .inl hcall
  · rw [List.mem_singleton.1 hcall]
    refine .inr fun hdata => ?_
    rcases h with h | h
    · exact h hdata.1
    · exact hdata.2 h

theorem WindowSame.trans {z : Session} (h : WindowSame x y) (h' : WindowSame y z) : WindowSame x z where
  flight hz := (h'.flight hz).trans (h.flight (h'.accepts hz))
  window := h'.window.trans h.window
  shift := h'.shift.trans h.shift
  retired := h'.retired.trans h.retired
  received := List.Subset.trans h.received h'.received
  accepts hz := h.accepts (h'.accepts hz)
  past hx := h'.past (h.past hx)
  sent call hcall := (h'.sent call hcall).elim (h.sent call) .inr

theorem WindowSame.transition {newState : TcpState} (haccepts : ¬ acceptsData newState)
    (hpast : newState ≠ .synSent ∧ newState ≠ .synReceived) : WindowSame x (x.transition newState) :=
  ⟨fun _ => rfl, rfl, rfl, rfl, List.Subset.refl _, fun h => absurd h haccepts, fun _ => hpast,
    fun _ h => .inl h⟩

theorem windowSame_sendFin (x : Session) : WindowSame x x.sendFin := by
  have hnot : ¬ acceptsData x.sendFin.conn.state := by
    show ¬ acceptsData (if x.conn.state = .established then .finWait1 else .lastAck)
    split_ifs <;> simp [acceptsData]
  refine ⟨fun hacc => absurd hacc hnot, rfl, rfl, rfl, List.Subset.refl _,
    fun hacc => absurd hacc hnot, fun _ => ?_, fun call hcall => ?_⟩
  · show (if x.conn.state = .established then TcpState.finWait1 else .lastAck) ≠ _ ∧
      (if x.conn.state = .established then TcpState.finWait1 else .lastAck) ≠ _
    split_ifs <;> simp
  · rcases List.mem_append.1 hcall with hcall | hcall
    · exact .inl hcall
    · rw [List.mem_singleton.1 hcall]
      exact .inr fun hdata => hdata.2 rfl

theorem acceptsData_of_stateAfterFin {state : TcpState} (h : acceptsData (stateAfterFin state)) :
    acceptsData state := by
  cases state <;> simp [acceptsData, stateAfterFin] at h ⊢

theorem stateAfterFin_past {state : TcpState} (h : state ≠ .synSent ∧ state ≠ .synReceived) :
    stateAfterFin state ≠ .synSent ∧ stateAfterFin state ≠ .synReceived := by
  cases state <;> simp [stateAfterFin] at h ⊢

theorem windowSame_consumeFin (x : Session) : WindowSame x x.consumeFin := by
  obtain ⟨-, heq⟩ | ⟨c, entered, -, -, hcore, heq⟩ := consumeFin_cases x
  · rw [heq]
    exact .of_conn rfl rfl rfl rfl
  · have hstate : x.consumeFin.conn.state = stateAfterFin x.conn.state := congrArg Core.state hcore
    have hflight := congrArg Core.flight hcore
    refine ⟨fun _ => hflight, congrArg Core.peerWindow hcore, congrArg Core.peerShift hcore,
      by rw [heq], by rw [heq]; exact List.Subset.refl _,
      fun hacc => acceptsData_of_stateAfterFin (hstate ▸ hacc),
      fun hpast => hstate ▸ stateAfterFin_past hpast, fun call hcall => ?_⟩
    · rw [heq] at hcall
      rcases List.mem_append.1 hcall with hcall | hcall
      · exact .inl hcall
      · rw [List.mem_singleton.1 hcall]
        exact .inr fun hdata => hdata.2 rfl

theorem applySackBlocks_of_nil (h : t.sackBlocks = []) (c : TcpConnection) :
    c.applySackBlocks t = (c, false) := by
  unfold applySackBlocks
  rw [h]
  split_ifs <;> rfl

theorem Flow.of_same (h : Flow isn x) (hkept : y.Kept isn) (hs : WindowSame x y) : Flow isn y := by
  refine ⟨hkept, hs.shift ▸ h.shift, fun hacc => ?_, fun call hcall hdata => ?_⟩
  · obtain ⟨hunmarked, hsmall, hwindow, d, hd, hle, hgrant⟩ := h.room (hs.accepts hacc)
    have hpw : y.conn.core.peerWindow = x.conn.core.peerWindow := hs.window
    have hsh : y.conn.core.peerShift = x.conn.core.peerShift := hs.shift
    rw [← hs.flight hacc] at hunmarked hsmall
    rw [← hpw] at hwindow hle
    rw [← hsh, ← hs.retired] at hgrant
    exact ⟨hunmarked, hsmall, hwindow, d, hd, hle, hgrant.mono hs.received⟩
  · rcases hs.sent call hcall with hcall | hnot
    · exact (h.calls call hcall hdata).mono hs.received
    · exact absurd hdata hnot

theorem Honours.mono (h : Honours isn t x) (hwindow : y.conn.peerWindow = x.conn.peerWindow)
    (hshift : y.conn.peerShift = x.conn.peerShift) (hretired : y.retired = x.retired)
    (hreceived : x.received ⊆ y.received) : Honours isn t y where
  blocks := h.blocks
  granted shift := (h.granted shift).mono hreceived
  unscaled := hshift ▸ h.unscaled
  timely := by rw [hwindow, hshift, hretired]; exact h.timely

theorem Admits.of_same (h : Admits isn e x) (hs : WindowSame x y) : Admits isn e y :=
  fun t ht => ⟨hs.past (h t ht).1, fun hacc hack =>
    ((h t ht).2 (hs.accepts hacc) hack).mono hs.window hs.shift hs.retired hs.received⟩

/-- A chunk that fits goes out, from the queue or past it. -/
theorem Flow.transmit {chunk accepted : Bytes} {queue : List Bytes} {queued : ℕ} (h : Flow isn x)
    (hadmits : Admits isn e x) (hacc : acceptsData x.conn.state)
    (hfits : x.conn.unsackedInFlightBytes.toNat + chunk.length ≤ x.conn.peerWindow.toNat)
    (hy : y = { { x with conn := { x.conn with sendQueue := queue, sendQueuedBytes := queued } }.sendFlags
      0 chunk true with accepted := accepted }) (hkept : y.Kept isn) : Flow isn y ∧ Admits isn e y := by
  have hroom := h.room hacc
  have hstreaming := h.kept.phase.streaming hacc
  obtain ⟨hroom', hsent⟩ := Room.transmit
    (x := { x with conn := { x.conn with sendQueue := queue, sendQueuedBytes := queued } })
    ⟨hroom.unmarked, hroom.small, hroom.window, hroom.granted⟩
    ⟨hstreaming.tiles, hstreaming.sendNext⟩ h.kept.unsacked hfits
  subst hy
  constructor
  · refine ⟨hkept, h.shift, fun _ => hroom', fun call hcall hdata => ?_⟩
    rcases hsent call hcall with hcall | hwithin
    · exact h.calls call hcall hdata
    · exact hwithin
  · intro t ht
    exact ⟨(hadmits t ht).1, fun _ hack =>
      ((hadmits t ht).2 hacc hack).mono rfl rfl rfl (List.Subset.refl _)⟩

theorem toNat_min_le (a b : UInt32) : (min a b).toNat ≤ b.toNat := by
  show (if a ≤ b then a else b).toNat ≤ b.toNat
  split_ifs with hle
  · exact UInt32.le_iff_toNat_le.1 hle
  · exact le_rfl

/-- The window of a segment that honours it counts from `SND.UNA`. -/
theorem Flow.window (h : Flow isn x) (hadmits : Admits isn (.segment t) x) (hack : t.ack)
    (hkept : (x.modify (takeWindow t)).Kept isn) :
    Flow isn (x.modify (takeWindow t)) ∧ Admits isn (.segment t) (x.modify (takeWindow t)) := by
  have hlt := scaledWindow_lt h.shift t
  constructor
  · refine ⟨hkept, h.shift, fun hacc => ?_, h.calls⟩
    have hroom := h.room hacc
    have hhonours := (hadmits t rfl).2 hacc hack
    refine ⟨hroom.unmarked, hroom.small, hlt, ?_⟩
    rcases hhonours.timely with hforward | ⟨-, hle⟩
    · exact granted_of_ackForward h.shift (hhonours.granted _) hhonours.unscaled hforward
    · obtain ⟨d, hd, hwindow, hgrant⟩ := hroom.granted
      exact ⟨d, hd, (UInt32.le_iff_toNat_le.1 hle).trans hwindow, hgrant⟩
  · rintro _ ⟨rfl⟩
    refine ⟨(hadmits t rfl).1, fun hacc _ => ?_⟩
    obtain ⟨hblocks, hgranted, hunscaled, htimely⟩ := (hadmits t rfl).2 hacc hack
    exact ⟨hblocks, hgranted, hunscaled, htimely.imp_right fun hold => ⟨hold.1, UInt32.le_refl _⟩⟩

/-- The window slides under an ack that honours it. -/
theorem Flow.slide (h : Flow isn x) (hadmits : Admits isn (.segment t) x) (hack : t.ack)
    (hwindow : x.conn.peerWindow = scaledWindow x.conn.peerShift t) (hkept : (x.slide t).Kept isn) :
    Flow isn (x.slide t) ∧ Admits isn (.segment t) (x.slide t) := by
  obtain ⟨popped, rest, hflight, hcovered, hcore, hretired, -, hsent⟩ := core_slide t x
  have hreceived : (x.slide t).received = x.received := by
    unfold Session.slide
    split <;> rfl
  have hstate : (x.slide t).conn.state = stateAfterAck x.conn.state popped := congrArg Core.state hcore
  have haccepts (hacc : acceptsData (x.slide t).conn.state) :
      acceptsData x.conn.state ∧ (x.slide t).conn.state = x.conn.state := by
    rw [hstate, stateAfterAck] at hacc ⊢
    split_ifs at hacc ⊢
    · cases hs : x.conn.state <;> rw [hs] at hacc <;> simp [acceptsData, finAckedState] at hacc ⊢
    · exact ⟨hacc, rfl⟩
  have hpw : (x.slide t).conn.peerWindow = x.conn.peerWindow := congrArg Core.peerWindow hcore
  have hshift : (x.slide t).conn.peerShift = x.conn.peerShift := congrArg Core.peerShift hcore
  have hlength : (x.slide t).retired.length = x.retired.length + (flightBytes popped).length := by
    rw [hretired, List.length_append]
  have htimely (hacc : acceptsData x.conn.state) :
      AckForward isn t.acknowledgementNumber (x.slide t).retired.length ∨
        popped = [] ∧ AckBackward isn t.acknowledgementNumber x.retired.length := by
    have htiles := (h.kept.phase.streaming hacc).tiles
    have hsmall := (h.room hacc).small
    rcases ((hadmits t rfl).2 hacc hack).timely with hforward | ⟨hback, -⟩
    · rw [hlength]
      exact .inl (hforward.retire htiles hflight hsmall hcovered)
    · exact .inr ⟨hback.popped_eq_nil htiles hflight hsmall hcovered, hback⟩
  constructor
  · refine ⟨hkept, hshift ▸ h.shift, fun hacc => ?_, ?_⟩
    · obtain ⟨hacc, -⟩ := haccepts hacc
      have hroom := h.room hacc
      have hhonours := (hadmits t rfl).2 hacc hack
      have hrest : (x.slide t).conn.core.flight = rest := congrArg Core.flight hcore
      refine ⟨fun s hs => ?_, ?_, ?_, ?_⟩
      · rw [hrest] at hs
        exact hroom.unmarked s (by rw [hflight]; exact List.mem_append_right _ hs)
      · have hsmall := hroom.small
        rw [hflight, flightBytes_append, List.length_append] at hsmall
        rw [hrest]
        omega
      · exact (congrArg UInt32.toNat hpw).trans_lt hroom.window
      · show ∃ d < 2 ^ 31, (x.slide t).conn.peerWindow.toNat ≤ d ∧
          Granted (x.slide t).received (x.slide t).conn.peerShift _
        rw [hpw, hshift, hreceived]
        rcases htimely hacc with hforward | ⟨rfl, -⟩
        · rw [hwindow]
          exact granted_of_ackForward h.shift (hhonours.granted _) hhonours.unscaled hforward
        · rw [hlength]
          exact hroom.granted
    · unfold Session.WithinGrants
      rw [hsent, hreceived]
      exact h.calls
  · rintro _ ⟨rfl⟩
    constructor
    · rw [hstate, stateAfterAck]
      split_ifs
      · cases hnew : finAckedState x.conn.state with
        | none => exact (hadmits t rfl).1
        | some newState =>
          rcases finAckedState_cases hnew with ⟨-, rfl⟩ | ⟨-, rfl⟩ | ⟨-, rfl⟩ <;> simp
      · exact (hadmits t rfl).1
    · intro hacc _
      obtain ⟨hacc, -⟩ := haccepts hacc
      obtain ⟨hblocks, hgranted, hunscaled, hold⟩ := (hadmits t rfl).2 hacc hack
      refine ⟨hblocks, hreceived ▸ hgranted, hshift ▸ hunscaled, ?_⟩
      rcases htimely hacc with hforward | ⟨rfl, hback⟩
      · exact .inl hforward
      · rw [hlength, hpw, hshift]
        exact hold

/-- **Every effect keeps the flow in order**, as long as the segment that causes
it honours the window. -/
theorem Flow.effect (h : Flow isn x) (hadmits : Admits isn e x) (he : Effect e s₀ x y) :
    Flow isn y ∧ Admits isn e y := by
  have hkept := h.kept.effect he
  have hsame (hs : WindowSame x y) : Flow isn y ∧ Admits isn e y :=
    ⟨h.of_same hkept hs, hadmits.of_same hs⟩
  cases he with
  | quiet c hcore => exact hsame (.of_core hcore)
  | receive t =>
    exact hsame ⟨fun _ => rfl, rfl, rfl, rfl, List.subset_append_left .., id, id, fun _ hc => .inl hc⟩
  | ack => exact hsame ((WindowSame.sendSegment _ (.inl (by decide))).trans (.of_conn rfl rfl rfl rfl))
  | holdAck => exact hsame (.of_conn rfl rfl rfl rfl)
  | probe => exact hsame (.sendSegment _ (.inl (by decide)))
  | keepalive => exact hsame (.sendSegment _ (.inl (by decide)))
  | retransmit site s hsite =>
    refine hsame (.sendSegment _ (.inl ?_))
    rcases hsite with rfl | rfl <;> decide
  | drain t front rest _ hqueue hmay hacks =>
    have hacc := h.kept.acceptsData_of_queue hacks.2.2 (by simp [core, hqueue])
    simp only [mayDrain, Bool.and_eq_true, decide_eq_true_eq] at hmay
    exact h.transmit hadmits hacc (hmay.1.trans (toNat_min_le ..)) rfl hkept
  | place chunk _ _ hacc =>
    unfold placeChunk at hkept hsame ⊢
    dsimp only at hkept hsame ⊢
    split_ifs at hkept hsame ⊢ with hqueue
    · exact hsame ⟨fun _ => rfl, rfl, rfl, rfl, List.Subset.refl _, id, id, fun _ hc => .inl hc⟩
    · simp only [mustQueue, Bool.or_eq_true, decide_eq_true_eq, not_or, not_lt] at hqueue
      exact h.transmit hadmits hacc (hqueue.2.trans (toNat_min_le ..)) rfl hkept
  | fin => exact hsame (windowSame_sendFin x)
  | scoreboard t ht hack _ =>
    obtain ⟨flight, bytes, heq⟩ := applySackBlocks_eq t x.conn
    have hstate := applySackBlocks_state t x.conn
    refine hsame ⟨fun hacc => ?_, ?_, ?_, rfl, List.Subset.refl _, fun hacc => ?_, fun hpast => ?_,
      fun _ hc => .inl hc⟩
    · -- the segment has no blocks to apply
      have hhonours := (hadmits t ht).2 (hstate ▸ hacc) hack
      show (x.conn.applySackBlocks t).1.core.flight = x.conn.core.flight
      rw [applySackBlocks_of_nil hhonours.blocks]
    · show (x.conn.applySackBlocks t).1.peerWindow = _
      rw [heq]
    · show (x.conn.applySackBlocks t).1.peerShift = _
      rw [heq]
      rfl
    · exact hstate ▸ hacc
    · exact hstate.symm ▸ hpast
  | window t ht hack _ =>
    subst ht
    exact h.window hadmits hack hkept
  | slide t ht hack _ hwindow =>
    subst ht
    exact h.slide hadmits hack hwindow hkept
  | deliver => exact hsame (.of_conn rfl rfl rfl rfl)
  | unblock => exact hsame (.of_conn rfl rfl rfl rfl)
  | buffer t =>
    refine hsame (.of_conn ?_ ?_ ?_ ?_) <;>
    · unfold bufferOutOfOrder
      split_ifs <;> rfl
  | consumeFin => exact hsame (windowSame_consumeFin x)
  | establishActive t ht hstate => exact absurd hstate (hadmits t ht).1.1
  | establishPassive t ht hstate => exact absurd hstate (hadmits t ht).1.2
  | abort => exact hsame (.transition (by simp [acceptsData]) (by simp))
  | take => exact hsame ⟨fun _ => rfl, rfl, rfl, rfl, List.Subset.refl _, id, id, fun _ hc => .inl hc⟩
  | lowerMss pathMss =>
    refine hsame (.of_conn ?_ ?_ ?_ ?_) <;>
    · unfold reduceEffectiveMss
      dsimp only
      split_ifs <;> rfl

end Effects

/-! ### Events -/

/-- The shift `SYN_SENT` takes from the SYN-ACK. -/
def offeredShift (t : Tcp) : UInt8 := t.windowScaleOption.getD 0

/-- No block names a segment in flight that is not marked yet. -/
def MarksNothing (t : Tcp) (c : TcpConnection) : Prop :=
  c.sackPermitted → ∀ block ∈ t.sackBlocks, ∀ s ∈ c.inFlight, newlyCovers block s = false

/-- The ack is at `SND.UNA` or less than `2^30` past it; or it is less than `2^30` before
it, and its window is not larger than the one in force. -/
def AckTimely (t : Tcp) (c : TcpConnection) : Prop :=
  (t.acknowledgementNumber - c.sndUna).toNat < 2 ^ 30 ∨
    (c.sndUna - t.acknowledgementNumber).toNat < 2 ^ 30 ∧ scaledWindow c.peerShift t ≤ c.peerWindow

/-- What a segment must be, by the state it finds, for the window to count from
`SND.UNA` with everything counted.  A SYN whose window is read under a shift has a
window that the shift does not change. -/
def KeepsWindow (t : Tcp) (c : TcpConnection) : TcpState → Prop
  | .synSent => t.ack → offeredShift t ≤ 14 ∧ scaledWindow (offeredShift t) t = scaledWindow 0 t
  | .synReceived => t.ack → t.syn → scaledWindow c.peerShift t = scaledWindow 0 t
  | .established | .closeWait =>
    t.rst = false → pawsRejects c t = false → t.ack →
      MarksNothing t c ∧ (t.syn → scaledWindow c.peerShift t = scaledWindow 0 t) ∧ AckTimely t c
  | _ => True

/-- A segment that arrives is as `KeepsWindow` asks. -/
def Event.keepsWindow : Event → Session → Prop
  | .segment t, x => KeepsWindow t x.conn x.conn.state
  | _, _ => True

instance (t : Tcp) (c : TcpConnection) : Decidable (MarksNothing t c) :=
  inferInstanceAs (Decidable (_ → _))

instance (t : Tcp) (c : TcpConnection) : Decidable (AckTimely t c) :=
  inferInstanceAs (Decidable (_ ∨ _))

instance (t : Tcp) (c : TcpConnection) : (state : TcpState) → Decidable (KeepsWindow t c state)
  | .synSent | .synReceived | .established | .closeWait => inferInstanceAs (Decidable (_ → _))
  | .listen | .finWait1 | .finWait2 | .closing | .lastAck | .timeWait | .closed => isTrue trivial

instance : (e : Event) → (x : Session) → Decidable (e.keepsWindow x)
  | .segment t, x => inferInstanceAs (Decidable (KeepsWindow t x.conn x.conn.state))
  | .timePassed _, _ | .send _, _ | .read _, _ | .close, _ | .setKeepalive _, _
  | .reduceEffectiveMss _, _ | .fail, _ => isTrue trivial

section Events

variable {isn : UInt32} {e : Event} {x y : Session} {t : Tcp}

variable {c : TcpConnection}

theorem applySackBlock_of_uncovered {block : SackBlock}
    (h : ∀ s ∈ c.inFlight, newlyCovers block s = false) : c.applySackBlock block = c := by
  have hmap : c.inFlight.map (markCovered block) = c.inFlight := by
    rw [List.map_congr_left (g := id) fun s hs => by simp [markCovered, h s hs], List.map_id]
  have hcount : c.inFlight.foldl (uncount block) c.unsackedInFlightBytes = c.unsackedInFlightBytes := by
    clear hmap
    generalize c.unsackedInFlightBytes = bytes
    generalize c.inFlight = flight at h ⊢
    induction flight with
    | nil => rfl
    | cons s rest ih =>
      rw [List.foldl_cons, uncount, h s (List.mem_cons_self ..)]
      exact ih fun s hs => h s (List.mem_cons_of_mem _ hs)
  rw [applySackBlock, hmap, hcount]

theorem applySackBlocks_of_marksNothing (h : MarksNothing t c) :
    c.applySackBlocks t = (c, false) := by
  unfold applySackBlocks
  split_ifs with hpermitted
  · rfl
  · have hblocks := h (by simpa using hpermitted)
    generalize t.sackBlocks = blocks at hblocks ⊢
    clear h hpermitted
    induction blocks with
    | nil => rfl
    | cons block rest ih =>
      have huncovered := hblocks block (List.mem_cons_self ..)
      have hany : c.inFlight.any (newlyCovers block) = false := by
        simpa using huncovered
      rw [List.foldl_cons, applySackBlock_of_uncovered huncovered, hany]
      exact ih fun b hb => hblocks b (List.mem_cons_of_mem _ hb)

theorem handleAck_of_marksNothing (h : MarksNothing t x.conn) :
    x.handleAck t = x.handleAck { t with sackBlocks := [] } := by
  have hnil := applySackBlocks_of_nil (t := { t with sackBlocks := [] }) rfl x.conn
  simp only [handleAck, Session.modify, applySackBlocks_of_marksNothing h, hnil]
  rfl

theorem marksNothing_recordTimestamp (h : MarksNothing t c) :
    MarksNothing t (recordTimestamp t c) := by
  unfold recordTimestamp
  split
  · split_ifs <;> exact h
  · exact h

theorem handleSynchronized_of_marksNothing (h : t.ack → MarksNothing t x.conn) :
    x.handleSynchronized t = x.handleSynchronized { t with sackBlocks := [] } := by
  by_cases hack : t.ack
  · have hmarks : MarksNothing t (x.modify (recordTimestamp t)).conn :=
      marksNothing_recordTimestamp (h hack)
    have hhandled := handleAck_of_marksNothing hmarks
    unfold handleSynchronized
    dsimp only
    rw [if_pos hack, if_pos hack, hhandled]
    rfl
  · unfold handleSynchronized
    dsimp only
    rw [if_neg hack, if_neg hack]
    rfl

theorem Streaming.sndUna {n : ℕ} (h : Streaming isn n c.core) :
    c.sndUna = after isn (1 + n) := by
  obtain ⟨htiles, hnext⟩ := h
  unfold TcpConnection.sndUna
  split
  · next hnil =>
    have hnext : c.sendNext = after isn (1 + n + (flightBytes c.core.flight).length) := hnext
    rw [hnext, core, hnil]
    rfl
  · next front rest hcons =>
    rw [core, hcons] at htiles
    exact htiles.1

theorem AckTimely.cases {n : ℕ} (h : AckTimely t x.conn) (hs : Streaming isn n x.conn.core) :
    AckForward isn t.acknowledgementNumber n ∨
      AckBackward isn t.acknowledgementNumber n ∧ scaledWindow x.conn.peerShift t ≤ x.conn.peerWindow := by
  have huna := hs.sndUna
  rcases h with hforward | ⟨hback, hle⟩
  · rw [huna] at hforward
    refine .inl ⟨_, hforward, ?_⟩
    rw [after_add, UInt32.ofNat_toNat]
    grind
  · rw [huna] at hback
    refine .inr ⟨⟨_, hback, ?_⟩, hle⟩
    rw [after, after, UInt32.ofNat_toNat]
    grind

/-- The handshake ends with an ack of the SYN: the window counts from there. -/
theorem Flow.establish (h : Flow isn x) {flags : UInt8} (hopen : sendPhase x.conn.state = .opening flags)
    (ht : t ∈ x.received) (hack : t.ack) (hseq : t.acknowledgementNumber = x.conn.sendNext)
    (hkept : y.Kept isn) (hshift : y.conn.peerShift ≤ 14)
    (hunscaled : t.syn → scaledWindow y.conn.peerShift t = scaledWindow 0 t)
    (hflight : y.conn.inFlight = []) (hwindow : y.conn.peerWindow = scaledWindow y.conn.peerShift t)
    (hretired : y.retired = x.retired) (hreceived : y.received = x.received)
    (hsent : ∀ call ∈ y.sent, call ∈ x.sent ∨ ¬ call.sendsData) : Flow isn y := by
  have hopening := h.kept.phase.opening hopen
  refine ⟨hkept, hshift, fun _ => ?_, fun call hcall hdata => ?_⟩
  · have hnil : y.conn.core.flight = [] := by rw [core, hflight]; rfl
    refine ⟨by rw [hnil]; simp, by rw [hnil]; simp [flightBytes], ?_, ?_⟩
    · exact (congrArg UInt32.toNat hwindow).trans_lt (scaledWindow_lt hshift t)
    · show ∃ d < 2 ^ 31, y.conn.peerWindow.toNat ≤ d ∧ Granted y.received y.conn.peerShift _
      rw [hwindow, hretired, hreceived, hopening.retired]
      refine granted_of_ackForward hshift ⟨t, ht, hack, rfl⟩ hunscaled ⟨0, by norm_num, ?_⟩
      rw [hseq]
      exact hopening.sendNext
  · rw [hreceived]
    rcases hsent call hcall with hcall | hnot
    · exact h.calls call hcall hdata
    · exact absurd hdata hnot

theorem Flow.steps {s₀ : TcpState} (h : Flow isn x) (hadmits : Admits isn e x)
    (hsteps : Steps e s₀ x y) : Flow isn y :=
  (hsteps.preserves (P := fun x => Flow isn x ∧ Admits isn e x)
    (fun _ _ heff hx => hx.1.effect hx.2 heff) ⟨h, hadmits⟩).1

theorem peerShift_recordSynAck (t : Tcp) (c : TcpConnection) :
    (recordSynAck t c).peerShift = offeredShift t := by
  unfold TcpConnection.peerShift offeredShift
  cases hoption : t.windowScaleOption <;> simp [recordSynAck, hoption]

/-- Past the handshake. -/
theorem Flow.handleSynchronized (h : Flow isn x) (hacks : handlesAcks x.conn.state)
    (ht : t ∈ x.received) (hkept : (x.handleSynchronized t).Kept isn)
    (hok : acceptsData x.conn.state → pawsRejects x.conn t = false → t.ack →
      MarksNothing t x.conn ∧ (t.syn → scaledWindow x.conn.peerShift t = scaledWindow 0 t) ∧
        AckTimely t x.conn) : Flow isn (x.handleSynchronized t) := by
  by_cases hacc : acceptsData x.conn.state
  · by_cases hpaws : pawsRejects x.conn t
    · have hsame : WindowSame x (x.handleSynchronized t) := by
        rw [Session.handleSynchronized, if_pos hpaws]
        exact (WindowSame.sendSegment _ (.inl (by decide))).trans (.of_conn rfl rfl rfl rfl)
      exact h.of_same hkept hsame
    · have hok := hok hacc (by simpa using hpaws)
      rw [handleSynchronized_of_marksNothing fun hack => (hok hack).1]
      have hsteps : Steps (.segment { t with sackBlocks := [] }) x.conn.state x
          (x.handleSynchronized { t with sackBlocks := [] }) := handleSynchronized_steps x hacks hacks
      refine h.steps ?_ hsteps
      rintro _ ⟨rfl⟩
      refine ⟨⟨hacks.1, hacks.2.1⟩, fun _ hack => ⟨rfl, fun shift => ⟨t, ht, hack, rfl⟩, (hok hack).2.1, ?_⟩⟩
      exact AckTimely.cases (hok hack).2.2 (h.kept.phase.streaming hacc)
  · -- our FIN is out: no data will be sent any more
    have hsteps : Steps (.segment t) x.conn.state x (x.handleSynchronized t) :=
      handleSynchronized_steps x hacks hacks
    refine h.steps ?_ hsteps
    exact fun _ _ => ⟨⟨hacks.1, hacks.2.1⟩, fun hacc' => absurd hacc' hacc⟩

theorem Flow.onSegment (h : Flow isn x) (hok : (Event.segment t).keepsWindow x) : Flow isn (x.onSegment t) := by
  have hkept := h.kept.run (e := .segment t) rfl
  have hsame : WindowSame x (x.noteArrival t) :=
    ⟨fun _ => rfl, rfl, rfl, rfl, List.subset_append_left .., id, id, fun _ hc => .inl hc⟩
  have hz : Flow isn (x.noteArrival t) := h.of_same (Bookkeeping.congr h.kept rfl rfl rfl rfl rfl rfl) hsame
  have ht : t ∈ (x.noteArrival t).received := by simp [noteArrival]
  unfold Session.onSegment dispatch at hkept ⊢
  split_ifs at hkept ⊢ with hrst
  · refine hz.of_same hkept ?_
    unfold handleRst
    dsimp only
    split_ifs
    · exact .of_conn rfl rfl rfl rfl
    · exact .transition (by simp [acceptsData]) (by simp)
  · revert hkept
    split <;> intro hkept
    · next hstate =>
      have hstate : x.conn.state = .synSent := hstate
      unfold handleSynSent at hkept ⊢
      split_ifs at hkept ⊢ with hsyn
      · simp only [Bool.and_eq_true, decide_eq_true_eq] at hsyn
        simp only [Event.keepsWindow, KeepsWindow, hstate] at hok
        obtain ⟨hlegal, hunscaled⟩ := hok hsyn.1.2
        have hshift := peerShift_recordSynAck t (x.noteArrival t).conn
        refine hz.establish (by rw [show (x.noteArrival t).conn.state = .synSent from hstate]; rfl) ht
          hsyn.1.2 hsyn.2 hkept (hshift.symm ▸ hlegal) (fun _ => hshift.symm ▸ hunscaled) rfl
          (hshift.symm ▸ rfl) rfl rfl fun call hcall => ?_
        rcases List.mem_append.1 hcall with hcall | hcall
        · exact .inl hcall
        · rw [List.mem_singleton.1 hcall]
          exact .inr fun hdata => hdata.2 rfl
      · exact hz
    · next hstate =>
      have hstate : x.conn.state = .synReceived := hstate
      unfold handleSynReceived at hkept ⊢
      split_ifs at hkept ⊢ with hack
      · simp only [Bool.and_eq_true, decide_eq_true_eq] at hack
        simp only [Event.keepsWindow, KeepsWindow, hstate] at hok
        exact hz.establish (by rw [show (x.noteArrival t).conn.state = .synReceived from hstate]; rfl) ht
          hack.1 hack.2 hkept h.shift (hok hack.1) rfl rfl rfl rfl fun _ hcall => .inl hcall
      · exact hz
    · exact hz
    · next hsent hreceived hclosed =>
      refine hz.handleSynchronized ⟨hsent, hreceived, hclosed⟩ ht hkept fun hacc hpaws hack => ?_
      have hacc : x.conn.state = .established ∨ x.conn.state = .closeWait := hacc
      rcases hacc with hstate | hstate <;>
      · simp only [Event.keepsWindow, KeepsWindow, hstate] at hok
        exact hok (by simpa using hrst) hpaws hack

theorem Flow.run (h : Flow isn x) (hok : e.keepsWindow x) (he : e.run x = some y) : Flow isn y := by
  by_cases hsegment : ∃ t, e = .segment t
  · obtain ⟨t, rfl⟩ := hsegment
    exact Option.some.inj he ▸ h.onSegment hok
  · exact h.steps (fun t ht => absurd ⟨t, ht⟩ hsegment) (Event.run_steps he)

end Events

/-! ### Whole runs -/

/-- The shift the listener is told is a legal one. -/
def Opener.legalShift : Opener → Prop
  | .active => True
  | .passive options => options.peerSupportsWindowScaling → options.peerWindowScale ≤ 14

theorem flow_open (o : Opener) (hshift : o.legalShift) (localPort remotePort : UInt16)
    (initialSeq : UInt32) (localMss : UInt16) (algorithm : CongestionControlAlgorithm) :
    Flow initialSeq (o.run (.fresh localPort remotePort initialSeq localMss algorithm)) := by
  have hkept := kept_open o localPort remotePort initialSeq localMss algorithm
  have hsyn {call call' : Call} (hpayload : call'.payload = []) (hcall : call ∈ [call']) :
      ¬ call.sendsData := by
    rw [List.mem_singleton.1 hcall]
    exact fun hdata => hdata.2 hpayload
  cases o with
  | active =>
    refine ⟨hkept, ?_, fun hacc => ?_, fun call hcall hdata => absurd hdata (hsyn rfl hcall)⟩
    · show (0 : UInt8) ≤ 14
      decide
    · rcases hacc with hacc | hacc <;> cases hacc
  | passive options =>
    refine ⟨hkept, ?_, fun hacc => ?_, fun call hcall hdata => absurd hdata (hsyn rfl hcall)⟩
    · show (if options.peerSupportsWindowScaling then options.peerWindowScale else 0) ≤ 14
      split_ifs with hscaling
      · exact hshift hscaling
      · decide
    · rcases hacc with hacc | hacc <;> cases hacc

/-- **Flow control.**  In every run whose segments keep the window counting from
`SND.UNA` with everything in flight counted, nothing is sent past the right edges
the peer has granted. -/
theorem flow_control (o : Opener) (localPort remotePort : UInt16) (initialSeq : UInt32)
    (localMss : UInt16) (algorithm : CongestionControlAlgorithm) (events : List Event) {y : Session}
    (hshift : o.legalShift)
    (hkeeps : Along Event.run Event.keepsWindow events
      (o.run (.fresh localPort remotePort initialSeq localMss algorithm)))
    (h : runs Event.run events (o.run (.fresh localPort remotePort initialSeq localMss algorithm)) =
      some y) : y.WithinGrants :=
  (runs_invariant (I := Flow initialSeq) (fun _ _ _ hx hok he => hx.run hok he)
    (flow_open o hshift ..) hkeeps h).calls

/-- Twelve bytes go out four at a time, as the two windows allow. -/
theorem flow_control_three_chunks :
    ∃ y, runs Event.run
        [.segment (Tcp.ofFlags 9000 80 8 101 5 flagAck 8 0 0), .send [1, 2, 3, 4, 5, 6, 7, 8, 9, 10, 11, 12],
          .segment (Tcp.ofFlags 9000 80 8 105 5 flagAck 4 0 0),
          .segment (Tcp.ofFlags 9000 80 8 109 5 flagAck 8 0 0)]
        ((Opener.passive { peerIsn := 7 }).run (.fresh 80 9000 100 4 .reno)) = some y ∧
      y.sent.length = 4 ∧ y.WithinGrants :=
  ⟨_, (Option.some_get (by decide +kernel)).symm, by decide +kernel,
    flow_control _ _ _ _ _ _ _ (fun h => by cases h) (by decide +kernel) (Option.some_get _).symm⟩

/-- Data past the right edge.  The peer reports `[109, 113)` while its window
ends at 113; an old ack comes after one that has moved on; the SYN-ACK offers two
bytes and a shift of one. -/
theorem sent_past_the_right_edge :
    (∃ y, runs Event.run
        [.segment (Tcp.ofFlags 9000 80 8 101 5 flagAck 8 0 0),
          .send [1, 2, 3, 4, 5, 6, 7, 8, 9, 10, 11, 12, 13, 14, 15, 16],
          .segment (Tcp.ofFlags 9000 80 8 105 5 flagAck 8 0 0),
          .segment { Tcp.ofFlags 9000 80 8 105 5 flagAck 8 0 0 with sackBlocks := [⟨109, 113⟩] }]
        ((Opener.passive { peerIsn := 7, peerPermitsSack := true }).run (.fresh 80 9000 100 4 .reno)) =
          some y ∧ ¬ y.WithinGrants) ∧
    (∃ y, runs Event.run
        [.segment (Tcp.ofFlags 9000 80 8 101 5 flagAck 8 0 0),
          .send [1, 2, 3, 4, 5, 6, 7, 8, 9, 10, 11, 12],
          .segment (Tcp.ofFlags 9000 80 8 105 5 flagAck 8 0 0),
          .segment (Tcp.ofFlags 9000 80 8 109 5 flagAck 4 0 0),
          .segment (Tcp.ofFlags 9000 80 8 105 5 flagAck 8 0 0), .send [13, 14, 15, 16]]
        ((Opener.passive { peerIsn := 7 }).run (.fresh 80 9000 100 4 .reno)) = some y ∧
      ¬ y.WithinGrants) ∧
    ∃ y, runs Event.run
        [.segment { Tcp.ofFlags 9000 80 7 101 5 (flagSyn ||| flagAck) 2 0 0 with
          windowScaleOption := some 1 }, .send [1, 2, 3, 4]]
        (Opener.active.run (.fresh 80 9000 100 4 .reno)) = some y ∧ ¬ y.WithinGrants := by
  refine ⟨⟨_, rfl, ?_⟩, ⟨_, rfl, ?_⟩, ⟨_, rfl, ?_⟩⟩ <;> decide +kernel

end TcpIpStack
