/-
# How often a byte has been sent

Every sequence number has a place in the stream: the SYN is 0, the bytes that
`send` accepted follow, and the FIN comes after them.  `Call.place` is the place
of the first one that a call puts on the wire, counted from what the connection
had retired and had in flight when it made the call.

`Tracked` relates the segments in flight to the log of calls: each one was sent
by `_send_flags` at the time it records, and while its `retransmitted` flag is
clear no other call covers any of it, zero-window probes apart.  A probe sends a
byte that is not in flight, and the flag of the segment that carries the byte
later does not know about it.  So the samples of the ack clock obey Karn's rule
where no byte in flight went out as a probe (`karn_unless_probed`), and
`probed_byte_sampled` is a run where one did.
-/

import TcpIpStack.Lib.Row
import TcpIpStack.Tcp.Samples

namespace TcpIpStack

open Serial TcpConnection Session Runs

/-! ### Places -/

/-- How many of the segments in flight are in front of what the call sends: a
retransmission is of the first one the peer has not reported. -/
def Call.index (call : Call) : ℕ :=
  if call.site = .fastRetransmit ∨ call.site = .timeoutRetransmit then
    (call.conn.inFlight.takeWhile (·.sacked)).length
  else call.conn.inFlight.length

/-- The place in the stream of the first sequence number of a call. -/
def Call.place (call : Call) : ℕ :=
  if call.header.syn then 0
  else 1 + call.retired.length + Row.start (·.payload.length) call.conn.inFlight call.index

/-- The call puts the sequence number at place `n` on the wire. -/
def Call.covers (n : ℕ) (call : Call) : Prop := call.place ≤ n ∧ n < call.place + call.span

instance (n : ℕ) (call : Call) : Decidable (call.covers n) := inferInstanceAs (Decidable (_ ∧ _))

/-- A call other than a probe does. -/
def Call.tracks (n : ℕ) (call : Call) : Prop := call.site ≠ .zeroWindowProbe ∧ call.covers n

instance (n : ℕ) (call : Call) : Decidable (call.tracks n) := inferInstanceAs (Decidable (_ ∧ _))

/-- How often the sequence number at place `n` has been sent. -/
def timesSent (n : ℕ) (calls : List Call) : ℕ := calls.countP fun call => call.covers n

/-- The same without the probes. -/
def timesTracked (n : ℕ) (calls : List Call) : ℕ := calls.countP fun call => call.tracks n

/-- The sequence numbers that a segment takes up. -/
def InFlightSegment.span (s : InFlightSegment) : ℕ :=
  s.payload.length + (if hasFlag s.flags flagSyn then 1 else 0) + (if hasFlag s.flags flagFin then 1 else 0)

/-- The place of the segment in flight at index `i`. -/
def Flying.start (f : Flying) (i : ℕ) : ℕ := 1 + f.retired.length + Row.start (·.payload.length) f.inFlight i

/-- The place of the next byte. -/
def Flying.top (f : Flying) : ℕ := f.start f.inFlight.length

/-- No FIN has been sent. -/
def Flying.FinFree (f : Flying) : Prop := ∀ call ∈ f.sent, ¬ call.AssignsFin

section Places

variable {f : Flying} {s : InFlightSegment} {call : Call} {calls : List Call} {n i j : ℕ}

theorem Call.Bears.span_eq (h : call.Bears s) : call.span = s.span := by
  rw [Call.span, h.payload, h.syn, h.fin]
  rfl

theorem span_of_data (hsyn : hasFlag s.flags flagSyn = false) (hfin : hasFlag s.flags flagFin = false) :
    s.span = s.payload.length := by
  simp [InFlightSegment.span, hsyn, hfin]

theorem timesTracked_concat (n : ℕ) (calls : List Call) (call : Call) :
    timesTracked n (calls ++ [call]) = timesTracked n calls + if call.tracks n then 1 else 0 := by
  rw [timesTracked, timesTracked, List.countP_append, List.countP_singleton]
  simp

theorem timesSent_eq_timesTracked (h : ∀ call ∈ calls, call.site = .zeroWindowProbe → ¬ call.covers n) :
    timesSent n calls = timesTracked n calls := by
  refine List.countP_congr fun call hcall => ?_
  rw [decide_eq_true_iff, decide_eq_true_iff]
  refine ⟨fun hcovers => ⟨fun hsite => h call hcall hsite hcovers, hcovers⟩, fun htracks => htracks.2⟩

theorem Flying.one_le_start (f : Flying) (i : ℕ) : 1 ≤ f.start i := by
  unfold Flying.start
  omega

theorem Flying.start_add_le (h : f.inFlight[i]? = some s) (hij : i < j) :
    f.start i + s.payload.length ≤ f.start j := by
  have hrow := Row.start_add_le (fun s : InFlightSegment => s.payload.length) h hij
  unfold Flying.start
  omega

theorem Call.Over.place (h : call.Over f) (hsyn : call.header.syn = false)
    (hindex : call.index = i) : call.place = f.start i := by
  rw [Call.place, if_neg (by simp [hsyn]), hindex, h.inFlight, h.retired]
  rfl

end Places

/-! ### The segments in flight and the log -/

/-- The segments in flight, each at its place, with the calls that sent them. -/
structure Tracked (isn : UInt32) (f : Flying) : Prop where
  next : f.FinFree → f.sendNext = after isn f.top
  syn : ∀ s ∈ f.inFlight, hasFlag s.flags flagSyn → s.seq = isn ∧ s.payload = [] ∧ hasFlag s.flags flagFin = false
  seq : ∀ i s, f.inFlight[i]? = some s → hasFlag s.flags flagSyn = false → s.seq = after isn (f.start i)
  /-- Nothing follows a FIN. -/
  fin : ∀ i s, f.inFlight[i]? = some s → hasFlag s.flags flagFin = true → i + 1 = f.inFlight.length
  logged : ∀ i s, f.inFlight[i]? = some s → hasFlag s.flags flagSyn = false →
    ∃ call ∈ f.sent, call.site = .sendFlags ∧ call.Bears s ∧ call.place = f.start i ∧ call.conn.nowMs = s.sentAtMs
  once : ∀ i s, f.inFlight[i]? = some s → hasFlag s.flags flagSyn = false → s.retransmitted = false →
    ∀ n, f.start i ≤ n → n < f.start i + s.span → timesTracked n f.sent = 1
  above : f.FinFree → ∀ n, f.top ≤ n → timesTracked n f.sent = 0
  calls : ∀ call ∈ f.sent, call.span ≠ 0 → call.header.sequenceNumber = after isn call.place

/-- What a connection sends for the first time, it sends before its FIN. -/
def Sealed (calls : List Call) : Prop :=
  ∀ before call, before ++ [call] <+: calls → call.site = .sendFlags ∨ call.site = .zeroWindowProbe →
    ∀ other ∈ before, ¬ other.AssignsFin

section Tracked

variable {isn : UInt32} {f g : Flying} {s : InFlightSegment} {call : Call} {n i j : ℕ}

theorem Flying.FinFree.of_concat (h : Flying.FinFree { f with sent := f.sent ++ [call] }) : f.FinFree :=
  fun other hother => h other (List.mem_append_left _ hother)

theorem Tracked.fin_free (h : Tracked isn f) (hfree : f.FinFree) (hs : f.inFlight[i]? = some s) :
    hasFlag s.flags flagFin = false := by
  by_contra hfin
  have hfin : hasFlag s.flags flagFin = true := by simpa using hfin
  by_cases hsyn : hasFlag s.flags flagSyn = true
  · have hnone := (h.syn s (List.mem_of_getElem? hs) hsyn).2.2
    rw [hfin] at hnone
    cases hnone
  · obtain ⟨call, hcall, hsite, hbears, -⟩ := h.logged i s hs (by simpa using hsyn)
    exact hfree call hcall ⟨hsite, hbears.fin.trans hfin⟩

theorem Tracked.fin_last (h : Tracked isn f) (hs : f.inFlight[i]? = some s) (hi : i + 1 < f.inFlight.length) :
    hasFlag s.flags flagFin = false := by
  by_contra hfin
  have hlast := h.fin i s hs (by simpa using hfin)
  omega

/-- A call that is no tracked transmission. -/
theorem Tracked.other (h : Tracked isn f) (hno : ∀ n, ¬ call.tracks n)
    (hseq : call.span ≠ 0 → call.header.sequenceNumber = after isn call.place) :
    Tracked isn { f with sent := f.sent ++ [call] } where
  next hfree := h.next hfree.of_concat
  syn := h.syn
  seq := h.seq
  fin := h.fin
  logged i s hs hsyn := by
    obtain ⟨other, hother, hsent⟩ := h.logged i s hs hsyn
    exact ⟨other, List.mem_append_left _ hother, hsent⟩
  once i s hs hsyn hresent n hn hn' := by
    rw [timesTracked_concat, if_neg (hno n), h.once i s hs hsyn hresent n hn hn']
  above hfree n hn := by rw [timesTracked_concat, if_neg (hno n), h.above hfree.of_concat n hn]
  calls other hother hspan := by
    rcases List.mem_append.1 hother with hother | hother
    · exact h.calls other hother hspan
    · rw [List.mem_singleton.1 hother] at hspan ⊢
      exact hseq hspan

/-- A segment that is in flight goes out again, and is marked so. -/
theorem Tracked.again (h : Tracked isn f) (hs : f.inFlight[i]? = some s) (hresent : s.retransmitted = true)
    (hbears : call.Bears s) (hplace : call.header.syn = false → call.place = f.start i) :
    Tracked isn { f with sent := f.sent ++ [call] } where
  next hfree := h.next hfree.of_concat
  syn := h.syn
  seq := h.seq
  fin := h.fin
  logged j s' hs' hsyn' := by
    obtain ⟨other, hother, hsent⟩ := h.logged j s' hs' hsyn'
    exact ⟨other, List.mem_append_left _ hother, hsent⟩
  once j s' hs' hsyn' hresent' n hn hn' := by
    have hs' : f.inFlight[j]? = some s' := hs'
    have hn₁ : f.start j ≤ n := hn
    have hn₂ : n < f.start j + s'.span := hn'
    have hne : i ≠ j := by
      rintro rfl
      obtain rfl : s = s' := Option.some.inj (hs.symm.trans hs')
      rw [hresent] at hresent'
      cases hresent'
    have hi := (List.getElem?_eq_some_iff.1 hs).1
    have hj := (List.getElem?_eq_some_iff.1 hs').1
    rw [timesTracked_concat, if_neg ?_, h.once j s' hs' hsyn' hresent' n hn hn']
    rintro ⟨-, hcovers, hcovers'⟩
    rw [hbears.span_eq] at hcovers'
    by_cases hsyn : call.header.syn = true
    · -- the SYN is in front of everything
      obtain ⟨-, hnil, hfin⟩ := h.syn s (List.mem_of_getElem? hs) (hbears.syn ▸ hsyn)
      have hspan : s.span = 1 := by simp [InFlightSegment.span, hnil, hfin, ← hbears.syn, hsyn]
      have hzero : call.place = 0 := by rw [Call.place, if_pos hsyn]
      have hone := f.one_le_start j
      omega
    · have hsyn : call.header.syn = false := by simpa using hsyn
      rw [hplace hsyn] at hcovers hcovers'
      rcases Nat.lt_or_gt_of_ne hne with hlt | hgt
      · rw [span_of_data (hbears.syn ▸ hsyn) (h.fin_last hs (by omega))] at hcovers'
        have hle := Flying.start_add_le hs hlt
        omega
      · rw [span_of_data hsyn' (h.fin_last hs' (by omega))] at hn₂
        have hle := Flying.start_add_le hs' hgt
        omega
  above hfree n hn := by
    have htop : f.top ≤ n := hn
    have hi := (List.getElem?_eq_some_iff.1 hs).1
    rw [timesTracked_concat, if_neg ?_, h.above hfree.of_concat n hn]
    rintro ⟨-, hcovers, hcovers'⟩
    rw [hbears.span_eq] at hcovers'
    have hfin := h.fin_free hfree.of_concat hs
    by_cases hsyn : call.header.syn = true
    · obtain ⟨-, hnil, -⟩ := h.syn s (List.mem_of_getElem? hs) (hbears.syn ▸ hsyn)
      have hspan : s.span = 1 := by simp [InFlightSegment.span, hnil, hfin, ← hbears.syn, hsyn]
      have hzero : call.place = 0 := by rw [Call.place, if_pos hsyn]
      have hone := f.one_le_start f.inFlight.length
      unfold Flying.top at htop
      omega
    · have hsyn : call.header.syn = false := by simpa using hsyn
      rw [hplace hsyn] at hcovers hcovers'
      rw [span_of_data (hbears.syn ▸ hsyn) hfin] at hcovers'
      have hle := Flying.start_add_le hs hi
      unfold Flying.top at htop
      omega
  calls other hother hspan := by
    rcases List.mem_append.1 hother with hother | hother
    · exact h.calls other hother hspan
    · rw [List.mem_singleton.1 hother, hbears.seq]
      by_cases hsyn : call.header.syn = true
      · rw [Call.place, if_pos hsyn, (h.syn s (List.mem_of_getElem? hs) (hbears.syn ▸ hsyn)).1]
        exact (UInt32.add_zero isn).symm
      · have hsyn : call.header.syn = false := by simpa using hsyn
        rw [hplace hsyn]
        exact h.seq i s hs (hbears.syn ▸ hsyn)

/-- The segment is the same, and is not marked as sent again any less. -/
structure SameSegment (s s' : InFlightSegment) : Prop where
  seq : s'.seq = s.seq
  flags : s'.flags = s.flags
  payload : s'.payload = s.payload
  sentAtMs : s'.sentAtMs = s.sentAtMs
  retransmitted : s'.retransmitted = false → s.retransmitted = false

theorem getElem?_of_forall₂ {α β : Type} {R : α → β → Prop} {l : List α} {l' : List β} {b : β}
    (h : List.Forall₂ R l l') (hb : l'[i]? = some b) : ∃ a, l[i]? = some a ∧ R a b := by
  induction h generalizing i with
  | nil => simp at hb
  | cons hab _ ih =>
    cases i with
    | zero =>
      obtain rfl := Option.some.inj hb
      exact ⟨_, rfl, hab⟩
    | succ i => exact ih hb

theorem map_eq_of_forall₂ {α β : Type} {R : α → α → Prop} {k : α → β} {l l' : List α}
    (h : List.Forall₂ R l l') (hk : ∀ a b, R a b → k b = k a) : l'.map k = l.map k := by
  induction h with
  | nil => rfl
  | cons hab _ ih => rw [List.map_cons, List.map_cons, hk _ _ hab, ih]

theorem start_rework {flight : List InFlightSegment} (hsame : List.Forall₂ SameSegment f.inFlight flight)
    (i : ℕ) : Flying.start { f with inFlight := flight } i = f.start i := by
  have hsizes : flight.map (fun s => s.payload.length) = f.inFlight.map fun s => s.payload.length :=
    map_eq_of_forall₂ hsame fun _ _ hss => congrArg List.length hss.payload
  rw [Flying.start, Flying.start, Row.start_congr _ hsizes]

/-- The window is marked. -/
theorem Tracked.rework (h : Tracked isn f) {flight : List InFlightSegment}
    (hsame : List.Forall₂ SameSegment f.inFlight flight) : Tracked isn { f with inFlight := flight } := by
  have hlength : flight.length = f.inFlight.length := hsame.length_eq.symm
  have htop : Flying.top { f with inFlight := flight } = f.top := by
    rw [Flying.top, start_rework hsame, Flying.top, hlength]
  exact {
    next := fun hfree => htop ▸ h.next hfree
    syn := fun s hs hsyn => by
      obtain ⟨i, hi⟩ := List.getElem?_of_mem hs
      obtain ⟨s', hs', hss⟩ := getElem?_of_forall₂ hsame hi
      rw [hss.flags] at hsyn ⊢
      rw [hss.seq, hss.payload]
      exact h.syn s' (List.mem_of_getElem? hs') hsyn
    seq := fun i s hs hsyn => by
      obtain ⟨s', hs', hss⟩ := getElem?_of_forall₂ hsame hs
      rw [start_rework hsame, hss.seq]
      exact h.seq i s' hs' (hss.flags ▸ hsyn)
    fin := fun i s hs hfin => by
      obtain ⟨s', hs', hss⟩ := getElem?_of_forall₂ hsame hs
      show i + 1 = flight.length
      rw [hlength]
      exact h.fin i s' hs' (hss.flags ▸ hfin)
    logged := fun i s hs hsyn => by
      obtain ⟨s', hs', hss⟩ := getElem?_of_forall₂ hsame hs
      obtain ⟨call, hcall, hsite, hbears, hplace, hnow⟩ := h.logged i s' hs' (hss.flags ▸ hsyn)
      refine ⟨call, hcall, hsite, ⟨?_, ?_, ?_, ?_⟩, ?_, ?_⟩
      · rw [hbears.seq, hss.seq]
      · rw [hbears.payload, hss.payload]
      · rw [hbears.syn, hss.flags]
      · rw [hbears.fin, hss.flags]
      · rw [hplace, start_rework hsame]
      · rw [hnow, hss.sentAtMs]
    once := fun i s hs hsyn hresent n hn hn' => by
      obtain ⟨s', hs', hss⟩ := getElem?_of_forall₂ hsame hs
      have hspan : s.span = s'.span := by rw [InFlightSegment.span, hss.payload, hss.flags]; rfl
      rw [start_rework hsame] at hn hn'
      rw [hspan] at hn'
      exact h.once i s' hs' (hss.flags ▸ hsyn) (hss.retransmitted hresent) n hn hn'
    above := fun hfree n hn => h.above hfree n (htop ▸ hn)
    calls := h.calls }

/-- The front of the window is retired. -/
theorem Tracked.retire (h : Tracked isn f) (k : ℕ) (hk : k ≤ f.inFlight.length) : Tracked isn { f with
    inFlight := f.inFlight.drop k
    retired := f.retired ++ (f.inFlight.take k).flatMap (·.payload) } := by
  have hstart (i : ℕ) : Flying.start { f with
      inFlight := f.inFlight.drop k
      retired := f.retired ++ (f.inFlight.take k).flatMap (·.payload) } i = f.start (k + i) := by
    have hbytes : Row.start (fun s : InFlightSegment => s.payload.length) f.inFlight k =
        ((f.inFlight.take k).flatMap (·.payload)).length := by
      rw [Row.start, List.length_flatMap]
    simp only [Flying.start, Row.start_drop _ k i, List.length_append, hbytes]
    omega
  have htop : Flying.top { f with
      inFlight := f.inFlight.drop k
      retired := f.retired ++ (f.inFlight.take k).flatMap (·.payload) } = f.top := by
    rw [Flying.top, hstart, Flying.top, List.length_drop, Nat.add_sub_cancel' hk]
  have hdrop {i : ℕ} {s : InFlightSegment} (hs : (f.inFlight.drop k)[i]? = some s) :
      f.inFlight[k + i]? = some s := by rwa [List.getElem?_drop] at hs
  exact {
    next := fun hfree => htop ▸ h.next hfree
    syn := fun s hs hsyn => h.syn s (List.mem_of_mem_drop hs) hsyn
    seq := fun i s hs hsyn => hstart i ▸ h.seq (k + i) s (hdrop hs) hsyn
    fin := fun i s hs hfin => by
      have hlast := h.fin (k + i) s (hdrop hs) hfin
      show i + 1 = (f.inFlight.drop k).length
      rw [List.length_drop]
      omega
    logged := fun i s hs hsyn => hstart i ▸ h.logged (k + i) s (hdrop hs) hsyn
    once := fun i s hs hsyn hresent n hn hn' => by
      rw [hstart] at hn hn'
      exact h.once (k + i) s (hdrop hs) hsyn hresent n hn hn'
    above := fun hfree n hn => h.above hfree n (htop ▸ hn)
    calls := h.calls }

/-- A segment is sent for the first time. -/
theorem Tracked.send (h : Tracked isn f) (hfree : f.FinFree) (hsite : call.site = .sendFlags)
    (hover : call.Over f) (hbears : call.Bears s) (hsyn : call.header.syn = false) (hseq : s.seq = f.sendNext)
    (hnow : s.sentAtMs = f.nowMs) : Tracked isn { f with
      inFlight := f.inFlight ++ [s]
      sendNext := f.sendNext + UInt32.ofNat call.span
      sent := f.sent ++ [call] } := by
  set g : Flying := { f with
    inFlight := f.inFlight ++ [s]
    sendNext := f.sendNext + UInt32.ofNat call.span
    sent := f.sent ++ [call] } with hg
  have hsyn' : hasFlag s.flags flagSyn = false := hbears.syn ▸ hsyn
  have hstart {i : ℕ} (hi : i ≤ f.inFlight.length) : g.start i = f.start i := by
    rw [Flying.start, Flying.start, Row.start_append _ hi]
  have hplace : call.place = f.top := hover.place hsyn (by
    rw [Call.index, if_neg (by simp [hsite]), hover.inFlight])
  have hnew : g.inFlight[f.inFlight.length]? = some s := List.getElem?_concat_length
  have htop : g.top = f.top + s.payload.length := by
    have hrow := Row.start_succ (fun s : InFlightSegment => s.payload.length) hnew
    have hold := hstart (le_refl f.inFlight.length)
    rw [Flying.top, show g.inFlight.length = f.inFlight.length + 1 from List.length_append]
    rw [Flying.start] at hold ⊢
    rw [hrow, ← Nat.add_assoc, hold, Flying.top]
  -- an index of the longer window is one of the shorter, or the last one
  have hcases {i : ℕ} {s' : InFlightSegment} (hs' : g.inFlight[i]? = some s') :
      i < f.inFlight.length ∧ f.inFlight[i]? = some s' ∨ i = f.inFlight.length ∧ s' = s := by
    have hi : i < f.inFlight.length + 1 := by
      have hlt := (List.getElem?_eq_some_iff.1 hs').1
      rwa [show g.inFlight.length = f.inFlight.length + 1 from List.length_append] at hlt
    rcases Nat.lt_succ_iff_lt_or_eq.1 hi with hlt | rfl
    · exact .inl ⟨hlt, by rwa [show g.inFlight = f.inFlight ++ [s] from rfl, List.getElem?_append_left hlt] at hs'⟩
    · exact .inr ⟨rfl, Option.some.inj (hs'.symm.trans hnew)⟩
  have hdata {i : ℕ} {s' : InFlightSegment} (hs' : f.inFlight[i]? = some s') := h.fin_free hfree hs'
  exact {
    next := fun hfree' => by
      have hfin : hasFlag s.flags flagFin = false := by
        by_contra hfin
        exact hfree' call (List.mem_append_right _ List.mem_cons_self)
          ⟨hsite, hbears.fin.trans (by simpa using hfin)⟩
      rw [htop, ← span_of_data hsyn' hfin, after_add, ← hbears.span_eq, ← h.next hfree]
    syn := fun s' hs' hs'syn => by
      rcases List.mem_append.1 hs' with hs' | hs'
      · exact h.syn s' hs' hs'syn
      · rw [List.mem_singleton.1 hs', hsyn'] at hs'syn
        cases hs'syn
    seq := fun i s' hs' hs'syn => by
      rcases hcases hs' with ⟨hlt, hs'⟩ | ⟨rfl, rfl⟩
      · rw [hstart hlt.le]
        exact h.seq i s' hs' hs'syn
      · rw [hstart le_rfl, hseq]
        exact h.next hfree
    fin := fun i s' hs' hfin => by
      rcases hcases hs' with ⟨hlt, hs'⟩ | ⟨rfl, rfl⟩
      · rw [hdata hs'] at hfin
        cases hfin
      · show f.inFlight.length + 1 = (f.inFlight ++ [s']).length
        rw [List.length_append, List.length_singleton]
    logged := fun i s' hs' hs'syn => by
      rcases hcases hs' with ⟨hlt, hs'⟩ | ⟨rfl, rfl⟩
      · obtain ⟨other, hother, hsent⟩ := h.logged i s' hs' hs'syn
        rw [hstart hlt.le]
        exact ⟨other, List.mem_append_left _ hother, hsent⟩
      · refine ⟨call, List.mem_append_right _ List.mem_cons_self, hsite, hbears, ?_, hover.nowMs.trans hnow.symm⟩
        rw [hstart le_rfl]
        exact hplace
    once := fun i s' hs' hs'syn hresent n hn hn' => by
      show timesTracked n (f.sent ++ [call]) = 1
      rw [timesTracked_concat]
      rcases hcases hs' with ⟨hlt, hs'⟩ | ⟨rfl, rfl⟩
      · rw [hstart hlt.le] at hn hn'
        have hle := Flying.start_add_le hs' hlt
        rw [h.once i s' hs' hs'syn hresent n hn hn', if_neg]
        rintro ⟨-, hcovers, -⟩
        rw [span_of_data hs'syn (hdata hs')] at hn'
        rw [hplace, Flying.top] at hcovers
        omega
      · rw [hstart le_rfl] at hn hn'
        rw [h.above hfree n hn, if_pos]
        rw [← hbears.span_eq] at hn'
        exact ⟨by simp [hsite], hplace.trans_le hn, by rw [hplace]; exact hn'⟩
    above := fun hfree' n hn => by
      have hfin : hasFlag s.flags flagFin = false := by
        by_contra hfin
        exact hfree' call (List.mem_append_right _ List.mem_cons_self)
          ⟨hsite, hbears.fin.trans (by simpa using hfin)⟩
      rw [htop] at hn
      show timesTracked n (f.sent ++ [call]) = 0
      rw [timesTracked_concat, h.above hfree n (by omega), if_neg]
      rintro ⟨-, -, hcovers⟩
      rw [hplace, hbears.span_eq, span_of_data hsyn' hfin] at hcovers
      omega
    calls := fun other hother hspan => by
      rcases List.mem_append.1 hother with hother | hother
      · exact h.calls other hother hspan
      · rw [List.mem_singleton.1 hother, hbears.seq, hseq, hplace]
        exact h.next hfree }

theorem forall₂_updateOldestUnsacked {R : InFlightSegment → InFlightSegment → Prop}
    {u : InFlightSegment → InFlightSegment} (hrefl : ∀ s, R s s) (hu : ∀ s, R s (u s)) (l : List InFlightSegment) :
    List.Forall₂ R l (updateOldestUnsacked u l) := by
  induction l with
  | nil => exact .nil
  | cons front rest ih =>
    rw [updateOldestUnsacked]
    split_ifs
    · exact .cons (hrefl front) ih
    · exact .cons (hu front) (List.forall₂_same.2 fun s _ => hrefl s)

theorem getElem?_oldest {u : InFlightSegment → InFlightSegment} {l : List InFlightSegment}
    (h : l.find? (fun s => !s.sacked) = some s) :
    (updateOldestUnsacked u l)[(l.takeWhile (·.sacked)).length]? = some (u s) := by
  induction l with
  | nil => cases h
  | cons front rest ih =>
    rw [updateOldestUnsacked]
    cases hsacked : front.sacked with
    | true =>
      rw [if_pos rfl, List.takeWhile_cons_of_pos hsacked, List.length_cons, List.getElem?_cons_succ]
      exact ih (by rwa [List.find?_cons_of_neg (by simp [hsacked])] at h)
    | false =>
      rw [List.find?_cons_of_pos (by simp [hsacked])] at h
      rw [if_neg Bool.false_ne_true, List.takeWhile_cons_of_neg (by simp [hsacked]), Option.some.inj h]
      rfl

/-- **Every step keeps the segments and the log in order.** -/
theorem Tracked.flightStep (h : Tracked isn f) (hstep : FlightStep n f g) (hsealed : Sealed g.sent) :
    Tracked isn g := by
  have hrefl (s : InFlightSegment) : SameSegment s s := ⟨rfl, rfl, rfl, rfl, id⟩
  cases hstep with
  | ack _ call hsite hspan hover =>
    refine h.other (fun n htracks => ?_) fun hne => absurd hspan hne
    obtain ⟨-, hcovers, hcovers'⟩ := htracks
    omega
  | probe _ call hsite hsyn hseq hover =>
    refine h.other (fun n htracks => htracks.1 hsite) fun _ => ?_
    have hfree : f.FinFree := hsealed f.sent call (List.prefix_refl _) (.inr hsite)
    have hplace : call.place = f.top := hover.place hsyn (by
      rw [Call.index, if_neg (by simp [hsite]), hover.inFlight])
    rw [hseq, hplace]
    exact h.next hfree
  | send _ call s hsite hover hbears hsyn hseq hnow =>
    exact h.send (hsealed f.sent call (List.prefix_refl _) (.inl hsite)) hsite hover hbears hsyn hseq hnow
  | resend _ call s rtoMs hsite hover holdest hbears =>
    have hsame := forall₂_updateOldestUnsacked (R := SameSegment) (u := resent rtoMs) hrefl
      (fun _ => ⟨rfl, rfl, rfl, rfl, nofun⟩) f.inFlight
    refine (h.rework hsame).again (getElem?_oldest holdest) rfl
      ⟨hbears.seq, hbears.payload, hbears.syn, hbears.fin⟩ fun hsyn => ?_
    rw [start_rework hsame]
    exact hover.place hsyn (by rw [Call.index, if_pos hsite, hover.inFlight])
  | mark _ sacked _ =>
    exact h.rework (List.forall₂_map_right_iff.2 (List.forall₂_same.2 fun s _ => ⟨rfl, rfl, rfl, rfl, id⟩))
  | age _ remaining attempts =>
    exact h.rework (forall₂_updateOldestUnsacked (R := SameSegment) (u := aged remaining attempts) hrefl
      (fun _ => ⟨rfl, rfl, rfl, rfl, id⟩) _)
  | retire _ ack =>
    have hretired := h.retire (f.inFlight.takeWhile (coveredBy ack)).length
      (List.takeWhile_sublist _).length_le
    have htake := (List.prefix_iff_eq_take.1 (List.takeWhile_prefix (l := f.inFlight) (coveredBy ack))).symm
    have hdrop := @List.drop_left _ (f.inFlight.takeWhile (coveredBy ack)) (f.inFlight.dropWhile (coveredBy ack))
    rw [List.takeWhile_append_dropWhile] at hdrop
    rwa [htake, hdrop] at hretired
  | establish _ hempty =>
    have hretired := h.retire f.inFlight.length le_rfl
    have hnone : f.inFlight.flatMap (·.payload) = [] := List.flatMap_eq_nil_iff.2 hempty
    rwa [List.take_length, List.drop_length, hnone, List.append_nil] at hretired
  | tick => exact ⟨h.next, h.syn, h.seq, h.fin, h.logged, h.once, h.above, h.calls⟩

theorem FlightStep.sent_prefix (hstep : FlightStep n f g) : f.sent <+: g.sent := by
  cases hstep <;> first | exact List.prefix_append .. | exact List.prefix_refl _

theorem Sealed.of_isPrefix {calls calls' : List Call} (h : Sealed calls') (hinitial : calls <+: calls') :
    Sealed calls := fun before call hcall => h before call (hcall.trans hinitial)

theorem Tracked.flights (h : Tracked isn f) (hflights : Flights n f g) (hsealed : Sealed g.sent) :
    Tracked isn g := by
  induction hflights with
  | refl => exact h
  | tail _ hlast ih => exact (ih h (hsealed.of_isPrefix hlast.sent_prefix)).flightStep hlast hsealed

end Tracked

/-! ### Nothing is sent for the first time after the FIN -/

section Sealed

variable {isn : UInt32} {e : Event} {s₀ : TcpState} {x y : Session}

/-- What goes out for the first time goes out while `send` is open. -/
theorem Emits.acceptsData {call : Call} (hcall : Emits e s₀ x y call) (h : x.Kept isn)
    (hsite : call.site = .sendFlags ∨ call.site = .zeroWindowProbe) : acceptsData x.conn.state := by
  cases hcall with
  | ack | finAck | keepalive => exact hsite.elim nofun nofun
  | retransmit site s hresent => rcases hresent with rfl | rfl <;> exact hsite.elim nofun nofun
  | probe front rest hqueue hclosed => exact h.acceptsData_of_queue hclosed (by simp [core, hqueue])
  | drain t front rest c _ hqueue hacks => exact h.acceptsData_of_queue hacks.2.2 (by simp [core, hqueue])
  | place _ _ _ haccepts | fin _ _ haccepts => exact haccepts

theorem Sealed.effect (h : Sealed x.sent) (hlog : FinLog isn x) (hkept : x.Kept isn) (he : Effect e s₀ x y) :
    Sealed y.sent := by
  rcases he.emits with hsame | ⟨new, hsent, hemits⟩
  · rwa [hsame]
  · intro before call hinitial hsite
    rw [hsent] at hinitial
    rcases List.prefix_concat_iff.1 hinitial with hlast | hinitial
    · obtain ⟨rfl, hcall⟩ := List.append_inj' hlast rfl
      obtain rfl : call = new := List.singleton_inj.1 hcall
      refine hlog.resolve_right fun hfin => ?_
      have hended := hfin.1
      rcases hemits.acceptsData hkept hsite with hstate | hstate <;> simp [sendEnded, sendPhase, hstate] at hended
    · exact h before call hinitial hsite

end Sealed

/-! ### Every run -/

/-- No segment in flight holds a sequence number that went out as a probe. -/
def Session.Unprobed (x : Session) : Prop :=
  ∀ call ∈ x.sent, call.site = .zeroWindowProbe → ∀ i s, x.conn.inFlight[i]? = some s →
    ∀ n, call.covers n → ¬ (x.flying.start i ≤ n ∧ n < x.flying.start i + s.span)

/-- The accounts of a connection that is `n` milliseconds old. -/
structure Tended (isn : UInt32) (n : ℕ) (x : Session) : Prop where
  kept : x.Kept isn
  log : FinLog isn x
  isSealed : Sealed x.sent
  clocked : Clocked n x.flying
  tracked : Tracked isn x.flying

section Tended

variable {isn : UInt32} {n : ℕ} {x y : Session} {e : Event} {r : UInt32}

theorem Tended.event (h : Tended isn n x) (he : e.run x = some y) : Tended isn (n + e.elapsed) y := by
  obtain ⟨hkept, hlog, hsealed⟩ := (Event.run_steps he).preserves
    (P := fun z => z.Kept isn ∧ FinLog isn z ∧ Sealed z.sent)
    (fun z w heff ⟨hkept, hlog, hsealed⟩ =>
      ⟨hkept.effect heff, hlog.effect hkept heff, hsealed.effect hlog hkept heff⟩)
    ⟨h.kept, h.log, h.isSealed⟩
  obtain ⟨k, -, hflights⟩ := Event.run_flights he h.kept.opensEmpty
  exact ⟨hkept, hlog, hsealed, h.clocked.event h.kept.opensEmpty he, h.tracked.flights hflights hsealed⟩

theorem Tended.runs {events : List Event} (h : Tended isn n x) (hruns : Runs.runs Event.run events x = some y) :
    Tended isn (n + totalElapsed events) y := by
  induction events generalizing n x with
  | nil =>
    obtain rfl : x = y := Option.some.inj hruns
    exact h
  | cons e events ih =>
    obtain ⟨z, he, hrest⟩ := Option.bind_eq_some_iff.1 hruns
    rw [totalElapsed, List.map_cons, List.sum_cons, ← Nat.add_assoc]
    exact ih (h.event he) hrest

/-- The SYN is at place 0, and nothing else has been sent. -/
theorem tracked_syn {f : Flying} {s : InFlightSegment} {call : Call} (hflight : f.inFlight = [s])
    (hnext : f.sendNext = after isn 1) (hretired : f.retired = []) (hsent : f.sent = [call])
    (hbears : call.Bears s) (hseq : s.seq = isn) (hpayload : s.payload = [])
    (hsyn : hasFlag s.flags flagSyn = true) (hfin : hasFlag s.flags flagFin = false) : Tracked isn f := by
  have hspan : call.span = 1 := by rw [hbears.span_eq]; simp [InFlightSegment.span, hpayload, hsyn, hfin]
  have hplace : call.place = 0 := by rw [Call.place, if_pos (hbears.syn.trans hsyn)]
  have htop : f.top = 1 := by simp [Flying.top, Flying.start, Row.start, hflight, hretired, hpayload]
  have honly {i : ℕ} {s' : InFlightSegment} (hs' : f.inFlight[i]? = some s') : s' = s := by
    rw [hflight] at hs'
    exact List.mem_singleton.1 (List.mem_of_getElem? hs')
  have hnot {i : ℕ} {s' : InFlightSegment} (hs' : f.inFlight[i]? = some s') :
      ¬ hasFlag s'.flags flagSyn = false := by simp [honly hs', hsyn]
  exact {
    next := fun _ => by rw [htop, hnext]
    syn := fun s' hs' _ => by
      rw [hflight] at hs'
      rw [List.mem_singleton.1 hs']
      exact ⟨hseq, hpayload, hfin⟩
    seq := fun i s' hs' hs'syn => absurd hs'syn (hnot hs')
    fin := fun i s' hs' hs'fin => by
      rw [honly hs', hfin] at hs'fin
      cases hs'fin
    logged := fun i s' hs' hs'syn => absurd hs'syn (hnot hs')
    once := fun i s' hs' hs'syn => absurd hs'syn (hnot hs')
    above := fun _ n hn => by
      rw [htop] at hn
      rw [hsent, ← List.nil_append [call], timesTracked_concat, if_neg]
      · rfl
      · rintro ⟨-, -, hcovers⟩
        omega
    calls := fun other hother _ => by
      rw [hsent] at hother
      rw [List.mem_singleton.1 hother, hbears.seq, hseq, hplace]
      exact (UInt32.add_zero isn).symm }

theorem tended_open (o : Opener) (clock : UInt64) (localPort remotePort : UInt16) (initialSeq : UInt32)
    (localMss : UInt16) (algorithm : CongestionControlAlgorithm) :
    Tended initialSeq 0 (o.run (.freshAt clock localPort remotePort initialSeq localMss algorithm)) := by
  have hreal := realistic_open o clock localPort remotePort initialSeq localMss algorithm
  refine ⟨hreal.kept, .inl (not_assignsFin_open o rfl), ?_, hreal.clocked, ?_⟩
  · intro before call hinitial _ other hother
    have hlength := hinitial.length_le
    have hone : (o.run (.freshAt clock localPort remotePort initialSeq localMss algorithm)).sent.length = 1 := by
      cases o <;> rfl
    rw [hone, List.length_append, List.length_singleton] at hlength
    rw [List.length_eq_zero_iff.1 (Nat.le_zero.1 (Nat.le_of_succ_le_succ hlength))] at hother
    cases hother
  · cases o with
    | active =>
      exact tracked_syn rfl rfl rfl rfl (bears_sendOptions flagSyn rfl rfl) rfl rfl
        (by decide : hasFlag flagSyn flagSyn = true) (by decide : hasFlag flagSyn flagFin = false)
    | passive options =>
      exact tracked_syn rfl rfl rfl rfl (bears_sendOptions flagSyn rfl rfl) rfl rfl
        (by decide : hasFlag (flagSyn ||| flagAck) flagSyn = true)
        (by decide : hasFlag (flagSyn ||| flagAck) flagFin = false)

theorem Since.toUInt32_eq {past now : UInt64} (h : Since n past now) (hn : n < 2 ^ 32) :
    (now - past).toUInt32.toNat = (now - past).toNat := by
  obtain ⟨k, hk, rfl⟩ := h
  rw [UInt64.add_comm, UInt64.add_sub_cancel, UInt64.toNat_toUInt32, UInt64.toNat_ofNat']
  omega

/-- **Karn's rule**, where no byte in flight went out as a probe: a sample is the
time since the one transmission of a segment that the ack retires. -/
theorem karn_unless_probed (o : Opener) (clock : UInt64) (localPort remotePort : UInt16) (initialSeq : UInt32)
    (localMss : UInt16) (algorithm : CongestionControlAlgorithm) (events : List Event)
    (h : Runs.runs Event.run events
      (o.run (.freshAt clock localPort remotePort initialSeq localMss algorithm)) = some x)
    (hnegotiated : x.conn.timestampsNegotiated = false) (hr : e.sample x = some r)
    (hyoung : totalElapsed events < 2 ^ 32) (hprobes : x.Unprobed) :
    ∃ t s call, e = .segment t ∧ s ∈ x.conn.retiredBy t.acknowledgementNumber ∧
      call ∈ x.sent ∧ call.site = .sendFlags ∧ call.Bears s ∧
      r.toNat = (x.conn.nowMs - call.conn.nowMs).toNat ∧
      ∀ n, call.covers n → timesSent n x.sent = 1 := by
  have htended := (tended_open o clock localPort remotePort initialSeq localMss algorithm).runs h
  rw [Nat.zero_add] at htended
  obtain ⟨t, rfl, hacks, ⟨hstamped, -⟩ | ⟨s, hs, hresent, hr⟩⟩ := Event.sample_origin hr
  · rw [hnegotiated] at hstamped
    cases hstamped
  have hmem : s ∈ x.conn.inFlight := (List.takeWhile_prefix _).subset hs
  obtain ⟨i, hi⟩ := List.getElem?_of_mem hmem
  have hsyn : hasFlag s.flags flagSyn = false := by
    have hiff := flight_syn htended.kept hacks.2.2 (List.mem_map_of_mem hmem)
    exact Bool.eq_false_iff.2 fun hflag => (hiff.1 hflag).elim hacks.1 hacks.2.1
  obtain ⟨call, hcall, hsite, hbears, hplace, hnow⟩ := htended.tracked.logged i s hi hsyn
  refine ⟨t, s, call, rfl, hs, hcall, hsite, hbears, ?_, fun n hcovers => ?_⟩
  · rw [hr, hnow]
    exact (htended.clocked.flight s hmem).toUInt32_eq hyoung
  · obtain ⟨hcovers, hcovers'⟩ := hcovers
    rw [hbears.span_eq] at hcovers'
    rw [hplace] at hcovers hcovers'
    rw [timesSent_eq_timesTracked fun probe hprobe hsite hn =>
      hprobes probe hprobe hsite i s hi n hn ⟨hcovers, hcovers'⟩]
    exact htended.tracked.once i s hi hsyn hresent n hcovers hcovers'

/-- Two bytes are acknowledged after 10 ms. -/
theorem karn_unless_probed_exchange : ∃ x,
    Runs.runs Event.run [.segment (Tcp.ofFlags 9000 80 8 101 5 flagAck 8 0 0), .send [1, 2], .timePassed 10]
      ((Opener.passive { peerIsn := 7 }).run (.freshAt 0 80 9000 100 4 .reno)) = some x ∧
    ∃ t s call, Event.segment (Tcp.ofFlags 9000 80 8 103 5 flagAck 8 0 0) = .segment t ∧
      s ∈ x.conn.retiredBy t.acknowledgementNumber ∧ call ∈ x.sent ∧ call.site = .sendFlags ∧ call.Bears s ∧
      (10 : UInt32).toNat = (x.conn.nowMs - call.conn.nowMs).toNat ∧
      ∀ n, call.covers n → timesSent n x.sent = 1 :=
  ⟨_, rfl, karn_unless_probed (.passive { peerIsn := 7 }) 0 80 9000 100 4 .reno
    [.segment (Tcp.ofFlags 9000 80 8 101 5 flagAck 8 0 0), .send [1, 2], .timePassed 10] rfl rfl
    (by decide +kernel) (by decide) fun call hcall hsite => absurd hsite
      ((by decide +kernel : ∀ call ∈ _, call.site ≠ .zeroWindowProbe) call hcall)⟩

/-- The window is shut, the persist timer sends the first of the two bytes as a
probe, and the ack of the probe opens the window.  Both bytes then go out in a
segment that counts as sent once, and the ack of that segment gives a sample,
although its first byte has been sent twice. -/
theorem probed_byte_sampled : ∃ x,
    Runs.runs Event.run
      [.segment (Tcp.ofFlags 9000 80 8 101 5 flagAck 0 0 0), .send [1, 2], .timePassed 1000,
        .segment (Tcp.ofFlags 9000 80 8 101 5 flagAck 8 0 0), .timePassed 10]
      ((Opener.passive { peerIsn := 7 }).run (.freshAt 0 80 9000 100 4 .reno)) = some x ∧
    x.conn.timestampsNegotiated = false ∧
    (Event.segment (Tcp.ofFlags 9000 80 8 103 5 flagAck 8 0 0)).sample x = some 10 ∧
    x.conn.inFlight.map (·.payload) = [[1, 2]] ∧ x.flying.start 0 = 1 ∧ timesSent 1 x.sent = 2 :=
  ⟨_, rfl, rfl, by decide +kernel, by decide +kernel, by decide +kernel, by decide +kernel⟩

end Tended

end TcpIpStack
