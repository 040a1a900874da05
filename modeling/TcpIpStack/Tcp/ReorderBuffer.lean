/-
# The reorder buffer

Payloads that arrive ahead of `RCV.NXT` are kept under their sequence number
until the gap in front of them is filled.  An entry leaves the buffer in one way
only: `RCV.NXT` comes to stand exactly where the entry starts.  So a payload that
runs into an entry, or over it, leaves bytes in the buffer that have been
delivered and are never taken out again, and they count against the window.

If no payload shares a sequence number with an entry that starts elsewhere, the
buffer is what it is meant to be: `reorder_buffer_invariant`.  All arguments are
in distances from `RCV.NXT`, where entries are intervals of natural numbers.
-/

import TcpIpStack.Lib.Spans
import TcpIpStack.Tcp.FinExchange
import TcpIpStack.Tcp.ReceiveBuffer

namespace TcpIpStack

open TcpConnection Session Runs Spans

/-- A sequence number of the payload. -/
abbrev Holds (entry : UInt32 × Bytes) : UInt32 → Prop := Covers entry.1 entry.2.length

/-- Two payloads that share a sequence number. -/
abbrev Collide (entry entry' : UInt32 × Bytes) : Prop :=
  Overlap entry.1 entry.2.length entry'.1 entry'.2.length

namespace Inbox

/-- How far from `RCV.NXT` an entry starts. -/
def distance (i : Inbox) (entry : UInt32 × Bytes) : ℕ := (entry.1 - i.recvNext).toNat

/-- The entries start within the capacity and come one after the other. -/
structure Laid (i : Inbox) : Prop where
  near : ∀ e ∈ i.reorderBuffer.entries, i.distance e < receiveBufferCapacity.toNat
  sized : ∀ e ∈ i.reorderBuffer.entries, 0 < e.2.length ∧ e.2.length ≤ maxPayload
  apart : ∀ e ∈ i.reorderBuffer.entries, ∀ e' ∈ i.reorderBuffer.entries,
    i.distance e < i.distance e' → i.distance e + e.2.length ≤ i.distance e'

/-- And none of them is due. -/
structure Tidy (i : Inbox) : Prop extends Laid i where
  waits : ∀ e ∈ i.reorderBuffer.entries, 0 < i.distance e

section Laid

variable {i j : Inbox} {payload : Bytes} {seq : UInt32} {e : UInt32 × Bytes}

theorem distance_eq_zero : i.distance e = 0 ↔ e.1 = i.recvNext := by
  rw [distance, ← UInt32.toNat_zero, UInt32.toNat_inj]
  constructor
  · intro h
    rw [← UInt32.sub_add_cancel e.1 i.recvNext, h, UInt32.zero_add]
  · intro h
    rw [h, UInt32.sub_self]

theorem Laid.fits (h : i.Laid) (he : e ∈ i.reorderBuffer.entries) : i.distance e + e.2.length < 2 ^ 31 := by
  have hnear := h.near e he
  have hsized := (h.sized e he).2
  have hcapacity : receiveBufferCapacity.toNat = 131072 := rfl
  unfold maxPayload at hsized
  omega

theorem Laid.holds_iff (h : i.Laid) (he : e ∈ i.reorderBuffer.entries) (q : UInt32) :
    Holds e q ↔ i.distance e ≤ (q - i.recvNext).toNat ∧
      (q - i.recvNext).toNat < i.distance e + e.2.length :=
  covers_iff i.recvNext (show i.distance e + e.2.length ≤ 2 ^ 32 by have := h.fits he; omega)

/-- `RCV.NXT` moves, and not past the start of an entry that stays. -/
theorem Laid.advance (h : i.Laid) {n : ℕ} (hnext : j.recvNext = i.recvNext + UInt32.ofNat n)
    (hstays : ∀ e ∈ j.reorderBuffer.entries, e ∈ i.reorderBuffer.entries ∧ n ≤ i.distance e) :
    j.Laid ∧ ∀ e ∈ j.reorderBuffer.entries, j.distance e = i.distance e - n := by
  have hdistance : ∀ e ∈ j.reorderBuffer.entries, j.distance e = i.distance e - n := by
    intro e he
    rw [distance, hnext, toNat_sub_add (hstays e he).2]
    rfl
  refine ⟨⟨fun e he => ?_, fun e he => h.sized e (hstays e he).1, fun e he e' he' hlt => ?_⟩, hdistance⟩
  · have hnear := h.near e (hstays e he).1
    rw [hdistance e he]
    omega
  · rw [hdistance e he, hdistance e' he'] at hlt ⊢
    have hapart := h.apart e (hstays e he).1 e' (hstays e' he').1 (by omega)
    have hle := (hstays e he).2
    omega

/-! ### The drain -/

/-- What waits behind the entry at `RCV.NXT` starts after it. -/
theorem Laid.behind_due (h : i.Laid) {buffered : Bytes}
    (hfind : i.reorderBuffer.find? i.recvNext = some buffered) :
    ∀ e ∈ (i.reorderBuffer.erase i.recvNext).entries, buffered.length ≤ i.distance e := by
  intro e he
  obtain ⟨hmem, hne⟩ := List.mem_filter.1 he
  have hdue : i.distance (i.recvNext, buffered) = 0 := distance_eq_zero.2 rfl
  have hpos : i.distance e ≠ 0 := fun hzero => of_decide_eq_true hne (distance_eq_zero.1 hzero)
  have hapart := h.apart _ (OrderedMap.mem_of_find? hfind) e hmem (by omega)
  rw [hdue] at hapart
  simpa using hapart

theorem Laid.unblock (h : i.Laid) {buffered : Bytes}
    (hfind : i.reorderBuffer.find? i.recvNext = some buffered) :
    (i.unblock buffered).Laid ∧ ∀ e ∈ (i.unblock buffered).reorderBuffer.entries,
      (i.unblock buffered).distance e = i.distance e - buffered.length :=
  h.advance (j := i.unblock buffered) rfl fun e he =>
    ⟨OrderedMap.mem_erase he, h.behind_due hfind e he⟩

/-- What the drain does: `RCV.NXT` moves over whole entries, and passes no other. -/
theorem Laid.drain (fuel : ℕ) (h : i.Laid) :
    (i.drain fuel).Laid ∧ ∃ d, (i.drain fuel).recvNext = i.recvNext + UInt32.ofNat d ∧
      (∀ e ∈ (i.drain fuel).reorderBuffer.entries, e ∈ i.reorderBuffer.entries ∧ d ≤ i.distance e) ∧
      ∀ e ∈ i.reorderBuffer.entries,
        e ∈ (i.drain fuel).reorderBuffer.entries ∨ i.distance e + e.2.length ≤ d := by
  induction fuel generalizing i with
  | zero =>
    exact ⟨h, 0, (UInt32.add_zero _).symm, fun e he => ⟨he, Nat.zero_le _⟩, fun e he => .inl he⟩
  | succ fuel ih =>
    rw [Inbox.drain]
    split
    · exact ⟨h, 0, (UInt32.add_zero _).symm, fun e he => ⟨he, Nat.zero_le _⟩, fun e he => .inl he⟩
    · next buffered hfind =>
      obtain ⟨hlaid, hdistance⟩ := h.unblock hfind
      obtain ⟨hdrained, d, hnext, hstays, hleaves⟩ := ih hlaid
      refine ⟨hdrained, buffered.length + d, ?_, fun e he => ?_, fun e he => ?_⟩
      · rw [hnext, UInt32.ofNat_add, ← UInt32.add_assoc]
        rfl
      · obtain ⟨hmem, hle⟩ := hstays e he
        rw [hdistance e hmem] at hle
        have hbehind := h.behind_due hfind e hmem
        exact ⟨OrderedMap.mem_erase hmem, by omega⟩
      · rcases List.mem_cons.1 ((OrderedMap.perm_of_find? hfind).mem_iff.1 he) with rfl | hrest
        · have hdue : i.distance (i.recvNext, buffered) = 0 := distance_eq_zero.2 rfl
          exact .inr (by rw [hdue]; dsimp only; omega)
        · refine (hleaves e hrest).imp_right fun hle => ?_
          rw [hdistance e hrest] at hle
          have hbehind := h.behind_due hfind e hrest
          omega

theorem drain_find? (fuel : ℕ) (h : i.reorderBuffer.entries.length ≤ fuel) :
    (i.drain fuel).reorderBuffer.find? (i.drain fuel).recvNext = none := by
  induction fuel generalizing i with
  | zero =>
    have hnil : i.reorderBuffer.entries = [] := List.length_eq_zero_iff.1 (Nat.le_zero.1 h)
    rw [Inbox.drain, OrderedMap.find?, hnil]
    rfl
  | succ fuel ih =>
    rw [Inbox.drain]
    split
    · assumption
    · next buffered hfind =>
      have hless : (i.unblock buffered).reorderBuffer.entries.length < _ := OrderedMap.length_erase_lt hfind
      exact ih (by omega)

theorem Laid.tidy (h : i.Laid) (hnone : i.reorderBuffer.find? i.recvNext = none) : i.Tidy := by
  refine ⟨h, fun e he => Nat.pos_of_ne_zero fun hzero => ?_⟩
  have hkey : e.1 = i.recvNext := distance_eq_zero.1 hzero
  exact OrderedMap.find?_eq_none_iff.1 hnone ⟨e.2, hkey ▸ he⟩

/-! ### Each operation -/

/-- A payload at `RCV.NXT` that runs into no entry. -/
theorem Tidy.deliver (h : i.Tidy) (hfree : ∀ e ∈ i.reorderBuffer.entries, ¬ Collide e (i.recvNext, payload)) :
    (i.deliver payload).Laid ∧ ∀ e ∈ i.reorderBuffer.entries,
      payload.length ≤ i.distance e ∧ (i.deliver payload).distance e = i.distance e - payload.length := by
  have hbehind : ∀ e ∈ i.reorderBuffer.entries, payload.length ≤ i.distance e := by
    intro e he
    by_contra hlt
    exact hfree e he ⟨e.1, covers_start (h.sized e he).1, not_le.1 hlt⟩
  obtain ⟨hlaid, hdistance⟩ :=
    h.toLaid.advance (j := i.deliver payload) rfl fun e he => ⟨he, hbehind e he⟩
  exact ⟨hlaid, fun e he => ⟨hbehind e he, hdistance e he⟩⟩

theorem Tidy.deliverAndDrain (h : i.Tidy)
    (hfree : ∀ e ∈ i.reorderBuffer.entries, ¬ Collide e (i.recvNext, payload)) :
    (i.deliverAndDrain payload).Tidy :=
  ((h.deliver hfree).1.drain _).1.tidy (drain_find? _ (le_refl i.reorderBuffer.entries.length))

/-- A payload in the window that runs into no entry. -/
theorem Tidy.insert (h : i.Tidy) (hnew : seq ≠ i.recvNext)
    (hnear : (seq - i.recvNext).toNat < receiveBufferCapacity.toNat) (hpos : payload ≠ [])
    (hlen : payload.length ≤ maxPayload) (hfree : ∀ e ∈ i.reorderBuffer.entries, ¬ Collide e (seq, payload)) :
    ({ i with reorderBuffer := i.reorderBuffer.insert seq payload, lastOutOfOrderSeq := seq } : Inbox).Tidy := by
  have hsized : 0 < payload.length := List.length_pos_iff.2 hpos
  have hfits : (seq - i.recvNext).toNat + payload.length ≤ 2 ^ 32 := by
    have hcapacity : receiveBufferCapacity.toNat = 131072 := rfl
    unfold maxPayload at hlen
    omega
  have hdistance (e) : ({ i with
      reorderBuffer := i.reorderBuffer.insert seq payload
      lastOutOfOrderSeq := seq } : Inbox).distance e = i.distance e := rfl
  refine ⟨⟨fun e he => ?_, fun e he => ?_, fun e he e' he' hlt => ?_⟩, fun e he => ?_⟩
  · rcases OrderedMap.mem_insert he with rfl | hmem
    · exact hnear
    · exact h.near e hmem
  · rcases OrderedMap.mem_insert he with rfl | hmem
    · exact ⟨hsized, hlen⟩
    · exact h.sized e hmem
  · rw [hdistance, hdistance] at hlt ⊢
    rcases OrderedMap.mem_insert he with rfl | hmem <;> rcases OrderedMap.mem_insert he' with rfl | hmem'
    · exact absurd hlt (lt_irrefl _)
    · exact le_of_not_overlap (fun hcollide => hfree e' hmem' hcollide.symm) i.recvNext hfits
        (h.sized e' hmem').1 hlt
    · have hsmall := h.fits hmem
      exact le_of_not_overlap (hfree e hmem) i.recvNext
        (show i.distance e + e.2.length ≤ 2 ^ 32 by omega) hsized hlt
    · exact h.apart e hmem e' hmem' hlt
  · rcases OrderedMap.mem_insert he with rfl | hmem
    · exact Nat.pos_of_ne_zero fun hzero => hnew (distance_eq_zero.1 hzero)
    · exact h.waits e hmem

theorem toNat_window_le (i : Inbox) : i.window.toNat ≤ receiveBufferCapacity.toNat := by
  unfold window
  split_ifs with hlt
  · rw [UInt32.toNat_sub_of_le _ _ (UInt32.le_of_lt hlt)]
    omega
  · exact Nat.zero_le _

/-- No entry that starts elsewhere shares a sequence number with the payload. -/
def Clear (i : Inbox) (seq : UInt32) (payload : Bytes) : Prop :=
  ∀ e ∈ i.reorderBuffer.entries, e.1 ≠ seq → ¬ Collide e (seq, payload)

theorem Tidy.keep (h : i.Tidy) (hnew : seq ≠ i.recvNext) (hpos : payload ≠ [])
    (hlen : payload.length ≤ maxPayload) (hclear : i.Clear seq payload) : (i.keep seq payload).Tidy := by
  unfold Inbox.keep
  split_ifs with hkept
  · rw [Bool.and_eq_true, Option.isNone_iff_eq_none] at hkept
    obtain ⟨hnone, hwindow⟩ := hkept
    refine h.insert hnew ?_ hpos hlen fun e he => hclear e he fun hkey => ?_
    · unfold seqInWindow at hwindow
      split_ifs at hwindow with hzero
      · exact absurd (of_decide_eq_true hwindow) hnew
      · rw [decide_eq_true_eq, UInt32.lt_iff_toNat_lt] at hwindow
        have hle := toNat_window_le i
        omega
    · exact OrderedMap.find?_eq_none_iff.1 hnone ⟨e.2, hkey ▸ he⟩
  · exact h

/-- What is left of a payload that starts before `RCV.NXT` is part of it. -/
theorem collide_of_tail (hnew : (i.recvNext - seq).toNat < payload.length)
    (h : Collide e (i.recvNext, payload.drop (i.recvNext - seq).toNat)) : Collide e (seq, payload) := by
  obtain ⟨q, hq, hq'⟩ := h
  refine ⟨q, hq, ?_⟩
  unfold Covers at hq' ⊢
  dsimp only at hq' ⊢
  rw [List.length_drop] at hq'
  rw [show q - seq = q - i.recvNext + (i.recvNext - seq) by grind, UInt32.toNat_add]
  exact lt_of_le_of_lt (Nat.mod_le ..) (by omega)

theorem Tidy.free_inOrder (h : i.Tidy) (hclear : i.Clear seq payload) (heq : seq = i.recvNext) :
    ∀ e ∈ i.reorderBuffer.entries, ¬ Collide e (i.recvNext, payload) := by
  subst heq
  exact fun e he => hclear e he fun hkey => (h.waits e he).ne' (distance_eq_zero.2 hkey)

theorem Tidy.free_tail (h : i.Tidy) (hlen : payload.length ≤ maxPayload) (hclear : i.Clear seq payload)
    (hne : seq ≠ i.recvNext) (hgt : ¬ seq > i.recvNext) (hnew : (i.recvNext - seq).toNat < payload.length) :
    ∀ e ∈ i.reorderBuffer.entries,
      ¬ Collide e (i.recvNext, payload.drop (i.recvNext - seq).toNat) := by
  refine fun e he hcollide => hclear e he (fun hkey => ?_) (collide_of_tail hnew hcollide)
  -- an entry that starts where this payload does is far ahead of `RCV.NXT`
  have hswap := h.fits he
  rw [distance, hkey, UInt32.toNat_sub] at hswap
  rw [UInt32.toNat_sub] at hnew
  have hle := UInt32.le_iff_toNat_le.1 (UInt32.not_lt.1 hgt)
  have hdiffer : seq.toNat ≠ i.recvNext.toNat := fun hsame => hne (UInt32.toNat_inj.1 hsame)
  have hlt := i.recvNext.toNat_lt
  unfold maxPayload at hlen
  omega

theorem Tidy.store (h : i.Tidy) (hpos : payload ≠ []) (hlen : payload.length ≤ maxPayload)
    (hclear : i.Clear seq payload) : (i.store seq payload).Tidy := by
  unfold Inbox.store
  split_ifs with heq hgt hnew
  · exact h.deliverAndDrain (h.free_inOrder hclear heq)
  · exact h.keep heq hpos hlen hclear
  · exact h.deliverAndDrain (h.free_tail hlen hclear heq hgt hnew)
  · exact h

theorem Tidy.pastFin (h : i.Tidy) (hfree : ∀ e ∈ i.reorderBuffer.entries, e.1 ≠ i.recvNext + 1) :
    i.pastFin.Tidy := by
  obtain ⟨hlaid, hdistance⟩ :=
    h.toLaid.advance (j := i.pastFin) (n := 1) rfl fun e he => ⟨he, h.waits e he⟩
  refine ⟨hlaid, fun e he => Nat.pos_of_ne_zero fun hzero => ?_⟩
  exact hfree e he (distance_eq_zero.1 hzero)

theorem Tidy.congr (h : i.Tidy) (hnext : j.recvNext = i.recvNext)
    (hbuffer : j.reorderBuffer = i.reorderBuffer) : j.Tidy := by
  have hdistance (e) : j.distance e = i.distance e := by rw [distance, distance, hnext]
  refine ⟨⟨?_, ?_, ?_⟩, ?_⟩ <;> simp only [hbuffer, hdistance]
  · exact h.near
  · exact h.sized
  · exact h.apart
  · exact h.waits

theorem tidy_of_empty (h : i.reorderBuffer.entries = []) : i.Tidy := by
  refine ⟨⟨?_, ?_, ?_⟩, ?_⟩ <;> rw [h] <;> exact fun _ he => absurd he List.not_mem_nil

/-! ### A segment -/

theorem mem_drain (fuel : ℕ) (h : e ∈ (i.drain fuel).reorderBuffer.entries) : e ∈ i.reorderBuffer.entries := by
  induction fuel generalizing i with
  | zero => exact h
  | succ fuel ih =>
    rw [Inbox.drain] at h
    split at h
    · exact h
    · exact OrderedMap.mem_erase (ih h)

theorem mem_store (h : e ∈ (i.store seq payload).reorderBuffer.entries) :
    e = (seq, payload) ∨ e ∈ i.reorderBuffer.entries := by
  unfold Inbox.store at h
  split_ifs at h
  · exact .inr (mem_drain (i := i.deliver payload) _ h)
  · unfold Inbox.keep at h
    split_ifs at h
    · exact OrderedMap.mem_insert h
    · exact .inr h
  · exact .inr (mem_drain (i := i.deliver _) _ h)
  · exact .inr h

theorem Tidy.arrive (h : i.Tidy) {t : Tcp} {receives fin : Bool} (hlen : t.payload.length ≤ maxPayload)
    (hclear : receives → i.Clear t.sequenceNumber t.payload)
    (hfin : fin → t.sequenceNumber + UInt32.ofNat t.payload.length = (i.arrive t receives false).recvNext)
    (hpast : fin → ∀ e ∈ i.reorderBuffer.entries,
      e.1 ≠ t.sequenceNumber + UInt32.ofNat t.payload.length + 1) : (i.arrive t receives fin).Tidy := by
  obtain ⟨-, -, hbuffer, hnext⟩ := stamp_same t i
  have hstamped : (i.stamp t).Tidy := h.congr hnext hbuffer
  have hpayload : (i.arrive t receives false).Tidy ∧
      ∀ e ∈ (i.arrive t receives false).reorderBuffer.entries,
        e = (t.sequenceNumber, t.payload) ∨ e ∈ i.reorderBuffer.entries := by
    unfold Inbox.arrive
    dsimp only
    rw [if_neg Bool.false_ne_true]
    split_ifs with hreceives
    · refine ⟨hstamped.store hreceives.2 hlen ?_, fun e he => ?_⟩
      · rw [Clear, hbuffer]
        exact hclear hreceives.1
      · rw [← hbuffer]
        exact mem_store he
    · exact ⟨hstamped, fun e he => .inr (hbuffer ▸ he)⟩
  cases fin with
  | false => exact hpayload.1
  | true =>
    show (i.arrive t receives false).pastFin.Tidy
    refine hpayload.1.pastFin fun e he hkey => ?_
    rw [← hfin rfl] at hkey
    rcases hpayload.2 e he with rfl | hmem
    · -- a payload does not start after its own end
      change t.sequenceNumber = _ at hkey
      have hnat := congrArg UInt32.toNat hkey
      have hsize : (UInt32.ofNat t.payload.length).toNat = t.payload.length :=
        UInt32.toNat_ofNat_of_lt' (show _ < 2 ^ 32 by unfold maxPayload at hlen; omega)
      rw [UInt32.toNat_add, UInt32.toNat_add, hsize, UInt32.toNat_one] at hnat
      have hlt := t.sequenceNumber.toNat_lt
      unfold maxPayload at hlen
      omega
    · exact hpast rfl e hmem hkey

/-- A payload at `RCV.NXT` that leaves no gap before any entry empties the buffer. -/
theorem Tidy.empties (h : i.Tidy) (hfree : ∀ e ∈ i.reorderBuffer.entries, ¬ Collide e (i.recvNext, payload))
    (hgap : ∀ e ∈ i.reorderBuffer.entries, ∀ q : UInt32, (q - i.recvNext).toNat < i.distance e →
      Holds (i.recvNext, payload) q ∨ ∃ e' ∈ i.reorderBuffer.entries, Holds e' q) :
    (i.deliverAndDrain payload).reorderBuffer.entries = [] := by
  obtain ⟨hlaid, hdistance⟩ := h.deliver hfree
  obtain ⟨-, d, hnext, hstays, hleaves⟩ := hlaid.drain i.reorderBuffer.entries.length
  have htidy := h.deliverAndDrain hfree
  refine List.eq_nil_iff_forall_not_mem.2 fun e he => ?_
  -- whatever stays is past the new `RCV.NXT`
  have hahead : ∀ e ∈ (i.deliverAndDrain payload).reorderBuffer.entries, payload.length + d < i.distance e := by
    intro e he
    obtain ⟨hmem, hle⟩ := hstays e he
    obtain ⟨hlong, hsub⟩ := hdistance e hmem
    have hwaits := htidy.waits e he
    rw [distance, Inbox.deliverAndDrain, hnext, toNat_sub_add hle] at hwaits
    have heq : (e.1 - (i.deliver payload).recvNext).toNat = i.distance e - payload.length := hsub
    omega
  obtain ⟨hmem, -⟩ := hstays e he
  have hlt := hahead e he
  have hfits := h.fits hmem
  -- the number at the new `RCV.NXT` is nobody's
  have hq : (i.recvNext + UInt32.ofNat (payload.length + d) - i.recvNext).toNat = payload.length + d := by
    rw [show i.recvNext + UInt32.ofNat (payload.length + d) - i.recvNext =
      UInt32.ofNat (payload.length + d) by grind]
    exact UInt32.toNat_ofNat_of_lt' (show _ < 2 ^ 32 by omega)
  rcases hgap e hmem (i.recvNext + UInt32.ofNat (payload.length + d)) (by rw [hq]; exact hlt) with
    hown | ⟨e', hmem', hother⟩
  · change (_ - i.recvNext).toNat < payload.length at hown
    rw [hq] at hown
    omega
  · rw [h.holds_iff hmem', hq] at hother
    rcases hleaves e' hmem' with hstay | hleft
    · have hlt' := hahead e' hstay
      omega
    · rw [(hdistance e' hmem').2] at hleft
      have hlong := (hdistance e' hmem').1
      omega

end Laid

end Inbox

/-! ### Every run -/

/-- A segment's payload shares no sequence number with an entry that starts
elsewhere, and no entry starts right after its FIN. -/
def Event.fitsBuffer : Event → Session → Prop
  | .segment t, x => t.payload.length ≤ Inbox.maxPayload ∧
    (receivesData x.conn.state → ∀ entry ∈ x.conn.reorderBuffer.entries, entry.1 ≠ t.sequenceNumber →
      ¬ Collide entry (t.sequenceNumber, t.payload)) ∧
    (t.fin → ∀ entry ∈ x.conn.reorderBuffer.entries,
      entry.1 ≠ t.sequenceNumber + UInt32.ofNat t.payload.length + 1)
  | _, _ => True

instance (e : Event) (x : Session) : Decidable (e.fitsBuffer x) :=
  match e with
  | .segment t =>
    have : ∀ entry : UInt32 × Bytes, Decidable (entry.1 ≠ t.sequenceNumber →
        ¬ Collide entry (t.sequenceNumber, t.payload)) := fun _ => inferInstance
    inferInstanceAs (Decidable (_ ∧ (_ → ∀ entry ∈ _, _ → _) ∧ (_ → ∀ entry ∈ _, _)))
  | .timePassed _ | .send _ | .read _ | .close | .setKeepalive _ | .reduceEffectiveMss _ | .fail =>
    isTrue trivial

/-- What the reorder buffer is meant to be. -/
structure ReorderBuffer (c : TcpConnection) : Prop where
  ahead : ∀ entry ∈ c.reorderBuffer.entries,
    0 < (entry.1 - c.recvNext).toNat ∧ (entry.1 - c.recvNext).toNat < 2 ^ 31
  apart : c.reorderBuffer.entries.Pairwise fun entry entry' => ¬ Collide entry entry'
  notDue : c.reorderBuffer.find? c.recvNext = none
  undelivered : ∀ entry ∈ c.reorderBuffer.entries, ∀ q, Holds entry q →
    0 < (q - c.recvNext).toNat ∧ (q - c.recvNext).toNat < 2 ^ 31
  /-- The occupancy is the number of sequence numbers that are held. -/
  useful : c.reorderBuffer.total (fun entry => entry.2.length) =
    {q | ∃ entry ∈ c.reorderBuffer.entries, Holds entry q}.ncard

/-- The segment is processed, and with it nothing is missing before any entry. -/
structure FillsGap (t : Tcp) (c : TcpConnection) : Prop where
  rst : t.rst = false
  paws : pawsRejects c t = false
  receives : receivesData c.state
  payload : t.payload ≠ []
  next : t.sequenceNumber = c.recvNext
  gap : ∀ entry ∈ c.reorderBuffer.entries, ∀ q : UInt32, (q - c.recvNext).toNat < (entry.1 - c.recvNext).toNat →
    Holds (t.sequenceNumber, t.payload) q ∨ ∃ entry' ∈ c.reorderBuffer.entries, Holds entry' q

section Runs

variable {e : Event} {x y : Session} {t : Tcp}

theorem tidy_run (h : x.conn.inbox.Tidy) (hsyn : x.conn.state = .synSent → x.conn.reorderBuffer.entries = [])
    (hok : e.fitsBuffer x) (he : e.run x = some y) : y.conn.inbox.Tidy := by
  have hmove := Event.run_inbox he
  generalize y.conn.inbox = i at hmove ⊢
  cases hmove with
  | same => exact h
  | tick => exact h.congr rfl rfl
  | establish t ht hstate => exact Inbox.tidy_of_empty (hsyn hstate)
  | arrive t fin ht _ _ _ hfin =>
    subst ht
    exact h.arrive hok.1 hok.2.1 (fun hcounts => (hfin hcounts).2) fun hcounts => hok.2.2 (hfin hcounts).1
  | take => exact h.congr rfl rfl

theorem empty_run (hsyn : x.conn.state = .synSent → x.conn.reorderBuffer.entries = [])
    (he : e.run x = some y) (hy : y.conn.state = .synSent) : y.conn.reorderBuffer.entries = [] := by
  have hx : x.conn.state = .synSent := by
    by_contra hne
    exact Event.run_ne_synSent he hne hy
  have hmove := Event.run_inbox he
  change y.conn.inbox.reorderBuffer.entries = []
  generalize y.conn.inbox = i at hmove ⊢
  cases hmove with
  | same | tick | establish | take => exact hsyn hx
  | arrive _ _ _ hacks => exact absurd hx hacks.1

theorem reorderBuffer_of_tidy {c : TcpConnection} (h : c.inbox.Tidy) : ReorderBuffer c := by
  have hsmall : ∀ entry ∈ c.reorderBuffer.entries, entry.2.length ≤ 2 ^ 32 := by
    intro entry he
    have := h.fits he
    omega
  have hapart : c.reorderBuffer.entries.Pairwise fun entry entry' => ¬ Collide entry entry' := by
    refine c.reorderBuffer.sorted.imp_of_mem fun {entry entry'} he he' hlt => ?_
    have hfits := h.fits he
    have hfits' := h.fits he'
    rcases lt_trichotomy (c.inbox.distance entry) (c.inbox.distance entry') with hless | hsame | hless
    · exact not_overlap_of_le c.recvNext (show c.inbox.distance entry' + _ ≤ _ by omega)
        (h.apart entry he entry' he' hless)
    · have hkey : entry.1 = entry'.1 := by
        have := UInt32.toNat_inj.1 hsame
        grind
      exact absurd (hkey ▸ hlt) (UInt32.lt_irrefl _)
    · exact fun hcollide => not_overlap_of_le c.recvNext (show c.inbox.distance entry + _ ≤ _ by omega)
        (h.apart entry' he' entry he hless) hcollide.symm
  refine ⟨fun entry he => ⟨h.waits entry he, ?_⟩, hapart, ?_, fun entry he q hq => ?_, ?_⟩
  · have hfits := h.fits he
    exact lt_of_le_of_lt (Nat.le_add_right ..) hfits
  · refine OrderedMap.find?_eq_none_iff.2 ?_
    rintro ⟨payload, hmem⟩
    exact (h.waits _ hmem).ne' (Inbox.distance_eq_zero.2 rfl)
  · have hholds := (h.holds_iff he q).1 hq
    have hwaits := h.waits entry he
    have hfits := h.fits he
    exact ⟨lt_of_lt_of_le hwaits hholds.1, lt_trans hholds.2 hfits⟩
  · exact (ncard_covered hsmall hapart).symm

theorem empties_of_fillsGap (h : x.conn.inbox.Tidy) (hok : (Event.segment t).fitsBuffer x)
    (hfills : FillsGap t x.conn) : (x.onSegment t).conn.reorderBuffer.entries = [] := by
  obtain ⟨-, -, hbuffer, hnext⟩ := Inbox.stamp_same t x.conn.inbox
  have hstamped : (x.conn.inbox.stamp t).Tidy := h.congr hnext hbuffer
  have hseq : t.sequenceNumber = (x.conn.inbox.stamp t).recvNext := hfills.next.trans hnext.symm
  obtain ⟨fin, -, heq⟩ := inbox_handleSynchronized (x := x.noteArrival t) (t := t) hfills.paws
  have hinbox : (x.onSegment t).conn.inbox = x.conn.inbox.arrive t (receivesData x.conn.state) fin := by
    unfold onSegment
    rw [dispatch_of_receivesData hfills.rst hfills.receives, heq]
    rfl
  have hstored : (x.conn.inbox.arrive t (receivesData x.conn.state) fin).reorderBuffer =
      ((x.conn.inbox.stamp t).deliverAndDrain t.payload).reorderBuffer := by
    unfold Inbox.arrive Inbox.store
    dsimp only
    rw [if_pos (show receivesData x.conn.state = true ∧ t.payload ≠ [] from ⟨hfills.receives, hfills.payload⟩),
      if_pos hseq]
    split_ifs <;> rfl
  show (x.onSegment t).conn.inbox.reorderBuffer.entries = []
  rw [hinbox, hstored]
  refine hstamped.empties ?_ ?_
  · rw [hbuffer, ← hseq]
    refine fun entry he => hok.2.1 hfills.receives entry he fun hkey => ?_
    exact (h.waits entry he).ne' (Inbox.distance_eq_zero.2 (hkey.trans hfills.next))
  · unfold Inbox.distance
    rw [hbuffer, ← hseq, hfills.next]
    have hgap := hfills.gap
    rw [hfills.next] at hgap
    exact hgap

end Runs

/-- **The reorder buffer**, for every peer whose payloads run into no entry that
starts elsewhere: in every state the entries lie ahead of `RCV.NXT` and apart
from each other, and the segment that fills the gap empties the buffer. -/
theorem reorder_buffer_invariant (o : Opener) (localPort remotePort : UInt16) (initialSeq : UInt32)
    (localMss : UInt16) (algorithm : CongestionControlAlgorithm) (events : List Event) {y : Session}
    (hfits : Along Event.run Event.fitsBuffer events
      (o.run (.fresh localPort remotePort initialSeq localMss algorithm)))
    (h : runs Event.run events (o.run (.fresh localPort remotePort initialSeq localMss algorithm)) =
      some y) :
    ReorderBuffer y.conn ∧ ∀ t : Tcp, (Event.segment t).fitsBuffer y → FillsGap t y.conn →
      (y.onSegment t).conn.reorderBuffer.entries = [] := by
  have hempty : (o.run (.fresh localPort remotePort initialSeq localMss algorithm)).conn.reorderBuffer.entries =
      [] := by
    cases o <;> rfl
  have htidy : y.conn.inbox.Tidy ∧ (y.conn.state = .synSent → y.conn.reorderBuffer.entries = []) :=
    runs_invariant
      (I := fun x => x.conn.inbox.Tidy ∧ (x.conn.state = .synSent → x.conn.reorderBuffer.entries = []))
      (fun _ _ _ hx hok he => ⟨tidy_run hx.1 hx.2 hok he, empty_run hx.2 he⟩)
      ⟨Inbox.tidy_of_empty hempty, fun _ => hempty⟩ hfits h
  exact ⟨reorderBuffer_of_tidy htidy.1, fun t hok hfills => empties_of_fillsGap htidy.1 hok hfills⟩

/-- Two bytes arrive ahead of two that are missing, and then those two. -/
theorem reorder_buffer_one_gap :
    ∃ y, runs Event.run [.segment (Tcp.ofFlags 9000 80 8 101 5 flagAck 8 0 0),
          .segment ((Tcp.ofFlags 9000 80 10 101 5 flagAck 8 0 0).carrying [3, 4])]
        ((Opener.passive { peerIsn := 7 }).run (.fresh 80 9000 100 4 .reno)) = some y ∧
      y.conn.reorderBuffer.entries = [(10, [3, 4])] ∧ ReorderBuffer y.conn ∧
      (y.onSegment ((Tcp.ofFlags 9000 80 8 101 5 flagAck 8 0 0).carrying [1, 2])).conn.reorderBuffer.entries =
        [] := by
  have h := reorder_buffer_invariant (.passive { peerIsn := 7 }) 80 9000 100 4 .reno
    [.segment (Tcp.ofFlags 9000 80 8 101 5 flagAck 8 0 0),
      .segment ((Tcp.ofFlags 9000 80 10 101 5 flagAck 8 0 0).carrying [3, 4])] (by decide +kernel) rfl
  refine ⟨_, rfl, by decide +kernel, h.1, h.2 _ (by decide +kernel) ?_⟩
  refine ⟨by decide +kernel, by decide +kernel, by decide +kernel, by decide +kernel, by decide +kernel, ?_⟩
  intro entry he q hq
  rw [show entry = (10, [3, 4]) from List.mem_singleton.1 he] at hq
  exact .inl hq

/-- Two bytes are kept, at 10 and 11.  A payload at `RCV.NXT` runs into them: the
entry at 10 is behind `RCV.NXT` for good.  Or one that starts at 11 is kept too,
and the byte at 11 is there twice. -/
theorem reorder_buffer_stale :
    (∃ y, runs Event.run [.segment (Tcp.ofFlags 9000 80 8 101 5 flagAck 8 0 0),
          .segment ((Tcp.ofFlags 9000 80 10 101 5 flagAck 8 0 0).carrying [3, 4]),
          .segment ((Tcp.ofFlags 9000 80 8 101 5 flagAck 8 0 0).carrying [1, 2, 3])]
        ((Opener.passive { peerIsn := 7 }).run (.fresh 80 9000 100 4 .reno)) = some y ∧
      y.conn.recvNext = 11 ∧ y.conn.reorderBuffer.entries = [(10, [3, 4])] ∧ ¬ ReorderBuffer y.conn) ∧
    ∃ y, runs Event.run [.segment (Tcp.ofFlags 9000 80 8 101 5 flagAck 8 0 0),
          .segment ((Tcp.ofFlags 9000 80 10 101 5 flagAck 8 0 0).carrying [3, 4]),
          .segment ((Tcp.ofFlags 9000 80 11 101 5 flagAck 8 0 0).carrying [4, 5])]
        ((Opener.passive { peerIsn := 7 }).run (.fresh 80 9000 100 4 .reno)) = some y ∧
      y.conn.reorderBuffer.entries = [(10, [3, 4]), (11, [4, 5])] ∧ ¬ ReorderBuffer y.conn := by
  refine ⟨⟨_, rfl, by decide +kernel, by decide +kernel, fun h => absurd h.ahead (by decide +kernel)⟩,
    ⟨_, rfl, by decide +kernel, fun h => absurd h.apart (by decide +kernel)⟩⟩

end TcpIpStack
