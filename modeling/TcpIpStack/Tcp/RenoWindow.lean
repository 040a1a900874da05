/-
# Reno's window

What a connection may do to its congestion control is a `CongestionCall`.  Reno computes
in 32 bits, and one of its products wraps: `_mss * bytes_acked` in
`_grow_in_congestion_avoidance`.  `Reno mss` is the invariant that keeps this harmless to
the window itself.  A quotient of a wrapped product is still a 32-bit number, and past
`ssthresh` the window it is divided by is at least two, so the sum that follows does not
wrap (`exact_run`): no call ever loses a carry.

The growth is another matter.  It is what the law says exactly when the product fits
(`reno_grows_exactly_iff`); otherwise an acknowledgement of a whole window can grow the
window less than one of half of it.
-/

import TcpIpStack.Tcp.CongestionControl

namespace TcpIpStack

/-- A call on the congestion control. -/
inductive CongestionCall
  | ack (bytesAcked srttMs : UInt32) (nowMs : UInt64)
  | fastRetransmit (bytesInFlight duplicateAcks : UInt32)
  | recoveryInflate
  | recoveryEnd
  | retransmitTimeout (bytesInFlight : UInt32)
deriving DecidableEq

/-- The window and its threshold in exact integers. -/
structure ExactWindow where
  cwnd : ℕ
  ssthresh : ℕ
deriving DecidableEq

namespace CongestionCall

/-- The member function that a call stands for. -/
def run : CongestionCall → CongestionControl → CongestionControl
  | .ack bytesAcked srttMs nowMs, g => g.onAck bytesAcked srttMs nowMs
  | .fastRetransmit bytesInFlight duplicateAcks, g => g.onFastRetransmit bytesInFlight duplicateAcks
  | .recoveryInflate, g => g.onRecoveryInflate
  | .recoveryEnd, g => g.onRecoveryEnd
  | .retransmitTimeout bytesInFlight, g => g.onRetransmitTimeout bytesInFlight

/-- Byte counts of at most 2³⁰, and no more duplicates than start a fast retransmit. -/
def Sized : CongestionCall → Prop
  | .ack bytesAcked _ _ => bytesAcked.toNat ≤ 2 ^ 30
  | .fastRetransmit bytesInFlight duplicateAcks =>
    bytesInFlight.toNat ≤ 2 ^ 30 ∧ duplicateAcks.toNat ≤ 3
  | .recoveryInflate => True
  | .recoveryEnd => True
  | .retransmitTimeout bytesInFlight => bytesInFlight.toNat ≤ 2 ^ 30

instance : DecidablePred Sized
  | .ack .. => inferInstanceAs (Decidable (_ ≤ _))
  | .fastRetransmit .. => inferInstanceAs (Decidable (_ ∧ _))
  | .recoveryInflate => isTrue trivial
  | .recoveryEnd => isTrue trivial
  | .retransmitTimeout .. => inferInstanceAs (Decidable (_ ≤ _))

/-- The calls that report a loss. -/
def isCongestionEvent : CongestionCall → Bool
  | .fastRetransmit .. | .retransmitTimeout .. => true
  | .ack .. | .recoveryInflate | .recoveryEnd => false

/-- What Reno's formulas give in exact integers.  Only the product that it divides by the
window is the 32-bit one. -/
def exact (mss : ℕ) : CongestionCall → ExactWindow → ExactWindow
  | .ack n _ _, w =>
    let growth := if w.cwnd < w.ssthresh then n.toNat else max 1 (mss * n.toNat % 2 ^ 32 / w.cwnd)
    { w with cwnd := min (w.cwnd + growth) (2 ^ 30) }
  | .fastRetransmit bytesInFlight duplicateAcks, _ =>
    let ssthresh := max (bytesInFlight.toNat / 2) (2 * mss)
    { cwnd := min (ssthresh + duplicateAcks.toNat * mss) (2 ^ 30), ssthresh := ssthresh }
  | .recoveryInflate, w => { w with cwnd := min (w.cwnd + mss) (2 ^ 30) }
  | .recoveryEnd, w => { w with cwnd := w.ssthresh }
  | .retransmitTimeout bytesInFlight, _ =>
    { cwnd := mss, ssthresh := max (bytesInFlight.toNat / 2) (2 * mss) }

end CongestionCall

namespace CongestionControl

/-- The values of the two members. -/
def exactWindow (g : CongestionControl) : ExactWindow := ⟨g.cwnd.toNat, g.ssthresh.toNat⟩

/-- The calls one after the other. -/
def afterCalls (calls : List CongestionCall) (g : CongestionControl) : CongestionControl :=
  calls.foldl (fun g call => call.run g) g

/-- A Reno window that has been set up: at least one segment, at most the cap, and the
threshold strictly above one segment, so that a window past it is at least two. -/
structure Reno (mss : ℕ) (g : CongestionControl) : Prop where
  algorithm : g.algorithm = .reno
  mss_eq : g.mss.toNat = mss
  mss_pos : 1 ≤ mss
  mss_le : mss ≤ 65535
  mss_le_cwnd : mss ≤ g.cwnd.toNat
  cwnd_le : g.cwnd.toNat ≤ 2 ^ 30
  mss_lt_ssthresh : mss < g.ssthresh.toNat
  ssthresh_le : g.ssthresh.toNat ≤ 2 ^ 29

namespace Reno

variable {mss : ℕ} {g : CongestionControl} {call : CongestionCall}

theorem toNat_min_maxCwnd (a : UInt32) : (min a maxCwnd).toNat = min a.toNat (2 ^ 30) :=
  UInt32.toNat_min ..

theorem onEstablished {mss : UInt32} (hreno : g.algorithm = .reno) (hpos : 1 ≤ mss.toNat)
    (hle : mss.toNat ≤ 65535) : Reno mss.toNat (g.onEstablished mss) where
  algorithm := hreno
  mss_eq := rfl
  mss_pos := hpos
  mss_le := hle
  mss_le_cwnd := le_rfl
  cwnd_le := by
    show mss.toNat ≤ 2 ^ 30
    omega
  mss_lt_ssthresh := by
    show mss.toNat < 65536
    omega
  ssthresh_le := by
    show (65536 : ℕ) ≤ 2 ^ 29
    decide

theorem toNat_cut (h : Reno mss g) (bytesInFlight : UInt32) :
    (max (bytesInFlight / 2) (2 * g.mss)).toNat = max (bytesInFlight.toNat / 2) (2 * mss) := by
  have hmss := h.mss_le
  have hproduct : (2 * g.mss).toNat = 2 * mss := by
    rw [UInt32.toNat_mul, h.mss_eq]
    exact Nat.mod_eq_of_lt (by show 2 * mss < 2 ^ 32; omega)
  rw [UInt32.toNat_max, UInt32.toNat_div, hproduct]
  rfl

/-- **Past the threshold the sum does not wrap**, although the product under the quotient
may: the window is at least two, so the quotient is below 2³¹. -/
theorem toNat_grow (h : Reno mss g) (hpast : g.ssthresh ≤ g.cwnd) (n : UInt32) :
    (g.cwnd + max 1 (g.mss * n / g.cwnd)).toNat =
      g.cwnd.toNat + max 1 (mss * n.toNat % 2 ^ 32 / g.cwnd.toNat) := by
  have hpast := UInt32.le_iff_toNat_le.1 hpast
  have hthreshold := h.mss_lt_ssthresh
  have hpos := h.mss_pos
  have hcwnd := h.cwnd_le
  have hquotient : mss * n.toNat % 2 ^ 32 / g.cwnd.toNat < 2 ^ 31 :=
    Nat.div_lt_of_lt_mul (by
      have hproduct := Nat.mod_lt (mss * n.toNat) (show 0 < 2 ^ 32 by decide)
      omega)
  rw [UInt32.toNat_add, UInt32.toNat_max, UInt32.toNat_div, UInt32.toNat_mul, h.mss_eq]
  refine Nat.mod_eq_of_lt ?_
  show g.cwnd.toNat + max 1 (mss * n.toNat % 2 ^ 32 / g.cwnd.toNat) < 2 ^ 32
  omega

/-- **Nothing that is kept wraps**: every call does what its formula says in exact
integers. -/
theorem exact_run (h : Reno mss g) (hsized : call.Sized) :
    (call.run g).exactWindow = call.exact mss g.exactWindow := by
  have hpos := h.mss_pos
  have hmss := h.mss_le
  have hcwnd := h.cwnd_le
  cases call with
  | ack n srttMs nowMs =>
    have hn : n.toNat ≤ 2 ^ 30 := hsized
    by_cases hslow : g.cwnd < g.ssthresh
    · have hsum : (g.cwnd + n).toNat = g.cwnd.toNat + n.toNat := by
        rw [UInt32.toNat_add]
        exact Nat.mod_eq_of_lt (by omega)
      simp only [CongestionCall.run, CongestionCall.exact, onAck, exactWindow, if_pos hslow,
        UInt32.lt_iff_toNat_lt.1 hslow, ↓reduceIte, toNat_min_maxCwnd, hsum]
    · have hgrow := h.toNat_grow (UInt32.not_lt.1 hslow) n
      simp only [CongestionCall.run, CongestionCall.exact, onAck, exactWindow, if_neg hslow,
        UInt32.lt_iff_toNat_lt.not.1 hslow, ↓reduceIte, toNat_min_maxCwnd, growInCongestionAvoidance,
        h.algorithm, renoGrowInCongestionAvoidance, hgrow]
  | fastRetransmit bytesInFlight duplicateAcks =>
    obtain ⟨hbytes, hdups⟩ : bytesInFlight.toNat ≤ 2 ^ 30 ∧ duplicateAcks.toNat ≤ 3 := hsized
    have hcut := h.toNat_cut bytesInFlight
    have hproduct : duplicateAcks.toNat * mss ≤ 3 * 65535 := Nat.mul_le_mul hdups hmss
    have hinflated : (duplicateAcks * g.mss).toNat = duplicateAcks.toNat * mss := by
      rw [UInt32.toNat_mul, h.mss_eq]
      exact Nat.mod_eq_of_lt (by omega)
    have hsum : (max (bytesInFlight / 2) (2 * g.mss) + duplicateAcks * g.mss).toNat =
        max (bytesInFlight.toNat / 2) (2 * mss) + duplicateAcks.toNat * mss := by
      rw [UInt32.toNat_add, hcut, hinflated]
      exact Nat.mod_eq_of_lt (by omega)
    simp only [CongestionCall.run, CongestionCall.exact, onFastRetransmit, exactWindow,
      onCongestionEvent, h.algorithm, renoOnCongestionEvent, toNat_min_maxCwnd, hsum, hcut]
  | recoveryInflate =>
    have hsum : (g.cwnd + g.mss).toNat = g.cwnd.toNat + mss := by
      rw [UInt32.toNat_add, h.mss_eq]
      exact Nat.mod_eq_of_lt (by omega)
    simp only [CongestionCall.run, CongestionCall.exact, onRecoveryInflate, exactWindow,
      toNat_min_maxCwnd, hsum]
  | recoveryEnd => rfl
  | retransmitTimeout bytesInFlight =>
    simp only [CongestionCall.run, CongestionCall.exact, onRetransmitTimeout, exactWindow,
      onCongestionEvent, h.algorithm, renoOnCongestionEvent, h.toNat_cut, h.mss_eq]

theorem cwnd_run (h : Reno mss g) (call : CongestionCall) (hsized : call.Sized) :
    (call.run g).cwnd.toNat = (call.exact mss g.exactWindow).cwnd :=
  congrArg ExactWindow.cwnd (h.exact_run hsized)

theorem ssthresh_run (h : Reno mss g) (call : CongestionCall) (hsized : call.Sized) :
    (call.run g).ssthresh.toNat = (call.exact mss g.exactWindow).ssthresh :=
  congrArg ExactWindow.ssthresh (h.exact_run hsized)

theorem frame_run (call : CongestionCall) (hreno : g.algorithm = .reno) :
    (call.run g).algorithm = .reno ∧ (call.run g).mss = g.mss := by
  cases call with
  | ack n srttMs nowMs =>
    simp only [CongestionCall.run, onAck, growInCongestionAvoidance, hreno, renoGrowInCongestionAvoidance]
    split_ifs <;> exact ⟨rfl, rfl⟩
  | fastRetransmit | retransmitTimeout =>
    simp only [CongestionCall.run, onFastRetransmit, onRetransmitTimeout, onCongestionEvent, hreno,
      renoOnCongestionEvent, and_self]
  | recoveryInflate | recoveryEnd => exact ⟨hreno, rfl⟩

/-- **One call keeps the window a Reno window.** -/
theorem step (h : Reno mss g) (hsized : call.Sized) : Reno mss (call.run g) := by
  have hmss := h.mss_le
  have hpos := h.mss_pos
  have hlow := h.mss_le_cwnd
  have hhigh := h.cwnd_le
  have hthreshold := h.mss_lt_ssthresh
  have hthreshold' := h.ssthresh_le
  obtain ⟨halgorithm, hsize⟩ := frame_run call h.algorithm
  have hcwnd := h.cwnd_run call hsized
  have hssthresh := h.ssthresh_run call hsized
  refine ⟨halgorithm, hsize ▸ h.mss_eq, hpos, hmss, ?_, ?_, ?_, ?_⟩ <;>
    simp only [hcwnd, hssthresh] <;>
    cases call <;>
    simp only [CongestionCall.exact, CongestionCall.Sized, exactWindow] at hsized ⊢ <;>
    omega

theorem afterCalls {calls : List CongestionCall} (h : Reno mss g)
    (hcalls : ∀ call ∈ calls, call.Sized) : Reno mss (g.afterCalls calls) := by
  induction calls generalizing g with
  | nil => exact h
  | cons call calls ih =>
    obtain ⟨hcall, hrest⟩ := List.forall_mem_cons.1 hcalls
    exact ih (h.step hcall) hrest

end Reno

variable (g : CongestionControl) (mss : UInt32) (calls : List CongestionCall)

/-- **The window stays within its bounds, and no update of it wraps.** -/
theorem reno_window_safe (hreno : g.algorithm = .reno) (hpos : 1 ≤ mss.toNat) (hle : mss.toNat ≤ 65535)
    (hcalls : ∀ call ∈ calls, call.Sized) :
    let h := (g.onEstablished mss).afterCalls calls
    (mss.toNat ≤ h.cwnd.toNat ∧ h.cwnd.toNat ≤ 2 ^ 30) ∧
      (∀ n srttMs nowMs, n.toNat ≤ 2 ^ 30 → h.cwnd ≤ (h.onAck n srttMs nowMs).cwnd) ∧
      (∀ call : CongestionCall, call.Sized → call.isCongestionEvent →
        2 * mss.toNat ≤ (call.run h).ssthresh.toNat ∧
          (call.run h).ssthresh.toNat ≤ max (2 * mss.toNat) (2 ^ 29)) ∧
      (∀ bytesInFlight, (h.onRetransmitTimeout bytesInFlight).cwnd = mss) ∧
      (h.onRecoveryEnd.cwnd = h.ssthresh ∧ h.onRecoveryEnd.ssthresh = h.ssthresh) ∧
      ∀ call : CongestionCall, call.Sized → (call.run h).exactWindow = call.exact mss.toNat h.exactWindow := by
  intro h
  have hinv : Reno mss.toNat h := (Reno.onEstablished hreno hpos hle).afterCalls hcalls
  refine ⟨⟨hinv.mss_le_cwnd, hinv.cwnd_le⟩, fun n srttMs nowMs hn => ?_, fun call hsized hevent => ?_,
    fun bytesInFlight => ?_, ⟨rfl, rfl⟩, fun call => hinv.exact_run⟩
  · have hcwnd := hinv.cwnd_run (.ack n srttMs nowMs) hn
    have hcap := hinv.cwnd_le
    refine UInt32.le_iff_toNat_le.2 (le_of_le_of_eq ?_ hcwnd.symm)
    exact le_min (Nat.le_add_right ..) hcap
  · rw [hinv.ssthresh_run _ hsized]
    cases call <;> simp only [CongestionCall.isCongestionEvent, Bool.false_eq_true] at hevent <;>
      simp only [CongestionCall.exact, CongestionCall.Sized] at hsized ⊢ <;> omega
  · have hmss : (h.onRetransmitTimeout bytesInFlight).mss = h.mss :=
      (Reno.frame_run (.retransmitTimeout bytesInFlight) hinv.algorithm).2
    exact hmss.trans (UInt32.toNat_inj.1 hinv.mss_eq)

/-- A loss, the recovery from it, a timeout and an acknowledgement past the threshold. -/
def lossyCalls : List CongestionCall :=
  [.ack 4194304 0 0, .fastRetransmit 4000000 3, .recoveryInflate, .recoveryEnd, .ack 2000000 0 0,
    .retransmitTimeout 1000]

theorem window_safe_after_lossyCalls :
    (CongestionControl.afterCalls lossyCalls ((make .reno).onEstablished 1460)).exactWindow = ⟨1460, 2920⟩ ∧
      1460 ≤ (CongestionControl.afterCalls lossyCalls ((make .reno).onEstablished 1460)).cwnd.toNat :=
  ⟨by decide +kernel,
    (reno_window_safe (make .reno) 1460 lossyCalls rfl (by decide) (by decide)
      (by decide)).1.1⟩

/-! ### How fast it grows -/

namespace Reno

variable {mss : ℕ} {g : CongestionControl}

theorem cwnd_onAck (h : Reno mss g) (hpast : g.ssthresh ≤ g.cwnd) (n srttMs : UInt32) (nowMs : UInt64) :
    (g.onAck n srttMs nowMs).cwnd.toNat =
      min (g.cwnd.toNat + max 1 (mss * n.toNat % 2 ^ 32 / g.cwnd.toNat)) (2 ^ 30) := by
  have hslow : ¬ g.cwnd < g.ssthresh := UInt32.not_lt.2 hpast
  simp only [onAck, if_neg hslow, toNat_min_maxCwnd, growInCongestionAvoidance, h.algorithm,
    renoGrowInCongestionAvoidance, h.toNat_grow hpast n]

theorem quotient_lt_of_wraps (h : Reno mss g) {n : ℕ} (hwraps : 2 ^ 32 ≤ mss * n) :
    max 1 (mss * n % 2 ^ 32 / g.cwnd.toNat) < mss * n / g.cwnd.toNat := by
  have hcwnd := h.cwnd_le
  have hpos : 0 < g.cwnd.toNat := lt_of_lt_of_le h.mss_pos h.mss_le_cwnd
  have hlost : mss * n % 2 ^ 32 + g.cwnd.toNat * 4 ≤ mss * n := by
    have hdivision := Nat.mod_add_div (mss * n) (2 ^ 32)
    have hturns : 1 ≤ mss * n / 2 ^ 32 := (Nat.one_le_div_iff (by decide)).2 hwraps
    omega
  have hquotient : mss * n % 2 ^ 32 / g.cwnd.toNat + 4 ≤ mss * n / g.cwnd.toNat := by
    rw [← Nat.add_mul_div_left _ _ hpos]
    exact Nat.div_le_div_right hlost
  exact max_lt (by linarith [Nat.zero_le (mss * n % 2 ^ 32 / g.cwnd.toNat)]) (by linarith)

/-- **The law holds when the product fits, or when the window meets its cap all the
same.** -/
theorem cwnd_onAck_eq_iff (h : Reno mss g) (hpast : g.ssthresh ≤ g.cwnd) (n srttMs : UInt32) (nowMs : UInt64) :
    (g.onAck n srttMs nowMs).cwnd.toNat =
        min (2 ^ 30) (g.cwnd.toNat + max 1 (mss * n.toNat / g.cwnd.toNat)) ↔
      mss * n.toNat < 2 ^ 32 ∨
        2 ^ 30 ≤ g.cwnd.toNat + max 1 (mss * n.toNat % 2 ^ 32 / g.cwnd.toNat) := by
  rw [h.cwnd_onAck hpast]
  by_cases hfits : mss * n.toNat < 2 ^ 32
  · rw [Nat.mod_eq_of_lt hfits, min_comm]
    exact iff_of_true rfl (.inl hfits)
  · have hless := h.quotient_lt_of_wraps (not_lt.1 hfits)
    rw [max_eq_right (Nat.one_le_of_lt (lt_of_le_of_lt (le_max_left ..) hless) : 1 ≤ _)]
    omega

/-- One acknowledgement past the threshold grows the window by no more than the law, and
the window stays past the threshold. -/
theorem onAck_past (h : Reno mss g) (hpast : g.ssthresh ≤ g.cwnd) (n srttMs : UInt32) (nowMs : UInt64) :
    let g' := g.onAck n srttMs nowMs
    g.cwnd.toNat ≤ g'.cwnd.toNat ∧ g'.ssthresh ≤ g'.cwnd ∧
      g'.cwnd.toNat ≤ g.cwnd.toNat + 1 + mss * n.toNat / g.cwnd.toNat := by
  intro g'
  have hcwnd : g'.cwnd.toNat = _ := h.cwnd_onAck hpast n srttMs nowMs
  have hcap := h.cwnd_le
  have hgrows : g.cwnd.toNat ≤ g'.cwnd.toNat := hcwnd ▸ le_min (Nat.le_add_right ..) hcap
  have hssthresh : g'.ssthresh = g.ssthresh := by
    have hslow : ¬ g.cwnd < g.ssthresh := UInt32.not_lt.2 hpast
    simp only [g', onAck, if_neg hslow, growInCongestionAvoidance, h.algorithm,
      renoGrowInCongestionAvoidance]
  have hquotient : mss * n.toNat % 2 ^ 32 / g.cwnd.toNat ≤ mss * n.toNat / g.cwnd.toNat :=
    Nat.div_le_div_right (Nat.mod_le ..)
  refine ⟨hgrows, ?_, ?_⟩
  · rw [hssthresh]
    exact UInt32.le_trans hpast (UInt32.le_iff_toNat_le.2 hgrows)
  · rw [hcwnd, Nat.add_assoc]
    refine (min_le_left ..).trans (Nat.add_le_add_left (max_le (Nat.le_add_right ..) ?_) _)
    exact hquotient.trans (Nat.le_add_left ..)

end Reno

/-- The state after a row of acknowledgements. -/
def afterAcks (acks : List (UInt32 × UInt32 × UInt64)) (g : CongestionControl) : CongestionControl :=
  acks.foldl (fun g a => g.onAck a.1 a.2.1 a.2.2) g

/-- The bytes that they acknowledge. -/
def ackedBytes (acks : List (UInt32 × UInt32 × UInt64)) : ℕ := (acks.map fun a => a.1.toNat).sum

/-- The increments of a row of acknowledgements, each cut to an integer, add up to no more
than the cut of the sum, counted in windows of the size `c` that the row began with. -/
theorem Reno.afterAcks_le {mss c : ℕ} (acks : List (UInt32 × UInt32 × UInt64)) {g : CongestionControl}
    (h : Reno mss g) (hpast : g.ssthresh ≤ g.cwnd) (hc : 0 < c) (hcwnd : c ≤ g.cwnd.toNat)
    (hacks : ackedBytes acks ≤ 2 ^ 30) :
    (g.afterAcks acks).cwnd.toNat ≤ g.cwnd.toNat + acks.length + mss * ackedBytes acks / c := by
  induction acks generalizing g with
  | nil => exact Nat.le_add_right ..
  | cons a acks ih =>
    obtain ⟨n, srttMs, nowMs⟩ := a
    have hbytes : ackedBytes ((n, srttMs, nowMs) :: acks) = n.toNat + ackedBytes acks := by
      rw [ackedBytes, List.map_cons, List.sum_cons, ackedBytes]
    rw [hbytes] at hacks ⊢
    obtain ⟨hgrows, hpast', hstep⟩ := h.onAck_past hpast n srttMs nowMs
    have hsized : (CongestionCall.ack n srttMs nowMs).Sized :=
      show n.toNat ≤ 2 ^ 30 from (Nat.le_add_right ..).trans hacks
    have hrest : ((g.onAck n srttMs nowMs).afterAcks acks).cwnd.toNat ≤ _ :=
      ih (h.step hsized) hpast' (hcwnd.trans hgrows) ((Nat.le_add_left ..).trans hacks)
    have hwindows : mss * n.toNat / g.cwnd.toNat ≤ mss * n.toNat / c := Nat.div_le_div_left hcwnd hc
    have hsum : mss * n.toNat / c + mss * ackedBytes acks / c ≤ mss * (n.toNat + ackedBytes acks) / c := by
      rw [Nat.mul_add]
      exact Nat.div_add_div_le_add_div ..
    show ((g.onAck n srttMs nowMs).afterAcks acks).cwnd.toNat ≤ _
    rw [List.length_cons]
    omega

/-- **Reno grows as its law says exactly when the product fits in 32 bits**, or when the
window meets its cap all the same.  A row of acknowledgements of no more than one window
never grows it by more than a segment and one byte for each, wrapped or not; and when the
law holds for the whole window, half of it does not grow it more. -/
theorem reno_grows_exactly_iff (hreno : g.algorithm = .reno) (hpos : 1 ≤ mss.toNat)
    (hle : mss.toNat ≤ 65535) (hcalls : ∀ call ∈ calls, call.Sized)
    (hpast : ((g.onEstablished mss).afterCalls calls).ssthresh ≤
      ((g.onEstablished mss).afterCalls calls).cwnd) :
    let h := (g.onEstablished mss).afterCalls calls
    (∀ n srttMs nowMs, n.toNat ≤ 2 ^ 30 →
      ((h.onAck n srttMs nowMs).cwnd.toNat =
          min (2 ^ 30) (h.cwnd.toNat + max 1 (mss.toNat * n.toNat / h.cwnd.toNat)) ↔
        mss.toNat * n.toNat < 2 ^ 32 ∨
          2 ^ 30 ≤ h.cwnd.toNat + max 1 (mss.toNat * n.toNat % 2 ^ 32 / h.cwnd.toNat))) ∧
      (∀ acks, ackedBytes acks ≤ h.cwnd.toNat →
        (h.afterAcks acks).cwnd.toNat ≤ h.cwnd.toNat + mss.toNat + acks.length) ∧
      ∀ srttMs nowMs, (mss.toNat * h.cwnd.toNat < 2 ^ 32 ∨
          2 ^ 30 ≤ h.cwnd.toNat + max 1 (mss.toNat * h.cwnd.toNat % 2 ^ 32 / h.cwnd.toNat)) →
        (h.onAck (h.cwnd / 2) srttMs nowMs).cwnd ≤ (h.onAck h.cwnd srttMs nowMs).cwnd := by
  intro h
  have hinv : Reno mss.toNat h := (Reno.onEstablished hreno hpos hle).afterCalls hcalls
  have hcwnd : 0 < h.cwnd.toNat := lt_of_lt_of_le hinv.mss_pos hinv.mss_le_cwnd
  refine ⟨fun n srttMs nowMs _ => hinv.cwnd_onAck_eq_iff hpast n srttMs nowMs, fun acks hacks => ?_,
    fun srttMs nowMs hfits => ?_⟩
  · have hgrowth := hinv.afterAcks_le acks hpast hcwnd le_rfl (hacks.trans hinv.cwnd_le)
    have hsegment : mss.toNat * ackedBytes acks / h.cwnd.toNat ≤ mss.toNat :=
      Nat.div_le_of_le_mul (by
        rw [Nat.mul_comm]
        exact Nat.mul_le_mul_right _ hacks)
    omega
  · have hwhole := (hinv.cwnd_onAck_eq_iff hpast h.cwnd srttMs nowMs).2 hfits
    have hhalf := hinv.cwnd_onAck hpast (h.cwnd / 2) srttMs nowMs
    have hquotient : mss.toNat * (h.cwnd / 2).toNat % 2 ^ 32 / h.cwnd.toNat ≤ mss.toNat := by
      refine (Nat.div_le_div_right (Nat.mod_le ..)).trans (Nat.div_le_of_le_mul ?_)
      rw [Nat.mul_comm, UInt32.toNat_div]
      exact Nat.mul_le_mul_right _ (Nat.div_le_self ..)
    have hmss := hinv.mss_pos
    rw [Nat.mul_div_cancel _ hcwnd] at hwhole
    refine UInt32.le_iff_toNat_le.2 ?_
    omega

/-- Past the threshold after one acknowledgement in slow start. -/
def wideWindow : CongestionControl :=
  ((make .reno).onEstablished 1460).afterCalls [.ack 4194304 0 0]

/-- Half of a window of 4195764 bytes still fits. -/
theorem half_window_grows_exactly :
    (wideWindow.onAck 2097882 0 0).cwnd.toNat = 4195764 + 1460 * 2097882 / 4195764 := by
  have hlaw := (reno_grows_exactly_iff (make .reno) 1460 [.ack 4194304 0 0] rfl
    (by decide) (by decide) (by decide) (by decide +kernel)).1 2097882 0 0 (by decide)
  exact (hlaw.2 (.inl (by decide))).trans (by decide +kernel)

/-- **The whole window grows it less than half of it**: 436 bytes instead of 1460, where
half grows it by 730. -/
theorem whole_window_wraps :
    wideWindow.ssthresh ≤ wideWindow.cwnd ∧ wideWindow.cwnd = 4195764 ∧
      (wideWindow.onAck wideWindow.cwnd 0 0).cwnd = 4195764 + 436 ∧
      (wideWindow.onAck (wideWindow.cwnd / 2) 0 0).cwnd = 4195764 + 730 := by
  decide +kernel

end CongestionControl

end TcpIpStack
