/-
# The RTO estimator

`_update_rto_from_sample` keeps the smoothed round trip time and its deviation in
eighths of a millisecond, in 32 bits.  `Estimate` is the same estimator over the
natural numbers; `estimate_update` says that the connection's is that one as long
as the samples stay below `2^26` milliseconds, and that no operation wraps on the
way.  The bounds of the estimator are then bounds of the filter.
-/

import TcpIpStack.Lib.FixedPoint
import TcpIpStack.Tcp.Bookkeeping

namespace TcpIpStack

open FixedPoint TcpConnection

/-! ### The estimator over the natural numbers -/

/-- The smoothed round trip time and its deviation, in eighths of a millisecond. -/
@[ext] structure Estimate where
  srtt : ℕ
  rttvar : ℕ
deriving DecidableEq

namespace Estimate

/-- The first sample is the mean, and half of it the deviation. -/
def first (sample : ℕ) : Estimate := ⟨8 * sample, 4 * sample⟩

/-- A later sample.  The deviation is measured from the mean as it was. -/
def next (sample : ℕ) (e : Estimate) : Estimate :=
  ⟨smooth 8 e.srtt (8 * sample), smooth 4 e.rttvar ((8 * sample - e.srtt) + (e.srtt - 8 * sample))⟩

/-- A sample, the first or a later one. -/
def take (sample : ℕ) : Option Estimate → Estimate
  | none => first sample
  | some e => e.next sample

/-- The timeout, in milliseconds: four deviations above the mean, rounded up. -/
def rto (e : Estimate) : ℕ := min (max ((e.srtt + max 800 (4 * e.rttvar) + 7) / 8) 200) 60000

/-- The mean lies between `a` and `b` milliseconds, and the deviation is no more
than half of `b`, or than the distance of the two. -/
structure Within (a b : ℕ) (e : Estimate) : Prop where
  lower : 8 * a ≤ e.srtt
  upper : e.srtt ≤ 8 * b
  rttvar : e.rttvar ≤ 4 * max b (2 * (b - a))

section Within

variable {a b s : ℕ} {e : Estimate}

theorem within_first (ha : a ≤ s) (hb : s ≤ b) : (first s).Within a b := by
  refine ⟨Nat.mul_le_mul_left 8 ha, Nat.mul_le_mul_left 8 hb, Nat.mul_le_mul_left 4 ?_⟩
  exact hb.trans (Nat.le_max_left ..)

theorem Within.next (h : e.Within a b) (ha : a ≤ s) (hb : s ≤ b) : (e.next s).Within a b := by
  obtain ⟨hlower, hupper, hrttvar⟩ := h
  have hsample : 8 * s ≤ 8 * b := Nat.mul_le_mul_left 8 hb
  have hsample' : 8 * a ≤ 8 * s := Nat.mul_le_mul_left 8 ha
  refine ⟨le_smooth (by decide) hlower hsample', smooth_le (by decide) hupper hsample,
    smooth_le (by decide) hrttvar ?_⟩
  -- mean and sample lie in the same interval, so they are no further apart than its ends
  have hmax := Nat.le_max_right b (2 * (b - a))
  omega

theorem within_take {old : Option Estimate} (h : ∀ e ∈ old, e.Within a b) (ha : a ≤ s) (hb : s ≤ b) :
    (take s old).Within a b := by
  cases old with
  | none => exact within_first ha hb
  | some e => exact (h e rfl).next ha hb

theorem Within.le_rto (h : e.Within a b) : max 200 (min 60000 (a + 100)) ≤ e.rto := by
  have hlower := h.lower
  have hterm := Nat.le_max_left 800 (4 * e.rttvar)
  unfold rto
  omega

theorem Within.rto_le (h : e.Within a b) (hb : 100 ≤ b) :
    e.rto ≤ min 60000 (b + 2 * max b (2 * (b - a)) + 100) := by
  obtain ⟨-, hupper, hrttvar⟩ := h
  have hmax := Nat.le_max_left b (2 * (b - a))
  unfold rto
  omega

/-- A mean of exactly `a` is kept by samples of `a`, and the deviation decays. -/
theorem next_steady (h : e.srtt = 8 * a) : (e.next a).srtt = 8 * a ∧ (e.next a).rttvar ≤ e.rttvar := by
  constructor
  · unfold next smooth
    dsimp only
    omega
  · unfold next
    dsimp only
    rw [h, Nat.sub_self]
    exact smooth_zero_le ..

end Within

end Estimate

/-! ### The estimator of a connection -/

namespace TcpConnection

/-- The estimate a connection holds, once it has had a sample. -/
def estimate (c : TcpConnection) : Option Estimate :=
  if c.hasRttSample then some ⟨c.srttScaled.toNat, c.rttvarScaled.toNat⟩ else none

/-- No sample is shorter than the clock can see. -/
def clampedSample (rttMs : UInt32) : UInt32 :=
  if rttMs < rtoClockGranularityMs then rtoClockGranularityMs else rttMs

/-- The two halves of `_update_rto_from_sample`: the filters, and the timeout that
follows from them. -/
def filtered (rttMs : UInt32) (c : TcpConnection) : UInt32 × UInt32 :=
  let sampleScaled := clampedSample rttMs * rtoScale
  if !c.hasRttSample then (sampleScaled, sampleScaled / 2)
  else
    let error := if sampleScaled > c.srttScaled then sampleScaled - c.srttScaled
      else c.srttScaled - sampleScaled
    (c.srttScaled - (c.srttScaled >>> rttSmoothingShift) + (sampleScaled >>> rttSmoothingShift),
      c.rttvarScaled - (c.rttvarScaled >>> rttVarianceShift) + (error >>> rttVarianceShift))

def timeout (srtt rttvar : UInt32) : UInt32 :=
  (srtt + max (rtoClockGranularityMs * rtoScale) (rtoVarianceMultiplier * rttvar) + rtoScale - 1) / rtoScale

/-- The distance of the sample from the mean. -/
def errorChecked (sampleScaled srtt : UInt32) : Option UInt32 :=
  if sampleScaled > srtt then sub sampleScaled srtt else sub srtt sampleScaled

/-- The two halves with operations that have no result where those of the source
wrap. -/
def filteredChecked (rttMs : UInt32) (c : TcpConnection) : Option (UInt32 × UInt32) := do
  let sampleScaled ← mul (clampedSample rttMs) rtoScale
  if !c.hasRttSample then some (sampleScaled, sampleScaled / 2)
  else
    let error ← errorChecked sampleScaled c.srttScaled
    let rttvar ← (sub c.rttvarScaled (c.rttvarScaled >>> rttVarianceShift)).bind
      (add · (error >>> rttVarianceShift))
    let srtt ← (sub c.srttScaled (c.srttScaled >>> rttSmoothingShift)).bind
      (add · (sampleScaled >>> rttSmoothingShift))
    some (srtt, rttvar)

def timeoutChecked (srtt rttvar : UInt32) : Option UInt32 := do
  let granularity ← mul rtoClockGranularityMs rtoScale
  let deviation ← mul rtoVarianceMultiplier rttvar
  let rtoScaled ← add srtt (max granularity deviation)
  let rounded ← (add rtoScaled rtoScale).bind (sub · 1)
  -- the cast to `int`
  if (rounded / rtoScale).toNat < 2 ^ 31 then some (rounded / rtoScale) else none

/-- `_update_rto_from_sample` where no 32-bit operation wraps. -/
def updateRtoChecked (rttMs : UInt32) (c : TcpConnection) : Option TcpConnection := do
  let (srtt, rttvar) ← c.filteredChecked rttMs
  let rto ← timeoutChecked srtt rttvar
  some { c with
    srttScaled := srtt, rttvarScaled := rttvar, hasRttSample := true
    rtoMs := min (max (rto.toNat : ℤ) minRtoMs) maxRtoMs }

theorem updateRtoFromSample_eq (rttMs : UInt32) (c : TcpConnection) : c.updateRtoFromSample rttMs =
      { c with
        srttScaled := (c.filtered rttMs).1, rttvarScaled := (c.filtered rttMs).2, hasRttSample := true
        rtoMs := min (max ((timeout (c.filtered rttMs).1 (c.filtered rttMs).2).toNat : ℤ) minRtoMs) maxRtoMs } :=
  rfl

section Update

variable {rttMs : UInt32} {c : TcpConnection}

theorem toNat_clampedSample (rttMs : UInt32) : (clampedSample rttMs).toNat = max rttMs.toNat 100 := by
  have h100 : rtoClockGranularityMs.toNat = 100 := by decide
  unfold clampedSample
  split_ifs with h <;> rw [UInt32.lt_iff_toNat_lt, h100] at h
  · rw [h100]
    omega
  · omega

/-- Small filter values give the timeout exactly. -/
theorem timeoutChecked_eq {srtt rttvar : UInt32} (hsrtt : srtt.toNat ≤ 2 ^ 29) (hrttvar : rttvar.toNat ≤ 2 ^ 29) :
    timeoutChecked srtt rttvar = some (timeout srtt rttvar) ∧
      (timeout srtt rttvar).toNat = (srtt.toNat + max 800 (4 * rttvar.toNat) + 7) / 8 := by
  have hscale : rtoScale.toNat = 8 := by decide
  have hfour : rtoVarianceMultiplier.toNat = 4 := by decide
  have hgranularity : mul rtoClockGranularityMs rtoScale = some (rtoClockGranularityMs * rtoScale) := by decide
  have h800 : (rtoClockGranularityMs * rtoScale).toNat = 800 := by decide
  have hmul : rtoVarianceMultiplier.toNat * rttvar.toNat < 2 ^ 32 := by
    rw [hfour]
    omega
  have hdeviation : (rtoVarianceMultiplier * rttvar).toNat = 4 * rttvar.toNat := by
    rw [toNat_mul_of_lt hmul, hfour]
  have hmax : (max (rtoClockGranularityMs * rtoScale) (rtoVarianceMultiplier * rttvar)).toNat =
      max 800 (4 * rttvar.toNat) := by
    rw [← h800, ← hdeviation]
    exact UInt32.toNat_max ..
  have hsum : srtt.toNat +
      (max (rtoClockGranularityMs * rtoScale) (rtoVarianceMultiplier * rttvar)).toNat < 2 ^ 32 := by
    rw [hmax]
    omega
  set rtoScaled := srtt + max (rtoClockGranularityMs * rtoScale) (rtoVarianceMultiplier * rttvar) with hscaled
  have hrtoScaled : rtoScaled.toNat = srtt.toNat + max 800 (4 * rttvar.toNat) := by
    rw [hscaled, toNat_add_of_lt hsum, hmax]
  have hround : rtoScaled.toNat + rtoScale.toNat < 2 ^ 32 := by
    rw [hrtoScaled, hscale]
    omega
  have hone : (1 : UInt32) ≤ rtoScaled + rtoScale := by
    rw [UInt32.le_iff_toNat_le, toNat_add_of_lt hround, hscale]
    exact (Nat.le_add_left 8 _).trans' (by decide)
  have htimeout : (timeout srtt rttvar).toNat = (srtt.toNat + max 800 (4 * rttvar.toNat) + 7) / 8 := by
    unfold timeout
    rw [← hscaled, UInt32.toNat_div, UInt32.toNat_sub_of_le _ _ hone, toNat_add_of_lt hround, hrtoScaled, hscale]
    congr 1
  refine ⟨?_, htimeout⟩
  have hint : (timeout srtt rttvar).toNat < 2 ^ 31 := by
    rw [htimeout]
    omega
  unfold timeoutChecked
  rw [hgranularity, mul_of_lt hmul]
  simp only [Option.bind_eq_bind, Option.bind_some]
  rw [add_of_lt hsum, Option.bind_some, ← hscaled, add_of_lt hround, Option.bind_some, sub_of_le hone,
    Option.bind_some, if_pos (by exact hint)]
  rfl

theorem errorChecked_eq (sample srtt : UInt32) : errorChecked sample srtt =
        some (if sample > srtt then sample - srtt else srtt - sample) ∧
      (if sample > srtt then sample - srtt else srtt - sample).toNat =
        (sample.toNat - srtt.toNat) + (srtt.toNat - sample.toNat) := by
  unfold errorChecked
  split_ifs with hgt
  · have hle : srtt ≤ sample := UInt32.le_of_lt hgt
    have hnat := UInt32.le_iff_toNat_le.1 hle
    refine ⟨sub_of_le hle, ?_⟩
    rw [UInt32.toNat_sub_of_le _ _ hle]
    omega
  · have hle : sample ≤ srtt := UInt32.not_lt.1 hgt
    have hnat := UInt32.le_iff_toNat_le.1 hle
    refine ⟨sub_of_le hle, ?_⟩
    rw [UInt32.toNat_sub_of_le _ _ hle]
    omega

/-- Small samples pass the filters exactly. -/
theorem filteredChecked_eq (hsample : rttMs.toNat < 2 ^ 26)
    (hsmall : ∀ e ∈ c.estimate, e.srtt ≤ 2 ^ 29 ∧ e.rttvar ≤ 2 ^ 29) :
    c.filteredChecked rttMs = some (c.filtered rttMs) ∧
      Estimate.mk (c.filtered rttMs).1.toNat (c.filtered rttMs).2.toNat =
        .take (max rttMs.toNat 100) c.estimate := by
  have hclamped := toNat_clampedSample rttMs
  have hscale : rtoScale.toNat = 8 := by decide
  have hmul : (clampedSample rttMs).toNat * rtoScale.toNat < 2 ^ 32 := by
    rw [hclamped, hscale]
    omega
  have hscaled : (clampedSample rttMs * rtoScale).toNat = 8 * max rttMs.toNat 100 := by
    rw [toNat_mul_of_lt hmul, hclamped, hscale, Nat.mul_comm]
  unfold filteredChecked filtered estimate
  rw [mul_of_lt hmul]
  generalize clampedSample rttMs * rtoScale = sample at hscaled ⊢
  simp only [Option.bind_eq_bind, Option.bind_some]
  cases hhas : c.hasRttSample with
  | false =>
    refine ⟨rfl, ?_⟩
    show Estimate.mk sample.toNat (sample / 2).toNat = .first _
    rw [UInt32.toNat_div, hscaled]
    exact Estimate.ext rfl (show 8 * max rttMs.toNat 100 / 2 = 4 * max rttMs.toNat 100 by omega)
  | true =>
    obtain ⟨hsrtt, hrttvar⟩ := hsmall ⟨c.srttScaled.toNat, c.rttvarScaled.toNat⟩ (by simp [estimate, hhas])
    dsimp only at hsrtt hrttvar
    obtain ⟨herror, hdistance⟩ := errorChecked_eq sample c.srttScaled
    generalize (if sample > c.srttScaled then sample - c.srttScaled else c.srttScaled - sample) = error at *
    obtain ⟨hmean, hmean'⟩ := smooth_of_shift c.srttScaled sample
      (show rttSmoothingShift.toNat = 3 by decide) (by decide) (by omega)
    obtain ⟨hdeviation, hdeviation'⟩ := smooth_of_shift c.rttvarScaled error
      (show rttVarianceShift.toNat = 2 by decide) (by decide) (by omega)
    simp only [Bool.not_true, Bool.false_eq_true, if_false]
    rw [herror, Option.bind_some, hdeviation, Option.bind_some, hmean, Option.bind_some]
    refine ⟨rfl, Estimate.ext ?_ ?_⟩
    · rw [hmean', hscaled]
      rfl
    · rw [hdeviation', hdistance, hscaled]
      rfl

/-- **The estimator of a connection is the one over the natural numbers**, and
none of its operations wraps. -/
theorem estimate_update (hsample : rttMs.toNat < 2 ^ 26)
    (hsmall : ∀ e ∈ c.estimate, e.srtt ≤ 2 ^ 29 ∧ e.rttvar ≤ 2 ^ 29)
    (htaken : (Estimate.take (max rttMs.toNat 100) c.estimate).srtt ≤ 2 ^ 29 ∧
      (Estimate.take (max rttMs.toNat 100) c.estimate).rttvar ≤ 2 ^ 29) :
    c.updateRtoChecked rttMs = some (c.updateRtoFromSample rttMs) ∧
      (c.updateRtoFromSample rttMs).estimate = some (.take (max rttMs.toNat 100) c.estimate) ∧
      (c.updateRtoFromSample rttMs).rtoMs = (Estimate.take (max rttMs.toNat 100) c.estimate).rto := by
  obtain ⟨hfiltered, hestimate⟩ := filteredChecked_eq hsample hsmall
  rw [← hestimate] at htaken ⊢
  obtain ⟨htimeout, hrto⟩ := timeoutChecked_eq htaken.1 htaken.2
  refine ⟨?_, rfl, ?_⟩
  · unfold updateRtoChecked
    rw [hfiltered, Option.bind_eq_bind, Option.bind_some]
    dsimp only
    rw [htimeout]
    rfl
  · rw [updateRtoFromSample_eq, Estimate.rto]
    dsimp only
    rw [hrto]
    simp only [minRtoMs, maxRtoMs]
    omega

end Update

/-! ### A sequence of samples -/

theorem estimate_eq {c : TcpConnection} {e : Estimate} (h : c.estimate = some e) :
    e.srtt = c.srttScaled.toNat ∧ e.rttvar = c.rttvarScaled.toNat := by
  unfold estimate at h
  split_ifs at h
  cases h
  exact ⟨rfl, rfl⟩

/-- The samples one after the other, and the same where no operation wraps. -/
def sampled (samples : List UInt32) (c : TcpConnection) : TcpConnection :=
  samples.foldl (fun c rttMs => c.updateRtoFromSample rttMs) c

def sampledChecked (samples : List UInt32) (c : TcpConnection) : Option TcpConnection :=
  samples.foldlM (fun c rttMs => c.updateRtoChecked rttMs) c

section Sampled

variable {a b : ℕ} {rttMs : UInt32} {c : TcpConnection}

/-- The sample, as the estimator takes it, lies between `a` and `b`. -/
def SampleWithin (a b : ℕ) (rttMs : UInt32) : Prop := a ≤ max rttMs.toNat 100 ∧ max rttMs.toNat 100 ≤ b

instance (a b : ℕ) (rttMs : UInt32) : Decidable (SampleWithin a b rttMs) :=
  inferInstanceAs (Decidable (_ ∧ _))

theorem small_of_within {e : Estimate} (h : e.Within a b) (hb : b < 2 ^ 26) :
    e.srtt ≤ 2 ^ 29 ∧ e.rttvar ≤ 2 ^ 29 := by
  obtain ⟨-, hupper, hrttvar⟩ := h
  constructor <;> omega

theorem within_update (h : ∀ e ∈ c.estimate, e.Within a b) (hb : b < 2 ^ 26) (hr : SampleWithin a b rttMs) :
    c.updateRtoChecked rttMs = some (c.updateRtoFromSample rttMs) ∧
      ∃ e, (c.updateRtoFromSample rttMs).estimate = some e ∧ e.Within a b ∧
        e = .take (max rttMs.toNat 100) c.estimate ∧ (c.updateRtoFromSample rttMs).rtoMs = e.rto := by
  obtain ⟨hlower, hupper⟩ := hr
  have hwithin := Estimate.within_take h hlower hupper
  obtain ⟨hchecked, hestimate, hrto⟩ := estimate_update
    (show rttMs.toNat < 2 ^ 26 by omega) (fun e he => small_of_within (h e he) hb) (small_of_within hwithin hb)
  exact ⟨hchecked, _, hestimate, hwithin, rfl, hrto⟩

theorem within_sampled {samples : List UInt32} (h : ∀ e ∈ c.estimate, e.Within a b) (hb : b < 2 ^ 26)
    (hin : ∀ rttMs ∈ samples, SampleWithin a b rttMs) : c.sampledChecked samples = some (c.sampled samples) ∧
      (∀ e ∈ (c.sampled samples).estimate, e.Within a b) ∧
      (samples ≠ [] → ∃ e ∈ (c.sampled samples).estimate, (c.sampled samples).rtoMs = e.rto) := by
  induction samples using List.reverseRecOn with
  | nil => exact ⟨rfl, h, fun hne => absurd rfl hne⟩
  | append_singleton samples rttMs ih =>
    obtain ⟨hchecked, hwithin, -⟩ := ih fun r hr => hin r (List.mem_append_left _ hr)
    obtain ⟨hlast, e, hestimate, he, -, hrto⟩ :=
      within_update hwithin hb (hin rttMs (List.mem_append_right _ (List.mem_singleton_self _)))
    have hsampled : c.sampled (samples ++ [rttMs]) = (c.sampled samples).updateRtoFromSample rttMs := by
      simp [sampled]
    rw [hsampled, hestimate]
    refine ⟨?_, fun e' he' => Option.mem_some.1 he' ▸ he, fun _ => ⟨e, rfl, hrto⟩⟩
    unfold sampledChecked at hchecked ⊢
    rw [List.foldlM_append, hchecked]
    simpa using hlast

/-- Another sample of a mean that has settled leaves it, and the deviation does not
grow. -/
theorem steady_update {e : Estimate} (he : c.estimate = some e) (hwithin : e.Within a a) (ha : a < 2 ^ 26)
    (hr : max rttMs.toNat 100 = a) : (c.updateRtoFromSample rttMs).rttvarScaled ≤ c.rttvarScaled := by
  obtain ⟨-, e', hestimate, -, htaken, -⟩ :=
    within_update (c := c) (fun e' he' => Option.some.inj (he.symm.trans he') ▸ hwithin) ha ⟨hr.ge, hr.le⟩
  have hsteady := (Estimate.next_steady (Nat.le_antisymm hwithin.upper hwithin.lower)).2
  rw [he, hr] at htaken
  rw [UInt32.le_iff_toNat_le, ← (estimate_eq hestimate).2, ← (estimate_eq he).2, htaken]
  exact hsteady

end Sampled

theorem max_deviation {a b : ℕ} (h : a ≤ b) :
    8 * max (b / 2 : ℚ) (b - a) = ((4 * max b (2 * (b - a)) : ℕ) : ℚ) := by
  push_cast [Nat.cast_sub h]
  rw [mul_max_of_nonneg _ _ (by norm_num), mul_max_of_nonneg _ _ (by norm_num)]
  congr 1 <;> ring

/-- **The bounds of the estimator**, and that none of its operations wraps. -/
theorem rto_estimator_bounds (a b : ℕ) (ha : 100 ≤ a) (hb : b < 2 ^ 26) (samples : List UInt32)
    (hne : samples ≠ []) (hin : ∀ rttMs ∈ samples, SampleWithin a b rttMs) (localPort remotePort : UInt16)
    (initialSeq : UInt32) (localMss : UInt16) (algorithm : CongestionControlAlgorithm) {c : TcpConnection}
    (hc : (TcpConnection.new localPort remotePort initialSeq localMss algorithm).sampled samples = c) :
    (TcpConnection.new localPort remotePort initialSeq localMss algorithm).sampledChecked samples = some c ∧
    (a : ℚ) ≤ c.srttScaled.toNat / 8 ∧ (c.srttScaled.toNat / 8 : ℚ) ≤ b ∧
    (c.rttvarScaled.toNat / 8 : ℚ) ≤ max (b / 2 : ℚ) (b - a) ∧
    max 200 (min 60000 (a + 100 : ℤ)) ≤ c.rtoMs ∧
    (c.rtoMs : ℚ) ≤ min 60000 (b + 4 * max (b / 2 : ℚ) (b - a) + 100) ∧
    ((∀ rttMs ∈ samples, max rttMs.toNat 100 = a) → (c.srttScaled.toNat / 8 : ℚ) = a ∧
      ∀ rttMs, max rttMs.toNat 100 = a → (c.updateRtoFromSample rttMs).rttvarScaled ≤ c.rttvarScaled) := by
  have hfresh : (TcpConnection.new localPort remotePort initialSeq localMss algorithm).estimate = none := rfl
  obtain ⟨hchecked, hwithin, hsome⟩ := within_sampled (c := TcpConnection.new localPort remotePort initialSeq
    localMss algorithm) (fun e he => by simp [hfresh] at he) hb hin
  rw [hc] at hchecked hwithin hsome
  obtain ⟨e, he, hrto⟩ := hsome hne
  have hab : a ≤ b := by
    obtain ⟨rttMs, hmem⟩ := List.exists_mem_of_ne_nil samples hne
    exact (hin rttMs hmem).1.trans (hin rttMs hmem).2
  have hbounds := hwithin e he
  have hle := hbounds.le_rto
  have hge := hbounds.rto_le (ha.trans hab)
  have hmembers := estimate_eq he
  have hscale := max_deviation hab
  obtain ⟨hlower, hupper, hrttvar⟩ := hbounds
  refine ⟨hchecked, ?_, ?_, ?_, ?_, ?_, fun hall => ⟨?_, fun rttMs hr => ?_⟩⟩
  · rw [le_div_iff₀ (by norm_num), mul_comm]
    exact_mod_cast hmembers.1 ▸ hlower
  · rw [div_le_iff₀ (by norm_num), mul_comm]
    exact_mod_cast hmembers.1 ▸ hupper
  · rw [div_le_iff₀ (by norm_num), mul_comm, hscale]
    exact_mod_cast hmembers.2 ▸ hrttvar
  · rw [hrto]
    exact_mod_cast hle
  · have hdouble : (4 : ℚ) * max (b / 2 : ℚ) (b - a) = ((2 * max b (2 * (b - a)) : ℕ) : ℚ) := by
      have hhalf : (4 : ℚ) * max (b / 2 : ℚ) (b - a) = 8 * max (b / 2 : ℚ) (b - a) / 2 := by ring
      rw [hhalf, hscale]
      push_cast
      ring
    rw [hrto, hdouble]
    exact_mod_cast hge
  · obtain ⟨-, hsteady, -⟩ := within_sampled (c := TcpConnection.new localPort remotePort initialSeq localMss
      algorithm) (a := a) (b := a) (fun e he => by simp [hfresh] at he) (by omega)
      fun rttMs hr => ⟨(hall rttMs hr).ge, (hall rttMs hr).le⟩
    rw [hc] at hsteady
    rw [div_eq_iff (by norm_num), mul_comm]
    have hmean := Nat.le_antisymm (hsteady e he).upper (hsteady e he).lower
    exact_mod_cast hmembers.1 ▸ hmean
  · obtain ⟨-, hsteady, -⟩ := within_sampled (c := TcpConnection.new localPort remotePort initialSeq localMss
      algorithm) (a := a) (b := a) (fun e he => by simp [hfresh] at he) (by omega)
      fun rttMs hr => ⟨(hall rttMs hr).ge, (hall rttMs hr).le⟩
    rw [hc] at hsteady
    exact steady_update he (hsteady e he) (by omega) hr

/-- Three samples of a path that gets slower: the timeout is 1260 milliseconds. -/
theorem rto_estimator_bounds_three :
    ∃ c, (TcpConnection.new 80 9000 100 1460 .reno).sampled [50, 300, 900] = c ∧
      ((100 : ℕ) : ℚ) ≤ c.srttScaled.toNat / 8 ∧ (c.srttScaled.toNat / 8 : ℚ) ≤ (900 : ℕ) ∧ c.rtoMs = 1260 := by
  have hin : ∀ rttMs ∈ [(50 : UInt32), 300, 900], SampleWithin 100 900 rttMs :=
    List.forall_mem_cons.2 ⟨by decide +kernel, List.forall_mem_cons.2 ⟨by decide +kernel,
      List.forall_mem_singleton.2 (by decide +kernel)⟩⟩
  obtain ⟨-, hlower, hupper, -⟩ := rto_estimator_bounds 100 900 (by norm_num) (by norm_num) [50, 300, 900]
    (by simp) hin 80 9000 100 1460 .reno rfl
  exact ⟨_, rfl, hlower, hupper, by decide +kernel⟩

end TcpConnection

end TcpIpStack
