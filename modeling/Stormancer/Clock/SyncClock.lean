import Mathlib.Algebra.Order.Ring.Rat
import Mathlib.Data.List.Sort
import Stormancer.Lib.Samples

/-!
# `SyncClock`

The clock of the server, from a window of the last ping samples. The arithmetic is exact: times
and latencies are rational numbers of milliseconds, and no value is converted to an integer type
of C++. Two things follow:
* the standard deviation is kept as its square (`varianceLatency`), and `belowLatencyMax` is the
  comparison with median plus standard deviation (`belowLatencyMax_iff`);
* a quotient with divisor 0, which is not a number, is `none`.

Result: `lenOffsets_pos_iff`, when the filter keeps a sample, so that the offset is defined.
-/

namespace Stormancer.Clock

/-! ## `Watch` -/

structure Watch where
  startTime : ℚ
  baseTime : ℚ
deriving DecidableEq

namespace Watch

def reset (w : Watch) (now : ℚ) : Watch := { w with startTime := now }

def getElapsedTime (w : Watch) (now : ℚ) : ℚ := now - w.startTime + w.baseTime

end Watch

/-! ## `SyncClock` -/

structure ClockValue where
  latency : ℚ
  offset : ℚ
deriving DecidableEq

def maxValues : Nat := 24

structure SyncClock where
  clockValues : List ClockValue
  watch : Watch
  isRunning : Bool
  lastPingFinished : Bool
  lastPing : ℚ
  medianLatency : ℚ
  varianceLatency : ℚ
  offset : Option ℚ
deriving DecidableEq

/-- The latencies of the samples in increasing order. -/
def latencies (clockValues : List ClockValue) : List ℚ :=
  (clockValues.map ClockValue.latency).insertionSort (· ≤ ·)

/-- `latency < medianLatency + standardDeviationLatency`. -/
def belowLatencyMax (medianLatency varianceLatency latency : ℚ) : Prop :=
  latency < medianLatency ∨ (latency - medianLatency) ^ 2 < varianceLatency

instance (medianLatency varianceLatency latency : ℚ) :
    Decidable (belowLatencyMax medianLatency varianceLatency latency) :=
  inferInstanceAs (Decidable (_ ∨ _))

/-- The samples that the filter keeps. -/
def keptValues (clockValues : List ClockValue) : List ClockValue :=
  clockValues.filter fun v =>
    belowLatencyMax (Samples.median (latencies clockValues))
      (Samples.variance (latencies clockValues)) v.latency

def lenOffsets (clockValues : List ClockValue) : Nat := (keptValues clockValues).length

/-- `offsetsAvg / lenOffsets`. -/
def offsetsAvg (clockValues : List ClockValue) : Option ℚ :=
  if lenOffsets clockValues = 0 then none
  else some (((keptValues clockValues).map ClockValue.offset).sum / lenOffsets clockValues)

/-- `push_back`, and `pop_front` when there are more than `maxValues`. -/
def pushValue (clockValues : List ClockValue) (v : ClockValue) : List ClockValue :=
  if maxValues < (clockValues ++ [v]).length then (clockValues ++ [v]).drop 1
  else clockValues ++ [v]

namespace SyncClock

/-- The constructor at the time `now`. -/
def init (now : ℚ) : SyncClock where
  clockValues := []
  watch := ⟨now, 0⟩
  isRunning := false
  lastPingFinished := true
  lastPing := 0
  medianLatency := 0
  varianceLatency := 0
  offset := some 0

/-- `clock`. `none`: the offset is not a number. -/
def clock (s : SyncClock) (now : ℚ) : Option ℚ :=
  s.offset.map fun offset => s.watch.getElapsedTime now + offset

/-- `syncClockImplAsync` up to the request: the `timeStart` of the ping, if there is one. -/
def syncClockImplAsync (s : SyncClock) (now : ℚ) : SyncClock × Option ℚ :=
  if !s.isRunning || !s.lastPingFinished then (s, none)
  else
    let watch := s.watch.reset now
    ({ s with lastPingFinished := false, watch := watch }, some (watch.getElapsedTime now))

def processResult (s : SyncClock) (now timeStart timeServer : ℚ) : SyncClock :=
  let timeEnd := s.watch.getElapsedTime now
  let ping := timeEnd - timeStart
  let latency := ping / 2
  let offset := timeServer - timeEnd + latency
  let clockValues := pushValue s.clockValues ⟨latency, offset⟩
  { s with
    clockValues := clockValues
    lastPingFinished := true
    lastPing := ping
    medianLatency := Samples.median (latencies clockValues)
    varianceLatency := Samples.variance (latencies clockValues)
    offset := offsetsAvg clockValues }

end SyncClock

/-! ## Helpers -/

namespace SyncClockLemmas

theorem belowLatencyMax_iff {m v x : ℚ} :
    belowLatencyMax m v x ↔ (x : ℝ) < m + √(v : ℝ) := by
  rw [Samples.lt_add_sqrt_iff, belowLatencyMax]
  norm_cast

theorem mem_latencies {clockValues : List ClockValue} {x : ℚ} :
    x ∈ latencies clockValues ↔ ∃ v ∈ clockValues, v.latency = x := by
  rw [latencies, List.mem_insertionSort, List.mem_map]

theorem mem_keptValues {clockValues : List ClockValue} {v : ClockValue} :
    v ∈ keptValues clockValues ↔ v ∈ clockValues ∧
      belowLatencyMax (Samples.median (latencies clockValues))
        (Samples.variance (latencies clockValues)) v.latency := by
  rw [keptValues, List.mem_filter, decide_eq_true_iff]

/-- The sample with the median latency is kept as soon as the deviation is not zero. -/
theorem exists_kept {clockValues : List ClockValue} {v v' : ClockValue}
    (hv : v ∈ clockValues) (hv' : v' ∈ clockValues) (hne : v.latency ≠ v'.latency) :
    ∃ w, w ∈ keptValues clockValues := by
  have hx := mem_latencies.mpr ⟨v, hv, rfl⟩
  have hy := mem_latencies.mpr ⟨v', hv', rfl⟩
  have hvariance : 0 < Samples.variance (latencies clockValues) := by
    refine (Samples.variance_nonneg _).lt_of_ne' fun hzero => hne ?_
    exact Samples.variance_eq_zero_iff.mp hzero _ hx _ hy
  obtain ⟨w, hw, hmedian⟩ := mem_latencies.mp (Samples.median_mem (List.ne_nil_of_mem hx))
  refine ⟨w, mem_keptValues.mpr ⟨hw, .inr ?_⟩⟩
  rw [hmedian, sub_self, zero_pow two_ne_zero]
  exact hvariance

/-- When all latencies are equal, none is below their median, and the deviation is zero. -/
theorem exists_ne_of_kept {clockValues : List ClockValue} {w : ClockValue}
    (hkept : w ∈ keptValues clockValues) :
    ∃ v ∈ clockValues, ∃ v' ∈ clockValues, v.latency ≠ v'.latency := by
  obtain ⟨hw, hbelow⟩ := mem_keptValues.mp hkept
  by_contra hnone
  push Not at hnone
  have hx := mem_latencies.mpr ⟨w, hw, rfl⟩
  have hall : ∀ x ∈ latencies clockValues, ∀ y ∈ latencies clockValues, x = y := by
    intro x hx y hy
    obtain ⟨v, hv, rfl⟩ := mem_latencies.mp hx
    obtain ⟨v', hv', rfl⟩ := mem_latencies.mp hy
    exact hnone v hv v' hv'
  have hmedian := hall _ (Samples.median_mem (List.ne_nil_of_mem hx)) _ hx
  rw [belowLatencyMax, hmedian, Samples.variance_eq_zero_iff.mpr hall, sub_self,
    zero_pow two_ne_zero] at hbelow
  exact hbelow.elim (lt_irrefl _) (lt_irrefl _)

theorem offsetsAvg_isSome {clockValues : List ClockValue} :
    (offsetsAvg clockValues).isSome ↔ 0 < lenOffsets clockValues := by
  rw [offsetsAvg, Nat.pos_iff_ne_zero]
  split
  · next hzero => simp [hzero]
  · next hne => simp [hne]

theorem offsetsAvg_of_pos {clockValues : List ClockValue} (h : 0 < lenOffsets clockValues) :
    offsetsAvg clockValues =
      some (Samples.mean ((keptValues clockValues).map ClockValue.offset)) := by
  rw [offsetsAvg, if_neg h.ne', Samples.mean, List.length_map]
  rfl

end SyncClockLemmas

open SyncClockLemmas

/-! ## The filter -/

/-- The filter keeps a sample, and the average has a divisor that is not zero, exactly when two
samples of the window have different latencies. -/
theorem lenOffsets_pos_iff (clockValues : List ClockValue) :
    (1 ≤ lenOffsets clockValues ↔
      ∃ v ∈ clockValues, ∃ v' ∈ clockValues, v.latency ≠ v'.latency) ∧
    ((offsetsAvg clockValues).isSome ↔
      ∃ v ∈ clockValues, ∃ v' ∈ clockValues, v.latency ≠ v'.latency) := by
  have hkept : 1 ≤ lenOffsets clockValues ↔
      ∃ v ∈ clockValues, ∃ v' ∈ clockValues, v.latency ≠ v'.latency := by
    rw [lenOffsets, Nat.succ_le_iff, List.length_pos_iff_exists_mem]
    constructor
    · rintro ⟨w, hw⟩
      exact exists_ne_of_kept hw
    · rintro ⟨v, hv, v', hv', hne⟩
      exact exists_kept hv hv' hne
  exact ⟨hkept, offsetsAvg_isSome.trans hkept⟩

/-- The window of the first result has one sample. -/
theorem first_result_no_offset :
    ¬ ∀ clockValues : List ClockValue, clockValues ≠ [] →
      1 ≤ lenOffsets clockValues ∧ (offsetsAvg clockValues).isSome := by
  intro h
  have hone := (h (SyncClock.processResult (SyncClock.init 0) 20 0 1000).clockValues
    (by decide +kernel)).1
  exact absurd hone (by decide +kernel)

end Stormancer.Clock
