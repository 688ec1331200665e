import Mathlib.Tactic.Linarith
import Stormancer.Clock.SyncClock
import Stormancer.Lib.Rounding

/-!
# The arithmetic of a sample

`processResult` with the integer types of its times: the difference of the times of a ping is cut
to 16 bits, that of the times of the server and of the client is unsigned, and the sum with the
latency is a `double`. The doubles here are multiples of one half that are not negative; they are
rounded as if they were integers, since rounding does not depend on the power of two.

Results:
1. `exact_iff`: when the recorded ping and offset are the exact numbers.
2. `processResult_sample`: in that case `processResult` records the sample.
3. `long_ping_is_cut`, `late_server_wraps`: a ping of 65536 ms, and a server whose clock is behind.
-/

namespace Stormancer.Clock

open Rounding

/-! ## Definitions -/

/-- The digits of a `double`. -/
abbrev digits : Nat := 53

/-- `(uint16)(timeEnd - timeStart)`. -/
def samplePing (timeStart timeEnd : UInt64) : UInt16 := (timeEnd - timeStart).toUInt16

/-- `timeServer - timeEnd + latency`, where the latency is half of the ping. -/
def sampleOffset (timeStart timeEnd timeServer : UInt64) : ℚ :=
  (round digits (2 * round digits (timeServer - timeEnd).toNat +
    (samplePing timeStart timeEnd).toNat) : ℚ) / 2

/-- What is added to `_clockValues`. -/
def sample (timeStart timeEnd timeServer : UInt64) : ClockValue where
  latency := (samplePing timeStart timeEnd).toNat / 2
  offset := sampleOffset timeStart timeEnd timeServer

/-! ## The property -/

/-- The recorded ping and the recorded offset are the exact numbers. -/
structure Exact (timeStart timeEnd timeServer : UInt64) : Prop where
  ping : ((samplePing timeStart timeEnd).toNat : ℤ) = timeEnd.toNat - timeStart.toNat
  offset : sampleOffset timeStart timeEnd timeServer =
    (timeServer.toNat : ℚ) - timeEnd.toNat + ((timeEnd.toNat : ℚ) - timeStart.toNat) / 2

/-- Twice the offset, when the server is not behind. -/
def twiceOffset (timeStart timeEnd timeServer : UInt64) : Nat :=
  2 * (timeServer.toNat - timeEnd.toNat) + (timeEnd.toNat - timeStart.toNat)

/-- The ping has 16 bits, the clock of the server is not behind, and the offset is a `double`; when
the difference of the clocks lies in the middle between two, its last digit is even. -/
structure Fits (timeStart timeEnd timeServer : UInt64) : Prop where
  ping : timeEnd.toNat - timeStart.toNat < 0x10000
  ahead : timeEnd ≤ timeServer
  float : IsFloat digits (twiceOffset timeStart timeEnd timeServer)
  even : Midpoint digits (timeServer.toNat - timeEnd.toNat) →
    ulp digits (twiceOffset timeStart timeEnd timeServer) =
      2 * ulp digits (timeServer.toNat - timeEnd.toNat) →
    twiceOffset timeStart timeEnd timeServer /
      ulp digits (twiceOffset timeStart timeEnd timeServer) % 2 = 0

namespace SampleArithmeticLemmas

variable {timeStart timeEnd timeServer : UInt64}

theorem toNat_samplePing (h : timeStart ≤ timeEnd) :
    (samplePing timeStart timeEnd).toNat = (timeEnd.toNat - timeStart.toNat) % 0x10000 := by
  unfold samplePing
  rw [UInt64.toNat_toUInt16, UInt64.toNat_sub_of_le _ _ h]

theorem ping_iff (h : timeStart ≤ timeEnd) :
    ((samplePing timeStart timeEnd).toNat : ℤ) = timeEnd.toNat - timeStart.toNat ↔
      timeEnd.toNat - timeStart.toNat < 0x10000 := by
  have hle := UInt64.le_iff_toNat_le.mp h
  rw [toNat_samplePing h]
  omega

/-- An offset in half milliseconds. -/
theorem offset_iff (h : timeStart ≤ timeEnd)
    (hping : timeEnd.toNat - timeStart.toNat < 0x10000) :
    sampleOffset timeStart timeEnd timeServer =
        (timeServer.toNat : ℚ) - timeEnd.toNat + ((timeEnd.toNat : ℚ) - timeStart.toNat) / 2 ↔
      (round digits (2 * round digits (timeServer - timeEnd).toNat +
        (timeEnd.toNat - timeStart.toNat)) : ℤ) =
        2 * (timeServer.toNat - timeEnd.toNat) + (timeEnd.toNat - timeStart.toNat) := by
  unfold sampleOffset
  rw [toNat_samplePing h, Nat.mod_eq_of_lt hping]
  generalize round digits (2 * round digits (timeServer - timeEnd).toNat +
    (timeEnd.toNat - timeStart.toNat)) = r
  rw [← Int.cast_inj (α := ℚ)]
  push_cast
  constructor
  · intro heq
    linarith
  · intro heq
    linarith

/-- The unsigned difference is too large when the clock of the server is behind. -/
theorem round_ne_of_behind (hping : timeEnd.toNat - timeStart.toNat < 0x10000)
    (hle : timeStart ≤ timeEnd) (hbehind : ¬ timeEnd ≤ timeServer) :
    (round digits (2 * round digits (timeServer - timeEnd).toNat +
        (timeEnd.toNat - timeStart.toNat)) : ℤ) ≠
      2 * (timeServer.toNat - timeEnd.toNat) + (timeEnd.toNat - timeStart.toNat) := by
  have hless : timeServer.toNat < timeEnd.toNat :=
    not_le.mp (mt UInt64.le_iff_toNat_le.mpr hbehind)
  have horder := UInt64.le_iff_toNat_le.mp hle
  have hround : timeEnd.toNat - timeStart.toNat ≤
      round digits (2 * round digits (timeServer - timeEnd).toNat +
        (timeEnd.toNat - timeStart.toNat)) :=
    le_round (by decide) (hping.trans (by decide)) (Nat.le_add_left _ _)
  omega

theorem round_iff (hle : timeStart ≤ timeEnd) (hahead : timeEnd ≤ timeServer) :
    (round digits (2 * round digits (timeServer - timeEnd).toNat +
        (timeEnd.toNat - timeStart.toNat)) : ℤ) =
        2 * (timeServer.toNat - timeEnd.toNat) + (timeEnd.toNat - timeStart.toNat) ↔
      IsFloat digits (twiceOffset timeStart timeEnd timeServer) ∧
        (Midpoint digits (timeServer.toNat - timeEnd.toNat) ∧
          ulp digits (twiceOffset timeStart timeEnd timeServer) =
            2 * ulp digits (timeServer.toNat - timeEnd.toNat) →
          twiceOffset timeStart timeEnd timeServer /
            ulp digits (twiceOffset timeStart timeEnd timeServer) % 2 = 0) := by
  have horder := UInt64.le_iff_toNat_le.mp hle
  have horder' := UInt64.le_iff_toNat_le.mp hahead
  have htwice := round_twice_iff (P := digits) (by decide) (timeServer.toNat - timeEnd.toNat)
    (timeEnd.toNat - timeStart.toNat)
  rw [UInt64.toNat_sub_of_le _ _ hahead]
  refine Iff.trans ?_ htwice
  omega

end SampleArithmeticLemmas

open SampleArithmeticLemmas

/-! ## Results -/

/-- Times that are less than `2 ^ 52` milliseconds apart. -/
theorem fits_of_small {timeStart timeEnd timeServer : UInt64}
    (hping : timeEnd.toNat - timeStart.toNat < 0x10000) (hahead : timeEnd ≤ timeServer)
    (hsmall : twiceOffset timeStart timeEnd timeServer < 2 ^ 53) :
    Fits timeStart timeEnd timeServer := by
  refine ⟨hping, hahead, isFloat_of_lt (by decide) hsmall, fun hmid => ?_⟩
  have hdifference : timeServer.toNat - timeEnd.toNat < 2 ^ 53 := by
    unfold twiceOffset at hsmall
    omega
  rw [Midpoint, ulp_of_lt (by decide) hdifference] at hmid
  omega

/-- For all times of a ping and all times of the server. -/
theorem exact_iff {timeStart timeEnd : UInt64} (h : timeStart ≤ timeEnd) (timeServer : UInt64) :
    Exact timeStart timeEnd timeServer ↔ Fits timeStart timeEnd timeServer := by
  constructor
  · rintro ⟨hping, hoffset⟩
    rw [ping_iff h] at hping
    rw [offset_iff h hping] at hoffset
    have hahead : timeEnd ≤ timeServer := by
      by_contra hbehind
      exact round_ne_of_behind hping h hbehind hoffset
    obtain ⟨hfloat, heven⟩ := (round_iff h hahead).mp hoffset
    exact ⟨hping, hahead, hfloat, fun hmid hulp => heven ⟨hmid, hulp⟩⟩
  · rintro ⟨hping, hahead, hfloat, heven⟩
    refine ⟨(ping_iff h).mpr hping, ?_⟩
    rw [offset_iff h hping, round_iff h hahead]
    exact ⟨hfloat, fun hmid => heven hmid.1 hmid.2⟩

/-- The largest ping that is recorded, with a server that is ahead by one second. -/
theorem exact_ping_65535 : Exact 100 65635 66635 :=
  (exact_iff (by decide) 66635).mpr (fits_of_small (by decide) (by decide) (by decide))

/-- The sample that `processResult` records is the one of the rational numbers. -/
theorem processResult_sample {timeStart timeEnd timeServer : UInt64}
    (hexact : Exact timeStart timeEnd timeServer) {s : SyncClock} {now : ℚ}
    (hend : s.watch.getElapsedTime now = timeEnd.toNat) :
    (s.processResult now timeStart.toNat timeServer.toNat).clockValues =
      pushValue s.clockValues (sample timeStart timeEnd timeServer) := by
  have hping : ((samplePing timeStart timeEnd).toNat : ℚ) = timeEnd.toNat - timeStart.toNat := by
    exact_mod_cast hexact.ping
  unfold SyncClock.processResult sample
  dsimp only
  rw [hend, hexact.offset, hping]

/-- A ping of 65536 ms is recorded as 0. -/
theorem long_ping_is_cut : ¬ ∀ timeStart timeEnd timeServer : UInt64, timeStart ≤ timeEnd →
    Exact timeStart timeEnd timeServer := by
  intro h
  have hping := (h 0 65536 65536 (by decide)).ping
  exact absurd hping (by decide)

/-- The clock of the server is one millisecond behind: the recorded offset is not negative. -/
theorem late_server_wraps : ¬ Exact 0 1 0 := by
  intro h
  have hoffset := (offset_iff (by decide) (by decide)).mp h.offset
  exact round_ne_of_behind (by decide) (by decide) (by decide) hoffset

end Stormancer.Clock
