import Mathlib.Data.List.DropRight
import Mathlib.Tactic.Linarith
import Stormancer.Clock.SyncClock
import Stormancer.Lib.Run

/-!
# The synchronised clock over an ideal network

The clock of the server is the local clock plus a constant `K`, and the answer to a ping takes as
long as the ping. A ping that starts at the instant `t` then gives a sample with the offset
`t + K` in the time of a watch that was reset at `t`. Every ping resets the watch, and the older
samples stay in the window with the offsets that they had.

Results:
1. `inv_reachable`: the samples of the window are those of the last pings.
2. `clock_exact_iff`: when the clock is that of the server, and when the start of a ping does not
   set it back.
3. `clock_behind`: two pings 100 ms apart.
-/

namespace Stormancer.Clock

/-! ## Definitions -/

/-- A ping that was answered. The two ways take `latency` each. -/
structure Ping where
  start : ℚ
  latency : ℚ
deriving DecidableEq

/-- A ping on its way: the instant at which it started, and what the watch showed then. -/
structure Flight where
  start : ℚ
  timeStart : ℚ
deriving DecidableEq

structure Network where
  now : ℚ
  syncClock : SyncClock
  flight : Option Flight
  answered : List Ping
deriving DecidableEq

def serverTime (K t : ℚ) : ℚ := t + K

namespace Network

/-- A clock that was constructed and started at the instant `t₀`. -/
def init (t₀ : ℚ) : Network where
  now := t₀
  syncClock := { SyncClock.init t₀ with isRunning := true }
  flight := none
  answered := []

inductive Action
  /-- One of the schedules runs `syncClockImplAsync`. -/
  | ping (t : ℚ)
  /-- The answer to the ping arrives. -/
  | answer (latency : ℚ)
deriving DecidableEq

def step (K : ℚ) (s : Network) : Action → Option Network
  | .ping t =>
    if s.now ≤ t then
      let (syncClock, timeStart) := s.syncClock.syncClockImplAsync t
      some { s with
        now := t
        syncClock := syncClock
        flight := (timeStart.map (Flight.mk t)).or s.flight }
    else none
  | .answer latency =>
    s.flight.bind fun f =>
      if 0 ≤ latency ∧ s.now ≤ f.start + 2 * latency then
        let now := f.start + 2 * latency
        some
          { now := now
            syncClock :=
              s.syncClock.processResult now f.timeStart (serverTime K (f.start + latency))
            flight := none
            answered := s.answered ++ [⟨f.start, latency⟩] }
      else none

/-- The pings whose samples are in the window. -/
def window (s : Network) : List Ping := s.answered.rtake maxValues

/-- The pings whose samples the filter keeps. -/
def keptPings (s : Network) : List Ping :=
  let latencies := (s.window.map Ping.latency).insertionSort (· ≤ ·)
  s.window.filter fun p =>
    belowLatencyMax (Samples.median latencies) (Samples.variance latencies) p.latency

/-- The sample of a ping. -/
def sample (K : ℚ) (p : Ping) : ClockValue := ⟨p.latency, p.start + K⟩

structure Inv (K : ℚ) (s : Network) : Prop where
  running : s.syncClock.isRunning = true
  baseTime : s.syncClock.watch.baseTime = 0
  startTime_le : s.syncClock.watch.startTime ≤ s.now
  flight_start : ∀ f, s.flight = some f →
    s.syncClock.lastPingFinished = false ∧ f.start = s.syncClock.watch.startTime ∧
      f.timeStart = 0
  samples : s.syncClock.clockValues = s.window.map (sample K)
  offset : s.answered ≠ [] → s.syncClock.offset = offsetsAvg s.syncClock.clockValues
  started : ∀ p ∈ s.answered, p.start ≤ s.syncClock.watch.startTime

/-! ## Helpers -/

namespace NetworkLemmas

variable {K t₀ : ℚ} {s s' : Network}

theorem rtake_push {α : Type*} (n : Nat) (xs : List α) (x : α) :
    (if n + 1 < (xs.rtake (n + 1) ++ [x]).length then (xs.rtake (n + 1) ++ [x]).drop 1
      else xs.rtake (n + 1) ++ [x]) = (xs ++ [x]).rtake (n + 1) := by
  unfold List.rtake
  rw [List.length_append, List.length_append, List.length_drop, List.length_singleton]
  rcases Nat.lt_or_ge n xs.length with hlt | hle
  · rw [if_pos (by omega), ← List.drop_append_of_le_length (by omega), List.drop_drop]
    congr 1
    omega
  · rw [if_neg (by omega), Nat.sub_eq_zero_of_le (by omega), Nat.sub_eq_zero_of_le (by omega)]
    rfl

theorem map_rtake {α β : Type*} (f : α → β) (n : Nat) (xs : List α) :
    (xs.rtake n).map f = (xs.map f).rtake n := by
  unfold List.rtake
  rw [List.map_drop, List.length_map]

theorem pushValue_window (hsamples : s.syncClock.clockValues = s.window.map (sample K))
    (p : Ping) : pushValue s.syncClock.clockValues (sample K p) =
      ((s.answered ++ [p]).rtake maxValues).map (sample K) := by
  rw [hsamples, window, map_rtake, map_rtake, List.map_append, List.map_singleton]
  exact rtake_push 23 _ _

/-! ### The steps -/

theorem syncClockImplAsync_cases {c c' : SyncClock} {now : ℚ} {timeStart : Option ℚ}
    (h : c.syncClockImplAsync now = (c', timeStart)) :
    (c' = c ∧ timeStart = none) ∨
      (c.isRunning = true ∧ c.lastPingFinished = true ∧
        c' = { c with lastPingFinished := false, watch := c.watch.reset now } ∧
        timeStart = some c.watch.baseTime) := by
  unfold SyncClock.syncClockImplAsync at h
  split at h
  · cases h
    exact .inl ⟨rfl, rfl⟩
  · next hpings =>
    rw [Bool.or_eq_true, Bool.not_eq_true', Bool.not_eq_true', not_or, Bool.not_eq_false,
      Bool.not_eq_false] at hpings
    cases h
    refine .inr ⟨hpings.1, hpings.2, rfl, ?_⟩
    rw [Watch.getElapsedTime, Watch.reset, sub_self, zero_add]

theorem ping_cases {t : ℚ} (h : step K s (.ping t) = some s') :
    s.now ≤ t ∧ s'.now = t ∧ s'.answered = s.answered ∧
      ((s'.syncClock = s.syncClock ∧ s'.flight = s.flight) ∨
        (s.syncClock.lastPingFinished = true ∧
          s'.syncClock = { s.syncClock with
            lastPingFinished := false, watch := s.syncClock.watch.reset t } ∧
          s'.flight = some ⟨t, s.syncClock.watch.baseTime⟩)) := by
  rw [step] at h
  split at h
  · next hle =>
    cases hpair : s.syncClock.syncClockImplAsync t with
    | mk c timeStart =>
      rw [hpair] at h
      cases h
      refine ⟨hle, rfl, rfl, ?_⟩
      rcases syncClockImplAsync_cases hpair with ⟨rfl, rfl⟩ | ⟨-, hfinished, rfl, rfl⟩
      · exact .inl ⟨rfl, rfl⟩
      · exact .inr ⟨hfinished, rfl, rfl⟩
  · cases h

theorem answer_cases {latency : ℚ} (h : step K s (.answer latency) = some s') :
    ∃ f, s.flight = some f ∧ s.now ≤ f.start + 2 * latency ∧
      s' = { now := f.start + 2 * latency
             syncClock := s.syncClock.processResult (f.start + 2 * latency) f.timeStart
               (serverTime K (f.start + latency))
             flight := none
             answered := s.answered ++ [⟨f.start, latency⟩] } := by
  rw [step] at h
  obtain ⟨f, hf, hanswer⟩ := Option.bind_eq_some_iff.mp h
  split at hanswer
  · next hle =>
    cases hanswer
    exact ⟨f, hf, hle.2, rfl⟩
  · cases hanswer

theorem inv_init : Inv K (init t₀) where
  running := rfl
  baseTime := rfl
  startTime_le := le_rfl
  flight_start := fun f hf => absurd hf (Option.some_ne_none f).symm
  samples := rfl
  offset := fun hne => absurd rfl hne
  started := fun _ hp => absurd hp List.not_mem_nil

/-- A ping resets the watch. The samples keep the offsets of their own pings. -/
theorem inv_ping {t : ℚ} (h : Inv K s) (hs : step K s (.ping t) = some s') : Inv K s' := by
  obtain ⟨hle, hnow, hanswered, ⟨hclock, hflight⟩ | ⟨hfinished, hclock, hflight⟩⟩ :=
    ping_cases hs
  · constructor
    case running => rw [hclock]; exact h.running
    case baseTime => rw [hclock]; exact h.baseTime
    case startTime_le => rw [hclock, hnow]; exact h.startTime_le.trans hle
    case flight_start => rw [hclock, hflight]; exact h.flight_start
    case samples => rw [hclock, window, hanswered]; exact h.samples
    case offset => rw [hclock, hanswered]; exact h.offset
    case started => rw [hclock, hanswered]; exact h.started
  · constructor
    case running => rw [hclock]; exact h.running
    case baseTime => rw [hclock]; exact h.baseTime
    case startTime_le => rw [hclock, hnow]; exact le_rfl
    case flight_start =>
      intro f hf
      rw [hflight] at hf
      cases hf
      rw [hclock]
      exact ⟨rfl, rfl, h.baseTime⟩
    case samples => rw [hclock, window, hanswered]; exact h.samples
    case offset => rw [hclock, hanswered]; exact h.offset
    case started =>
      intro p hp
      rw [hanswered] at hp
      rw [hclock]
      exact ((h.started p hp).trans h.startTime_le).trans hle

/-- The result of the ping on its way is the sample of this ping. -/
theorem processResult_flight (h : Inv K s) {f : Flight} (hf : s.flight = some f) (latency : ℚ) :
    (s.syncClock.processResult (f.start + 2 * latency) f.timeStart
      (serverTime K (f.start + latency))).clockValues =
      pushValue s.syncClock.clockValues (sample K ⟨f.start, latency⟩) := by
  obtain ⟨-, hstart, htime⟩ := h.flight_start f hf
  have helapsed : s.syncClock.watch.getElapsedTime (f.start + 2 * latency) = 2 * latency := by
    rw [Watch.getElapsedTime, h.baseTime, ← hstart]
    ring
  have hlatency : (2 * latency - 0) / 2 = latency := by ring
  have hoffset : f.start + latency + K - 2 * latency + latency = f.start + K := by ring
  simp only [SyncClock.processResult, helapsed, htime, hlatency, serverTime, hoffset, sample]

theorem inv_answer {latency : ℚ} (h : Inv K s) (hs : step K s (.answer latency) = some s') :
    Inv K s' := by
  obtain ⟨f, hf, hle, rfl⟩ := answer_cases hs
  constructor
  case running => exact h.running
  case baseTime => exact h.baseTime
  case startTime_le => exact h.startTime_le.trans hle
  case flight_start => exact fun f' hf' => absurd hf' (Option.some_ne_none f').symm
  case samples => exact (processResult_flight h hf latency).trans (pushValue_window h.samples _)
  case offset => exact fun _ => rfl
  case started =>
    rw [List.forall_mem_append, List.forall_mem_singleton]
    exact ⟨h.started, (h.flight_start f hf).2.1.le⟩

end NetworkLemmas

open NetworkLemmas

variable {K t₀ : ℚ} {s : Network}

/-! ## Results -/

theorem inv_reachable (h : Lts.Reachable (step K) Lts.anyStep (init t₀) s) : Inv K s := by
  refine h.invariant inv_init fun s a s' hinv _ hs => ?_
  cases a with
  | ping t => exact inv_ping hinv hs
  | answer latency => exact inv_answer hinv hs

namespace NetworkLemmas

/-- The kept samples are those of the kept pings. -/
theorem keptValues_eq (h : Inv K s) :
    keptValues s.syncClock.clockValues = s.keptPings.map (sample K) := by
  have hlatencies : latencies (s.window.map (sample K)) =
      (s.window.map Ping.latency).insertionSort (· ≤ ·) := by
    rw [latencies, List.map_map]
    rfl
  rw [h.samples, keptValues, hlatencies, List.filter_map]
  rfl

theorem started_of_kept (h : Inv K s) {p : Ping} (hp : p ∈ s.keptPings) :
    p.start ≤ s.syncClock.watch.startTime :=
  h.started p (List.mem_of_mem_drop (List.mem_of_mem_filter hp))

/-- The offset is the mean of the starts of the kept pings, in the time of the server. -/
theorem offset_eq (h : Inv K s) (hkept : 0 < lenOffsets s.syncClock.clockValues) :
    s.keptPings.map Ping.start ≠ [] ∧
      s.syncClock.offset = some (Samples.mean (s.keptPings.map Ping.start) + K) := by
  have hvalues := keptValues_eq h
  have hne : s.keptPings ≠ [] := by
    intro hnil
    rw [lenOffsets, hvalues, hnil] at hkept
    exact Nat.lt_irrefl 0 hkept
  have hstarts : s.keptPings.map Ping.start ≠ [] := by
    rw [Ne, List.map_eq_nil_iff]
    exact hne
  have hanswered : s.answered ≠ [] := by
    obtain ⟨p, hp⟩ := List.exists_mem_of_ne_nil _ hne
    exact List.ne_nil_of_mem (List.mem_of_mem_drop (List.mem_of_mem_filter hp))
  refine ⟨hstarts, ?_⟩
  rw [h.offset hanswered, SyncClockLemmas.offsetsAvg_of_pos hkept, hvalues, List.map_map,
    ← Samples.mean_map_add hstarts, List.map_map]
  rfl

end NetworkLemmas

/-- With a kept sample, `clock` is the time of the server exactly when each kept ping started
when the watch was reset last, and the start of a ping does not set the clock back exactly when
the watch was reset at the same instant. -/
theorem clock_exact_iff (h : Lts.Reachable (step K) Lts.anyStep (init t₀) s)
    (hkept : 0 < lenOffsets s.syncClock.clockValues) {t : ℚ} (ht : s.now ≤ t) :
    (s.syncClock.clock t = some (serverTime K t) ↔
      ∀ p ∈ s.keptPings, p.start = s.syncClock.watch.startTime) ∧
    ∀ c timeStart, s.syncClock.syncClockImplAsync t = (c, some timeStart) →
      ((∀ before after, s.syncClock.clock t = some before → c.clock t = some after →
        before ≤ after) ↔ t = s.syncClock.watch.startTime) := by
  have hinv := inv_reachable h
  obtain ⟨hne, hoffset⟩ := offset_eq hinv hkept
  have hclock : s.syncClock.clock t = some (t - s.syncClock.watch.startTime +
      (Samples.mean (s.keptPings.map Ping.start) + K)) := by
    rw [SyncClock.clock, hoffset, Watch.getElapsedTime, hinv.baseTime, add_zero]
    rfl
  constructor
  · have hmean : s.syncClock.clock t = some (serverTime K t) ↔
        Samples.mean (s.keptPings.map Ping.start) = s.syncClock.watch.startTime := by
      rw [hclock, serverTime, Option.some.injEq]
      constructor <;> intro heq <;> linarith
    have hle : ∀ x ∈ s.keptPings.map Ping.start, x ≤ s.syncClock.watch.startTime := by
      rw [List.forall_mem_map]
      exact fun p hp => started_of_kept hinv hp
    rw [hmean, Samples.mean_eq_iff_of_le hne hle, List.forall_mem_map]
  · intro c timeStart hping
    rcases syncClockImplAsync_cases hping with ⟨-, hnone⟩ | ⟨-, -, rfl, -⟩
    · cases hnone
    -- The offset stays, and the watch shows 0 again.
    have hafter : SyncClock.clock { s.syncClock with
        lastPingFinished := false, watch := s.syncClock.watch.reset t } t =
        some (Samples.mean (s.keptPings.map Ping.start) + K) := by
      rw [SyncClock.clock, hoffset, Watch.getElapsedTime, Watch.reset, hinv.baseTime, sub_self,
        zero_add, Option.map_some, zero_add]
    have hstart := hinv.startTime_le
    rw [hclock, hafter]
    constructor
    · intro hmono
      have hjump := hmono _ _ rfl rfl
      linarith
    · rintro rfl before after hbefore hafter
      cases hbefore
      cases hafter
      linarith

/-- Two pings that start 100 ms apart, with latencies of 10 ms and 20 ms. -/
def twoPings : List Action := [.ping 0, .answer 10, .ping 100, .answer 20]

theorem clock_exact_iff_twoPings :
    ∃ s : Network, (s.syncClock.clock 200 = some (serverTime 1000 200) ↔
        ∀ p ∈ s.keptPings, p.start = s.syncClock.watch.startTime) ∧
      ∀ c timeStart, s.syncClock.syncClockImplAsync 200 = (c, some timeStart) →
        ((∀ before after, s.syncClock.clock 200 = some before → c.clock 200 = some after →
          before ≤ after) ↔ 200 = s.syncClock.watch.startTime) := by
  obtain ⟨s, hs, hp⟩ := Lts.Reachable.of_exec (step 1000) Lts.anyStep (init 0) twoPings
    (fun s => decide (0 < lenOffsets s.syncClock.clockValues) && decide (s.now ≤ 200))
    (by decide +kernel)
  rw [Bool.and_eq_true, decide_eq_true_eq, decide_eq_true_eq] at hp
  exact ⟨s, clock_exact_iff hs hp.1 hp.2⟩

/-- After two pings the clock is behind the server, and the third one sets it back. -/
theorem clock_behind :
    (¬ ∀ (K t₀ : ℚ) (s : Network), Lts.Reachable (step K) Lts.anyStep (init t₀) s →
      0 < lenOffsets s.syncClock.clockValues → ∀ t, s.now ≤ t →
        s.syncClock.clock t = some (serverTime K t)) ∧
    ¬ ∀ (K t₀ : ℚ) (s : Network), Lts.Reachable (step K) Lts.anyStep (init t₀) s →
      0 < lenOffsets s.syncClock.clockValues → ∀ t, s.now ≤ t → ∀ c timeStart,
        s.syncClock.syncClockImplAsync t = (c, some timeStart) → ∀ before after,
          s.syncClock.clock t = some before → c.clock t = some after → before ≤ after := by
  constructor
  · intro hclaim
    obtain ⟨s, hs, hp⟩ := Lts.Reachable.of_exec (step 1000) Lts.anyStep (init 0) twoPings
      (fun s => decide (0 < lenOffsets s.syncClock.clockValues) && decide (s.now ≤ 200) &&
        decide (s.syncClock.clock 200 = some 1150)) (by decide +kernel)
    simp only [Bool.and_eq_true, decide_eq_true_eq] at hp
    have hclock := hclaim 1000 0 s hs hp.1.1 200 hp.1.2
    rw [hp.2] at hclock
    exact absurd hclock (by decide +kernel)
  · intro hclaim
    obtain ⟨s, hs, hp⟩ := Lts.Reachable.of_exec (step 1000) Lts.anyStep (init 0) twoPings
      (fun s => decide (0 < lenOffsets s.syncClock.clockValues) && decide (s.now ≤ 200) &&
        decide (s.syncClock.clock 200 = some 1150) &&
        decide ((s.syncClock.syncClockImplAsync 200).2 = some 0) &&
        decide ((s.syncClock.syncClockImplAsync 200).1.clock 200 = some 1050))
      (by decide +kernel)
    simp only [Bool.and_eq_true, decide_eq_true_eq] at hp
    obtain ⟨⟨⟨⟨hkept, hnow⟩, hbefore⟩, htime⟩, hafter⟩ := hp
    have hpair : s.syncClock.syncClockImplAsync 200 =
        ((s.syncClock.syncClockImplAsync 200).1, some 0) := by rw [← htime]
    have hle := hclaim 1000 0 s hs hkept 200 hnow _ _ hpair _ _ hbefore hafter
    exact absurd hle (by decide +kernel)

end Network

end Stormancer.Clock
