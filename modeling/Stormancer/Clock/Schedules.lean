import Stormancer.Clock.SyncClock
import Stormancer.Lib.Run

/-!
# The schedules of `SyncClock`

`start` schedules the periodic pings and the faster pings at start under one token, which is
linked to the token that `start` was given; the cancellation of this token calls `stop`.
`periodicFunc` runs the work of its entry unless the token is canceled, and schedules the entry
again unless the work throws. The timer runs the entries as tasks of their own, which lock the
clock: a run of an entry is one step.

Results:
1. `step_keeps_iff`: which steps keep the periodic pings scheduled.
2. `periodic_kept`: they stay scheduled over every run of such steps, and over no other.
3. `full_window_stops`: a fast ping that finds the window full ends all of them.
-/

namespace Stormancer.Clock

/-! ## Definitions -/

/-- The schedules of one call of `start`. -/
structure Session where
  /-- The token that `start` was given is canceled. -/
  ctCanceled : Bool
  /-- The token of the linked source is canceled. -/
  ctsCanceled : Bool
  /-- The timer has the entry of the periodic pings. -/
  periodic : Bool
  /-- The timer has the entry of the pings at start. -/
  fast : Bool
deriving DecidableEq

structure Schedules where
  syncClock : SyncClock
  interval : Int
  /-- The `timeStart` of the ping on its way. -/
  flight : Option ℚ
  session : Option Session
  destroyed : Bool
deriving DecidableEq

namespace SyncClock

/-- `stop`. `none`: it throws, as the clock is not started. -/
def stop (s : SyncClock) : Option SyncClock :=
  if s.isRunning then some { s with isRunning := false } else none

end SyncClock

namespace Schedules

/-- The constructor. -/
def init (now : ℚ) (interval : Int) : Schedules where
  syncClock := SyncClock.init now
  interval := interval
  flight := none
  session := none
  destroyed := false

inductive Action
  | start (connected ctCanceled : Bool)
  /-- The timer runs the entry of the periodic pings. A ping that it starts is sent, or
  `syncClockImplAsync` throws, as the connection is gone or does not take the request. -/
  | periodicTick (now : ℚ) (sent : Bool)
  | fastTick (now : ℚ) (sent : Bool)
  | result (now timeServer : ℚ)
  | resultFails
  | cancel
  | destroy
deriving DecidableEq

/-- The cancellation of the linked source, and whether its callback throws. -/
def cancelSource (s : Schedules) (x : Session) : Schedules × Bool :=
  if x.ctsCanceled then ({ s with session := some x }, false)
  else
    let s := { s with session := some { x with ctsCanceled := true } }
    match s.syncClock.stop with
    | some syncClock => ({ s with syncClock := syncClock }, false)
    | none => (s, true)

/-- `syncClockImplAsync` with its request, and whether it throws. -/
def ping (s : Schedules) (now : ℚ) (sent : Bool) : Schedules × Bool :=
  let (syncClock, timeStart) := s.syncClock.syncClockImplAsync now
  match timeStart with
  | none => ({ s with syncClock := syncClock }, false)
  | some timeStart =>
    if sent then ({ s with syncClock := syncClock, flight := some timeStart }, false)
    else ({ s with syncClock := syncClock }, true)

def start (s : Schedules) (connected ctCanceled : Bool) : Schedules :=
  if s.syncClock.isRunning then s
  else
    let s := { s with syncClock := { s.syncClock with isRunning := true } }
    -- `start` throws without a connection, and `schedulePeriodic` without a positive delay.
    if !connected || decide (s.interval ≤ 0) then s
    else
      let s := { s with session := some ⟨ctCanceled, ctCanceled, true, true⟩ }
      -- The callback of a token that is canceled already runs at once.
      if ctCanceled then { s with syncClock := { s.syncClock with isRunning := false } } else s

/-- `periodicFunc` with the work of the periodic pings. -/
def periodicTick (s : Schedules) (x : Session) (now : ℚ) (sent : Bool) : Schedules :=
  if x.ctsCanceled then { s with session := some { x with periodic := false } }
  else
    let ping := s.ping now sent
    { ping.1 with session := some { x with periodic := !ping.2 } }

/-- `periodicFunc` with the work of the pings at start. -/
def fastTick (s : Schedules) (x : Session) (now : ℚ) (sent : Bool) : Schedules :=
  if x.ctsCanceled then { s with session := some { x with fast := false } }
  else if maxValues ≤ s.syncClock.clockValues.length then
    let cancel := s.cancelSource x
    { cancel.1 with session := cancel.1.session.map fun x => { x with fast := !cancel.2 } }
  else
    let ping := s.ping now sent
    { ping.1 with session := some { x with fast := !ping.2 } }

def step (s : Schedules) (a : Action) : Option Schedules :=
  if s.destroyed then none
  else
    match a with
    | .start connected ctCanceled => some (s.start connected ctCanceled)
    | .periodicTick now sent =>
      s.session.bind fun x => if x.periodic then some (s.periodicTick x now sent) else none
    | .fastTick now sent =>
      s.session.bind fun x => if x.fast then some (s.fastTick x now sent) else none
    | .result now timeServer =>
      s.flight.map fun timeStart =>
        { s with
          syncClock := s.syncClock.processResult now timeStart timeServer
          flight := none }
    | .resultFails => s.flight.map fun _ => { s with flight := none }
    | .cancel =>
      s.session.bind fun x =>
        if x.ctCanceled then none else some (s.cancelSource { x with ctCanceled := true }).1
    | .destroy =>
      some { s with syncClock := s.syncClock.stop.getD s.syncClock, destroyed := true }

/-! ## Specification -/

/-- Until the token of `start` is canceled or the clock is destroyed, the clock is running and
the periodic pings are scheduled under a token that is not canceled. -/
def PeriodicKept (s : Schedules) : Prop :=
  ∀ x, s.session = some x → x.ctCanceled = false → s.destroyed = false →
    s.syncClock.isRunning = true ∧ x.periodic = true ∧ x.ctsCanceled = false

/-- The condition on the pings: one at start does not find the window full, and a periodic one
that starts is sent. -/
def KeepsPeriodic (s : Schedules) (a : Action) : Prop :=
  ∀ x, s.session = some x → x.ctCanceled = false →
    match a with
    | .fastTick _ _ => s.syncClock.clockValues.length < maxValues
    | .periodicTick _ sent => sent = true ∨ s.syncClock.lastPingFinished = false
    | _ => True

/-! ## Helpers -/

namespace SchedulesLemmas

variable {s s' : Schedules} {x : Session}

theorem periodicKept_iff (h : s.session = some x) (hlive : s.destroyed = false) :
    s.PeriodicKept ↔ (x.ctCanceled = false →
      s.syncClock.isRunning = true ∧ x.periodic = true ∧ x.ctsCanceled = false) := by
  constructor
  · exact fun hkept hct => hkept x h hct hlive
  · intro hx y hy hct _
    rw [h] at hy
    cases hy
    exact hx hct

theorem keepsPeriodic_fast (h : s.session = some x) {now : ℚ} {sent : Bool} :
    s.KeepsPeriodic (.fastTick now sent) ↔
      (x.ctCanceled = false → s.syncClock.clockValues.length < maxValues) := by
  constructor
  · exact fun hkeeps hct => hkeeps x h hct
  · intro hx y hy hct
    rw [h] at hy
    cases hy
    exact hx hct

theorem keepsPeriodic_periodic (h : s.session = some x) {now : ℚ} {sent : Bool} :
    s.KeepsPeriodic (.periodicTick now sent) ↔
      (x.ctCanceled = false → sent = true ∨ s.syncClock.lastPingFinished = false) := by
  constructor
  · exact fun hkeeps hct => hkeeps x h hct
  · intro hx y hy hct
    rw [h] at hy
    cases hy
    exact hx hct

/-- A ping throws when it starts and is not sent. -/
theorem ping_spec (s : Schedules) (now : ℚ) (sent : Bool) :
    (s.ping now sent).1.session = s.session ∧
      (s.ping now sent).1.destroyed = s.destroyed ∧
      (s.ping now sent).1.syncClock.isRunning = s.syncClock.isRunning ∧
      ((s.ping now sent).2 = true ↔ sent = false ∧ s.syncClock.isRunning = true ∧
        s.syncClock.lastPingFinished = true) := by
  unfold ping SyncClock.syncClockImplAsync
  cases hrunning : s.syncClock.isRunning <;> cases hfinished : s.syncClock.lastPingFinished <;>
    cases sent <;> simp [hrunning]

theorem cancelSource_spec (s : Schedules) (x : Session) :
    (s.cancelSource x).1.session = some { x with ctsCanceled := true } ∧
      (s.cancelSource x).1.destroyed = s.destroyed := by
  unfold cancelSource
  split
  · next hcts =>
    refine ⟨congrArg some ?_, rfl⟩
    rw [← hcts]
  · dsimp only
    cases s.syncClock.stop <;> exact ⟨rfl, rfl⟩

/-- A session whose linked source is canceled was canceled itself. -/
theorem canceled_of_kept (hkept : s.PeriodicKept) (h : s.session = some x)
    (hlive : s.destroyed = false) (hcts : x.ctsCanceled = true) : x.ctCanceled = true := by
  cases hct : x.ctCanceled with
  | true => rfl
  | false =>
    have hnot := (hkept x h hct hlive).2.2
    rw [hcts] at hnot
    exact absurd hnot Bool.true_eq_false.mp

theorem vacuous_iff {P Q : Prop} {b : Bool} (hb : b = true) :
    (b = false → P) ↔ (b = false → Q) := by
  subst hb
  exact ⟨fun _ h => Bool.noConfusion h, fun _ h => Bool.noConfusion h⟩

/-! ### The steps -/

theorem live_of_step {a : Action} (hs : step s a = some s') : s.destroyed = false := by
  cases hlive : s.destroyed with
  | false => rfl
  | true =>
    unfold step at hs
    rw [hlive, if_pos rfl] at hs
    cases hs

theorem kept_start (hkept : s.PeriodicKept) (hlive : s.destroyed = false)
    (connected ctCanceled : Bool) : (s.start connected ctCanceled).PeriodicKept := by
  cases hrunning : s.syncClock.isRunning with
  | true =>
    rw [start, hrunning, if_pos rfl]
    exact hkept
  | false =>
    rw [start, hrunning, if_neg Bool.false_ne_true]
    dsimp only
    split
    · -- Nothing is scheduled. The session before, if there was one, has ended.
      intro x hx hct _
      have hbefore := (hkept x hx hct hlive).1
      rw [hrunning] at hbefore
      cases hbefore
    · intro x hx hct _
      cases ctCanceled with
      | true =>
        cases hx
        cases hct
      | false =>
        cases hx
        exact ⟨rfl, rfl, rfl⟩

theorem periodicTick_iff (hkept : s.PeriodicKept) (h : s.session = some x)
    (hlive : s.destroyed = false) (now : ℚ) (sent : Bool) :
    (s.periodicTick x now sent).PeriodicKept ↔ s.KeepsPeriodic (.periodicTick now sent) := by
  rw [keepsPeriodic_periodic h, periodicTick]
  split
  · next hcts =>
    have hct := canceled_of_kept hkept h hlive hcts
    exact Iff.trans (periodicKept_iff rfl hlive) (vacuous_iff hct)
  · next hcts =>
    obtain ⟨-, hdestroyed, hrunning, hthrows⟩ := ping_spec s now sent
    refine Iff.trans (periodicKept_iff rfl (hdestroyed.trans hlive)) (forall_congr' fun hct => ?_)
    have hbefore := (hkept x h hct hlive).1
    show (s.ping now sent).1.syncClock.isRunning = true ∧ (!(s.ping now sent).2) = true ∧
      x.ctsCanceled = false ↔ _
    rw [hrunning, hbefore, Bool.not_eq_true', ← Bool.not_eq_true, hthrows, hbefore]
    cases sent <;> cases s.syncClock.lastPingFinished <;> simp [hcts]

theorem fastTick_iff (hkept : s.PeriodicKept) (h : s.session = some x)
    (hlive : s.destroyed = false) (now : ℚ) (sent : Bool) :
    (s.fastTick x now sent).PeriodicKept ↔ s.KeepsPeriodic (.fastTick now sent) := by
  rw [keepsPeriodic_fast h, fastTick]
  split
  · next hcts =>
    have hct := canceled_of_kept hkept h hlive hcts
    exact Iff.trans (periodicKept_iff rfl hlive) (vacuous_iff hct)
  · split
    · next hfull =>
      obtain ⟨hsession, hdestroyed⟩ := cancelSource_spec s x
      refine Iff.trans (periodicKept_iff (congrArg (Option.map _) hsession)
        (hdestroyed.trans hlive)) (forall_congr' fun hct => ?_)
      exact iff_of_false (fun hnot => Bool.noConfusion hnot.2.2) (Nat.not_lt.mpr hfull)
    · next hroom =>
      obtain ⟨-, hdestroyed, hrunning, -⟩ := ping_spec s now sent
      refine Iff.trans (periodicKept_iff rfl (hdestroyed.trans hlive))
        (forall_congr' fun hct => ?_)
      have hbefore := hkept x h hct hlive
      exact iff_of_true ⟨hrunning.trans hbefore.1, hbefore.2⟩ (Nat.not_le.mp hroom)

theorem kept_cancel (hlive : s.destroyed = false) (x : Session) :
    (s.cancelSource { x with ctCanceled := true }).1.PeriodicKept := by
  obtain ⟨hsession, hdestroyed⟩ := cancelSource_spec s { x with ctCanceled := true }
  rw [periodicKept_iff hsession (hdestroyed.trans hlive)]
  exact fun hct => Bool.noConfusion hct

end SchedulesLemmas

open SchedulesLemmas

variable {s s' : Schedules}

/-! ## Results -/

/-- The pings stay scheduled in a step exactly when it meets the condition. -/
theorem step_keeps_iff {a : Action} (hkept : s.PeriodicKept) (hs : step s a = some s') :
    s'.PeriodicKept ↔ s.KeepsPeriodic a := by
  have hlive := live_of_step hs
  unfold step at hs
  rw [hlive, if_neg Bool.false_ne_true] at hs
  cases a with
  | start connected ctCanceled =>
    cases hs
    exact iff_of_true (kept_start hkept hlive connected ctCanceled) fun _ _ _ => trivial
  | periodicTick now sent =>
    obtain ⟨x, hx, htick⟩ := Option.bind_eq_some_iff.mp hs
    split at htick
    · cases htick
      exact periodicTick_iff hkept hx hlive now sent
    · cases htick
  | fastTick now sent =>
    obtain ⟨x, hx, htick⟩ := Option.bind_eq_some_iff.mp hs
    split at htick
    · cases htick
      exact fastTick_iff hkept hx hlive now sent
    · cases htick
  | result now timeServer =>
    obtain ⟨timeStart, -, rfl⟩ := Option.map_eq_some_iff.mp hs
    exact iff_of_true (fun x hx hct _ => hkept x hx hct hlive) fun _ _ _ => trivial
  | resultFails =>
    obtain ⟨timeStart, -, rfl⟩ := Option.map_eq_some_iff.mp hs
    exact iff_of_true (fun x hx hct _ => hkept x hx hct hlive) fun _ _ _ => trivial
  | cancel =>
    obtain ⟨x, hx, hcancel⟩ := Option.bind_eq_some_iff.mp hs
    split at hcancel
    · cases hcancel
    · cases hcancel
      exact iff_of_true (kept_cancel hlive x) fun _ _ _ => trivial
  | destroy =>
    cases hs
    exact iff_of_true (fun _ _ _ hdestroyed => Bool.noConfusion hdestroyed)
      fun _ _ _ => trivial

theorem kept_init (now : ℚ) (interval : Int) : (init now interval).PeriodicKept :=
  fun _ hx => absurd hx.symm (Option.some_ne_none _)

/-- Over every run whose steps meet the condition, the periodic pings stay scheduled and the
clock is running; the first step that does not meet it ends them. -/
theorem periodic_kept {now : ℚ} {interval : Int}
    (h : Lts.Reachable step KeepsPeriodic (init now interval) s) :
    s.PeriodicKept ∧ ∀ a s', step s a = some s' → (s'.PeriodicKept ↔ s.KeepsPeriodic a) := by
  have hkept : s.PeriodicKept := by
    refine h.invariant (kept_init now interval) fun s a s' hkept hkeeps hs => ?_
    exact (step_keeps_iff hkept hs).mpr hkeeps
  exact ⟨hkept, fun _ _ hs => step_keeps_iff hkept hs⟩

theorem periodic_kept_first_ping :
    ∃ s : Schedules, s.flight = some 0 ∧
      (s.PeriodicKept ∧ ∀ a s', step s a = some s' → (s'.PeriodicKept ↔ s.KeepsPeriodic a)) := by
  have hinit : Lts.Reachable step KeepsPeriodic (init 0 5000) (init 0 5000) :=
    Lts.Reachable.start
  have hstart := hinit.next (a := .start true false) (fun _ _ _ => trivial) rfl
  have hping := hstart.next (a := .fastTick 0 true) (fun _ _ _ => by decide) rfl
  exact ⟨_, by decide +kernel, periodic_kept hping⟩

/-- The pings at start that fill the window, and the next one. -/
def fullWindow : List Action :=
  .start true false ::
    (List.replicate maxValues [.fastTick 0 true, .result 10 1000]).flatten ++ [.fastTick 10 true]

/-- The token is not canceled, and the clock stops. -/
theorem full_window_stops :
    ¬ ∀ now interval s, Lts.Reachable step Lts.anyStep (init now interval) s →
      s.PeriodicKept := by
  intro hclaim
  obtain ⟨s, hs, hp⟩ := Lts.Reachable.of_exec step Lts.anyStep (init 0 5000) fullWindow
    (fun s => s.session.any (fun x => !x.ctCanceled) && !s.destroyed && !s.syncClock.isRunning)
    (by decide +kernel)
  simp only [Bool.and_eq_true, Bool.not_eq_true', Option.any_eq_true] at hp
  obtain ⟨⟨⟨x, hx, hct⟩, hlive⟩, hstopped⟩ := hp
  have hrunning := (hclaim 0 5000 s hs x hx hct hlive).1
  rw [hstopped] at hrunning
  cases hrunning

end Schedules

end Stormancer.Clock
