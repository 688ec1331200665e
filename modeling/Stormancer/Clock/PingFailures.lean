import Stormancer.Clock.Schedules

/-!
# Pings that fail

`syncClockImplAsync` clears `_lastPingFinished`, and does nothing as long as it is cleared. Only
`processResult` sets it again. A ping whose request cannot be sent, or whose task fails or is
canceled, leaves it cleared.

Results:
1. `effect_of_step`: what a step may do to the ping on its way and to the flag.
2. `pingFinished_iff`: after a run the next ping can start, or one is on its way, exactly when no
   ping of the run failed.
3. `failed_ping_stops`: one ping that fails.
-/

namespace Stormancer.Clock.Schedules

/-! ## Definitions -/

/-- When no ping is on its way, the next scheduled one is sent. -/
def PingFinished (s : Schedules) : Prop :=
  s.flight = none → s.syncClock.lastPingFinished = true

/-- The timer runs an entry whose work starts a ping. -/
def startsPing (s : Schedules) : Action → Bool
  | .periodicTick _ _ =>
    s.session.any (fun x => !x.ctsCanceled) && s.syncClock.isRunning &&
      s.syncClock.lastPingFinished
  | .fastTick _ _ =>
    s.session.any (fun x => !x.ctsCanceled) && s.syncClock.isRunning &&
      s.syncClock.lastPingFinished && decide (s.syncClock.clockValues.length < maxValues)
  | _ => false

/-- No ping fails in the step: one that it starts is sent, and one on its way gets a result. -/
def pingSucceeds (s : Schedules) (a : Action) : Bool :=
  match a with
  | .periodicTick _ sent | .fastTick _ sent => sent || !s.startsPing a
  | .resultFails => false
  | _ => true

abbrev PingSucceeds (s : Schedules) (a : Action) : Prop := s.pingSucceeds a = true

/-- Either a ping is on its way or the last one has finished. -/
def InTurn (s : Schedules) : Prop := s.flight = none ↔ s.syncClock.lastPingFinished = true

/-- No ping is on its way, and none will ever start. -/
structure Stopped (s : Schedules) : Prop where
  flight : s.flight = none
  flag : s.syncClock.lastPingFinished = false

/-- What a step does to the ping on its way and to the flag. -/
inductive Effect (s : Schedules) (a : Action) (s' : Schedules) : Prop
  | same : s.PingSucceeds a → s'.flight = s.flight →
      s'.syncClock.lastPingFinished = s.syncClock.lastPingFinished → Effect s a s'
  | sends : s.PingSucceeds a → s.syncClock.lastPingFinished = true → s'.flight ≠ none →
      s'.syncClock.lastPingFinished = false → Effect s a s'
  | throws : ¬ s.PingSucceeds a → s.syncClock.lastPingFinished = true → s'.flight = s.flight →
      s'.syncClock.lastPingFinished = false → Effect s a s'
  | result : s.PingSucceeds a → s.flight ≠ none → s'.flight = none →
      s'.syncClock.lastPingFinished = true → Effect s a s'
  | fails : ¬ s.PingSucceeds a → s.flight ≠ none → s'.flight = none →
      s'.syncClock.lastPingFinished = s.syncClock.lastPingFinished → Effect s a s'

/-! ## Helpers -/

namespace PingFailuresLemmas

variable {s s' : Schedules} {x : Session} {a : Action}

/-- `syncClockImplAsync` starts a ping when the clock is running and the last one has finished. -/
theorem ping_eq (s : Schedules) (now : ℚ) (sent : Bool) :
    if s.syncClock.isRunning && s.syncClock.lastPingFinished then
      (s.ping now sent).1.syncClock.lastPingFinished = false ∧
        if sent then (s.ping now sent).1.flight ≠ none
        else (s.ping now sent).1.flight = s.flight
    else (s.ping now sent).1 = s := by
  unfold ping SyncClock.syncClockImplAsync
  cases s.syncClock.isRunning <;> cases s.syncClock.lastPingFinished <;> cases sent <;> simp

/-- The work of an entry, when the entry runs it. -/
theorem effect_of_ping {now : ℚ} {sent : Bool} {session : Option Session}
    (ha : s.pingSucceeds a = (sent || !s.startsPing a))
    (hstarts : s.startsPing a = (s.syncClock.isRunning && s.syncClock.lastPingFinished)) :
    Effect s a { (s.ping now sent).1 with session := session } := by
  have hping := ping_eq s now sent
  rw [← hstarts] at hping
  cases hstarted : s.startsPing a with
  | false =>
    rw [hstarted, if_neg Bool.false_ne_true] at hping
    rw [hping]
    exact .same (by rw [PingSucceeds, ha, hstarted, Bool.not_false, Bool.or_true]) rfl rfl
  | true =>
    rw [hstarted, if_pos rfl] at hping
    rw [hstarts, Bool.and_eq_true] at hstarted
    rw [hstarts, hstarted.1, hstarted.2] at ha
    cases sent with
    | true => exact .sends ha hstarted.2 hping.2 hping.1
    | false => exact .throws (by rw [PingSucceeds, ha]; decide) hstarted.2 hping.2 hping.1

theorem cancelSource_same (s : Schedules) (x : Session) :
    (s.cancelSource x).1.flight = s.flight ∧
      (s.cancelSource x).1.syncClock.lastPingFinished = s.syncClock.lastPingFinished := by
  unfold cancelSource SyncClock.stop
  split
  · exact ⟨rfl, rfl⟩
  · dsimp only
    cases s.syncClock.isRunning <;> exact ⟨rfl, rfl⟩

theorem start_same (s : Schedules) (connected ctCanceled : Bool) :
    (s.start connected ctCanceled).flight = s.flight ∧
      (s.start connected ctCanceled).syncClock.lastPingFinished =
        s.syncClock.lastPingFinished := by
  unfold start
  split
  · exact ⟨rfl, rfl⟩
  · dsimp only
    split
    · exact ⟨rfl, rfl⟩
    · cases ctCanceled <;> exact ⟨rfl, rfl⟩

theorem effect_of_periodicTick (h : s.session = some x) (now : ℚ) (sent : Bool) :
    Effect s (.periodicTick now sent) (s.periodicTick x now sent) := by
  unfold periodicTick
  split
  · next hcts =>
    refine .same ?_ rfl rfl
    simp [PingSucceeds, pingSucceeds, startsPing, h, hcts]
  · next hcts => exact effect_of_ping rfl (by simp [startsPing, h, hcts])

theorem effect_of_fastTick (h : s.session = some x) (now : ℚ) (sent : Bool) :
    Effect s (.fastTick now sent) (s.fastTick x now sent) := by
  unfold fastTick
  split
  · next hcts =>
    refine .same ?_ rfl rfl
    simp [PingSucceeds, pingSucceeds, startsPing, h, hcts]
  · split
    · next hfull =>
      obtain ⟨hflight, hflag⟩ := cancelSource_same s x
      refine .same ?_ hflight hflag
      simp [PingSucceeds, pingSucceeds, startsPing, Nat.not_lt.mpr hfull]
    · next hcts hroom =>
      exact effect_of_ping rfl (by simp [startsPing, h, hcts, Nat.not_le.mp hroom])

theorem effect_of_step (hs : step s a = some s') : Effect s a s' := by
  have hlive := SchedulesLemmas.live_of_step hs
  unfold step at hs
  rw [hlive, if_neg Bool.false_ne_true] at hs
  cases a with
  | start connected ctCanceled =>
    cases hs
    obtain ⟨hflight, hflag⟩ := start_same s connected ctCanceled
    exact .same rfl hflight hflag
  | periodicTick now sent =>
    obtain ⟨x, hx, htick⟩ := Option.bind_eq_some_iff.mp hs
    split at htick
    · cases htick
      exact effect_of_periodicTick hx now sent
    · cases htick
  | fastTick now sent =>
    obtain ⟨x, hx, htick⟩ := Option.bind_eq_some_iff.mp hs
    split at htick
    · cases htick
      exact effect_of_fastTick hx now sent
    · cases htick
  | result now timeServer =>
    obtain ⟨timeStart, hflight, rfl⟩ := Option.map_eq_some_iff.mp hs
    refine .result rfl ?_ rfl rfl
    rw [hflight]
    exact Option.some_ne_none _
  | resultFails =>
    obtain ⟨timeStart, hflight, rfl⟩ := Option.map_eq_some_iff.mp hs
    refine .fails Bool.false_ne_true ?_ rfl rfl
    rw [hflight]
    exact Option.some_ne_none _
  | cancel =>
    obtain ⟨x, hx, hcancel⟩ := Option.bind_eq_some_iff.mp hs
    split at hcancel
    · cases hcancel
    · cases hcancel
      obtain ⟨hflight, hflag⟩ := cancelSource_same s { x with ctCanceled := true }
      exact .same rfl hflight hflag
  | destroy =>
    cases hs
    refine .same rfl rfl ?_
    unfold SyncClock.stop
    cases s.syncClock.isRunning <;> rfl

/-- From a state in turn, a step leads to another one or stops the pings, as a ping fails. -/
theorem inTurn_step (ht : s.InTurn) (hs : step s a = some s') :
    (s.PingSucceeds a ∧ s'.InTurn) ∨ (¬ s.PingSucceeds a ∧ s'.Stopped) := by
  cases effect_of_step hs with
  | same hok hflight hflag =>
    refine .inl ⟨hok, ?_⟩
    rw [InTurn, hflight, hflag]
    exact ht
  | sends hok _ hflight hflag =>
    refine .inl ⟨hok, iff_of_false hflight ?_⟩
    rw [hflag]
    exact Bool.false_ne_true
  | throws hfails hflag hflight hflag' =>
    exact .inr ⟨hfails, hflight.trans (ht.mpr hflag), hflag'⟩
  | result hok _ hflight hflag => exact .inl ⟨hok, iff_of_true hflight hflag⟩
  | fails hfails hon hflight hflag =>
    refine .inr ⟨hfails, hflight, hflag.trans ?_⟩
    exact Bool.eq_false_iff.mpr fun hfinished => hon (ht.mpr hfinished)

theorem stopped_step (hstop : s.Stopped) (hs : step s a = some s') : s'.Stopped := by
  obtain ⟨hflight, hflag⟩ := hstop
  cases effect_of_step hs with
  | same _ hflight' hflag' => exact ⟨hflight'.trans hflight, hflag'.trans hflag⟩
  | sends _ hfinished _ _ => cases hflag.symm.trans hfinished
  | throws _ hfinished _ _ => cases hflag.symm.trans hfinished
  | result _ hon _ _ => exact absurd hflight hon
  | fails _ hon _ _ => exact absurd hflight hon

/-- A run without failures is in turn; the first failure stops the pings for good. -/
theorem run_cases {now : ℚ} {interval : Int} {as : List Action}
    (h : Lts.Run step Lts.anyStep (init now interval) as s) :
    (Lts.Run step PingSucceeds (init now interval) as s ∧ s.InTurn) ∨
      (¬ Lts.Run step PingSucceeds (init now interval) as s ∧ s.Stopped) := by
  induction h with
  | nil => exact .inl ⟨.nil, iff_of_true rfl rfl⟩
  | @snoc as a s s' hrun _ hs ih =>
    rcases ih with ⟨hok, ht⟩ | ⟨hfailed, hstop⟩
    · rcases inTurn_step ht hs with ⟨hstep, ht'⟩ | ⟨hstep, hstop'⟩
      · exact .inl ⟨hok.snoc hstep hs, ht'⟩
      · refine .inr ⟨fun hall => hstep ?_, hstop'⟩
        obtain ⟨t, ht, hg, -⟩ := hall.last
        rw [hok.unique ht]
        exact hg
    · refine .inr ⟨fun hall => hfailed ?_, stopped_step hstop hs⟩
      obtain ⟨t, ht, -, -⟩ := hall.last
      rw [hrun.unique ht]
      exact ht

end PingFailuresLemmas

open PingFailuresLemmas

/-! ## Results -/

/-- In the state that a run reaches, the next ping can start or one is on its way exactly when no
ping of the run failed. -/
theorem pingFinished_iff {now : ℚ} {interval : Int} {as : List Action} {s : Schedules}
    (h : Lts.Run step Lts.anyStep (init now interval) as s) :
    s.PingFinished ↔ Lts.Run step PingSucceeds (init now interval) as s := by
  rcases run_cases h with ⟨hok, ht⟩ | ⟨hfailed, hflight, hflag⟩
  · exact iff_of_true ht.mp hok
  · refine iff_of_false (fun hfinished => ?_) hfailed
    have htrue := hfinished hflight
    rw [hflag] at htrue
    cases htrue

/-- A ping that is answered. -/
theorem pingFinished_answered :
    ∃ s, Lts.Run step Lts.anyStep (init 0 5000)
        [.start true false, .fastTick 0 true, .result 10 1000] s ∧
      (s.PingFinished ↔ Lts.Run step PingSucceeds (init 0 5000)
        [.start true false, .fastTick 0 true, .result 10 1000] s) :=
  ⟨_, Lts.Run.of_exec rfl, pingFinished_iff (Lts.Run.of_exec rfl)⟩

/-- The first ping fails, and the clock sends no other one. -/
theorem failed_ping_stops :
    ¬ ∀ now interval s, Lts.Reachable step Lts.anyStep (init now interval) s →
      s.PingFinished := by
  intro hclaim
  obtain ⟨s, hs, hp⟩ := Lts.Reachable.of_exec step Lts.anyStep (init 0 5000)
    [.start true false, .fastTick 0 true, .resultFails]
    (fun s => decide (s.flight = none) && !s.syncClock.lastPingFinished) (by decide +kernel)
  rw [Bool.and_eq_true, decide_eq_true_eq, Bool.not_eq_true'] at hp
  have hflag := hclaim 0 5000 s hs hp.1
  rw [hp.2] at hflag
  cases hflag

end Stormancer.Clock.Schedules
