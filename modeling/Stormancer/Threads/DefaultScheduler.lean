import Mathlib.Data.List.Count
import Stormancer.Threads.TimerThread

/-!
# `DefaultScheduler`

Periodic functions on a `TimerThread`. The function of an entry tests its token, does the work, and
schedules itself again. The test, the start of the work and its end are actions of their own, so
that the token may be cancelled between the test and the start, and a work may take any time, during
which other functions run or the thread is stopped. A work may throw, and is then not scheduled
again.

A function with a dispatcher is handed to it when its task is made. A dispatcher runs a function at
most once, at any time later; it may also never run it. `MainThreadActionDispatcher` refuses a
function when it does not run, which ends up in the task, and loses those that it has not run when it
is stopped.

The delay is in milliseconds, the times are in nanoseconds. The timer is destroyed by a stop, after
which `schedule` does nothing, as `periodicFunc` does when it has no timer.

Results:
1. `periodic_functions`: a periodic function is pending or working exactly once until its token is
   cancelled, its work throws, its dispatcher drops it or the thread is stopped, and never twice; its
   works are a delay apart; after the cancellation of its token only a work begins whose test of the
   token came before.
-/

namespace Stormancer

/-! ## Data -/

namespace DefaultScheduler

/-- The works of a function when its token is cancelled: the number of those that have begun, and of
those that are about to, after the test of the token. -/
structure Cancellation where
  begun : Nat
  tested : Nat
deriving DecidableEq

/-- A call of `schedulePeriodic`. -/
structure Periodic where
  delay : Int
  positive : 0 < delay
  /-- It was called with a dispatcher. -/
  dispatched : Bool
  canceled : Option Cancellation
  thrown : Bool
  /-- The dispatcher does not run the function. -/
  dropped : Bool
deriving DecidableEq

/-- The function of an entry, and whether it has a dispatcher. -/
structure Scheduled where
  /-- The number of the periodic function, if it is one. -/
  owner : Option Nat
  dispatched : Bool
deriving DecidableEq

end DefaultScheduler

open DefaultScheduler (Periodic Scheduled)

structure DefaultScheduler where
  timer : TimerThread
  /-- By the numbers of the entries. -/
  functions : List Scheduled
  periodics : List Periodic
  /-- The periodic functions that have tested their tokens and not begun their work. -/
  tested : List Nat
  /-- The periodic functions whose work has not ended. -/
  working : List Nat
  /-- The works that have begun, with their times. -/
  works : List (Nat × Int)
deriving DecidableEq

namespace DefaultScheduler

open TimerThread (QueueEntry)

def init (now : Int) : DefaultScheduler := ⟨TimerThread.init now, [], [], [], [], []⟩

/-- The periodic function of the entry. -/
def owner (s : DefaultScheduler) (e : QueueEntry) : Option Nat :=
  s.functions[e.number]?.bind Scheduled.owner

/-- The entry has a dispatcher. -/
def dispatched (s : DefaultScheduler) (e : QueueEntry) : Bool :=
  s.functions[e.number]?.any Scheduled.dispatched

/-- The times at which the works of the function have begun. -/
def times (s : DefaultScheduler) (p : Nat) : List Int :=
  (s.works.filter (·.1 == p)).map Prod.snd

/-! ## Steps -/

inductive Action
  /-- The delay is in milliseconds. -/
  | schedulePeriodic (delay : Int) (dispatched : Bool)
  | schedule (time : Int) (dispatched : Bool)
  | cancel (p : Nat)
  /-- The loop, the time and the end of the timer. -/
  | timer (a : TimerThread.Action)
  /-- A task of the timer runs, up to the test of the token. -/
  | run (j : Nat)
  /-- A dispatcher does not run a task that it was given. -/
  | drop (j : Nat)
  | workBegins (k : Nat)
  | workEnds (k : Nat) (throws : Bool)
deriving DecidableEq

/-- `TimerThread::schedule`. -/
def enqueue (s : DefaultScheduler) (time : Int) (f : Scheduled) : DefaultScheduler :=
  { s with
    timer := s.timer.schedule time
    functions := if s.timer.stopRequested then s.functions else s.functions ++ [f] }

def schedulePeriodic (s : DefaultScheduler) (delay : Int) (dispatched : Bool) :
    Except String DefaultScheduler :=
  if h : 0 < delay then
    let new : Periodic := ⟨delay, h, dispatched, none, false, false⟩
    .ok (enqueue { s with periodics := s.periodics ++ [new] } s.timer.now
      ⟨some s.periodics.length, dispatched⟩)
  else .error "Scheduler periodic delay must be positive."

/-- `periodicFunc`, up to the test of the token. -/
def periodicFunc (s : DefaultScheduler) (p : Nat) : DefaultScheduler :=
  match s.periodics[p]? with
  | some periodic =>
    if periodic.canceled.isSome then s else { s with tested := s.tested ++ [p] }
  | none => s

/-- The rest of `periodicFunc`, after the work. -/
def workEnds (s : DefaultScheduler) (p : Nat) (throws : Bool) : DefaultScheduler :=
  match s.periodics[p]? with
  | some periodic =>
    if throws then { s with periodics := s.periodics.set p { periodic with thrown := true } }
    else s.enqueue (s.timer.now + periodic.delay * TimerThread.millisecond)
      ⟨some p, periodic.dispatched⟩
  | none => s

/-- The function of an entry is lost. -/
def drop (s : DefaultScheduler) (owner : Option Nat) : DefaultScheduler :=
  match owner with
  | some p =>
    match s.periodics[p]? with
    | some periodic => { s with periodics := s.periodics.set p { periodic with dropped := true } }
    | none => s
  | none => s

def cancel (s : DefaultScheduler) (p : Nat) : DefaultScheduler :=
  match s.periodics[p]? with
  | some periodic =>
    let cancellation := periodic.canceled.getD ⟨(s.times p).length, s.tested.count p⟩
    { s with periodics := s.periodics.set p { periodic with canceled := some cancellation } }
  | none => s

def step (s : DefaultScheduler) : Action → Option DefaultScheduler
  | .schedulePeriodic delay dispatched =>
    match s.schedulePeriodic delay dispatched with
    | .ok s' => some s'
    | .error _ => some s
  | .schedule time dispatched => some (s.enqueue time ⟨none, dispatched⟩)
  | .cancel p => some (s.cancel p)
  | .timer (.schedule _) | .timer (.run _) => none
  | .timer a => (s.timer.step a).map fun timer => { s with timer := timer }
  | .run j =>
    match s.timer.tasks[j]?, s.timer.step (.run j) with
    | some entry, some timer =>
      match s.owner entry with
      | some p => some (periodicFunc { s with timer := timer } p)
      | none => some { s with timer := timer }
    | _, _ => none
  | .drop j =>
    match s.timer.tasks[j]? with
    | some entry =>
      if s.dispatched entry then
        some (drop { s with timer := { s.timer with tasks := s.timer.tasks.eraseIdx j } }
          (s.owner entry))
      else none
    | none => none
  | .workBegins k =>
    match s.tested[k]? with
    | some p =>
      some { s with
        tested := s.tested.eraseIdx k
        working := s.working ++ [p]
        works := s.works ++ [(p, s.timer.now)] }
    | none => none
  | .workEnds k throws =>
    match s.working[k]? with
    | some p => some (workEnds { s with working := s.working.eraseIdx k } p throws)
    | none => none

/-- The timer is not stopped between the test and the lock of a turn, as for
`TimerThread.timer_queue_safe`. -/
def stopsInTime (s : DefaultScheduler) : Action → Bool
  | .timer a => s.timer.stopsInTime a
  | _ => true

abbrev StopsInTime (s : DefaultScheduler) (a : Action) : Prop := s.stopsInTime a = true

/-! ## The property -/

/-- The entries of the timer that were scheduled and have not run. -/
def pendingEntries (timer : TimerThread) : List QueueEntry :=
  timer.taskQueue ++ (timer.location.entry?.toList ++ timer.tasks)

/-- How often the function is pending, about to work or working. -/
def active (s : DefaultScheduler) (p : Nat) : Nat :=
  (pendingEntries s.timer).countP (fun e => s.owner e == some p) +
    (s.tested.count p + s.working.count p)

/-- What is promised about a periodic function. -/
structure Kept (s : DefaultScheduler) (p : Nat) (periodic : Periodic) : Prop where
  /-- It is never active twice, and once as long as nothing has ended it. -/
  alone : s.active p ≤ 1
  active : s.active p = 1 ∨ periodic.canceled.isSome ∨ periodic.thrown ∨ periodic.dropped ∨
    s.timer.stopRequested
  /-- Its works begin a delay apart, up to the millisecond that the timer may be early. -/
  apart : (s.times p).Pairwise fun t t' => t + (periodic.delay - 1) * TimerThread.millisecond ≤ t'
  /-- After the cancellation no work has begun but one that had tested the token before. -/
  canceled : ∀ c ∈ periodic.canceled, c.tested ≤ 1 ∧ (s.times p).length ≤ c.begun + c.tested
  /-- A function without a dispatcher is not dropped. -/
  dropped : periodic.dropped = true → periodic.dispatched = true

/-! ## The invariant -/

/-- Something has ended the function. -/
def Ended (s : DefaultScheduler) (periodic : Periodic) : Prop :=
  periodic.canceled.isSome = true ∨ periodic.thrown = true ∨ periodic.dropped = true ∨
    s.timer.stopRequested = true

/-- The invariant; between the end of one activity of a function and its next one it is idle. -/
structure Inv (waiting : Option Nat) (s : DefaultScheduler) : Prop where
  timer : s.timer.Inv
  functions : s.functions.length = s.timer.scheduled
  entries : ∀ e ∈ pendingEntries s.timer, ∀ p, s.owner e = some p →
    ∃ periodic, s.periodics[p]? = some periodic ∧ s.dispatched e = periodic.dispatched ∧
      ∀ t ∈ s.times p, t + periodic.delay * TimerThread.millisecond ≤ e.scheduledTime
  tested : ∀ p ∈ s.tested, ∃ periodic, s.periodics[p]? = some periodic ∧
    ∀ t ∈ s.times p, t + (periodic.delay - 1) * TimerThread.millisecond ≤ s.timer.now
  working : ∀ p ∈ s.working, p < s.periodics.length
  works : ∀ w ∈ s.works, w.1 < s.periodics.length ∧ w.2 ≤ s.timer.now
  idle : ∀ p, waiting = some p → s.active p = 0
  active : ∀ p periodic, s.periodics[p]? = some periodic → waiting ≠ some p →
    s.active p ≤ 1 ∧ (s.active p = 1 ∨ s.Ended periodic)
  apart : ∀ p periodic, s.periodics[p]? = some periodic →
    (s.times p).Pairwise fun t t' => t + (periodic.delay - 1) * TimerThread.millisecond ≤ t'
  canceled : ∀ p periodic, s.periodics[p]? = some periodic → ∀ c ∈ periodic.canceled,
    c.tested ≤ 1 ∧ (s.times p).length + s.tested.count p = c.begun + c.tested
  dropped : ∀ (p : Nat) (periodic : Periodic), s.periodics[p]? = some periodic →
    periodic.dropped = true → periodic.dispatched = true

namespace DefaultSchedulerLemmas

open TimerThread.TimerThreadLemmas

variable {s s' : DefaultScheduler} {idle : Option Nat} {p : Nat}

/-! ### The timer -/

theorem pending_mem_entries {t : TimerThread} {e : QueueEntry} (h : e ∈ pendingEntries t) :
    e ∈ t.entries := by
  unfold pendingEntries at h
  unfold TimerThread.entries
  rw [List.mem_append, List.mem_append] at h ⊢
  exact h.imp_right fun h => h.imp_right (List.mem_append_left _)

/-- What the loop and a stop do with the entries that are pending. -/
structure Moves (t t' : TimerThread) : Prop where
  entries : (pendingEntries t').Subperm (pendingEntries t)
  stopped : t'.stopRequested = true ∨
    (pendingEntries t').Perm (pendingEntries t) ∧ t'.stopRequested = t.stopRequested
  scheduled : t'.scheduled = t.scheduled
  now : t.now ≤ t'.now

theorem moves_of_perm {t t' : TimerThread} (h : (pendingEntries t').Perm (pendingEntries t))
    (hstop : t'.stopRequested = t.stopRequested) (hscheduled : t'.scheduled = t.scheduled)
    (hnow : t.now ≤ t'.now) : Moves t t' :=
  ⟨h.subperm, .inr ⟨h, hstop⟩, hscheduled, hnow⟩

theorem moves_of_step {t t' : TimerThread} {a : TimerThread.Action} (h : t.step a = some t')
    (hschedule : ∀ time, a ≠ .schedule time) (hrun : ∀ j, a ≠ .run j) : Moves t t' := by
  have hmove : ∀ location : TimerThread.Location, location.entry? = none →
      t.location.entry? = none → Moves t { t with location := location } := by
    intro location hnew hold
    refine moves_of_perm (.of_eq ?_) rfl rfl (Int.le_refl _)
    unfold pendingEntries
    rw [hnew, hold]
  cases of_step h with
  | schedule _ => exact absurd rfl (hschedule _)
  | refused => exact absurd rfl (hschedule _)
  | @stop immediate =>
    refine ⟨?_, .inl rfl, rfl, Int.le_refl _⟩
    refine List.Sublist.subperm (List.Sublist.append_right ?_ _)
    unfold TimerThread.stop
    cases immediate with
    | false => exact .refl _
    | true => exact List.nil_sublist _
  | tick =>
    refine moves_of_perm (.refl _) rfl rfl ?_
    dsimp only
    omega
  | ends hlocation => exact hmove _ rfl (by rw [hlocation]; rfl)
  | goesOn hlocation _ => exact hmove _ rfl (by rw [hlocation]; rfl)
  | waits hlocation => exact hmove _ rfl (by rw [hlocation]; rfl)
  | @takes i top hlocation htop _ =>
    refine moves_of_perm ?_ rfl rfl (Int.le_refl _)
    unfold pendingEntries
    rw [hlocation]
    exact List.perm_middle.trans ((perm_eraseIdx htop).append_right _)
  | topOfEmpty hlocation _ _ => exact hmove _ rfl (by rw [hlocation]; rfl)
  | wakes hlocation => exact hmove _ rfl (by rw [hlocation]; rfl)
  | @starts entry hlocation =>
    refine moves_of_perm ?_ rfl rfl (Int.le_refl _)
    unfold pendingEntries
    rw [hlocation]
    exact List.Perm.append_left _ (List.perm_append_singleton _ _)
  | runs _ => exact absurd rfl (hrun _)

theorem inv_timer {t : TimerThread} (hi : Inv none s) (ht : t.Inv) (hmoves : Moves s.timer t) :
    Inv none { s with timer := t } := by
  have hcount : ∀ q, { s with timer := t }.active q ≤ s.active q := fun q =>
    Nat.add_le_add_right (hmoves.entries.countP_le _) _
  constructor
  case timer => exact ht
  case functions => exact hi.functions.trans hmoves.scheduled.symm
  case entries => exact fun e he => hi.entries e (hmoves.entries.subset he)
  case tested =>
    intro q hq
    obtain ⟨periodic, hperiodic, htimes⟩ := hi.tested q hq
    exact ⟨periodic, hperiodic, fun t ht => Int.le_trans (htimes t ht) hmoves.now⟩
  case working => exact hi.working
  case works => exact fun w hw => ⟨(hi.works w hw).1, Int.le_trans (hi.works w hw).2 hmoves.now⟩
  case idle => exact nofun
  case active =>
    intro q periodic hq hidle
    obtain ⟨hle, hactive⟩ := hi.active q periodic hq hidle
    refine ⟨Nat.le_trans (hcount q) hle, ?_⟩
    rcases hmoves.stopped with hstop | ⟨hperm, hsame⟩
    · exact .inr (.inr (.inr (.inr hstop)))
    · have heq : { s with timer := t }.active q = s.active q :=
        congrArg (· + _) (hperm.countP_eq _)
      unfold Ended at hactive ⊢
      rw [heq, hsame]
      exact hactive
  case apart => exact hi.apart
  case canceled => exact hi.canceled
  case dropped => exact hi.dropped

/-! ### Entries -/

theorem enqueue_of_stopped (h : s.timer.stopRequested = true) (time : Int) (f : Scheduled) :
    s.enqueue time f = s := by
  unfold enqueue TimerThread.schedule
  rw [if_pos h, if_pos h]

/-- An entry keeps its function when another one is added. -/
theorem function_enqueue (hi : Inv idle s) (hno : s.timer.stopRequested = false) (time : Int)
    (f : Scheduled) {e : QueueEntry} (he : e ∈ pendingEntries s.timer) :
    (s.enqueue time f).functions[e.number]? = s.functions[e.number]? := by
  have hlt : e.number < s.functions.length := by
    rw [hi.functions]
    exact hi.timer.numbered.lt e (pending_mem_entries he)
  unfold enqueue
  dsimp only
  rw [hno, if_neg Bool.false_ne_true, List.getElem?_append_left hlt]

theorem owner_enqueue (hi : Inv idle s) (hno : s.timer.stopRequested = false) (time : Int)
    (f : Scheduled) {e : QueueEntry} (he : e ∈ pendingEntries s.timer) :
    (s.enqueue time f).owner e = s.owner e :=
  congrArg (Option.bind · Scheduled.owner) (function_enqueue hi hno time f he)

theorem function_new (hi : Inv idle s) (hno : s.timer.stopRequested = false) (time : Int)
    (f : Scheduled) : (s.enqueue time f).functions[s.timer.scheduled]? = some f := by
  unfold enqueue
  dsimp only
  rw [hno, if_neg Bool.false_ne_true, ← hi.functions, List.getElem?_concat_length]

theorem owner_new (hi : Inv idle s) (hno : s.timer.stopRequested = false) (time : Int)
    (f : Scheduled) : (s.enqueue time f).owner ⟨s.timer.scheduled, time⟩ = f.owner :=
  congrArg (Option.bind · Scheduled.owner) (function_new hi hno time f)

theorem pending_enqueue (hno : s.timer.stopRequested = false) (time : Int) (f : Scheduled) :
    (pendingEntries (s.enqueue time f).timer).Perm
      (⟨s.timer.scheduled, time⟩ :: pendingEntries s.timer) := by
  unfold enqueue TimerThread.schedule pendingEntries
  rw [if_neg (by rw [hno]; exact Bool.false_ne_true)]
  dsimp only
  rw [List.append_assoc]
  exact List.perm_middle

theorem active_enqueue (hi : Inv idle s) (hno : s.timer.stopRequested = false) (time : Int)
    (f : Scheduled) (q : Nat) :
    (s.enqueue time f).active q = s.active q + if f.owner = some q then 1 else 0 := by
  have hold : (pendingEntries s.timer).countP (fun e => (s.enqueue time f).owner e == some q) =
      (pendingEntries s.timer).countP (fun e => s.owner e == some q) :=
    List.countP_congr fun e he => by rw [owner_enqueue hi hno time f he]
  unfold active
  rw [(pending_enqueue hno time f).countP_eq, List.countP_cons, owner_new hi hno, hold]
  have hsame : (s.enqueue time f).tested = s.tested ∧ (s.enqueue time f).working = s.working :=
    ⟨rfl, rfl⟩
  rw [hsame.1, hsame.2]
  by_cases ho : f.owner = some q
  · simp only [ho, beq_self_eq_true, if_true]
    omega
  · rw [if_neg ho, if_neg (by simpa using ho)]
    omega

/-- A function that is idle, or that something has ended. -/
theorem inv_settle (hi : Inv (some p) s)
    (hended : ∀ periodic, s.periodics[p]? = some periodic → s.Ended periodic) : Inv none s := by
  refine ⟨hi.timer, hi.functions, hi.entries, hi.tested, hi.working, hi.works, nofun, ?_, hi.apart,
    hi.canceled, hi.dropped⟩
  intro q periodic hq _
  by_cases hpq : p = q
  · subst hpq
    rw [hi.idle p rfl]
    exact ⟨Nat.zero_le _, .inr (hended periodic hq)⟩
  · exact hi.active q periodic hq fun h => hpq (Option.some.inj h)

/-- An entry of no periodic function, or the next one of the function that is idle. -/
theorem inv_enqueue {f : Scheduled} (hi : Inv f.owner s) {time : Int}
    (htime : ∀ p, f.owner = some p → ∃ periodic, s.periodics[p]? = some periodic ∧
      f.dispatched = periodic.dispatched ∧
      ∀ t ∈ s.times p, t + periodic.delay * TimerThread.millisecond ≤ time) :
    Inv none (s.enqueue time f) := by
  cases hstop : s.timer.stopRequested with
  | true =>
    rw [enqueue_of_stopped hstop]
    cases howner : f.owner with
    | none =>
      rw [howner] at hi
      exact hi
    | some p =>
      rw [howner] at hi
      exact inv_settle hi fun _ _ => .inr (.inr (.inr hstop))
  | false =>
    have hscheduled : (s.enqueue time f).timer.Inv := by
      unfold enqueue TimerThread.schedule
      rw [if_neg (by rw [hstop]; exact Bool.false_ne_true)]
      exact inv_schedule hi.timer hstop time
    have hcount : (s.enqueue time f).timer.stopRequested = false ∧
        (s.enqueue time f).timer.scheduled = s.timer.scheduled + 1 ∧
        (s.enqueue time f).timer.now = s.timer.now := by
      unfold enqueue TimerThread.schedule
      rw [if_neg (by rw [hstop]; exact Bool.false_ne_true)]
      exact ⟨hstop, rfl, rfl⟩
    constructor
    case timer => exact hscheduled
    case functions =>
      rw [hcount.2.1, ← hi.functions]
      unfold enqueue
      dsimp only
      rw [hstop, if_neg Bool.false_ne_true, List.length_append, List.length_singleton]
    case entries =>
      intro e he q hq
      rcases List.mem_cons.mp ((pending_enqueue hstop time f).mem_iff.mp he) with rfl | hold
      · rw [owner_new hi hstop] at hq
        obtain ⟨periodic, hperiodic, hdispatched, htimes⟩ := htime q hq
        refine ⟨periodic, hperiodic, ?_, htimes⟩
        have hnew := function_new hi hstop time f
        unfold dispatched
        dsimp only
        rw [hnew]
        exact hdispatched
      · rw [owner_enqueue hi hstop time f hold] at hq
        obtain ⟨periodic, hperiodic, hdispatched, htimes⟩ := hi.entries e hold q hq
        refine ⟨periodic, hperiodic, ?_, htimes⟩
        unfold dispatched at hdispatched ⊢
        rw [function_enqueue hi hstop time f hold]
        exact hdispatched
    case tested =>
      intro q hq
      rw [hcount.2.2]
      exact hi.tested q hq
    case working => exact hi.working
    case works =>
      intro w hw
      rw [hcount.2.2]
      exact hi.works w hw
    case idle => exact nofun
    case active =>
      intro q periodic hq _
      rw [active_enqueue hi hstop]
      by_cases hidle : f.owner = some q
      · rw [if_pos hidle, hi.idle q hidle]
        exact ⟨Nat.le_refl 1, .inl rfl⟩
      · rw [if_neg hidle, Nat.add_zero]
        have hactive := hi.active q periodic hq hidle
        unfold Ended at hactive ⊢
        rw [hcount.1, ← hstop]
        exact hactive
    case apart => exact hi.apart
    case canceled => exact hi.canceled
    case dropped => exact hi.dropped

/-! ### Functions -/

/-- The flags of a function change. -/
theorem inv_setPeriodic (hi : Inv idle s) {old new : Periodic} (hp : s.periodics[p]? = some old)
    (hsame : new.delay = old.delay ∧ new.dispatched = old.dispatched)
    (hended : s.Ended old → s.Ended new)
    (hcanceled : ∀ c ∈ new.canceled,
      c.tested ≤ 1 ∧ (s.times p).length + s.tested.count p = c.begun + c.tested)
    (hdropped : new.dropped = true → new.dispatched = true) :
    Inv idle { s with periodics := s.periodics.set p new } := by
  have hlt : p < s.periodics.length := (List.getElem?_eq_some_iff.mp hp).1
  obtain ⟨hdelay, hdispatched⟩ := hsame
  have hkeep : ∀ {q : Nat} {periodic : Periodic}, s.periodics[q]? = some periodic →
      ∃ periodic', (s.periodics.set p new)[q]? = some periodic' ∧
        periodic'.delay = periodic.delay ∧ periodic'.dispatched = periodic.dispatched := by
    intro q periodic hq
    by_cases hpq : p = q
    · subst hpq
      cases hp.symm.trans hq
      exact ⟨new, List.getElem?_set_self hlt, hdelay, hdispatched⟩
    · exact ⟨periodic, (List.getElem?_set_ne hpq).trans hq, rfl, rfl⟩
  have hget : ∀ {q : Nat} {periodic : Periodic}, (s.periodics.set p new)[q]? = some periodic →
      (q = p ∧ periodic = new) ∨ (q ≠ p ∧ s.periodics[q]? = some periodic) := by
    intro q periodic hq
    rw [List.getElem?_set] at hq
    by_cases hpq : p = q
    · rw [if_pos hpq, if_pos hlt] at hq
      cases hq
      exact .inl ⟨hpq.symm, rfl⟩
    · rw [if_neg hpq] at hq
      exact .inr ⟨fun h => hpq h.symm, hq⟩
  constructor
  case timer => exact hi.timer
  case functions => exact hi.functions
  case entries =>
    intro e he q hq
    obtain ⟨periodic, hperiodic, hsame, htimes⟩ := hi.entries e he q hq
    obtain ⟨periodic', hperiodic', hdelay', hdispatched'⟩ := hkeep hperiodic
    refine ⟨periodic', hperiodic', hsame.trans hdispatched'.symm, ?_⟩
    rw [hdelay']
    exact htimes
  case tested =>
    intro q hq
    obtain ⟨periodic, hperiodic, htimes⟩ := hi.tested q hq
    obtain ⟨periodic', hperiodic', hdelay', -⟩ := hkeep hperiodic
    refine ⟨periodic', hperiodic', ?_⟩
    rw [hdelay']
    exact htimes
  case working =>
    intro q hq
    rw [List.length_set]
    exact hi.working q hq
  case works =>
    intro w hw
    rw [List.length_set]
    exact hi.works w hw
  case idle => exact hi.idle
  case active =>
    intro q periodic hq hwaiting
    rcases hget hq with ⟨rfl, rfl⟩ | ⟨-, hold⟩
    · exact (hi.active q old hp hwaiting).imp_right fun h => h.imp_right hended
    · exact hi.active q periodic hold hwaiting
  case apart =>
    intro q periodic hq
    rcases hget hq with ⟨rfl, rfl⟩ | ⟨-, hold⟩
    · rw [hdelay]
      exact hi.apart q old hp
    · exact hi.apart q periodic hold
  case canceled =>
    intro q periodic hq
    rcases hget hq with ⟨rfl, rfl⟩ | ⟨-, hold⟩
    · exact hcanceled
    · exact hi.canceled q periodic hold
  case dropped =>
    intro q periodic hq
    rcases hget hq with ⟨rfl, rfl⟩ | ⟨-, hold⟩
    · exact hdropped
    · exact hi.dropped q periodic hold

theorem tested_le_active (s : DefaultScheduler) (p : Nat) : s.tested.count p ≤ s.active p := by
  unfold active
  omega

theorem inv_cancel (hi : Inv none s) : Inv none (s.cancel p) := by
  unfold cancel
  cases hp : s.periodics[p]? with
  | none => exact hi
  | some periodic =>
    refine inv_setPeriodic hi hp ⟨rfl, rfl⟩ (fun _ => .inl rfl) ?_ (hi.dropped p periodic hp)
    intro c hc
    cases hcanceled : periodic.canceled with
    | none =>
      rw [hcanceled] at hc
      obtain rfl := Option.some.inj hc
      exact ⟨Nat.le_trans (tested_le_active s p) (hi.active p periodic hp nofun).1, rfl⟩
    | some old =>
      rw [hcanceled] at hc
      obtain rfl : old = c := Option.some.inj hc
      exact hi.canceled p periodic hp old hcanceled

theorem times_of_length (hi : Inv idle s) : s.times s.periodics.length = [] := by
  unfold times
  rw [List.map_eq_nil_iff, List.filter_eq_nil_iff]
  intro w hw heq
  have hlt := (hi.works w hw).1
  rw [eq_of_beq heq] at hlt
  exact Nat.lt_irrefl _ hlt

/-- A new function is not active yet. -/
theorem inv_append (hi : Inv none s) {new : Periodic} (hnew : new.canceled = none)
    (hdropped : new.dropped = false) :
    Inv (some s.periodics.length) { s with periodics := s.periodics ++ [new] } := by
  have hget : ∀ {q : Nat} {periodic : Periodic}, (s.periodics ++ [new])[q]? = some periodic →
      s.periodics[q]? = some periodic ∨ q = s.periodics.length ∧ periodic = new := by
    intro q periodic hq
    rcases Nat.lt_trichotomy q s.periodics.length with hlt | rfl | hlt
    · rw [List.getElem?_append_left hlt] at hq
      exact .inl hq
    · rw [List.getElem?_concat_length] at hq
      exact .inr ⟨rfl, (Option.some.inj hq).symm⟩
    · rw [List.getElem?_eq_none (by rw [List.length_append, List.length_singleton]; omega)] at hq
      cases hq
  have hkeep : ∀ {q : Nat} {periodic : Periodic}, s.periodics[q]? = some periodic →
      (s.periodics ++ [new])[q]? = some periodic := fun {q periodic} hq =>
    (List.getElem?_append_left (List.getElem?_eq_some_iff.mp hq).1).trans hq
  constructor
  case timer => exact hi.timer
  case functions => exact hi.functions
  case entries =>
    intro e he q hq
    obtain ⟨periodic, hperiodic, htimes⟩ := hi.entries e he q hq
    exact ⟨periodic, hkeep hperiodic, htimes⟩
  case tested =>
    intro q hq
    obtain ⟨periodic, hperiodic, htimes⟩ := hi.tested q hq
    exact ⟨periodic, hkeep hperiodic, htimes⟩
  case working =>
    intro q hq
    rw [List.length_append]
    exact Nat.lt_add_right _ (hi.working q hq)
  case works =>
    intro w hw
    rw [List.length_append]
    exact ⟨Nat.lt_add_right _ (hi.works w hw).1, (hi.works w hw).2⟩
  case idle =>
    rintro q ⟨rfl⟩
    have hentries : (pendingEntries s.timer).countP
        (fun e => s.owner e == some s.periodics.length) = 0 := by
      rw [List.countP_eq_zero]
      intro e he howner
      obtain ⟨periodic, hperiodic, -⟩ := hi.entries e he _ (eq_of_beq howner)
      exact Nat.lt_irrefl _ (List.getElem?_eq_some_iff.mp hperiodic).1
    have htested : s.tested.count s.periodics.length = 0 := by
      refine List.count_eq_zero.mpr fun hmem => ?_
      obtain ⟨periodic, hperiodic, -⟩ := hi.tested _ hmem
      exact Nat.lt_irrefl _ (List.getElem?_eq_some_iff.mp hperiodic).1
    have hworking : s.working.count s.periodics.length = 0 :=
      List.count_eq_zero.mpr fun hmem => Nat.lt_irrefl _ (hi.working _ hmem)
    show (pendingEntries s.timer).countP (fun e => s.owner e == some s.periodics.length) +
      (s.tested.count s.periodics.length + s.working.count s.periodics.length) = 0
    rw [hentries, htested, hworking]
  case active =>
    intro q periodic hq hwaiting
    rcases hget hq with hold | ⟨rfl, -⟩
    · exact hi.active q periodic hold nofun
    · exact absurd rfl hwaiting
  case apart =>
    intro q periodic hq
    rcases hget hq with hold | ⟨rfl, -⟩
    · exact hi.apart q periodic hold
    · change List.Pairwise _ (s.times s.periodics.length)
      rw [times_of_length hi]
      exact .nil
  case canceled =>
    intro q periodic hq c hc
    rcases hget hq with hold | ⟨rfl, rfl⟩
    · exact hi.canceled q periodic hold c hc
    · rw [hnew] at hc
      cases hc
  case dropped =>
    intro q periodic hq hlost
    rcases hget hq with hold | ⟨rfl, rfl⟩
    · exact hi.dropped q periodic hold hlost
    · rw [hdropped] at hlost
      cases hlost

theorem inv_schedulePeriodic (hi : Inv none s) {delay : Int} {dispatched : Bool}
    (h : s.schedulePeriodic delay dispatched = .ok s') : Inv none s' := by
  unfold schedulePeriodic at h
  split at h
  · next hpositive =>
    cases h
    have hadded : Inv (some s.periodics.length)
        { s with periodics := s.periodics ++
          [⟨delay, hpositive, dispatched, none, false, false⟩] } := inv_append hi rfl rfl
    refine inv_enqueue hadded ?_
    rintro q ⟨rfl⟩
    refine ⟨_, List.getElem?_concat_length, rfl, ?_⟩
    intro t ht
    have hnone : s.times s.periodics.length = [] := times_of_length hi
    change t ∈ s.times s.periodics.length at ht
    rw [hnone] at ht
    cases ht
  · cases h

/-- The idle function is ended by a flag. -/
theorem inv_end (hi : Inv (some p) s) {old new : Periodic} (hp : s.periodics[p]? = some old)
    (hsame : new.delay = old.delay ∧ new.dispatched = old.dispatched ∧
      new.canceled = old.canceled)
    (hended : new.thrown = true ∨ new.dropped = true)
    (hdropped : new.dropped = true → new.dispatched = true) :
    Inv none { s with periodics := s.periodics.set p new } := by
  have hset : Inv (some p) { s with periodics := s.periodics.set p new } := by
    refine inv_setPeriodic hi hp ⟨hsame.1, hsame.2.1⟩ ?_ ?_ hdropped
    · exact fun _ => .inr (hended.imp_right .inl)
    · rw [hsame.2.2]
      exact hi.canceled p old hp
  refine inv_settle hset fun periodic hp' => ?_
  dsimp only at hp'
  rw [List.getElem?_set_self (List.getElem?_eq_some_iff.mp hp).1] at hp'
  cases hp'
  exact .inr (hended.imp_right .inl)

/-! ### Tasks -/

/-- A task leaves the timer; the function of its entry is idle. -/
theorem inv_take (hi : Inv none s) {e : QueueEntry} {t : TimerThread} (ht : t.Inv)
    (hperm : (pendingEntries s.timer).Perm (e :: pendingEntries t))
    (hsame : t.scheduled = s.timer.scheduled ∧ t.now = s.timer.now ∧
      t.stopRequested = s.timer.stopRequested) :
    Inv (s.owner e) { s with timer := t } := by
  obtain ⟨hscheduled, hnow, hstop⟩ := hsame
  have hactive : ∀ q, s.active q =
      { s with timer := t }.active q + if s.owner e = some q then 1 else 0 := by
    intro q
    unfold active
    rw [hperm.countP_eq, List.countP_cons]
    by_cases ho : s.owner e = some q
    · rw [if_pos ho, if_pos (beq_iff_eq.mpr ho)]
      exact Nat.add_right_comm _ _ _
    · rw [if_neg ho, if_neg (by simpa using ho)]
      exact (Nat.add_zero _).symm
  constructor
  case timer => exact ht
  case functions => exact hi.functions.trans hscheduled.symm
  case entries => exact fun x hx => hi.entries x (hperm.mem_iff.mpr (List.mem_cons_of_mem _ hx))
  case tested =>
    intro q hq
    dsimp only
    rw [hnow]
    exact hi.tested q hq
  case working => exact hi.working
  case works =>
    intro w hw
    dsimp only
    rw [hnow]
    exact hi.works w hw
  case idle =>
    intro q hq
    obtain ⟨periodic, hperiodic, -⟩ := hi.entries e (hperm.mem_iff.mpr List.mem_cons_self) q hq
    have hle := (hi.active q periodic hperiodic nofun).1
    rw [hactive q, if_pos hq] at hle
    exact Nat.eq_zero_of_le_zero (Nat.le_of_succ_le_succ hle)
  case active =>
    intro q periodic hq hwaiting
    have hold := hi.active q periodic hq nofun
    rw [hactive q, if_neg hwaiting, Nat.add_zero] at hold
    unfold Ended at hold ⊢
    dsimp only
    rw [hstop]
    exact hold
  case apart => exact hi.apart
  case canceled => exact hi.canceled
  case dropped => exact hi.dropped

theorem pending_eraseIdx {t t' : TimerThread} {j : Nat} {e : QueueEntry}
    (he : t.tasks[j]? = some e) (hqueue : t'.taskQueue = t.taskQueue)
    (hlocation : t'.location = t.location) (htasks : t'.tasks = t.tasks.eraseIdx j) :
    (pendingEntries t).Perm (e :: pendingEntries t') := by
  unfold pendingEntries
  rw [hqueue, hlocation, htasks, ← List.append_assoc, ← List.append_assoc]
  exact ((perm_eraseIdx he).symm.append_left _).trans List.perm_middle

/-- The function of a task. -/
theorem inv_run_task (hi : Inv none s) {j : Nat} {e : QueueEntry} {t : TimerThread}
    (he : s.timer.tasks[j]? = some e) (ht : s.timer.step (.run j) = some t) :
    Inv (s.owner e) { s with timer := t } ∧ t.now = s.timer.now := by
  have hinv : t.Inv := TimerThread.TimerThreadLemmas.inv_step hi.timer rfl ht
  unfold TimerThread.step at ht
  dsimp only at ht
  rw [he] at ht
  cases ht
  exact ⟨inv_take hi hinv (pending_eraseIdx he rfl rfl rfl) ⟨rfl, rfl, rfl⟩, rfl⟩

theorem count_concat (l : List Nat) (p q : Nat) :
    (l ++ [p]).count q = l.count q + if p = q then 1 else 0 := by
  rw [List.count_append, List.count_singleton]
  by_cases hpq : p = q <;> simp [hpq]

theorem count_eraseIdx {l : List Nat} {k p : Nat} (hk : l[k]? = some p) (q : Nat) :
    l.count q = (l.eraseIdx k).count q + if p = q then 1 else 0 := by
  rw [← (perm_eraseIdx hk).count_eq, List.count_cons]
  by_cases hpq : p = q <;> simp [hpq]

/-- The function has tested its token. -/
theorem inv_test (hi : Inv (some p) s) {periodic : Periodic} (hp : s.periodics[p]? = some periodic)
    (hcanceled : periodic.canceled = none)
    (htimes : ∀ t ∈ s.times p, t + (periodic.delay - 1) * TimerThread.millisecond ≤ s.timer.now) :
    Inv none { s with tested := s.tested ++ [p] } := by
  have hactive : ∀ q, { s with tested := s.tested ++ [p] }.active q =
      s.active q + if p = q then 1 else 0 := by
    intro q
    unfold active
    dsimp only [owner]
    rw [count_concat]
    omega
  constructor
  case timer => exact hi.timer
  case functions => exact hi.functions
  case entries => exact hi.entries
  case tested =>
    intro q hq
    rcases List.mem_append.mp hq with hq | hq
    · exact hi.tested q hq
    · obtain rfl := List.mem_singleton.mp hq
      exact ⟨periodic, hp, htimes⟩
  case working => exact hi.working
  case works => exact hi.works
  case idle => exact nofun
  case active =>
    intro q periodic' hq _
    rw [hactive q]
    by_cases hpq : p = q
    · subst hpq
      rw [if_pos rfl, hi.idle p rfl]
      exact ⟨Nat.le_refl 1, .inl rfl⟩
    · rw [if_neg hpq, Nat.add_zero]
      exact hi.active q periodic' hq fun h => hpq (Option.some.inj h)
  case apart => exact hi.apart
  case canceled =>
    intro q periodic' hq c hc
    by_cases hpq : p = q
    · subst hpq
      cases hp.symm.trans hq
      rw [hcanceled] at hc
      cases hc
    · dsimp only
      rw [count_concat, if_neg hpq, Nat.add_zero]
      exact hi.canceled q periodic' hq c hc
  case dropped => exact hi.dropped

theorem inv_run (hi : Inv none s) {j : Nat} (h : s.step (.run j) = some s') : Inv none s' := by
  unfold step at h
  dsimp only at h
  cases he : s.timer.tasks[j]? with
  | none =>
    rw [he] at h
    cases h
  | some e =>
    cases ht : s.timer.step (.run j) with
    | none =>
      rw [he, ht] at h
      cases h
    | some t =>
      rw [he, ht] at h
      dsimp only at h
      obtain ⟨htaken, hnow⟩ := inv_run_task hi he ht
      cases howner : s.owner e with
      | none =>
        rw [howner] at h htaken
        cases h
        exact htaken
      | some p =>
        rw [howner] at h htaken
        cases h
        have hmem : e ∈ pendingEntries s.timer :=
          List.mem_append_right _ (List.mem_append_right _ (List.mem_of_getElem? he))
        obtain ⟨periodic, hp, -, hbound⟩ := hi.entries e hmem p howner
        have hdue := hi.timer.due e (List.mem_append_right _ (List.mem_of_getElem? he))
        unfold periodicFunc
        dsimp only
        rw [hp]
        dsimp only
        split
        · next hcanceled =>
          refine inv_settle htaken fun periodic' hp' => ?_
          cases hp.symm.trans hp'
          exact .inl hcanceled
        · next hcanceled =>
          refine inv_test htaken hp (Option.not_isSome_iff_eq_none.mp hcanceled) ?_
          intro t' ht'
          have hbefore : t' + periodic.delay * TimerThread.millisecond ≤ e.scheduledTime :=
            hbound t' ht'
          dsimp only
          rw [hnow, Int.sub_mul, Int.one_mul]
          omega

/-- The function of the task is lost. -/
theorem inv_drop (hi : Inv none s) {j : Nat} (h : s.step (.drop j) = some s') : Inv none s' := by
  unfold step at h
  dsimp only at h
  cases he : s.timer.tasks[j]? with
  | none =>
    rw [he] at h
    cases h
  | some e =>
    rw [he] at h
    dsimp only at h
    obtain ⟨hdispatched, hs⟩ := Option.ite_none_right_eq_some.mp h
    cases hs
    have hsub : (s.timer.tasks.eraseIdx j).Sublist s.timer.tasks := List.eraseIdx_sublist _ _
    have hinv : TimerThread.Inv { s.timer with tasks := s.timer.tasks.eraseIdx j } := by
      refine ⟨hi.timer.defined, hi.timer.locking, ?_, ?_, hi.timer.onTime⟩
      · refine hi.timer.numbered.sublist ?_
        exact ((hsub.append_right _).append_left _).append_left _
      · exact fun x hx => hi.timer.due x ((hsub.append_left _).subset hx)
    have htaken := inv_take hi hinv (pending_eraseIdx he rfl rfl rfl) ⟨rfl, rfl, rfl⟩
    unfold drop
    cases howner : s.owner e with
    | none =>
      rw [howner] at htaken
      exact htaken
    | some p =>
      rw [howner] at htaken
      have hmem : e ∈ pendingEntries s.timer :=
        List.mem_append_right _ (List.mem_append_right _ (List.mem_of_getElem? he))
      obtain ⟨periodic, hp, hsame, -⟩ := hi.entries e hmem p howner
      dsimp only
      rw [hp]
      dsimp only
      exact inv_end htaken hp ⟨rfl, rfl, rfl⟩ (.inr rfl) fun _ => hsame.symm.trans hdispatched

/-! ### Works -/

theorem times_concat (s : DefaultScheduler) (p : Nat) (t : Int) (q : Nat) :
    ((s.works ++ [(p, t)]).filter (·.1 == q)).map Prod.snd =
      s.times q ++ if p = q then [t] else [] := by
  unfold times
  by_cases hpq : p = q <;> simp [hpq]

/-- The work of a function that has tested its token. -/
theorem inv_workBegins (hi : Inv none s) {k : Nat} (h : s.step (.workBegins k) = some s') :
    Inv none s' := by
  unfold step at h
  dsimp only at h
  cases hk : s.tested[k]? with
  | none =>
    rw [hk] at h
    cases h
  | some p =>
    rw [hk] at h
    cases h
    have hcount := count_eraseIdx hk
    obtain ⟨periodic, hp, htimes⟩ := hi.tested p (List.mem_of_getElem? hk)
    have hone := (hi.active p periodic hp nofun).1
    -- Nothing else of this function is pending, about to work or working.
    have halone : (pendingEntries s.timer).countP (fun e => s.owner e == some p) = 0 ∧
        (s.tested.eraseIdx k).count p = 0 := by
      have hcountp := hcount p
      rw [if_pos rfl] at hcountp
      unfold active at hone
      omega
    have hself := times_concat s p s.timer.now
    constructor
    case timer => exact hi.timer
    case functions => exact hi.functions
    case entries =>
      intro e he q hq
      have hne : p ≠ q := by
        rintro rfl
        have hnone := List.countP_eq_zero.mp halone.1 e he
        exact hnone (beq_iff_eq.mpr hq)
      obtain ⟨periodic', hperiodic, hsame, hbound⟩ := hi.entries e he q hq
      refine ⟨periodic', hperiodic, hsame, fun t ht => hbound t ?_⟩
      unfold times at ht
      rw [hself, if_neg hne, List.append_nil] at ht
      exact ht
    case tested =>
      intro q hq
      have hne : p ≠ q := by
        rintro rfl
        exact List.count_eq_zero.mp halone.2 hq
      obtain ⟨periodic', hperiodic, hbound⟩ := hi.tested q (List.mem_of_mem_eraseIdx hq)
      refine ⟨periodic', hperiodic, fun t ht => hbound t ?_⟩
      unfold times at ht
      rw [hself, if_neg hne, List.append_nil] at ht
      exact ht
    case working =>
      intro q hq
      rcases List.mem_append.mp hq with hq | hq
      · exact hi.working q hq
      · rw [List.mem_singleton.mp hq]
        exact (List.getElem?_eq_some_iff.mp hp).1
    case works =>
      intro w hw
      rcases List.mem_append.mp hw with hw | hw
      · exact hi.works w hw
      · rw [List.mem_singleton.mp hw]
        exact ⟨(List.getElem?_eq_some_iff.mp hp).1, Int.le_refl _⟩
    case idle => exact nofun
    case active =>
      intro q periodic' hq _
      have hold := hi.active q periodic' hq nofun
      have hsum : (s.tested.eraseIdx k).count q + (s.working ++ [p]).count q =
          s.tested.count q + s.working.count q := by
        rw [hcount q, count_concat]
        omega
      unfold active Ended at hold ⊢
      dsimp only
      rw [hsum]
      exact hold
    case apart =>
      intro q periodic' hq
      unfold times
      rw [hself]
      by_cases hpq : p = q
      · subst hpq
        cases hp.symm.trans hq
        rw [if_pos rfl, List.pairwise_append]
        refine ⟨hi.apart p periodic hp, List.pairwise_singleton _ _, ?_⟩
        intro t ht t' ht'
        rw [List.mem_singleton.mp ht']
        exact htimes t ht
      · rw [if_neg hpq, List.append_nil]
        exact hi.apart q periodic' hq
    case canceled =>
      intro q periodic' hq c hc
      obtain ⟨hle, hsum⟩ := hi.canceled q periodic' hq c hc
      refine ⟨hle, ?_⟩
      unfold times
      rw [hself, List.length_append, ← hsum, hcount q]
      dsimp only
      by_cases hpq : p = q
      · rw [if_pos hpq, if_pos hpq, List.length_singleton]
        omega
      · rw [if_neg hpq, if_neg hpq]
        rfl
    case dropped => exact hi.dropped

/-- The work has ended. -/
theorem inv_leave (hi : Inv none s) {k : Nat} (hk : s.working[k]? = some p) :
    Inv (some p) { s with working := s.working.eraseIdx k } := by
  have hactive : ∀ q, s.active q =
      { s with working := s.working.eraseIdx k }.active q + if p = q then 1 else 0 := by
    intro q
    unfold active
    dsimp only [owner]
    rw [count_eraseIdx hk]
    omega
  obtain ⟨periodic, hp⟩ : ∃ periodic, s.periodics[p]? = some periodic :=
    ⟨_, List.getElem?_eq_getElem (hi.working p (List.mem_of_getElem? hk))⟩
  constructor
  case timer => exact hi.timer
  case functions => exact hi.functions
  case entries => exact hi.entries
  case tested => exact hi.tested
  case working => exact fun q hq => hi.working q (List.mem_of_mem_eraseIdx hq)
  case works => exact hi.works
  case idle =>
    rintro q ⟨rfl⟩
    have hle := (hi.active p periodic hp nofun).1
    rw [hactive p, if_pos rfl] at hle
    exact Nat.eq_zero_of_le_zero (Nat.le_of_succ_le_succ hle)
  case active =>
    intro q periodic' hq hwaiting
    have hold := hi.active q periodic' hq nofun
    rw [hactive q, if_neg fun h => hwaiting (congrArg some h), Nat.add_zero] at hold
    exact hold
  case apart => exact hi.apart
  case canceled => exact hi.canceled
  case dropped => exact hi.dropped

theorem inv_workEnds (hi : Inv (some p) s) (throws : Bool) : Inv none (s.workEnds p throws) := by
  unfold workEnds
  cases hp : s.periodics[p]? with
  | none =>
    refine inv_settle hi fun periodic hp' => ?_
    cases hp.symm.trans hp'
  | some periodic =>
    dsimp only
    cases throws with
    | true =>
      rw [if_pos rfl]
      exact inv_end hi hp ⟨rfl, rfl, rfl⟩ (.inl rfl) (hi.dropped p periodic hp)
    | false =>
      rw [if_neg Bool.false_ne_true]
      refine inv_enqueue hi ?_
      rintro q ⟨rfl⟩
      refine ⟨periodic, hp, rfl, fun t ht => ?_⟩
      obtain ⟨w, hw, rfl⟩ := List.mem_map.mp ht
      have hle := (hi.works w (List.mem_filter.mp hw).1).2
      omega

theorem inv_step (s : DefaultScheduler) (a : Action) (s' : DefaultScheduler) (hi : Inv none s)
    (hg : s.StopsInTime a) (h : s.step a = some s') : Inv none s' := by
  cases a with
  | schedulePeriodic delay dispatched =>
    unfold step at h
    dsimp only at h
    cases hr : s.schedulePeriodic delay dispatched with
    | error text =>
      rw [hr] at h
      cases h
      exact hi
    | ok s₁ =>
      rw [hr] at h
      cases h
      exact inv_schedulePeriodic hi hr
  | schedule time dispatched =>
    cases h
    exact inv_enqueue (f := ⟨none, dispatched⟩) hi nofun
  | cancel p =>
    cases h
    exact inv_cancel hi
  | timer a =>
    have hloop : ∀ b, (∀ time, b ≠ .schedule time) → (∀ j, b ≠ .run j) →
        s.timer.stopsInTime b = true →
        (s.timer.step b).map (fun timer => { s with timer := timer }) = some s' → Inv none s' := by
      intro b hschedule hrun hstops hstep
      obtain ⟨t, ht, rfl⟩ := Option.map_eq_some_iff.mp hstep
      exact inv_timer hi (TimerThread.TimerThreadLemmas.inv_step hi.timer hstops ht)
        (moves_of_step ht hschedule hrun)
    cases a with
    | schedule time => cases h
    | run j => cases h
    | stop immediate => exact hloop (.stop immediate) (fun _ => nofun) (fun _ => nofun) hg h
    | tick duration => exact hloop (.tick duration) (fun _ => nofun) (fun _ => nofun) hg h
    | test => exact hloop (.test) (fun _ => nofun) (fun _ => nofun) hg h
    | lock i => exact hloop (.lock i) (fun _ => nofun) (fun _ => nofun) hg h
    | wake => exact hloop (.wake) (fun _ => nofun) (fun _ => nofun) hg h
    | start => exact hloop (.start) (fun _ => nofun) (fun _ => nofun) hg h
  | run j => exact inv_run hi h
  | drop j => exact inv_drop hi h
  | workBegins k => exact inv_workBegins hi h
  | workEnds k throws =>
    unfold step at h
    dsimp only at h
    cases hk : s.working[k]? with
    | none =>
      rw [hk] at h
      cases h
    | some p =>
      rw [hk] at h
      cases h
      exact inv_workEnds (inv_leave hi hk) throws

theorem inv_init (now : Int) : Inv none (init now) where
  timer := TimerThread.TimerThreadLemmas.inv_init now
  functions := rfl
  entries _ he := nomatch he
  tested _ hp := nomatch hp
  working _ hp := nomatch hp
  works _ hw := nomatch hw
  idle := nofun
  active _ _ h := nomatch h
  apart _ _ h := nomatch h
  canceled _ _ h := nomatch h
  dropped _ _ h := nomatch h

end DefaultSchedulerLemmas

open DefaultSchedulerLemmas

/-! ## Results -/

/-- For every order of the calls, the cancellations, the steps of the timer, what the dispatchers
do, and the tests, starts and ends of the works. -/
theorem periodic_functions {now : Int} {s : DefaultScheduler}
    (h : Lts.Reachable step StopsInTime (init now) s) {p : Nat} {periodic : Periodic}
    (hp : s.periodics[p]? = some periodic) : Kept s p periodic := by
  have hi := h.invariant (inv_init now) inv_step
  obtain ⟨halone, hactive⟩ := hi.active p periodic hp nofun
  refine ⟨halone, hactive, hi.apart p periodic hp, fun c hc => ?_, hi.dropped p periodic hp⟩
  obtain ⟨hle, hsum⟩ := hi.canceled p periodic hp c hc
  exact ⟨hle, hsum ▸ Nat.le_add_right _ _⟩

/-- Two works of a function, the first one of which takes a while, and a cancellation between the
test of the token and the second one. -/
theorem periodic_functions_two : ∃ s periodic, s.times 0 = [0, 8000000] ∧
    periodic.canceled = some ⟨1, 1⟩ ∧ Kept s 0 periodic := by
  obtain ⟨s, hs, hp⟩ := Lts.Reachable.of_exec step StopsInTime (init 0)
    [.schedulePeriodic 5 false, .timer .test, .timer (.lock 0), .timer .start, .run 0,
      .workBegins 0, .timer (.tick 3000000), .workEnds 0 false, .timer .test,
      .timer (.tick 5000000), .timer (.lock 0), .timer .start, .run 0, .cancel 0, .workBegins 0,
      .workEnds 0 false]
    (fun s => decide (s.times 0 = [0, 8000000] ∧ s.periodics.map (·.canceled) = [some ⟨1, 1⟩]))
    (by decide)
  obtain ⟨htimes, hcanceled⟩ := of_decide_eq_true hp
  obtain ⟨periodic, hperiodics, heq⟩ := List.map_eq_singleton_iff.mp hcanceled
  exact ⟨s, periodic, htimes, heq, periodic_functions hs (by rw [hperiodics]; rfl)⟩

end DefaultScheduler

end Stormancer
