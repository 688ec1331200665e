import Mathlib.Data.List.Perm.Basic
import Stormancer.Lib.Run

/-!
# `TimerThread`

Functions are scheduled for a time, and the loop of a thread starts them. A turn of the loop tests
its condition without the mutex, then takes the mutex and either waits or takes the first function
from the queue. The mutex is not held between the test and the lock.

The state is the queue with the place where the loop is. What is done under the mutex is one action,
and so is the test. The thread wakes up at any time, so the notifications are left out. A scheduled
function is not empty, as `schedule` asserts; the dispatchers and the exceptions of functions are
left out. Which of several earliest entries is at the top of the queue is up to the action. Times
are in nanoseconds.

Results:
1. `of_step`: what a step does, as a relation.
2. `timer_queue_safe`: in every run in which no stop request comes between the test and the lock of
   a turn and leaves the queue empty, `top()` finds an entry, and functions run once and in time.
3. `top_of_empty`: such a request, and the lock after it.
-/

namespace Stormancer

/-! ## Data -/

namespace TimerThread

/-- An entry of the queue. The number stands for its function. -/
structure QueueEntry where
  number : Nat
  scheduledTime : Int
deriving DecidableEq

/-- Where the loop is. -/
inductive Location
  /-- Before the condition of the loop. -/
  | testing
  /-- Before the mutex is taken. -/
  | locking
  | waiting
  /-- Before the task of the function is made. -/
  | starting (entry : QueueEntry)
  | ended
  /-- `top()` was called on an empty queue. -/
  | undefined
deriving DecidableEq

end TimerThread

open TimerThread (QueueEntry Location)

structure TimerThread where
  stopRequested : Bool
  taskQueue : List QueueEntry
  location : Location
  now : Int
  /-- The number of the functions that have been scheduled. -/
  scheduled : Nat
  /-- The tasks that have been made and have not run. -/
  tasks : List QueueEntry
  /-- What has run, with its time. -/
  runs : List (QueueEntry × Int)
deriving DecidableEq

namespace TimerThread

def millisecond : Int := 1000000

def init (now : Int) : TimerThread := ⟨false, [], .testing, now, 0, [], []⟩

/-! ## Steps -/

inductive Action
  | schedule (time : Int)
  | stop (immediate : Bool)
  | tick (duration : Nat)
  | test
  /-- The mutex is taken; `i` is the place of the top of the queue. -/
  | lock (i : Nat)
  | wake
  | start
  /-- A task runs. -/
  | run (j : Nat)
deriving DecidableEq

def schedule (s : TimerThread) (time : Int) : TimerThread :=
  if s.stopRequested then s
  else { s with
    taskQueue := s.taskQueue ++ [⟨s.scheduled, time⟩]
    scheduled := s.scheduled + 1 }

/-- `_stop` up to the notification. -/
def stop (s : TimerThread) (immediate : Bool) : TimerThread :=
  { s with stopRequested := true, taskQueue := if immediate then [] else s.taskQueue }

/-- What the loop does under the mutex. -/
def locked (s : TimerThread) (i : Nat) : Option TimerThread :=
  if s.taskQueue = [] ∧ s.stopRequested = false then some { s with location := .waiting }
  else if s.taskQueue = [] then some { s with location := .undefined }
  else
    match s.taskQueue[i]? with
    | some top =>
      if s.taskQueue.all fun e => top.scheduledTime ≤ e.scheduledTime then
        if millisecond < top.scheduledTime - s.now then some { s with location := .waiting }
        else some { s with taskQueue := s.taskQueue.eraseIdx i, location := .starting top }
      else none
    | none => none

def step (s : TimerThread) : Action → Option TimerThread
  | .schedule time => some (s.schedule time)
  | .stop immediate => some (s.stop immediate)
  | .tick duration => some { s with now := s.now + duration }
  | .test =>
    if s.location = .testing then
      if s.stopRequested ∧ s.taskQueue = [] then some { s with location := .ended }
      else some { s with location := .locking }
    else none
  | .lock i => if s.location = .locking then s.locked i else none
  | .wake => if s.location = .waiting then some { s with location := .testing } else none
  | .start =>
    match s.location with
    | .starting entry => some { s with tasks := s.tasks ++ [entry], location := .testing }
    | _ => none
  | .run j =>
    match s.tasks[j]? with
    | some entry =>
      some { s with tasks := s.tasks.eraseIdx j, runs := s.runs ++ [(entry, s.now)] }
    | none => none

/-! ## The property -/

/-- No function is taken from an empty queue; none has run twice, or more than a millisecond before
its time. -/
structure Safe (s : TimerThread) : Prop where
  defined : s.location ≠ .undefined
  once : (s.runs.map fun r => r.1.number).Nodup
  onTime : ∀ r ∈ s.runs, r.1.scheduledTime - millisecond ≤ r.2

/-! ## The condition -/

/-- A stop request that comes between the test and the lock of a turn leaves entries in the
queue. -/
def stopsInTime (s : TimerThread) : Action → Bool
  | .stop immediate =>
    decide (s.location ≠ .locking) || (!immediate && decide (s.taskQueue ≠ []))
  | _ => true

abbrev StopsInTime (s : TimerThread) (a : Action) : Prop := s.stopsInTime a = true

/-! ## The invariant -/

/-- The entry that the loop has taken and not started. -/
def Location.entry? : Location → Option QueueEntry
  | .starting entry => some entry
  | _ => none

/-- The entries that were scheduled and not cleared, wherever they are. -/
def entries (s : TimerThread) : List QueueEntry :=
  s.taskQueue ++ (s.location.entry?.toList ++ (s.tasks ++ s.runs.map Prod.fst))

/-- Entries with numbers of their own, below `n`. -/
structure Numbered (es : List QueueEntry) (n : Nat) : Prop where
  nodup : (es.map QueueEntry.number).Nodup
  lt : ∀ e ∈ es, e.number < n

structure Inv (s : TimerThread) : Prop where
  defined : s.location ≠ .undefined
  /-- The condition of the loop still holds when the mutex is taken. -/
  locking : s.location = .locking → s.stopRequested = true → s.taskQueue ≠ []
  numbered : Numbered s.entries s.scheduled
  due : ∀ e ∈ s.location.entry?.toList ++ s.tasks, e.scheduledTime - millisecond ≤ s.now
  onTime : ∀ r ∈ s.runs, r.1.scheduledTime - millisecond ≤ r.2

/-! ## Numbers -/

namespace Numbered

theorem perm {es es' : List QueueEntry} {n : Nat} (h : Numbered es n)
    (hperm : es'.Perm es) : Numbered es' n where
  nodup := (hperm.map _).nodup_iff.mpr h.nodup
  lt := fun e he => h.lt e (hperm.mem_iff.mp he)

theorem sublist {es es' : List QueueEntry} {n : Nat} (h : Numbered es n)
    (hsub : es'.Sublist es) : Numbered es' n where
  nodup := h.nodup.sublist (hsub.map _)
  lt := fun e he => h.lt e (hsub.subset he)

theorem cons {es : List QueueEntry} {n : Nat} (h : Numbered es n) (time : Int) :
    Numbered (⟨n, time⟩ :: es) (n + 1) where
  nodup := by
    rw [List.map_cons, List.nodup_cons]
    refine ⟨fun hmem => ?_, h.nodup⟩
    obtain ⟨e, he, heq⟩ := List.mem_map.mp hmem
    have hlt := h.lt e he
    rw [show e.number = n from heq] at hlt
    exact Nat.lt_irrefl n hlt
  lt := by
    intro e he
    rcases List.mem_cons.mp he with rfl | he
    · exact Nat.lt_succ_self n
    · exact Nat.lt_succ_of_lt (h.lt e he)

end Numbered

/-! ## What a step does -/

inductive Steps (s : TimerThread) : Action → TimerThread → Prop
  | schedule {time : Int} : s.stopRequested = false →
      Steps s (.schedule time) { s with
        taskQueue := s.taskQueue ++ [⟨s.scheduled, time⟩]
        scheduled := s.scheduled + 1 }
  | refused {time : Int} : Steps s (.schedule time) s
  | stop {immediate : Bool} : Steps s (.stop immediate) (s.stop immediate)
  | tick {duration : Nat} : Steps s (.tick duration) { s with now := s.now + duration }
  | ends : s.location = .testing → Steps s .test { s with location := .ended }
  | goesOn : s.location = .testing → (s.stopRequested = true → s.taskQueue ≠ []) →
      Steps s .test { s with location := .locking }
  | waits {i : Nat} : s.location = .locking → Steps s (.lock i) { s with location := .waiting }
  | takes {i : Nat} {top : QueueEntry} : s.location = .locking → s.taskQueue[i]? = some top →
      top.scheduledTime - millisecond ≤ s.now →
      Steps s (.lock i)
        { s with taskQueue := s.taskQueue.eraseIdx i, location := .starting top }
  | topOfEmpty {i : Nat} : s.location = .locking → s.stopRequested = true → s.taskQueue = [] →
      Steps s (.lock i) { s with location := .undefined }
  | wakes : s.location = .waiting → Steps s .wake { s with location := .testing }
  | starts {entry : QueueEntry} : s.location = .starting entry →
      Steps s .start { s with tasks := s.tasks ++ [entry], location := .testing }
  | runs {j : Nat} {entry : QueueEntry} : s.tasks[j]? = some entry →
      Steps s (.run j)
        { s with tasks := s.tasks.eraseIdx j, runs := s.runs ++ [(entry, s.now)] }

namespace TimerThreadLemmas

variable {s s' : TimerThread} {a : Action}

theorem of_locked {i : Nat} (hlocation : s.location = .locking) (h : s.locked i = some s') :
    Steps s (.lock i) s' := by
  unfold locked at h
  split at h
  · cases h
    exact .waits hlocation
  · next hnot =>
    split at h
    · next hempty =>
      cases h
      exact .topOfEmpty hlocation ((Bool.not_eq_false _).mp fun hf => hnot ⟨hempty, hf⟩) hempty
    · split at h
      · next top htop =>
        split at h
        · split at h
          · cases h
            exact .waits hlocation
          · next hdue =>
            cases h
            exact .takes hlocation htop (by omega)
        · cases h
      · cases h

theorem of_step (h : s.step a = some s') : Steps s a s' := by
  unfold step at h
  cases a with
  | schedule time =>
    cases h
    unfold TimerThread.schedule
    split
    · exact .refused
    · next hno => exact .schedule ((Bool.not_eq_true _).mp hno)
  | stop immediate =>
    cases h
    exact .stop
  | tick duration =>
    cases h
    exact .tick
  | test =>
    dsimp only at h
    split at h
    · next hlocation =>
      split at h
      · cases h
        exact .ends hlocation
      · next hnot =>
        cases h
        exact .goesOn hlocation fun hstop hempty => hnot ⟨hstop, hempty⟩
    · cases h
  | lock i =>
    dsimp only at h
    split at h
    · next hlocation => exact of_locked hlocation h
    · cases h
  | wake =>
    dsimp only at h
    split at h
    · next hlocation =>
      cases h
      exact .wakes hlocation
    · cases h
  | start =>
    dsimp only at h
    split at h
    · next entry hlocation =>
      cases h
      exact .starts hlocation
    · cases h
  | run j =>
    dsimp only at h
    split at h
    · next entry hentry =>
      cases h
      exact .runs hentry
    · cases h

/-! ### The steps -/

theorem perm_eraseIdx {α : Type} {l : List α} {i : Nat} {x : α} (h : l[i]? = some x) :
    (x :: l.eraseIdx i).Perm l := by
  obtain ⟨hi, rfl⟩ := List.getElem?_eq_some_iff.mp h
  exact List.getElem_cons_eraseIdx_perm hi

theorem inv_init (now : Int) : Inv (init now) where
  defined := nofun
  locking := nofun
  numbered := ⟨List.nodup_nil, nofun⟩
  due := nofun
  onTime := nofun

/-- A step of the loop that takes nothing. -/
theorem inv_move (hs : s.Inv) {location : Location} (hdefined : location ≠ .undefined)
    (hentry : location.entry? = none) (hbefore : s.location.entry? = none)
    (hlocking : location = .locking → s.stopRequested = true → s.taskQueue ≠ []) :
    Inv { s with location := location } where
  defined := hdefined
  locking := hlocking
  numbered := by
    have hn := hs.numbered
    unfold entries at hn ⊢
    dsimp only
    rw [hentry]
    rwa [hbefore] at hn
  due := by
    have hdue := hs.due
    dsimp only
    rw [hentry]
    rwa [hbefore] at hdue
  onTime := hs.onTime

theorem inv_stop (hs : s.Inv) {immediate : Bool} (hg : s.StopsInTime (.stop immediate)) :
    Inv (s.stop immediate) where
  defined := hs.defined
  locking := by
    intro hlocation _
    unfold StopsInTime stopsInTime at hg
    have hleft := (Bool.or_eq_true _ _).mp hg
    rcases hleft with hno | hleaves
    · exact absurd hlocation (of_decide_eq_true hno)
    · obtain ⟨hkeeps, hne⟩ := (Bool.and_eq_true _ _).mp hleaves
      obtain rfl : immediate = false := by simpa using hkeeps
      exact of_decide_eq_true hne
  numbered := by
    refine hs.numbered.sublist ?_
    unfold entries TimerThread.stop
    cases immediate with
    | false => exact .refl _
    | true => exact List.sublist_append_right _ _
  due := hs.due
  onTime := hs.onTime

theorem inv_schedule (hs : s.Inv) (hno : s.stopRequested = false) (time : Int) :
    Inv { s with
      taskQueue := s.taskQueue ++ [⟨s.scheduled, time⟩]
      scheduled := s.scheduled + 1 } where
  defined := hs.defined
  locking := fun _ hstop => absurd (hno.symm.trans hstop) Bool.false_ne_true
  numbered := by
    refine (hs.numbered.cons time).perm ?_
    unfold entries
    dsimp only
    rw [List.append_assoc]
    exact List.perm_middle
  due := hs.due
  onTime := hs.onTime

theorem inv_tick (hs : s.Inv) (duration : Nat) : Inv { s with now := s.now + duration } where
  defined := hs.defined
  locking := hs.locking
  numbered := hs.numbered
  due := by
    intro e he
    have hnow := hs.due e he
    dsimp only
    omega
  onTime := hs.onTime

/-- The loop takes an entry from the queue. -/
theorem inv_take (hs : s.Inv) {i : Nat} {top : QueueEntry} (hlocation : s.location = .locking)
    (htop : s.taskQueue[i]? = some top) (hdue : top.scheduledTime - millisecond ≤ s.now) :
    Inv { s with taskQueue := s.taskQueue.eraseIdx i, location := .starting top } where
  defined := nofun
  locking := nofun
  numbered := by
    refine hs.numbered.perm ?_
    unfold entries
    rw [hlocation]
    exact List.perm_middle.trans ((perm_eraseIdx htop).append_right _)
  due := by
    intro e he
    rcases List.mem_cons.mp he with rfl | he
    · exact hdue
    · exact hs.due e (List.mem_append_right _ he)
  onTime := hs.onTime

/-- It makes the task of the entry. -/
theorem inv_start (hs : s.Inv) {entry : QueueEntry} (hlocation : s.location = .starting entry) :
    Inv { s with tasks := s.tasks ++ [entry], location := .testing } := by
  have hdue := hs.due
  have hnumbered := hs.numbered
  unfold entries at hnumbered
  rw [hlocation] at hdue hnumbered
  constructor
  case defined => exact nofun
  case locking => exact nofun
  case numbered =>
    refine hnumbered.perm (List.Perm.append_left _ ?_)
    change ((s.tasks ++ [entry]) ++ s.runs.map Prod.fst).Perm _
    rw [List.append_assoc]
    exact List.perm_middle
  case due =>
    intro e he
    rcases List.mem_append.mp (List.mem_append.mp he |>.resolve_left nofun) with he | he
    · exact hdue e (List.mem_append_right _ he)
    · exact hdue e (List.mem_append_left _ he)
  case onTime => exact hs.onTime

/-- A task runs. -/
theorem inv_run (hs : s.Inv) {j : Nat} {entry : QueueEntry} (hentry : s.tasks[j]? = some entry) :
    Inv { s with tasks := s.tasks.eraseIdx j, runs := s.runs ++ [(entry, s.now)] } where
  defined := hs.defined
  locking := hs.locking
  numbered := by
    refine hs.numbered.perm ?_
    unfold entries
    dsimp only
    refine List.Perm.append_left _ (List.Perm.append_left _ ?_)
    rw [List.map_append, ← List.append_assoc]
    refine (List.perm_append_singleton _ _).trans ?_
    exact (perm_eraseIdx hentry).append_right _
  due := by
    intro e he
    refine hs.due e ?_
    rw [List.mem_append] at he ⊢
    exact he.imp_right fun he => List.mem_of_mem_eraseIdx he
  onTime := by
    intro r hr
    rcases List.mem_append.mp hr with hr | hr
    · exact hs.onTime r hr
    · obtain rfl := List.mem_singleton.mp hr
      exact hs.due entry (List.mem_append_right _ (List.mem_of_getElem? hentry))

theorem inv_step (hs : s.Inv) (hg : s.StopsInTime a) (h : s.step a = some s') : s'.Inv := by
  cases of_step h with
  | schedule hno => exact inv_schedule hs hno _
  | refused => exact hs
  | stop => exact inv_stop hs hg
  | tick => exact inv_tick hs _
  | ends hlocation => exact inv_move hs nofun rfl (by rw [hlocation]; rfl) nofun
  | goesOn hlocation hcondition =>
    exact inv_move hs nofun rfl (by rw [hlocation]; rfl) fun _ => hcondition
  | waits hlocation => exact inv_move hs nofun rfl (by rw [hlocation]; rfl) nofun
  | takes hlocation htop hdue => exact inv_take hs hlocation htop hdue
  | topOfEmpty hlocation hstop hempty => exact absurd hempty (hs.locking hlocation hstop)
  | wakes hlocation => exact inv_move hs nofun rfl (by rw [hlocation]; rfl) nofun
  | starts hlocation => exact inv_start hs hlocation
  | runs hentry => exact inv_run hs hentry

theorem safe_of_inv (hs : s.Inv) : s.Safe where
  defined := hs.defined
  once := by
    have hruns : (s.runs.map Prod.fst).Sublist s.entries :=
      (List.sublist_append_right _ _).trans
        ((List.sublist_append_right _ _).trans (List.sublist_append_right _ _))
    have hnodup := (hs.numbered.sublist hruns).nodup
    rw [List.map_map] at hnodup
    exact hnodup
  onTime := hs.onTime

end TimerThreadLemmas

open TimerThreadLemmas

/-! ## Results -/

/-- For every order of the calls, the steps of the loop, the wake-ups and the time that passes. -/
theorem timer_queue_safe {now : Int} {as : List Action} {s : TimerThread}
    (h : Lts.Run step StopsInTime (init now) as s) : s.Safe :=
  safe_of_inv (h.invariant (inv_init now) fun _ _ _ hs hg hstep => inv_step hs hg hstep)

/-- A function that runs, and a stop request while the loop waits. -/
theorem timer_queue_safe_run : ∃ s : TimerThread, s.Safe ∧ s.runs = [(⟨0, 5⟩, 0)] := by
  obtain ⟨s, ⟨as, hrun⟩, hp⟩ := Lts.Reachable.of_exec step StopsInTime (init 0)
    [.test, .lock 0, .schedule 5, .wake, .test, .lock 0, .start, .run 0, .test, .lock 0,
      .stop true, .wake, .test] (fun s => decide (s.runs = [(⟨0, 5⟩, 0)])) (by decide)
  exact ⟨s, timer_queue_safe hrun, of_decide_eq_true hp⟩

/-- A stop request between the test and the lock that leaves no entry: whatever the state, the lock
takes the top of an empty queue. -/
theorem top_of_empty {s : TimerThread} {immediate : Bool} (hlocation : s.location = .locking)
    (hg : ¬ s.StopsInTime (.stop immediate)) (i : Nat) :
    ∃ s', (s.stop immediate).step (.lock i) = some s' ∧ ¬ s'.Safe := by
  have hempty : (s.stop immediate).taskQueue = [] := by
    unfold StopsInTime stopsInTime at hg
    cases immediate with
    | true => rfl
    | false =>
      by_contra hne
      exact hg ((Bool.or_eq_true _ _).mpr (.inr (decide_eq_true hne)))
  have hlocked : (s.stop immediate).location = .locking := hlocation
  refine ⟨{ s.stop immediate with location := .undefined }, ?_, fun hsafe => hsafe.defined rfl⟩
  unfold step
  dsimp only
  rw [if_pos hlocked, locked, if_neg fun h => Bool.noConfusion h.2, if_pos hempty]

/-- The thread is between the test and the lock when it is stopped. -/
theorem stopped_before_lock :
    ¬ ∀ now s, Lts.Reachable step Lts.anyStep (init now) s → s.Safe := by
  intro hclaim
  obtain ⟨s, hs, hp⟩ := Lts.Reachable.of_exec step Lts.anyStep (init 0)
    [.test, .stop true, .lock 0] (fun s => decide (s.location = .undefined)) (by decide)
  exact (hclaim 0 s hs).defined (of_decide_eq_true hp)

end TimerThread

end Stormancer
