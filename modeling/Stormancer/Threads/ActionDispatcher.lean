import Mathlib.Data.Int.Order.Basic
import Mathlib.Data.List.Basic

/-!
# `MainThreadActionDispatcher`

`update` takes the posted actions one after the other and runs them in the calling thread. It goes
on as long as there are actions, or a stop is requested, or until `maxDuration` has passed. The turn
that finds no action carries out the stop, and does not clear the request.

An action may start or stop the dispatcher and may throw; it posts nothing, and neither does another
thread while `update` runs. The clock is a function of the number of its readings: it may be set
back. The task of `stop` is left out.

Results:
1. `ends_of_unstopped`: by induction on the actions, `update` ends when it finds none.
2. `never_ends`: with a stop request it does not end unless time does it.
3. `update_ends_iff`: when `update` ends on all clocks.
-/

namespace Stormancer

/-! ## Data -/

namespace MainThreadActionDispatcher

inductive Call
  | start
  | stop
deriving DecidableEq

/-- A posted action, by the calls that are made while it runs. -/
structure Action where
  calls : List Call
  throws : Option String
deriving DecidableEq

end MainThreadActionDispatcher

open MainThreadActionDispatcher (Call Action)

structure MainThreadActionDispatcher where
  isRunning : Bool
  stopRequested : Bool
  actions : List Action
deriving DecidableEq

namespace MainThreadActionDispatcher

/-! ## Operations -/

def start (d : MainThreadActionDispatcher) : MainThreadActionDispatcher :=
  { d with isRunning := true, stopRequested := false }

def stop (d : MainThreadActionDispatcher) : MainThreadActionDispatcher :=
  { d with stopRequested := true, actions := [] }

def post (d : MainThreadActionDispatcher) (action : Action) :
    Except String MainThreadActionDispatcher :=
  if d.isRunning then .ok { d with actions := d.actions ++ [action] }
  else .error "Dispatcher isn't running"

def call (d : MainThreadActionDispatcher) : Call → MainThreadActionDispatcher
  | .start => d.start
  | .stop => d.stop

/-- A call of `update` under way, with the actions that it has taken from the queue and has run. -/
structure Update where
  dispatcher : MainThreadActionDispatcher
  tasksToRun : Bool
  taken : List Action
  ran : List Action
  /-- The turns that found no action. -/
  emptyTurns : Nat
  thrown : Option String
deriving DecidableEq

/-- A turn of the loop up to the reading of the clock. -/
def turn (u : Update) : Update :=
  let d := u.dispatcher
  match d.actions with
  | action :: actions =>
    let u := { u with
      dispatcher := { d with actions := actions }
      taken := u.taken ++ [action] }
    if u.tasksToRun then
      { u with
        dispatcher := action.calls.foldl call u.dispatcher
        ran := u.ran ++ [action]
        thrown := action.throws }
    else u
  | [] =>
    { u with
      -- `_stopTce` is set along with it.
      dispatcher := { d with isRunning := d.isRunning && !d.stopRequested }
      tasksToRun := false
      emptyTurns := u.emptyTurns + 1 }

/-- The loop of `update`, with at most `n` turns and with the number of the turn: `none` if it goes
on. -/
def updateLoop (clock : Nat → Int) (maxDuration : Int) : (n i : Nat) → Update → Option Update
  | 0, _, _ => none
  | n + 1, i, u =>
    let u := turn u
    if u.thrown.isSome then some u
    else if maxDuration < clock (i + 1) - clock 0 then some u
    else if u.tasksToRun || u.dispatcher.stopRequested then
      updateLoop clock maxDuration n (i + 1) u
    else some u

/-- `update(maxDuration)`, with at most `n` turns. -/
def update (clock : Nat → Int) (maxDuration : Int) (n : Nat) (d : MainThreadActionDispatcher) :
    Option Update :=
  if d.isRunning then updateLoop clock maxDuration n 0 ⟨d, true, [], [], 0, none⟩
  else some ⟨d, true, [], [], 0, none⟩

/-! ## The property -/

/-- `update` ends, at the latest in the turn that finds no action. It has run the actions that it
has taken, which are the first of the queue, once and in order. -/
def EndsWhenEmpty (clock : Nat → Int) (maxDuration : Int) (d : MainThreadActionDispatcher) : Prop :=
  ∃ n u, update clock maxDuration n d = some u ∧ u.emptyTurns ≤ 1 ∧ u.ran = u.taken ∧
    u.taken <+: d.actions

/-! ## The condition -/

/-- Whether a stop is requested after the calls of an action. -/
def Action.stopRequested (a : Action) (before : Bool) : Bool :=
  a.calls.foldl (fun _ c => c = .stop) before

/-- No stop is requested when the actions are done: they have all run, or one of them has cleared
the others. Or one of them throws. -/
def Unstopped : (stopRequested : Bool) → List Action → Prop
  | stopRequested, [] => stopRequested = false
  | stopRequested, a :: actions =>
    a.throws.isSome = true ∨
      if .stop ∈ a.calls then a.stopRequested stopRequested = false
      else Unstopped (a.stopRequested stopRequested) actions

namespace ActionDispatcherLemmas

variable {clock : Nat → Int} {maxDuration : Int} {d : MainThreadActionDispatcher}

theorem stopRequested_foldl (calls : List Call) (d : MainThreadActionDispatcher) :
    (calls.foldl call d).stopRequested =
      calls.foldl (fun _ c => decide (c = .stop)) d.stopRequested := by
  induction calls generalizing d with
  | nil => rfl
  | cons c calls ih =>
    rw [List.foldl_cons, List.foldl_cons, ih]
    cases c <;> rfl

theorem actions_foldl (calls : List Call) (d : MainThreadActionDispatcher) :
    (calls.foldl call d).actions = if .stop ∈ calls then [] else d.actions := by
  induction calls generalizing d with
  | nil => rfl
  | cons c calls ih =>
    rw [List.foldl_cons, ih]
    cases c with
    | start => simp [call, start]
    | stop => simp [call, stop]

/-- An update that has only run actions so far. -/
structure Running (queue : List Action) (u : Update) : Prop where
  tasksToRun : u.tasksToRun = true
  emptyTurns : u.emptyTurns = 0
  ran : u.ran = u.taken
  taken : u.taken ++ u.dispatcher.actions <+: queue

theorem running_start (d : MainThreadActionDispatcher) :
    Running d.actions ⟨d, true, [], [], 0, none⟩ := ⟨rfl, rfl, rfl, List.prefix_rfl⟩

variable {queue actions : List Action} {u : Update} {a : Action}

/-- A turn that finds an action. -/
theorem turn_cons (hu : Running queue u) (hactions : u.dispatcher.actions = a :: actions) :
    Running queue (turn u) ∧ (turn u).thrown = a.throws ∧
      (turn u).dispatcher.stopRequested = a.stopRequested u.dispatcher.stopRequested ∧
      (turn u).dispatcher.actions = if .stop ∈ a.calls then [] else actions := by
  have hturn : turn u = { u with
      dispatcher := a.calls.foldl call { u.dispatcher with actions := actions }
      taken := u.taken ++ [a]
      ran := u.ran ++ [a]
      thrown := a.throws } := by
    unfold turn
    dsimp only
    rw [hactions]
    dsimp only
    rw [if_pos hu.tasksToRun]
  have hleft := actions_foldl a.calls { u.dispatcher with actions := actions }
  rw [hturn]
  refine ⟨⟨hu.tasksToRun, hu.emptyTurns, congrArg (· ++ [a]) hu.ran, ?_⟩, rfl,
    stopRequested_foldl _ _, hleft⟩
  have hqueue := hu.taken
  rw [hactions, ← List.singleton_append, ← List.append_assoc] at hqueue
  dsimp only
  rw [hleft]
  split
  · rw [List.append_nil]
    exact (List.prefix_append _ _).trans hqueue
  · exact hqueue

/-- The turn that finds none. -/
theorem turn_nil (hactions : u.dispatcher.actions = []) :
    turn u = { u with
      dispatcher := { u.dispatcher with
        isRunning := u.dispatcher.isRunning && !u.dispatcher.stopRequested }
      tasksToRun := false
      emptyTurns := u.emptyTurns + 1 } := by
  unfold turn
  dsimp only
  rw [hactions]

/-! ### Updates that end -/

/-- What the actions of an update are when it ends. -/
structure Done (queue : List Action) (u : Update) : Prop where
  emptyTurns : u.emptyTurns ≤ 1
  ran : u.ran = u.taken
  taken : u.taken <+: queue

theorem Running.done (hu : Running queue u) : Done queue u where
  emptyTurns := hu.emptyTurns ▸ Nat.zero_le 1
  ran := hu.ran
  taken := (List.prefix_append _ _).trans hu.taken

theorem ends_of_empty {i : Nat} (hu : Running queue u) (hactions : u.dispatcher.actions = [])
    (hstop : u.dispatcher.stopRequested = false) :
    ∃ n u', updateLoop clock maxDuration n i u = some u' ∧ Done queue u' := by
  have hdone : Done queue (turn u) := by
    rw [turn_nil hactions]
    exact ⟨Nat.le_of_eq (congrArg (· + 1) hu.emptyTurns), hu.ran, hu.done.taken⟩
  refine ⟨1, turn u, ?_, hdone⟩
  unfold updateLoop
  dsimp only
  split
  · rfl
  · split
    · rfl
    · rw [turn_nil hactions, hstop]
      rfl

/-- By induction on the actions that are left. -/
theorem ends_of_unstopped (clock : Nat → Int) (maxDuration : Int) {i : Nat} (hu : Running queue u)
    (hactions : u.dispatcher.actions = actions)
    (h : Unstopped u.dispatcher.stopRequested actions) :
    ∃ n u', updateLoop clock maxDuration n i u = some u' ∧ Done queue u' := by
  induction actions generalizing u i with
  | nil => exact ends_of_empty hu hactions h
  | cons a actions ih =>
    obtain ⟨hu', hthrown, hstop, hleft⟩ := turn_cons hu hactions
    -- an update that ends with this turn
    have hends : ∀ {r : Option Update}, r = some (turn u) →
        ∃ u', r = some u' ∧ Done queue u' := fun hr => ⟨_, hr, hu'.done⟩
    -- one that goes on with what is left
    have hnext : a.throws.isSome = false →
        ∃ n u', updateLoop clock maxDuration n (i + 1) (turn u) = some u' ∧ Done queue u' := by
      intro hno
      have hrest := h.resolve_left (Bool.eq_false_iff.mp hno)
      by_cases hclears : .stop ∈ a.calls
      · rw [if_pos hclears] at hrest hleft
        exact ends_of_empty hu' hleft (hstop.trans hrest)
      · rw [if_neg hclears] at hrest hleft
        exact ih hu' hleft (hstop ▸ hrest)
    cases hthrows : a.throws.isSome with
    | true =>
      refine ⟨1, hends ?_⟩
      rw [updateLoop, if_pos (by rw [hthrown, hthrows])]
    | false =>
      obtain ⟨n, u', hloop, hdone⟩ := hnext hthrows
      by_cases htime : maxDuration < clock (i + 1) - clock 0
      · refine ⟨1, hends ?_⟩
        rw [updateLoop, if_neg (by rw [hthrown, hthrows]; exact Bool.false_ne_true),
          if_pos htime]
      · refine ⟨n + 1, u', ?_, hdone⟩
        rw [updateLoop, if_neg (by rw [hthrown, hthrows]; exact Bool.false_ne_true),
          if_neg htime, hu'.tasksToRun, Bool.true_or, if_pos rfl, hloop]

/-! ### Updates that do not end -/

/-- Once it has found no action with a stop requested, an update goes on. -/
theorem stuck (hclock : ∀ i, clock (i + 1) - clock 0 ≤ maxDuration) {n i : Nat}
    (hactions : u.dispatcher.actions = []) (hstop : u.dispatcher.stopRequested = true)
    (hthrown : u.thrown = none) : updateLoop clock maxDuration n i u = none := by
  induction n generalizing u i with
  | zero => rfl
  | succ n ih =>
    have hturn := turn_nil hactions
    have hnot : (turn u).thrown = none := by rw [hturn]; exact hthrown
    have hrequested : (turn u).dispatcher.stopRequested = true := by rw [hturn]; exact hstop
    have hempty : (turn u).dispatcher.actions = [] := by rw [hturn]; exact hactions
    rw [updateLoop, if_neg (by rw [hnot]; exact Bool.false_ne_true),
      if_neg (Int.not_lt.mpr (hclock i)), hrequested, Bool.or_true, if_pos rfl]
    exact ih hempty hrequested hnot

/-- By induction on the turns. -/
theorem never_ends (hclock : ∀ i, clock (i + 1) - clock 0 ≤ maxDuration) {n i : Nat}
    (hu : Running queue u) (hthrown : u.thrown = none)
    (h : ¬ Unstopped u.dispatcher.stopRequested u.dispatcher.actions) :
    updateLoop clock maxDuration n i u = none := by
  induction n generalizing u i with
  | zero => rfl
  | succ n ih =>
    cases hactions : u.dispatcher.actions with
    | nil =>
      rw [hactions] at h
      exact stuck hclock hactions ((Bool.not_eq_false _).mp h) hthrown
    | cons a actions =>
      obtain ⟨hu', hthrown', hstop, hleft⟩ := turn_cons hu hactions
      rw [hactions, Unstopped, not_or] at h
      have hnot : a.throws = none := Option.not_isSome_iff_eq_none.mp h.1
      have hrest := h.2
      rw [hnot] at hthrown'
      rw [updateLoop, if_neg (by rw [hthrown']; exact Bool.false_ne_true),
        if_neg (Int.not_lt.mpr (hclock i)), hu'.tasksToRun, Bool.true_or, if_pos rfl]
      refine ih hu' hthrown' ?_
      rw [hstop, hleft]
      split
      · next hclears =>
        rw [if_pos hclears] at hrest
        exact hrest
      · next hclears =>
        rw [if_neg hclears] at hrest
        exact hrest

end ActionDispatcherLemmas

open ActionDispatcherLemmas

/-! ## Results -/

/-- For every queue and every duration: on all clocks `update` ends when it finds no action exactly
when it is not running or no stop is requested then. -/
theorem update_ends_iff (maxDuration : Int) (d : MainThreadActionDispatcher) :
    (∀ clock, EndsWhenEmpty clock maxDuration d) ↔
      d.isRunning = false ∨ Unstopped d.stopRequested d.actions := by
  constructor
  · intro h
    by_contra hnot
    rw [not_or, Bool.not_eq_false] at hnot
    -- a clock on which the duration does not pass
    obtain ⟨n, u, hu, -⟩ := h fun i => if i = 0 then 0 else maxDuration
    rw [update, if_pos hnot.1, never_ends (by simp) (running_start d) rfl hnot.2] at hu
    cases hu
  · intro h clock
    unfold EndsWhenEmpty update
    cases hrunning : d.isRunning with
    | false => exact ⟨0, _, rfl, Nat.zero_le 1, rfl, List.nil_prefix⟩
    | true =>
      have hunstopped := h.resolve_left (by rw [hrunning]; exact fun heq => Bool.noConfusion heq)
      obtain ⟨n, u, hloop, hdone⟩ := ends_of_unstopped clock maxDuration (running_start d)
        rfl hunstopped
      exact ⟨n, u, hloop, hdone.emptyTurns, hdone.ran, hdone.taken⟩

/-- A stop request, no actions, and a clock that stands still. -/
theorem stopped_update_goes_on :
    ¬ ∀ clock maxDuration (d : MainThreadActionDispatcher), EndsWhenEmpty clock maxDuration d := by
  intro h
  obtain ⟨n, u, hu, -⟩ := h (fun _ => 0) 10 ⟨true, true, []⟩
  rw [update, if_pos rfl, stuck (by simp) rfl rfl rfl] at hu
  cases hu

end MainThreadActionDispatcher

end Stormancer
