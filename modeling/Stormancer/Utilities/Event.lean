import Mathlib.Data.List.Nodup
import Mathlib.Data.List.Range
import Stormancer.Lib.Run

/-!
# `Event`

An event has a list of callbacks. `subscribe` puts one at the end of the list, and its subscription
erases it when it is reset or destroyed. The call operator copies the list and calls the callbacks
of the copy. While a callback runs, callbacks may be subscribed and unsubscribed and the event may
be fired again.

Callbacks and their subscriptions are numbered in the order of the subscriptions. The calls of the
operator that are under way are a stack, and a callback of the innermost one is running. Callbacks
return, and the event outlives its calls.

Results:
1. `inv_step`: the list has the callbacks that are subscribed, and so has every copy of it.
2. `fire_calls_subscribers`: a fire calls those that are subscribed when it starts, once each and in
   order.
3. `delivers_iff`: which fires call none that has been unsubscribed before its turn.
-/

namespace Stormancer

/-! ## Data -/

namespace Event

/-- A call of the operator. -/
structure Fire where
  /-- The subscriptions so far when the call started, and those that had been reset. -/
  subscribed : Nat
  unsubscribed : List Nat
  /-- What is left of `functionsCopy`. -/
  rest : List Nat
  called : List Nat
  /-- The callbacks that have been unsubscribed before their turn. -/
  dropped : List Nat
deriving DecidableEq

end Event

open Event (Fire)

structure Event where
  functions : List Nat
  subscribed : Nat
  /-- The subscriptions whose callback is empty. -/
  unsubscribed : List Nat
  /-- The calls of the operator under way, the innermost one first. -/
  fires : List Fire
  returned : List Fire
deriving DecidableEq

namespace Event

def init : Event := ⟨[], 0, [], [], []⟩

/-! ## Operations -/

def subscribe (s : Event) : Event :=
  { s with
    functions := s.functions ++ [s.subscribed]
    subscribed := s.subscribed + 1 }

/-- A callback is unsubscribed while a call is under way. -/
def Fire.drop (f : Fire) (id : Nat) : Fire :=
  if id ∈ f.rest then { f with dropped := f.dropped ++ [id] } else f

/-- `Subscription_impl::unsubscribe`, which the destructor calls too. -/
def unsubscribe (s : Event) (id : Nat) : Event :=
  if id ∈ s.unsubscribed then s
  else { s with
    functions := s.functions.erase id
    unsubscribed := id :: s.unsubscribed
    fires := s.fires.map fun f => f.drop id }

/-- The loop of the operator goes on: the next callback is called, or the operator returns. -/
def goOn (s : Event) (f : Fire) (fires : List Fire) : Event :=
  match f.rest with
  | [] => { s with fires := fires, returned := s.returned ++ [f] }
  | id :: rest => { s with fires := { f with rest := rest, called := f.called ++ [id] } :: fires }

/-- The call operator up to its first callback. -/
def fire (s : Event) : Event :=
  s.goOn ⟨s.subscribed, s.unsubscribed, s.functions, [], []⟩ s.fires

/-! ## Steps -/

inductive Action
  | subscribe
  | unsubscribe (id : Nat)
  | fire
  /-- The callback that is running returns. -/
  | callbackReturns
deriving DecidableEq

def step (s : Event) : Action → Option Event
  | .subscribe => some s.subscribe
  | .unsubscribe id => if id < s.subscribed then some (s.unsubscribe id) else none
  | .fire => some s.fire
  | .callbackReturns =>
    match s.fires with
    | [] => none
    | f :: fires => some (s.goOn f fires)

/-! ## The property -/

/-- The callback was subscribed when the call started. -/
def Fire.Subscribed (f : Fire) (id : Nat) : Prop := id < f.subscribed ∧ id ∉ f.unsubscribed

/-- The call has called exactly these callbacks, once each and in the order of subscription. -/
structure Fire.Delivers (f : Fire) (ids : Nat → Prop) : Prop where
  exactly : ∀ id, id ∈ f.called ↔ ids id
  inOrder : f.called.Pairwise (· < ·)

/-! ## The invariant -/

/-- The subscriptions that have not been reset, in order. -/
def subscribers (subscribed : Nat) (unsubscribed : List Nat) : List Nat :=
  (List.range subscribed).filter fun id => id ∉ unsubscribed

structure Fire.Inv (f : Fire) : Prop where
  copy : f.called ++ f.rest = subscribers f.subscribed f.unsubscribed
  dropped : ∀ id ∈ f.dropped, f.Subscribed id

structure Inv (s : Event) : Prop where
  functions : s.functions = subscribers s.subscribed s.unsubscribed
  unsubscribed : ∀ id ∈ s.unsubscribed, id < s.subscribed
  fires : ∀ f ∈ s.fires, f.Inv
  returned : ∀ f ∈ s.returned, f.Inv ∧ f.rest = []

namespace EventLemmas

variable {s s' : Event} {a : Action} {f : Fire} {n id : Nat} {ids : List Nat}

/-! ### Subscribers -/

theorem mem_subscribers : id ∈ subscribers n ids ↔ id < n ∧ id ∉ ids := by
  simp [subscribers]

theorem sorted_subscribers : (subscribers n ids).Pairwise (· < ·) :=
  List.pairwise_lt_range.filter _

theorem subscribers_succ (h : ∀ id ∈ ids, id < n) :
    subscribers (n + 1) ids = subscribers n ids ++ [n] := by
  have hnew : n ∉ ids := fun hn => Nat.lt_irrefl n (h n hn)
  unfold subscribers
  rw [List.range_succ, List.filter_append]
  simp [hnew]

theorem subscribers_cons : subscribers n (id :: ids) = (subscribers n ids).erase id := by
  have hnodup : (subscribers n ids).Nodup := List.nodup_range.filter _
  rw [hnodup.erase_eq_filter]
  unfold subscribers
  rw [List.filter_filter]
  refine List.filter_congr fun i _ => ?_
  by_cases hi : i = id <;> simp [hi]

/-! ### Fires -/

theorem inv_drop (hf : f.Inv) : (f.drop id).Inv := by
  unfold Fire.drop
  split
  · next hmem =>
    refine ⟨hf.copy, fun i hi => ?_⟩
    rcases List.mem_append.mp hi with hi | hi
    · exact hf.dropped i hi
    · obtain rfl := List.mem_singleton.mp hi
      have hin : i ∈ f.called ++ f.rest := List.mem_append_right _ hmem
      rw [hf.copy] at hin
      exact mem_subscribers.mp hin
  · exact hf

theorem inv_goOn (hs : s.Inv) (hf : f.Inv) {fires : List Fire} (hfires : ∀ g ∈ fires, g.Inv) :
    (s.goOn f fires).Inv := by
  unfold goOn
  split
  · next hrest =>
    refine ⟨hs.functions, hs.unsubscribed, hfires, fun g hg => ?_⟩
    rcases List.mem_append.mp hg with hg | hg
    · exact hs.returned g hg
    · obtain rfl := List.mem_singleton.mp hg
      exact ⟨hf, hrest⟩
  · next id rest hrest =>
    refine ⟨hs.functions, hs.unsubscribed, fun g hg => ?_, hs.returned⟩
    rcases List.mem_cons.mp hg with rfl | hg
    · refine ⟨?_, hf.dropped⟩
      have hcopy := hf.copy
      rw [hrest] at hcopy
      rw [List.append_assoc]
      exact hcopy
    · exact hfires g hg

/-! ### The steps -/

theorem inv_init : Inv init where
  functions := rfl
  unsubscribed := nofun
  fires := nofun
  returned := nofun

theorem inv_unsubscribe (hs : s.Inv) (hid : id < s.subscribed) : (s.unsubscribe id).Inv := by
  unfold unsubscribe
  split
  · exact hs
  · constructor
    case functions =>
      dsimp only
      rw [hs.functions, subscribers_cons]
    case unsubscribed =>
      intro i hi
      rcases List.mem_cons.mp hi with rfl | hi
      · exact hid
      · exact hs.unsubscribed i hi
    case fires =>
      intro f hf
      obtain ⟨g, hg, rfl⟩ := List.mem_map.mp hf
      exact inv_drop (hs.fires g hg)
    case returned => exact hs.returned

theorem inv_step (hs : s.Inv) (h : s.step a = some s') : s'.Inv := by
  cases a with
  | subscribe =>
    cases h
    refine ⟨?_, fun i hi => Nat.lt_succ_of_lt (hs.unsubscribed i hi), hs.fires, hs.returned⟩
    exact (congrArg (· ++ _) hs.functions).trans (subscribers_succ hs.unsubscribed).symm
  | unsubscribe id =>
    unfold step at h
    dsimp only at h
    split at h
    · next hid =>
      cases h
      exact inv_unsubscribe hs hid
    · cases h
  | fire =>
    cases h
    have hcopy : Fire.Inv ⟨s.subscribed, s.unsubscribed, s.functions, [], []⟩ :=
      ⟨hs.functions, fun _ hid => absurd hid List.not_mem_nil⟩
    exact inv_goOn hs hcopy hs.fires
  | callbackReturns =>
    unfold step at h
    dsimp only at h
    split at h
    · cases h
    · next f fires hfires =>
      cases h
      have hall := hs.fires
      rw [hfires] at hall
      exact inv_goOn hs (hall f List.mem_cons_self) fun g hg => hall g (List.mem_cons_of_mem f hg)

theorem inv_of_reachable (h : Lts.Reachable step Lts.anyStep init s) : s.Inv :=
  h.invariant inv_init fun _ _ _ hs _ hstep => inv_step hs hstep

theorem called_eq (hs : s.Inv) (hf : f ∈ s.returned) :
    f.called = subscribers f.subscribed f.unsubscribed := by
  obtain ⟨hinv, hrest⟩ := hs.returned f hf
  have hcopy := hinv.copy
  rw [hrest, List.append_nil] at hcopy
  exact hcopy

end EventLemmas

open EventLemmas

/-! ## Results -/

/-- For every order of subscriptions, resets and calls of the operator, also by callbacks. -/
theorem fire_calls_subscribers {s : Event} (h : Lts.Reachable step Lts.anyStep init s) {f : Fire}
    (hf : f ∈ s.returned) : f.Delivers f.Subscribed := by
  have hcalled := called_eq (inv_of_reachable h) hf
  refine ⟨fun id => ?_, ?_⟩
  · rw [hcalled]
    exact mem_subscribers
  · rw [hcalled]
    exact sorted_subscribers

/-- The first callback unsubscribes the second one and subscribes another. -/
theorem fire_calls_subscribers_run :
    ∃ f : Fire, f.Delivers f.Subscribed ∧ f.called = [0, 1] := by
  obtain ⟨s, hs, hp⟩ := Lts.Reachable.of_exec step Lts.anyStep init
    [.subscribe, .subscribe, .fire, .unsubscribe 1, .subscribe, .callbackReturns,
      .callbackReturns]
    (fun s => decide (s.returned = [⟨2, [], [], [0, 1], [1]⟩])) (by decide)
  have hreturned := of_decide_eq_true hp
  have hmem : ⟨2, [], [], [0, 1], [1]⟩ ∈ s.returned := by
    rw [hreturned]
    exact List.mem_singleton_self _
  exact ⟨_, fire_calls_subscribers hs hmem, rfl⟩

/-- A call of the operator leaves out what has been unsubscribed before its turn exactly when
nothing has been. -/
theorem delivers_iff {s : Event} (h : Lts.Reachable step Lts.anyStep init s) {f : Fire}
    (hf : f ∈ s.returned) :
    f.Delivers (fun id => f.Subscribed id ∧ id ∉ f.dropped) ↔ f.dropped = [] := by
  have hs := inv_of_reachable h
  have hcalled := called_eq hs hf
  constructor
  · intro hdelivers
    refine List.eq_nil_iff_forall_not_mem.mpr fun id hid => ?_
    have hsubscribed := (hs.returned f hf).1.dropped id hid
    have hmem : id ∈ f.called := by
      rw [hcalled]
      exact mem_subscribers.mpr hsubscribed
    exact ((hdelivers.exactly id).mp hmem).2 hid
  · intro hnone
    refine ⟨fun id => ?_, by rw [hcalled]; exact sorted_subscribers⟩
    rw [hcalled, hnone]
    exact mem_subscribers.trans (and_iff_left List.not_mem_nil).symm

/-- The callback that the first one unsubscribes is called. -/
theorem unsubscribed_callback_called :
    ¬ ∀ s, Lts.Reachable step Lts.anyStep init s → ∀ f ∈ s.returned,
      f.Delivers fun id => f.Subscribed id ∧ id ∉ f.dropped := by
  intro hclaim
  obtain ⟨s, hs, hp⟩ := Lts.Reachable.of_exec step Lts.anyStep init
    [.subscribe, .subscribe, .fire, .unsubscribe 1, .callbackReturns, .callbackReturns]
    (fun s => decide (s.returned = [⟨2, [], [], [0, 1], [1]⟩])) (by decide)
  have hmem : ⟨2, [], [], [0, 1], [1]⟩ ∈ s.returned := by
    rw [of_decide_eq_true hp]
    exact List.mem_singleton_self _
  exact (((hclaim s hs _ hmem).exactly 1).mp (by decide)).2 (by decide)

end Event

end Stormancer
