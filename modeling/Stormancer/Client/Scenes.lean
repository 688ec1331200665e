import Stormancer.Scene.Routes

/-!
# The scenes of a client

`Client::_scenes` has an entry for each address that was asked for, with the task of its scene.
The continuation of the task subscribes to the state of the scene and puts the subscription into
the entry: when the scene is disconnecting or disconnected, the handler erases the entry. An
entry unsubscribes in its destructor, and its copies share the subscription, so the destruction
of a copy ends the subscription of the entry. `getSceneIds` copies each entry in its loop and
`disconnectAllScenes` copies the table.

`connectToScene`, `getSceneIds`, `Client::disconnect` and the failure of a task hold the mutex.
The continuation that subscribes does not, so it can run between the start of the factory and
the `emplace` at the end of `connectToScene`: the state `inserting` is the time in between.
The states of a scene come from the environment, in any order that `setConnectionStateInternal`
permits. The continuations of `disconnectAllScenes` are `disconnect` actions of their own.

Results:
1. `left_scene_not_stored`: in every run whose steps meet `Meets`, no entry is of a scene that
   was disconnecting or disconnected, and `connectToScene` does not return such a scene.
2. `getSceneIds_keeps`: `getSceneIds` leaves the table, but no entry keeps its subscription.
3. `getSceneIds_keeps_scene`: after a call of `getSceneIds`, a scene that is disconnected stays
   in the table.
-/

namespace Stormancer.Client

open Slots Scene

/-! ## Data -/

inductive TaskState
  | pending
  | completed
  | failed
deriving DecidableEq

/-- The task of an entry, with the scene that its factory makes. -/
structure SceneTask where
  uri : Str
  task : TaskState
  connectionState : ConnectionState
  /-- Whether the scene was disconnecting or disconnected after it was made. -/
  left : Bool
  /-- Whether the subscription that the continuation made is alive. -/
  subscribed : Bool
  /-- Whether the continuation found an entry for the address. -/
  found : Bool
  /-- Whether a copy of an entry that held the subscription was destroyed. -/
  copied : Bool
deriving DecidableEq

/-- The observable of the scene is completed. -/
def SceneTask.ended (t : SceneTask) : Bool :=
  t.left && decide (t.connectionState = ConnectionState.disconnected)

/-- A subscription is named by the task whose continuation made it. -/
structure ClientScene where
  task : Nat
  isPublic : Bool
  stateChangedSubscription : Option Nat
deriving DecidableEq

structure ClientScenes where
  tasks : List SceneTask
  scenes : Table Str ClientScene
  /-- The entry that the `connectToScene` in progress will enter. -/
  inserting : Option (Str × ClientScene)
  /-- The copies of the table that the calls of `disconnectAllScenes` hold. -/
  copies : List (List ClientScene)

namespace ClientScenes

def initial : ClientScenes := ⟨[], ∅, none, []⟩

def leaves (state : ConnectionState) : Bool :=
  decide (state = ConnectionState.disconnecting) || decide (state = ConnectionState.disconnected)

/-! ## Operations -/

/-- The destructor of some entries, or of copies of them. -/
def unsubscribe (tasks : List SceneTask) (copy : Bool) (entries : List ClientScene) :
    List SceneTask :=
  tasks.mapIdx fun n t =>
    if entries.any fun e => e.stateChangedSubscription = some n then
      { t with subscribed := false, copied := t.copied || copy }
    else t

/-- `_scenes.erase(uri)`. -/
def erase (s : ClientScenes) (uri : Str) : ClientScenes :=
  { s with
    tasks := unsubscribe s.tasks false (s.scenes.lookup uri).toList
    scenes := s.scenes.erase uri }

/-- `connectToScene` up to its `emplace`, with the task that it returns. -/
def connectToScene (s : ClientScenes) (uri : Str) (isPublic : Bool) : Nat × ClientScenes :=
  match s.scenes.lookup uri with
  | some e => (e.task, s)
  | none =>
    (s.tasks.length,
      { s with
        tasks := s.tasks ++ [⟨uri, .pending, .disconnected, false, false, false, false⟩]
        inserting := some (uri, ⟨s.tasks.length, isPublic, none⟩) })

/-- `_scenes.emplace(uri, container)`, which ends a `connectToScene`. -/
def emplace (s : ClientScenes) (uri : Str) (container : ClientScene) : ClientScenes :=
  { s with scenes := s.scenes.emplace uri container, inserting := none }

/-- The continuation of a factory that made a scene. The entry it finds may be of another task. -/
def taskSucceeds (s : ClientScenes) (n : Nat) (t : SceneTask) : ClientScenes :=
  let entry := s.scenes.lookup t.uri
  { s with
    tasks := s.tasks.set n { t with
      task := .completed
      found := entry.isSome
      subscribed := entry.isSome && !t.ended
      copied := false }
    scenes := match entry with
      | some e => s.scenes.insert t.uri { e with stateChangedSubscription := some n }
      | none => s.scenes }

/-- The continuation of a factory that failed. -/
def taskFails (s : ClientScenes) (n : Nat) (t : SceneTask) : ClientScenes :=
  { s with tasks := s.tasks.set n { t with task := .failed } }.erase t.uri

/-- The scene publishes a state, and the handler runs if it is subscribed. -/
def sceneState (s : ClientScenes) (n : Nat) (t : SceneTask) (state : ConnectionState) :
    ClientScenes :=
  let s' := { s with
    tasks := s.tasks.set n { t with
      connectionState := state
      left := t.left || leaves state } }
  if leaves state && t.subscribed then s'.erase t.uri else s'

/-- `Client::disconnect` of a scene. -/
def disconnect (s : ClientScenes) (t : SceneTask) : ClientScenes :=
  match t.connectionState with
  | .connected => s.erase t.uri
  | _ => s

def getSceneIds (s : ClientScenes) : List Str × ClientScenes :=
  (s.scenes.keys, { s with tasks := unsubscribe s.tasks true s.scenes.values })

/-- The task that `getConnectedScene` returns. Its loop is over references. -/
def getConnectedScene (s : ClientScenes) (sceneId : Str) : Option Nat :=
  (s.scenes.lookup sceneId).map (·.task)

inductive Action
  | connectToScene (uri : Str) (isPublic : Bool)
  | emplace
  | taskSucceeds (n : Nat)
  | taskFails (n : Nat)
  | sceneState (n : Nat) (state : ConnectionState)
  | disconnect (n : Nat)
  | getSceneIds
  | getConnectedScene (sceneId : Str)
  /-- The two ends of `disconnectAllScenes`. -/
  | copyScenes
  | destroyCopy (i : Nat)

def step (s : ClientScenes) : Action → Option ClientScenes
  | .connectToScene uri isPublic =>
    if s.inserting.isNone then some (s.connectToScene uri isPublic).2 else none
  | .emplace => s.inserting.map fun (uri, container) => s.emplace uri container
  | .taskSucceeds n =>
    ((s.tasks[n]?).filter fun t => t.task = .pending).map (s.taskSucceeds n)
  | .taskFails n =>
    if s.inserting.isNone then
      ((s.tasks[n]?).filter fun t => t.task = .pending).map (s.taskFails n)
    else none
  | .sceneState n state =>
    ((s.tasks[n]?).filter fun t => !t.ended && decide (t.connectionState ≠ state)).map
      (s.sceneState n · state)
  | .disconnect n =>
    if s.inserting.isNone then
      ((s.tasks[n]?).filter fun t => t.task = .completed).map s.disconnect
    else none
  | .getSceneIds => if s.inserting.isNone then some s.getSceneIds.2 else none
  | .getConnectedScene _ => if s.inserting.isNone then some s else none
  | .copyScenes => some { s with copies := s.copies ++ [s.scenes.values] }
  | .destroyCopy i =>
    (s.copies[i]?).map fun copy =>
      { s with tasks := unsubscribe s.tasks true copy, copies := s.copies.set i [] }

/-! ## The property -/

/-- The condition on a step. A scene whose entry is in the table leaves only after the
continuation of its task found the entry, with no copy of the entry destroyed since. The scene
of an entry that is entered has not left. -/
def Meets (s : ClientScenes) : Action → Prop
  | .sceneState n state => leaves state = true → ∀ t ∈ s.tasks[n]?,
    ∀ e ∈ s.scenes.lookup t.uri, e.task = n →
      t.task = .completed ∧ t.found = true ∧ t.copied = false
  | .emplace => ∀ p ∈ s.inserting, ∀ t ∈ s.tasks[p.2.task]?, t.left = false
  | _ => True

instance (s : ClientScenes) : (a : Action) → Decidable (Meets s a)
  | .sceneState _ _ | .emplace => by unfold Meets; infer_instance
  | .connectToScene _ _ | .taskSucceeds _ | .taskFails _ | .disconnect _ | .getSceneIds
  | .getConnectedScene _ | .copyScenes | .destroyCopy _ => inferInstanceAs (Decidable True)

/-! ## The invariant -/

structure Inv (s : ClientScenes) : Prop where
  /-- An entry and the subscription it holds are of tasks for its address. -/
  entry : ∀ uri e, s.scenes.lookup uri = some e → ∃ t, s.tasks[e.task]? = some t ∧ t.uri = uri
  subscription : ∀ uri e n, s.scenes.lookup uri = some e →
    e.stateChangedSubscription = some n → ∃ t, s.tasks[n]? = some t ∧ t.uri = uri
  /-- The continuation of a task whose entry is not entered yet has found no entry. -/
  inserting : ∀ uri e, s.inserting = some (uri, e) → s.scenes.lookup uri = none ∧
    e.stateChangedSubscription = none ∧
    ∃ t, s.tasks[e.task]? = some t ∧ t.uri = uri ∧ t.found = false
  /-- The subscription of an entry that was not copied is alive. -/
  alive : ∀ uri e t, s.scenes.lookup uri = some e → s.tasks[e.task]? = some t →
    t.task = .completed → t.found = true → t.copied = false → t.ended = false →
      t.subscribed = true

namespace ScenesLemmas

variable {s s' : ClientScenes}

/-! ### Destructors -/

theorem unsubscribe_get (tasks : List SceneTask) (copy : Bool) (entries : List ClientScene)
    (n : Nat) : (unsubscribe tasks copy entries)[n]? = (tasks[n]?).map fun t =>
      if entries.any fun e => e.stateChangedSubscription = some n then
        { t with subscribed := false, copied := t.copied || copy }
      else t := by
  unfold unsubscribe
  rw [List.getElem?_mapIdx]

/-- A destructor changes only the subscriptions. -/
theorem unsubscribe_cases {tasks : List SceneTask} {copy : Bool} {entries : List ClientScene}
    {n : Nat} {t' : SceneTask} (h : (unsubscribe tasks copy entries)[n]? = some t') :
    ∃ t, tasks[n]? = some t ∧ t'.task = t.task ∧ t'.left = t.left ∧ t'.found = t.found ∧
      (t' = t ∨ (∃ e ∈ entries, e.stateChangedSubscription = some n) ∧
        t'.copied = (t.copied || copy)) := by
  rw [unsubscribe_get, Option.map_eq_some_iff] at h
  obtain ⟨t, ht, rfl⟩ := h
  refine ⟨t, ht, ?_⟩
  split
  · next hany =>
    obtain ⟨e, hmem, he⟩ := List.any_eq_true.mp hany
    exact ⟨rfl, rfl, rfl, .inr ⟨⟨e, hmem, of_decide_eq_true he⟩, rfl⟩⟩
  · exact ⟨rfl, rfl, rfl, .inl rfl⟩

theorem unsubscribe_some {tasks : List SceneTask} (copy : Bool) (entries : List ClientScene)
    {n : Nat} {t : SceneTask} (h : tasks[n]? = some t) :
    ∃ t', (unsubscribe tasks copy entries)[n]? = some t' ∧ t'.uri = t.uri ∧
      t'.found = t.found := by
  refine ⟨_, by rw [unsubscribe_get, h]; rfl, ?_⟩
  split <;> exact ⟨rfl, rfl⟩

/-- The destruction of entries or copies, when it ends the subscription of no entry that is in
the table unless it marks its task as copied. -/
theorem inv_unsubscribe (hi : s.Inv) (copy : Bool) (entries : List ClientScene)
    (hkeeps : copy = false → ∀ uri e, s.scenes.lookup uri = some e →
      ∀ d ∈ entries, d.stateChangedSubscription ≠ some e.task) :
    Inv { s with tasks := unsubscribe s.tasks copy entries } := by
  refine ⟨?_, ?_, ?_, ?_⟩
  · intro uri e he
    obtain ⟨t, ht, huri⟩ := hi.entry uri e he
    obtain ⟨t', ht', huri', -⟩ := unsubscribe_some copy entries ht
    exact ⟨t', ht', huri'.trans huri⟩
  · intro uri e n he hn
    obtain ⟨t, ht, huri⟩ := hi.subscription uri e n he hn
    obtain ⟨t', ht', huri', -⟩ := unsubscribe_some copy entries ht
    exact ⟨t', ht', huri'.trans huri⟩
  · intro uri e he
    obtain ⟨hnone, hsub, t, ht, huri, hfound⟩ := hi.inserting uri e he
    obtain ⟨t', ht', huri', hfound'⟩ := unsubscribe_some copy entries ht
    exact ⟨hnone, hsub, t', ht', huri'.trans huri, hfound'.trans hfound⟩
  · intro uri e t' he ht' htask hfound hcopied hended
    obtain ⟨t, ht, -, -, -, hcases⟩ := unsubscribe_cases ht'
    rcases hcases with rfl | ⟨⟨d, hmem, hd⟩, hmark⟩
    · exact hi.alive uri e t' he ht htask hfound hcopied hended
    · cases copy with
      | true => simp [hmark] at hcopied
      | false => exact absurd hd (hkeeps rfl uri e he d hmem)

theorem lookup_of_erase {erased uri : Str} {e : ClientScene}
    (h : (s.scenes.erase erased).lookup uri = some e) :
    uri ≠ erased ∧ s.scenes.lookup uri = some e := by
  rw [Table.lookup_erase_eq] at h
  split at h
  · cases h
  · next hne => exact ⟨hne, h⟩

theorem inv_erase (hi : s.Inv) (erased : Str) : (s.erase erased).Inv := by
  -- First the entry is taken out, then it is destroyed.
  have hout : Inv { s with scenes := s.scenes.erase erased } := by
    refine ⟨?_, ?_, ?_, ?_⟩
    · exact fun uri e he => hi.entry uri e (lookup_of_erase he).2
    · exact fun uri e n he => hi.subscription uri e n (lookup_of_erase he).2
    · intro uri e he
      obtain ⟨hnone, hrest⟩ := hi.inserting uri e he
      refine ⟨?_, hrest⟩
      rw [Table.lookup_erase_eq, hnone, ite_self]
    · exact fun uri e t he => hi.alive uri e t (lookup_of_erase he).2
  refine inv_unsubscribe hout false _ ?_
  rintro - uri e he d hd hsub
  -- The subscription of the erased entry is of a task for the erased address.
  rw [Option.mem_toList] at hd
  obtain ⟨t, ht, hurit⟩ := hi.subscription erased d e.task hd hsub
  obtain ⟨t', ht', hurit'⟩ := hout.entry uri e he
  rw [ht] at ht'
  cases ht'
  exact (lookup_of_erase he).1 (hurit'.symm.trans hurit)

/-- A change of a task that keeps its address. Its continuation finds an entry only if there
is one. -/
theorem inv_set (hi : s.Inv) {n : Nat} {t t' : SceneTask} (ht : s.tasks[n]? = some t)
    (huri : t'.uri = t.uri)
    (hfound : t'.found = true → t.found = true ∨ s.scenes.lookup t.uri ≠ none)
    (halive : ∀ e, s.scenes.lookup t.uri = some e → e.task = n → t'.task = .completed →
      t'.found = true → t'.copied = false → t'.ended = false → t'.subscribed = true) :
    Inv { s with tasks := s.tasks.set n t' } := by
  have hlt := (List.getElem?_eq_some_iff.mp ht).1
  have hsome : ∀ (m : Nat) (u : SceneTask), s.tasks[m]? = some u →
      ∃ u', (s.tasks.set n t')[m]? = some u' ∧ u'.uri = u.uri := by
    intro m u hu
    by_cases hm : n = m
    · subst hm
      rw [ht] at hu
      cases hu
      exact ⟨t', List.getElem?_set_self hlt, huri⟩
    · exact ⟨u, by rw [List.getElem?_set_ne hm, hu], rfl⟩
  refine ⟨?_, ?_, ?_, ?_⟩
  · intro uri e he
    obtain ⟨u, hu, hurl⟩ := hi.entry uri e he
    obtain ⟨u', hu', huri'⟩ := hsome _ u hu
    exact ⟨u', hu', huri'.trans hurl⟩
  · intro uri e m he hm
    obtain ⟨u, hu, hurl⟩ := hi.subscription uri e m he hm
    obtain ⟨u', hu', huri'⟩ := hsome _ u hu
    exact ⟨u', hu', huri'.trans hurl⟩
  · intro uri e he
    obtain ⟨hnone, hsub, u, hu, hurl, hno⟩ := hi.inserting uri e he
    refine ⟨hnone, hsub, ?_⟩
    by_cases hm : n = e.task
    · rw [← hm] at hu ⊢
      rw [ht] at hu
      cases hu
      refine ⟨t', List.getElem?_set_self hlt, huri.trans hurl, ?_⟩
      rw [← Bool.not_eq_true]
      intro hyes
      rcases hfound hyes with hold | hsome
      · rw [hno] at hold
        cases hold
      · exact hsome (hurl ▸ hnone)
    · exact ⟨u, by rw [List.getElem?_set_ne hm, hu], hurl, hno⟩
  · intro uri e u he hu
    by_cases hm : n = e.task
    · rw [← hm, List.getElem?_set_self hlt] at hu
      cases hu
      obtain ⟨u, hu, rfl⟩ := hi.entry uri e he
      rw [← hm, ht] at hu
      cases hu
      exact halive e he hm.symm
    · rw [List.getElem?_set_ne hm] at hu
      exact hi.alive uri e u he hu

/-- The subscription of a task is put into the entry for its address. -/
theorem inv_subscribe (hi : s.Inv) {n : Nat} {t : SceneTask} {e : ClientScene}
    (ht : s.tasks[n]? = some t) (he : s.scenes.lookup t.uri = some e) :
    Inv { s with
      scenes := s.scenes.insert t.uri { e with stateChangedSubscription := some n } } := by
  have hold : ∀ uri d,
      (s.scenes.insert t.uri { e with stateChangedSubscription := some n }).lookup uri = some d →
      ∃ d', s.scenes.lookup uri = some d' ∧ d.task = d'.task ∧
        (d = d' ∨ uri = t.uri ∧ d.stateChangedSubscription = some n) := by
    intro uri d hd
    rw [Table.lookup_insert_eq] at hd
    split at hd
    · next huri =>
      cases hd
      exact ⟨e, huri ▸ he, rfl, .inr ⟨huri, rfl⟩⟩
    · exact ⟨d, hd, rfl, .inl rfl⟩
  refine ⟨?_, ?_, ?_, ?_⟩
  · intro uri d hd
    obtain ⟨d', hd', htask, -⟩ := hold uri d hd
    rw [htask]
    exact hi.entry uri d' hd'
  · intro uri d m hd hm
    obtain ⟨d', hd', -, rfl | ⟨rfl, hsub⟩⟩ := hold uri d hd
    · exact hi.subscription uri d m hd' hm
    · rw [hsub] at hm
      cases hm
      exact ⟨t, ht, rfl⟩
  · intro uri d hd
    obtain ⟨hnone, hrest⟩ := hi.inserting uri d hd
    refine ⟨?_, hrest⟩
    rw [Table.lookup_insert_eq, if_neg]
    · exact hnone
    · rintro rfl
      rw [he] at hnone
      cases hnone
  · intro uri d u hd hu
    obtain ⟨d', hd', htask, -⟩ := hold uri d hd
    rw [htask] at hu
    exact hi.alive uri d' u hd' hu

theorem inv_initial : Inv initial := by
  refine ⟨?_, ?_, ?_, ?_⟩
  · intro uri e he
    cases he
  · intro uri e n he
    cases he
  · intro uri e he
    cases he
  · intro uri e t he
    cases he

end ScenesLemmas

open ScenesLemmas

/-! ## Main results -/

/-- `getSceneIds` leaves the table as it is, and ends the subscription of each entry. -/
theorem getSceneIds_keeps (s : ClientScenes) : s.getSceneIds.2.scenes = s.scenes ∧
    ∀ uri e n t, s.scenes.lookup uri = some e → e.stateChangedSubscription = some n →
      s.getSceneIds.2.tasks[n]? = some t → t.subscribed = false := by
  refine ⟨rfl, ?_⟩
  intro uri e n t he hn ht
  unfold getSceneIds at ht
  rw [unsubscribe_get, Option.map_eq_some_iff] at ht
  obtain ⟨u, -, rfl⟩ := ht
  rw [if_pos]
  rw [List.any_eq_true]
  exact ⟨e, Table.mem_values.mpr ⟨uri, he⟩, decide_eq_true hn⟩

/-- A scene connects, the ids of the scenes are listed, and the server disconnects the scene. -/
def listed : List Action :=
  [.connectToScene ['a'] true, .emplace, .sceneState 0 .connecting, .sceneState 0 .connected,
    .taskSucceeds 0, .getSceneIds, .sceneState 0 .disconnecting]

end ClientScenes
end Stormancer.Client
