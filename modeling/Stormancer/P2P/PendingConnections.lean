import Stormancer.Lib.Heap
import Stormancer.Lib.Waiters
import Stormancer.P2P.ConnectionsRepository

/-!
# Callers that wait for a connection

`addPendingConnection` makes a completion event, moves a copy of it into the entry of the id, and
returns the task on it. `emplace` keeps an entry that is there, so the event of a second caller for
the same id goes with its last copy, and the task on it is canceled. `newConnection` takes the entry
out and sets the event in it.

Results:
1. `pendings_isSome`: the entries followed here are those of the repository.
2. `callers_served`: as long as a caller comes only when no other one waits for the id, the task of
   each caller is pending until the connection of its id is registered and completed with it from
   then on. A step leads out of this exactly when it is a caller that comes while another waits.
3. `second_caller_canceled`: two callers for one id.
-/

namespace Stormancer.P2P

open Slots

/-! ## Definitions -/

/-- The task on a completion event. -/
inductive ConnectionTask
  | pending
  | completed (connection : IConnection)
  | canceled
deriving DecidableEq

/-- `set` of the event. -/
def ConnectionTask.set (connection : IConnection) : ConnectionTask → ConnectionTask
  | .pending => .completed connection
  | task => task

/-- A call of `addPendingConnection`. -/
structure PendingCall where
  id : UInt64
  task : ConnectionTask
  /-- The first connection of the id that `newConnection` registered after the call. -/
  registered : Option IConnection
deriving DecidableEq

namespace PendingCall

/-- The id that the call waits for. -/
def waitsFor (w : PendingCall) : Option UInt64 := if w.registered.isNone then some w.id else none

/-- The connection of the id is registered. -/
def register (w : PendingCall) (connection : IConnection) : PendingCall :=
  if w.waitsFor = some connection.id then { w with registered := some connection } else w

/-- What the task of the call should be. -/
def answer (w : PendingCall) : ConnectionTask := w.registered.elim .pending .completed

end PendingCall

/-- The repository and its callers. `pendings` leads to the call whose event an entry of
`_pendingP2PConnections` holds. -/
structure PendingCalls where
  repository : ConnectionsRepository
  calls : List PendingCall
  pendings : Table UInt64 Nat

namespace PendingCalls

def initial : PendingCalls := ⟨.initial, [], ∅⟩

def addPendingConnection (s : PendingCalls) (repository : ConnectionsRepository) (id : UInt64) :
    PendingCalls where
  repository
  calls := s.calls ++ [⟨id, if id ∈ s.pendings then .canceled else .pending, none⟩]
  pendings := s.pendings.emplace id s.calls.length

/-- The calls after the event of the entry is set. -/
def complete (s : PendingCalls) (connection : IConnection) : List PendingCall :=
  match s.pendings.lookup connection.id with
  | none => s.calls
  | some n => s.calls.modify n fun w => { w with task := w.task.set connection }

def newConnection (s : PendingCalls) (repository : ConnectionsRepository)
    (connection : IConnection) : PendingCalls where
  repository
  calls := (s.complete connection).map (·.register connection)
  pendings := s.pendings.erase connection.id

def step (s : PendingCalls) (a : ConnectionsRepository.Action) : Option PendingCalls :=
  (s.repository.step a).map fun repository =>
    match a with
    | .addPendingConnection id _ => s.addPendingConnection repository id
    | .newConnection connection => s.newConnection repository connection
    | _ => { s with repository }

/-! ## The property -/

/-- The task of each caller is pending until the connection is registered, and completed with it
from then on. -/
def Served (s : PendingCalls) : Prop := ∀ w ∈ s.calls, w.task = w.answer

/-- A caller comes only when no other one waits for the id. -/
def isAlone (s : PendingCalls) : ConnectionsRepository.Action → Bool
  | .addPendingConnection id _ => s.calls.all fun w => w.waitsFor ≠ some id
  | _ => true

abbrev Alone (s : PendingCalls) (a : ConnectionsRepository.Action) : Prop := s.isAlone a = true

/-- Where each caller waits. -/
def waits (s : PendingCalls) (i : Nat) : Option UInt64 := s.calls[i]?.bind PendingCall.waitsFor

/-! ## Helpers -/

namespace PendingCallsLemmas

variable {s s' : PendingCalls} {repository : ConnectionsRepository} {i : Nat} {w : PendingCall}
  {id : UInt64} {c : IConnection}

theorem waits_eq : s.waits i = some id ↔ ∃ w, s.calls[i]? = some w ∧ w.waitsFor = some id :=
  Option.bind_eq_some_iff

theorem waits_new (s : PendingCalls) : s.waits s.calls.length = none := by
  unfold waits
  rw [List.getElem?_eq_none (Nat.le_refl _), Option.bind_none]

theorem waits_addPendingConnection (s : PendingCalls) (repository : ConnectionsRepository)
    (id : UInt64) (i : Nat) : (s.addPendingConnection repository id).waits i =
      if i = s.calls.length then some id else s.waits i := by
  unfold waits addPendingConnection
  rw [Heap.get_make]
  split <;> rfl

/-- When each caller is found, the event that is set is the one of the caller that waits. -/
theorem calls_newConnection (hs : Waiters.Paired s.waits s.pendings) (i : Nat) :
    (s.newConnection repository c).calls[i]? = s.calls[i]?.map fun w =>
      if w.waitsFor = some c.id then { w with task := w.task.set c, registered := some c }
      else w := by
  unfold newConnection complete
  rw [List.getElem?_map]
  cases hw : s.calls[i]? with
  | none =>
    split
    · rw [hw]; rfl
    · rw [List.getElem?_modify, hw]; rfl
  | some w =>
    have hentry : w.waitsFor = some c.id ↔ s.pendings.lookup c.id = some i := by
      rw [← hs i c.id, waits_eq]
      simp [hw]
    split
    · next hnone =>
      rw [hnone] at hentry
      have hnot : w.waitsFor ≠ some c.id := fun h => by cases hentry.mp h
      rw [hw, Option.map_some, Option.map_some, if_neg hnot]
      unfold PendingCall.register
      rw [if_neg hnot]
    · next n hn =>
      rw [hn, Option.some.injEq] at hentry
      rw [List.getElem?_modify, hw]
      by_cases hi : n = i
      · have hwaits := hentry.mpr hi
        simp only [hi, hwaits, Option.map_eq_map, Option.map_some, if_true]
        unfold PendingCall.register
        exact congrArg some (if_pos hwaits)
      · have hnot : w.waitsFor ≠ some c.id := fun h => hi (hentry.mp h)
        simp only [hi, hnot, Option.map_eq_map, Option.map_some, if_false]
        unfold PendingCall.register
        exact congrArg some (if_neg hnot)

theorem waits_newConnection (hs : Waiters.Paired s.waits s.pendings) (i : Nat) :
    (s.newConnection repository c).waits i =
      if s.waits i = some c.id then none else s.waits i := by
  unfold waits
  rw [calls_newConnection hs]
  cases s.calls[i]? with
  | none => rfl
  | some w =>
    rw [Option.map_some, Option.bind_some, Option.bind_some]
    split <;> rfl

/-- A step that is neither a new caller nor a new connection concerns the repository only. -/
theorem step_frame {a : ConnectionsRepository.Action} (h : s.step a = some s')
    (hadd : ∀ id sid, a ≠ .addPendingConnection id sid) (hnew : ∀ c, a ≠ .newConnection c) :
    s'.calls = s.calls ∧ s'.pendings = s.pendings := by
  obtain ⟨repository, -, hs'⟩ := Option.map_eq_some_iff.mp h
  cases a with
  | addPendingConnection id sid => exact absurd rfl (hadd id sid)
  | newConnection c => exact absurd rfl (hnew c)
  | _ =>
    cases hs'
    exact ⟨rfl, rfl⟩

theorem step_addPendingConnection {sid : Str}
    (h : s.step (.addPendingConnection id sid) = some s') :
    ∃ repository, s' = s.addPendingConnection repository id := by
  obtain ⟨repository, -, hs'⟩ := Option.map_eq_some_iff.mp h
  exact ⟨repository, hs'.symm⟩

theorem step_newConnection (h : s.step (.newConnection c) = some s') :
    ∃ repository, s' = s.newConnection repository c := by
  obtain ⟨repository, -, hs'⟩ := Option.map_eq_some_iff.mp h
  exact ⟨repository, hs'.symm⟩

/-! ### The entries of the repository -/

theorem lookup_newConnection (s : ConnectionsRepository) (c : IConnection) (id : UInt64) :
    (s.newConnection c).pendingP2PConnections.lookup id =
      if id = c.id then none else s.pendingP2PConnections.lookup id := by
  unfold ConnectionsRepository.newConnection
  dsimp only
  split
  · next hnone =>
    split
    · next heq => rw [heq, hnone]
    · rfl
  · exact Table.lookup_erase_eq s.pendingP2PConnections c.id id

theorem repository_frame {r r' : ConnectionsRepository} {a : ConnectionsRepository.Action}
    (h : r.step a = some r') (hadd : ∀ id sid, a ≠ .addPendingConnection id sid)
    (hnew : ∀ c, a ≠ .newConnection c) :
    r'.pendingP2PConnections = r.pendingP2PConnections := by
  cases ConnectionsRepository.RepositoryLemmas.transition_of_step h with
  | addPendingConnection id sid => exact absurd rfl (hadd id sid)
  | newConnection c => exact absurd rfl (hnew c)
  | _ => rfl

/-- The entries of the repository are the ones that hold an event. -/
def SameEntries (s : PendingCalls) : Prop :=
  ∀ id, (s.pendings.lookup id).isSome = (s.repository.pendingP2PConnections.lookup id).isSome

theorem sameEntries_step {a : ConnectionsRepository.Action} (hs : SameEntries s)
    (h : s.step a = some s') : SameEntries s' := by
  obtain ⟨repository, hrepository, hs'⟩ := Option.map_eq_some_iff.mp h
  cases a with
  | addPendingConnection id sid =>
    cases hs'
    have heq : repository = s.repository.addPendingConnection id sid := by
      cases ConnectionsRepository.RepositoryLemmas.transition_of_step hrepository
      rfl
    intro id'
    subst heq
    unfold addPendingConnection ConnectionsRepository.addPendingConnection
    dsimp only
    rw [Table.lookup_emplace, Table.lookup_emplace]
    split
    · rfl
    · exact hs id'
  | newConnection c =>
    cases hs'
    have heq : repository = s.repository.newConnection c := by
      cases ConnectionsRepository.RepositoryLemmas.transition_of_step hrepository
      rfl
    intro id'
    subst heq
    unfold newConnection
    dsimp only
    rw [lookup_newConnection, Table.lookup_erase_eq]
    split
    · rfl
    · exact hs id'
  | _ =>
    cases hs'
    have hframe := repository_frame hrepository
      (fun _ _ heq => ConnectionsRepository.Action.noConfusion heq)
      (fun _ heq => ConnectionsRepository.Action.noConfusion heq)
    intro id'
    dsimp only
    rw [hframe]
    exact hs id'

end PendingCallsLemmas

open PendingCallsLemmas Waiters

variable {s s' : PendingCalls}

/-- The entries that are followed here are those of the repository, in every run. -/
theorem pendings_isSome (h : Lts.Reachable step Lts.anyStep initial s) (id : UInt64) :
    (s.pendings.lookup id).isSome = (s.repository.pendingP2PConnections.lookup id).isSome :=
  h.invariant (I := SameEntries) (fun _ => rfl) (fun _ _ _ hs _ hstep => sameEntries_step hs hstep)
    id

/-! ## Each caller has its own entry -/

/-- Each caller that waits is found under its id, and the tasks are as they should be. -/
structure Kept (s : PendingCalls) : Prop where
  paired : Paired s.waits s.pendings
  served : s.Served

/-- On such states a caller is alone exactly when its id has no entry. -/
theorem isAlone_iff (hs : Paired s.waits s.pendings) (id : UInt64) (sid : Str) :
    s.Alone (.addPendingConnection id sid) ↔ s.pendings.lookup id = none := by
  unfold Alone isAlone
  rw [Paired.free_iff_forall hs, List.all_eq_true]
  exact forall₂_congr fun w _ => decide_eq_true_iff

theorem served_addPendingConnection_iff (hs : s.Served) (repository : ConnectionsRepository)
    (id : UInt64) :
    (s.addPendingConnection repository id).Served ↔ s.pendings.lookup id = none := by
  rw [AList.lookup_eq_none]
  constructor
  · intro hserved hmem
    have hnew := hserved _ (List.mem_append_right _ List.mem_cons_self)
    rw [if_pos hmem] at hnew
    cases hnew
  · intro hfree w hw
    rcases List.mem_append.mp hw with hold | hnew
    · exact hs w hold
    · rw [List.mem_singleton.mp hnew, if_neg hfree]
      rfl

theorem paired_addPendingConnection (hs : Paired s.waits s.pendings)
    (repository : ConnectionsRepository) {id : UInt64} (hfree : s.pendings.lookup id = none) :
    Paired (s.addPendingConnection repository id).waits
      (s.addPendingConnection repository id).pendings := by
  refine hs.add (waits_new s) hfree (waits_addPendingConnection s repository id) fun id' => ?_
  exact (Table.lookup_emplace _ _ _ _).trans (by rw [hfree, Option.getD_none])

theorem kept_newConnection (hs : Kept s) (repository : ConnectionsRepository) (c : IConnection) :
    Kept (s.newConnection repository c) := by
  constructor
  case paired =>
    exact hs.paired.removeKey (waits_newConnection hs.paired) fun id =>
      Table.lookup_erase_eq s.pendings c.id id
  case served =>
    intro w hw
    obtain ⟨i, hw⟩ := List.mem_iff_getElem?.mp hw
    rw [calls_newConnection hs.paired] at hw
    obtain ⟨w', hw', heq⟩ := Option.map_eq_some_iff.mp hw
    have htask := hs.served w' (List.mem_of_getElem? hw')
    split at heq
    · next hwaits =>
      subst heq
      have hnone : w'.registered = none := by
        unfold PendingCall.waitsFor at hwaits
        split at hwaits
        · next h => exact Option.isNone_iff_eq_none.mp h
        · cases hwaits
      dsimp only
      rw [htask]
      unfold PendingCall.answer
      rw [hnone]
      rfl
    · rw [← heq]
      exact htask

theorem kept_step {a : ConnectionsRepository.Action} (hs : Kept s) (halone : s.Alone a)
    (h : s.step a = some s') : Kept s' := by
  by_cases hadd : ∃ id sid, a = .addPendingConnection id sid
  · obtain ⟨id, sid, rfl⟩ := hadd
    obtain ⟨repository, rfl⟩ := step_addPendingConnection h
    have hfree := (isAlone_iff hs.paired id sid).mp halone
    exact ⟨paired_addPendingConnection hs.paired repository hfree,
      (served_addPendingConnection_iff hs.served repository id).mpr hfree⟩
  by_cases hnew : ∃ c, a = .newConnection c
  · obtain ⟨c, rfl⟩ := hnew
    obtain ⟨repository, rfl⟩ := step_newConnection h
    exact kept_newConnection hs repository c
  · obtain ⟨hcalls, hpendings⟩ := step_frame h (fun id sid heq => hadd ⟨id, sid, heq⟩)
      fun c heq => hnew ⟨c, heq⟩
    constructor
    · unfold waits
      rw [hcalls, hpendings]
      exact hs.paired
    · unfold Served
      rw [hcalls]
      exact hs.served

/-! ## Runs -/

theorem callers_served (h : Lts.Reachable step Alone initial s) :
    s.Served ∧ ∀ (a : ConnectionsRepository.Action) (s' : PendingCalls), s.step a = some s' →
      (s'.Served ↔ s.Alone a) := by
  have hs : Kept s := by
    refine h.invariant ⟨Paired.empty, ?_⟩ fun _ _ _ hs halone hstep => kept_step hs halone hstep
    exact fun w hw => absurd hw List.not_mem_nil
  refine ⟨hs.served, fun a s' hstep => ⟨fun hserved => ?_, fun halone => ?_⟩⟩
  · cases a with
    | addPendingConnection id sid =>
      obtain ⟨repository, rfl⟩ := step_addPendingConnection hstep
      rw [isAlone_iff hs.paired]
      exact (served_addPendingConnection_iff hs.served repository id).mp hserved
    | _ => rfl
  · exact (kept_step hs halone hstep).served

/-- Callers for two peers; the connection of the second one comes first. -/
theorem callers_served_two_peers : ∃ s : PendingCalls,
    s.calls = [⟨5, .pending, none⟩, ⟨6, .completed ⟨0, 6, []⟩, some ⟨0, 6, []⟩⟩] ∧ s.Served ∧
      ∀ (a : ConnectionsRepository.Action) (s' : PendingCalls), s.step a = some s' →
        (s'.Served ↔ s.Alone a) := by
  obtain ⟨s, hreach, htest⟩ := Lts.Reachable.of_exec step Alone initial
    [.addPendingConnection 5 [], .addPendingConnection 6 [], .newConnection ⟨0, 6, []⟩]
    (fun s => s.calls = [⟨5, .pending, none⟩, ⟨6, .completed ⟨0, 6, []⟩, some ⟨0, 6, []⟩⟩])
    (by decide +kernel)
  exact ⟨s, of_decide_eq_true htest, callers_served hreach⟩

/-- Two callers for one peer: the connection comes, and the task of the second one is canceled. -/
theorem second_caller_canceled :
    ¬ ∀ s, Lts.Reachable step Lts.anyStep initial s → s.Served := by
  intro hall
  obtain ⟨s, hreach, htest⟩ := Lts.Reachable.of_exec step Lts.anyStep initial
    [.addPendingConnection 5 [], .addPendingConnection 5 [], .newConnection ⟨0, 5, []⟩]
    (fun s => s.calls =
      [⟨5, .completed ⟨0, 5, []⟩, some ⟨0, 5, []⟩⟩, ⟨5, .canceled, some ⟨0, 5, []⟩⟩])
    (by decide +kernel)
  have hserved := hall s hreach
  unfold Served at hserved
  rw [of_decide_eq_true htest] at hserved
  cases hserved _ (List.mem_cons_of_mem _ List.mem_cons_self)

end PendingCalls

end Stormancer.P2P
