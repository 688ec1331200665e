import Stormancer.Lib.Run
import Stormancer.Lib.Slots
import Stormancer.Utilities.StringSplit

/-!
# The connections repository

`ConnectionsRepository` finds a connection by its id (`_connections`) or by its key
(`_connectionsByKey`). `newConnection` enters a connection in both tables. The keyed
`getConnection` starts a factory and caches the task of the attempt under the key; the
continuation of the factory enters the connection by id, or erases the key when the factory
failed. `closeConnection` and the handlers of `onClose` erase an id and a key.

`newConnection`, `getConnection` and `closeConnection` hold the mutex. The continuation of the
factory does not, so it can run between the start of the factory and the `emplace` at the end of
`getConnection`: the state `inserting` is the time in between. A subscription to `onClose` lives
as long as some entry holds its container. `onClose` copies the live handlers and runs them one
after the other.

Results:
1. `transition_of_step`: what each step does, as a relation.
2. `caching` is the table by key as the `getConnection` in progress will leave it. The lemmas
   about its lookups say how each operation changes it; the `emplace` itself does not
   (`caching_emplaceResult`).
3. `keyed_step`: an attempt is cached under its own key only.
-/

namespace Stormancer.P2P

open Slots

/-! ## Data -/

/-- An `IConnection` object, with the id and the key that it has from its creation. -/
structure IConnection where
  object : Nat
  id : UInt64
  key : Str
deriving DecidableEq

structure ConnectionContainer where
  connection : IConnection
  onCloseSubscription : Nat
  /-- Whether the handler of the subscription locks the mutex: the one of `newConnection` does,
  the one of `getConnection` does not. -/
  locks : Bool
deriving DecidableEq

inductive TaskResult
  | pending
  | container (c : ConnectionContainer)
  | failed
deriving DecidableEq

/-- The `result` of a keyed `getConnection`. -/
structure Attempt where
  id : Str
  result : TaskResult
deriving DecidableEq

/-- A task in `_connectionsByKey`. -/
inductive Task
  | fromResult (c : ConnectionContainer)
  | attempt (n : Nat)
deriving DecidableEq

def Task.result (attempts : List Attempt) : Task → TaskResult
  | .fromResult c => .container c
  | .attempt n => (attempts[n]?).elim .failed (·.result)

/-- The connection of a task that completed. -/
def TaskResult.connection : TaskResult → Option IConnection
  | .container c => some c.connection
  | _ => none

structure PendingConnection where
  id : UInt64
  sessionId : Str
deriving DecidableEq

/-- The tasks in `_connections` are all made by `task_from_result`, so its entries are their
containers. -/
structure ConnectionsRepository where
  connections : Table UInt64 ConnectionContainer
  connectionsByKey : Table Str Task
  pendingP2PConnections : Table UInt64 PendingConnection
  attempts : List Attempt
  /-- The key and the attempt of the `getConnection` that holds the mutex. -/
  inserting : Option (Str × Nat)
  nextSubscription : Nat
  /-- The connections whose pending entry was completed. -/
  established : List (PendingConnection × IConnection)
  registered : List IConnection
  closed : List IConnection
  /-- The handlers that each `onClose` in progress has still to run. -/
  firing : List (List ConnectionContainer)

namespace ConnectionsRepository

def initial : ConnectionsRepository := ⟨∅, ∅, ∅, [], none, 0, [], [], [], []⟩

def result (s : ConnectionsRepository) (t : Task) : TaskResult := t.result s.attempts

def Live (s : ConnectionsRepository) (c : IConnection) : Prop :=
  c ∈ s.registered ∧ c ∉ s.closed

instance (s : ConnectionsRepository) (c : IConnection) : Decidable (s.Live c) :=
  inferInstanceAs (Decidable (_ ∧ _))

/-! ## Operations -/

def addPendingConnection (s : ConnectionsRepository) (id : UInt64) (clientSessionId : Str) :
    ConnectionsRepository :=
  { s with pendingP2PConnections := s.pendingP2PConnections.emplace id ⟨id, clientSessionId⟩ }

def newConnection (s : ConnectionsRepository) (connection : IConnection) :
    ConnectionsRepository :=
  let container : ConnectionContainer := ⟨connection, s.nextSubscription, true⟩
  let s' := { s with
    connections := s.connections.emplace connection.id container
    connectionsByKey := s.connectionsByKey.emplace connection.key (.fromResult container)
    nextSubscription := s.nextSubscription + 1
    registered := connection :: s.registered }
  match s.pendingP2PConnections.lookup connection.id with
  | none => s'
  | some pc =>
    { s' with
      pendingP2PConnections := s.pendingP2PConnections.erase connection.id
      established := (pc, connection) :: s.established }

/-- The factory is started, and `result` will complete with it. -/
def startFactory (s : ConnectionsRepository) (id : Str) : ConnectionsRepository :=
  { s with
    attempts := s.attempts ++ [⟨id, .pending⟩]
    inserting := some (id, s.attempts.length) }

/-- The keyed `getConnection` up to its `emplace`, with the task that it returns. -/
def getConnection (s : ConnectionsRepository) (id : Str) : Task × ConnectionsRepository :=
  match s.connectionsByKey.lookup id with
  | some t => (t, s)
  | none => (.attempt s.attempts.length, s.startFactory id)

/-- `_connectionsByKey.emplace(id, result)`, which ends a `getConnection`. -/
def emplaceResult (s : ConnectionsRepository) (id : Str) (n : Nat) : ConnectionsRepository :=
  { s with
    connectionsByKey := s.connectionsByKey.emplace id (.attempt n)
    inserting := none }

def setResult (s : ConnectionsRepository) (n : Nat) (r : TaskResult) : List Attempt :=
  s.attempts.modify n fun a => { a with result := r }

/-- The continuation of a factory that returned a connection. -/
def factorySucceeds (s : ConnectionsRepository) (n : Nat) (connection : IConnection) :
    ConnectionsRepository :=
  let container : ConnectionContainer := ⟨connection, s.nextSubscription, false⟩
  { s with
    connections := s.connections.emplace connection.id container
    attempts := s.setResult n (.container container)
    nextSubscription := s.nextSubscription + 1
    registered := connection :: s.registered }

/-- The continuation of a factory that failed. -/
def factoryFails (s : ConnectionsRepository) (n : Nat) (attempt : Attempt) :
    ConnectionsRepository :=
  { s with
    connectionsByKey := s.connectionsByKey.erase attempt.id
    attempts := s.setResult n .failed }

/-- What `closeConnection` and both handlers of `onClose` do. -/
def erase (s : ConnectionsRepository) (connection : IConnection) : ConnectionsRepository :=
  { s with
    connections := s.connections.erase connection.id
    connectionsByKey := s.connectionsByKey.erase connection.key }

def closeConnection (s : ConnectionsRepository) (connection : IConnection) :
    ConnectionsRepository :=
  { s.erase connection with closed := connection :: s.closed }

/-- The containers that an entry holds. -/
def containers (s : ConnectionsRepository) : List ConnectionContainer :=
  s.connections.values ++
    (s.connectionsByKey.values ++ s.inserting.toList.map fun p => Task.attempt p.2).filterMap fun t =>
      match s.result t with
      | .container c => some c
      | _ => none

/-- The handlers of a connection, each once, in the order of their subscriptions. -/
def handlers (s : ConnectionsRepository) (connection : IConnection) : List ConnectionContainer :=
  (List.range s.nextSubscription).filterMap fun n =>
    s.containers.find? fun c => c.onCloseSubscription = n ∧ c.connection = connection

def onClose (s : ConnectionsRepository) (connection : IConnection) : ConnectionsRepository :=
  { s with
    closed := connection :: s.closed
    firing := s.firing ++ [s.handlers connection] }

/-- A handler of the event runs, and `rest` are the handlers after it. -/
def runHandler (s : ConnectionsRepository) (event : Nat) (handler : ConnectionContainer)
    (rest : List ConnectionContainer) : ConnectionsRepository :=
  { s.erase handler.connection with firing := s.firing.set event rest }

inductive Action
  | addPendingConnection (id : UInt64) (clientSessionId : Str)
  | newConnection (connection : IConnection)
  | getConnection (id : Str)
  | emplaceResult
  | factorySucceeds (n : Nat) (connection : IConnection)
  | factoryFails (n : Nat)
  | closeConnection (connection : IConnection)
  | onClose (connection : IConnection)
  | runHandler (event : Nat)

/-- The attempt whose factory still runs. -/
def running (s : ConnectionsRepository) (n : Nat) : Option Attempt :=
  (s.attempts[n]?).filter fun a => a.result = .pending

def step (s : ConnectionsRepository) : Action → Option ConnectionsRepository
  | .addPendingConnection id clientSessionId =>
    if s.inserting.isNone then some (s.addPendingConnection id clientSessionId) else none
  | .newConnection c =>
    if s.inserting.isNone ∧ c ∉ s.registered ∧ c ∉ s.closed then some (s.newConnection c)
    else none
  | .getConnection id => if s.inserting.isNone then some (s.getConnection id).2 else none
  | .emplaceResult => s.inserting.map fun (id, n) => s.emplaceResult id n
  | .factorySucceeds n c => (s.running n).map fun _ => s.factorySucceeds n c
  | .factoryFails n => (s.running n).map fun attempt => s.factoryFails n attempt
  | .closeConnection c => if s.inserting.isNone then some (s.closeConnection c) else none
  | .onClose c => some (s.onClose c)
  | .runHandler event =>
    match s.firing[event]? with
    | some (handler :: rest) =>
      if handler.locks ∧ s.inserting.isSome then none
      else some (s.runHandler event handler rest)
    | _ => none

/-- The steps as a relation: one rule for each action that is possible, and one for each of the
two outcomes of the keyed `getConnection`. -/
inductive Transition (s : ConnectionsRepository) : Action → ConnectionsRepository → Prop
  | addPendingConnection (id : UInt64) (clientSessionId : Str) :
      Transition s (.addPendingConnection id clientSessionId)
        (s.addPendingConnection id clientSessionId)
  | newConnection (c : IConnection) (hfree : s.inserting = none) (hnew : c ∉ s.registered)
      (hopen : c ∉ s.closed) : Transition s (.newConnection c) (s.newConnection c)
  | found (id : Str) (t : Task) (hfound : s.connectionsByKey.lookup id = some t) :
      Transition s (.getConnection id) s
  | started (id : Str) (hfree : s.inserting = none)
      (hnone : s.connectionsByKey.lookup id = none) :
      Transition s (.getConnection id) (s.startFactory id)
  | emplaceResult (id : Str) (n : Nat) (hins : s.inserting = some (id, n)) :
      Transition s .emplaceResult (s.emplaceResult id n)
  | factorySucceeds (n : Nat) (c : IConnection) (a : Attempt) (ha : s.attempts[n]? = some a)
      (hpending : a.result = .pending) :
      Transition s (.factorySucceeds n c) (s.factorySucceeds n c)
  | factoryFails (n : Nat) (a : Attempt) (ha : s.attempts[n]? = some a)
      (hpending : a.result = .pending) : Transition s (.factoryFails n) (s.factoryFails n a)
  | closeConnection (c : IConnection) (hfree : s.inserting = none) :
      Transition s (.closeConnection c) (s.closeConnection c)
  | onClose (c : IConnection) : Transition s (.onClose c) (s.onClose c)
  | runHandler (event : Nat) (handler : ConnectionContainer) (rest : List ConnectionContainer)
      (hnext : s.firing[event]? = some (handler :: rest)) :
      Transition s (.runHandler event) (s.runHandler event handler rest)

/-! ## The table by key -/

/-- The table by key as the `getConnection` in progress will leave it. -/
def caching (s : ConnectionsRepository) : Table Str Task :=
  match s.inserting with
  | none => s.connectionsByKey
  | some (id, n) => s.connectionsByKey.emplace id (.attempt n)

def insertingKey (s : ConnectionsRepository) : Option Str := s.inserting.map Prod.fst

/-- An attempt is cached under its own key, and the key of the `getConnection` in progress has
no entry. -/
structure Keyed (s : ConnectionsRepository) : Prop where
  attempt : ∀ key n, s.caching.lookup key = some (.attempt n) →
    ∃ a, s.attempts[n]? = some a ∧ a.id = key
  inserting : ∀ id n, s.inserting = some (id, n) → s.connectionsByKey.lookup id = none

namespace RepositoryLemmas

variable {s s' : ConnectionsRepository}

theorem transition_of_step {a : Action} (h : step s a = some s') : Transition s a s' := by
  cases a with
  | addPendingConnection id clientSessionId =>
    simp only [step, Option.ite_none_right_eq_some] at h
    obtain ⟨-, heq⟩ := h
    cases heq
    exact .addPendingConnection id clientSessionId
  | newConnection c =>
    simp only [step, Option.ite_none_right_eq_some] at h
    obtain ⟨⟨hfree, hnew, hopen⟩, heq⟩ := h
    cases heq
    exact .newConnection c (Option.isNone_iff_eq_none.mp hfree) hnew hopen
  | getConnection id =>
    simp only [step, Option.ite_none_right_eq_some] at h
    obtain ⟨hfree, heq⟩ := h
    cases heq
    unfold getConnection
    split
    · next t hfound => exact .found id t hfound
    · next hnone => exact .started id (Option.isNone_iff_eq_none.mp hfree) hnone
  | emplaceResult =>
    simp only [step, Option.map_eq_some_iff, Prod.exists] at h
    obtain ⟨id, n, hins, rfl⟩ := h
    exact .emplaceResult id n hins
  | factorySucceeds n c =>
    simp only [step, running, Option.map_eq_some_iff, Option.filter_eq_some_iff] at h
    obtain ⟨a, ⟨ha, hpending⟩, rfl⟩ := h
    exact .factorySucceeds n c a ha (of_decide_eq_true hpending)
  | factoryFails n =>
    simp only [step, running, Option.map_eq_some_iff, Option.filter_eq_some_iff] at h
    obtain ⟨a, ⟨ha, hpending⟩, rfl⟩ := h
    exact .factoryFails n a ha (of_decide_eq_true hpending)
  | closeConnection c =>
    simp only [step, Option.ite_none_right_eq_some] at h
    obtain ⟨hfree, heq⟩ := h
    cases heq
    exact .closeConnection c (Option.isNone_iff_eq_none.mp hfree)
  | onClose c =>
    cases h
    exact .onClose c
  | runHandler event =>
    simp only [step] at h
    split at h
    · next handler rest hnext =>
      rw [Option.ite_none_left_eq_some] at h
      obtain ⟨-, heq⟩ := h
      cases heq
      exact .runHandler event handler rest hnext
    · cases h

/-! ### The attempts -/

theorem result_setResult_self {n : Nat} {a : Attempt} (ha : s.attempts[n]? = some a)
    (r : TaskResult) : (Task.attempt n).result (s.setResult n r) = r := by
  simp [Task.result, setResult, ha]

theorem result_setResult_other {n : Nat} (r : TaskResult) {t : Task} (h : t ≠ .attempt n) :
    t.result (s.setResult n r) = t.result s.attempts := by
  cases t with
  | fromResult c => rfl
  | attempt m =>
    have hne : n ≠ m := by
      rintro rfl
      exact h rfl
    simp [Task.result, setResult, hne]

theorem id_setResult {n m : Nat} {a : Attempt} (ha : s.attempts[m]? = some a) (r : TaskResult) :
    ∃ a', (s.setResult n r)[m]? = some a' ∧ a'.id = a.id := by
  unfold setResult
  rw [List.getElem?_modify, ha]
  refine ⟨_, rfl, ?_⟩
  split <;> rfl

/-! ### The table by key -/

theorem caching_of_not_inserting (h : s.inserting = none) : s.caching = s.connectionsByKey := by
  unfold caching
  rw [h]

theorem newConnection_eq (s : ConnectionsRepository) (c : IConnection) :
    ∃ pending established, s.newConnection c = { s with
      connections := s.connections.emplace c.id ⟨c, s.nextSubscription, true⟩
      connectionsByKey :=
        s.connectionsByKey.emplace c.key (.fromResult ⟨c, s.nextSubscription, true⟩)
      nextSubscription := s.nextSubscription + 1
      registered := c :: s.registered
      pendingP2PConnections := pending
      established := established } := by
  unfold newConnection
  dsimp only
  split
  · exact ⟨_, _, rfl⟩
  · exact ⟨_, _, rfl⟩

theorem lookup_caching_newConnection (h : s.inserting = none) (c : IConnection) (key : Str) :
    (s.newConnection c).caching.lookup key =
      if key = c.key then
        some ((s.caching.lookup c.key).getD (.fromResult ⟨c, s.nextSubscription, true⟩))
      else s.caching.lookup key := by
  obtain ⟨pending, established, heq⟩ := newConnection_eq s c
  rw [heq, caching_of_not_inserting h, ← Table.lookup_emplace]
  unfold caching
  rw [h]

theorem lookup_caching_startFactory (h : s.inserting = none) {id : Str} (key : Str)
    (hnone : s.connectionsByKey.lookup id = none) :
    (s.startFactory id).caching.lookup key =
      if key = id then some (.attempt s.attempts.length) else s.caching.lookup key := by
  unfold caching startFactory
  simp only [h, Table.lookup_emplace, hnone, Option.getD_none]

/-- The `emplace` at the end of `getConnection` does not show. -/
theorem caching_emplaceResult {id : Str} {n : Nat} (h : s.inserting = some (id, n)) :
    (s.emplaceResult id n).caching = s.caching := by
  unfold caching
  rw [h]
  rfl

/-- An erasure shows, unless it is of the key of the `getConnection` in progress. -/
theorem lookup_caching_erase (hk : s.Keyed) {erased : Str} (key : Str) {t : ConnectionsRepository}
    (hbyKey : t.connectionsByKey = s.connectionsByKey.erase erased)
    (hins : t.inserting = s.inserting) :
    t.caching.lookup key =
      if key = erased ∧ s.insertingKey ≠ some key then none else s.caching.lookup key := by
  unfold caching insertingKey
  rw [hbyKey, hins]
  cases hs : s.inserting with
  | none => simp [Table.lookup_erase_eq]
  | some p =>
    obtain ⟨id, n⟩ := p
    have hnone := hk.inserting id n hs
    simp only [Table.lookup_emplace, Table.lookup_erase_eq, hnone, Option.map_some, ne_eq,
      Option.some.injEq]
    grind

/-- The attempt in progress is what the table by key will hold. -/
theorem lookup_caching_inserting (hk : s.Keyed) {id : Str} {n : Nat}
    (h : s.inserting = some (id, n)) : s.caching.lookup id = some (.attempt n) := by
  have hnone := hk.inserting id n h
  unfold caching
  rw [h]
  simp only [Table.lookup_emplace, hnone, if_true, Option.getD_none]

theorem keyed_erase (hk : s.Keyed) {erased : Str} {t : ConnectionsRepository}
    (hbyKey : t.connectionsByKey = s.connectionsByKey.erase erased)
    (hins : t.inserting = s.inserting)
    (hids : ∀ (n : Nat) (a : Attempt), s.attempts[n]? = some a →
      ∃ a', t.attempts[n]? = some a' ∧ a'.id = a.id) : t.Keyed := by
  constructor
  · intro key n hlookup
    rw [lookup_caching_erase hk key hbyKey hins] at hlookup
    split at hlookup
    · cases hlookup
    · obtain ⟨a, ha, hid⟩ := hk.attempt key n hlookup
      obtain ⟨a', ha', hid'⟩ := hids n a ha
      exact ⟨a', ha', hid'.trans hid⟩
  · intro id n hs
    rw [hbyKey, Table.lookup_erase_eq, hk.inserting id n (hins ▸ hs), ite_self]

theorem keyed_step {a : Action} (hk : s.Keyed) (h : Transition s a s') : s'.Keyed := by
  cases h with
  | addPendingConnection | onClose => exact ⟨hk.attempt, hk.inserting⟩
  | newConnection c hfree =>
    obtain ⟨pending, established, heq⟩ := newConnection_eq s c
    constructor
    · intro key n hlookup
      rw [lookup_caching_newConnection hfree] at hlookup
      rw [heq]
      refine hk.attempt key n ?_
      split at hlookup
      · next hkey =>
        rw [hkey]
        cases hold : s.caching.lookup c.key with
        | none => simp [hold] at hlookup
        | some t => simpa [hold] using hlookup
      · exact hlookup
    · intro id n hs
      rw [heq] at hs
      cases hfree.symm.trans hs
  | found => exact hk
  | started id hfree hnone =>
    constructor
    · intro key n hlookup
      rw [lookup_caching_startFactory hfree key hnone] at hlookup
      split at hlookup
      · next hkey =>
        cases hlookup
        exact ⟨_, List.getElem?_concat_length, hkey.symm⟩
      · obtain ⟨a, ha, hid⟩ := hk.attempt key n hlookup
        refine ⟨a, ?_, hid⟩
        exact (List.getElem?_append_left (List.getElem?_eq_some_iff.mp ha).1).trans ha
    · intro id' n hs
      cases hs
      exact hnone
  | emplaceResult id n hins =>
    constructor
    · intro key m hlookup
      rw [caching_emplaceResult hins] at hlookup
      exact hk.attempt key m hlookup
    · intro id' n' hs
      cases hs
  | factorySucceeds n c a ha =>
    constructor
    · intro key m hlookup
      obtain ⟨b, hb, hid⟩ := hk.attempt key m hlookup
      obtain ⟨b', hb', hid'⟩ := id_setResult hb (.container ⟨c, s.nextSubscription, false⟩)
      exact ⟨b', hb', hid'.trans hid⟩
    · exact hk.inserting
  | factoryFails n a ha => exact keyed_erase hk rfl rfl fun m b hb => id_setResult hb .failed
  | closeConnection | runHandler =>
    exact keyed_erase hk rfl rfl fun m b hb => ⟨b, hb, rfl⟩

/-- A new attempt changes the result of no cached task. -/
theorem result_startFactory (hk : s.Keyed) {key : Str} {t : Task}
    (hlookup : s.caching.lookup key = some t) (id : Str) :
    (s.startFactory id).result t = s.result t := by
  cases t with
  | fromResult c => rfl
  | attempt n =>
    obtain ⟨a, ha, -⟩ := hk.attempt key n hlookup
    have hlt := (List.getElem?_eq_some_iff.mp ha).1
    simp only [result, startFactory, Task.result, List.getElem?_append_left hlt]

theorem keyed_initial : initial.Keyed where
  attempt _ _ h := nomatch h
  inserting _ _ h := nomatch h

end RepositoryLemmas

end ConnectionsRepository
end Stormancer.P2P
