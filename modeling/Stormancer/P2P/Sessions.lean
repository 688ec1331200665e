import Stormancer.RakNet.Closing
import Stormancer.Utilities.StringSplit

/-!
# Closing P2P sessions

`P2PSessions::closeSession` holds `_sessionsMutex`, which is not recursive, while it closes the
connection of the session. `onClose` of a connection calls the handlers of the transport, of the
repository of connections and of the P2P sessions that are registered on it
(`registerConnectionOnCloseSession`); the last ones call `closeSession`.

A call is a thread: the list of the tasks that it has left. A task may put the tasks of the
functions that it calls before the others, and the threads go on in any order. A thread has locked
the mutex when `unlock` is among its tasks. The states of the sessions and what the handlers send
are left out.

Results:
1. `no_reentry`: over every run in which a session is closed only when no other session is
   registered on the connection that this closes, no thread locks the mutex twice.
2. `shared_connection_reenters`: two sessions on one connection.
-/

namespace Stormancer.P2P.Sessions

open RakNet.Closing (ConnectionState)

/-! ## Definitions -/

/-- The index of a connection in the list of all connections. -/
abbrev Ref := Nat

/-- A handler of `onClose`. -/
inductive Handler
  | transport
  | repository
  | session (p2pSessionId : Str)
deriving DecidableEq

def Handler.isSession : Handler → Bool
  | .session _ => true
  | _ => false

structure Connection where
  id : UInt64
  /-- `close` of a `RelayConnection` does nothing. -/
  relay : Bool
  connectionState : ConnectionState
  onClose : List Handler
deriving DecidableEq

def Connection.isOpen (k : Connection) : Bool :=
  !k.relay && (k.connectionState = .connected || k.connectionState = .connecting)

structure P2PSession where
  remotePeerId : UInt64
  /-- The connection on whose `onClose` the session is registered. -/
  onConnectionCloseSubscription : Option Ref
deriving DecidableEq

inductive Task
  | closeSession (p2pSessionId : Str)
  | unlock
  | close (c : Ref)
  /-- `ConnectionsRepository::closeConnection`. -/
  | closeConnection (c : Ref)
  /-- The call of `onClose`, which copies the list of its handlers. -/
  | onClose (c : Ref)
  | handler (c : Ref) (h : Handler)
  | setConnectionState (c : Ref) (state : ConnectionState)
deriving DecidableEq

structure Client where
  all : List Connection
  /-- The connections of the repository by id. -/
  connections : Slots.Table UInt64 Ref
  sessions : Slots.Table Str P2PSession
  threads : List (List Task)

namespace Client

def init : Client := ⟨[], ∅, ∅, []⟩

/-- Some thread has locked `_sessionsMutex`. -/
def locked (s : Client) : Bool := s.threads.any fun t => decide (Task.unlock ∈ t)

/-- `_sessions.erase`, which ends the subscription of the session. -/
def eraseSession (s : Client) (p2pSessionId : Str) (session : P2PSession) : Client :=
  { s with
    sessions := s.sessions.erase p2pSessionId
    all := match session.onConnectionCloseSubscription with
      | some c =>
        s.all.modify c fun k => { k with onClose := k.onClose.erase (.session p2pSessionId) }
      | none => s.all }

def setConnectionState (s : Client) (c : Ref) (state : ConnectionState) : Client :=
  { s with all := s.all.modify c fun k => { k with connectionState := state } }

/-- `close` of a connection up to the call of `onClose`, and what it has left to do. -/
def close (s : Client) (c : Ref) : Client × List Task :=
  if (s.all[c]?).any Connection.isOpen then
    (s.setConnectionState c .disconnecting, [.onClose c, .setConnectionState c .disconnected])
  else (s, [])

/-- `closeSession` with the mutex locked, up to the call of `onClose`. -/
def closeSession (s : Client) (p2pSessionId : Str) : Client × List Task :=
  match s.sessions.lookup p2pSessionId with
  | none => (s, [])
  | some session =>
    let connection := s.connections.lookup session.remotePeerId
    let s := s.eraseSession p2pSessionId session
    match connection with
    | some c => s.close c
    | none => (s, [])

/-- `_connections.erase` with the id of the connection. -/
def eraseConnection (s : Client) (c : Ref) : Client :=
  match s.all[c]? with
  | some k => { s with connections := s.connections.erase k.id }
  | none => s

/-- A task of a thread, and the tasks that the thread has left. `none`: the mutex is locked. -/
def perform (s : Client) (rest : List Task) : Task → Option (Client × List Task)
  | .closeSession p2pSessionId =>
    if s.locked then none
    else
      let result := s.closeSession p2pSessionId
      some (result.1, result.2 ++ .unlock :: rest)
  | .unlock => some (s, rest)
  | .close c =>
    let result := s.close c
    some (result.1, result.2 ++ rest)
  | .closeConnection c => some (s.eraseConnection c, rest)
  | .onClose c =>
    some (s, ((s.all[c]?).elim [] fun k => k.onClose.map (.handler c)) ++ rest)
  | .handler _ .transport => some (s, rest)
  | .handler c .repository => some (s.eraseConnection c, rest)
  | .handler _ (.session p2pSessionId) => some (s, .closeSession p2pSessionId :: rest)
  | .setConnectionState c state => some (s.setConnectionState c state, rest)

inductive Action
  /-- A connection is entered in the repository. -/
  | newConnection (id : UInt64) (relay : Bool)
  | setConnectionState (c : Ref) (state : ConnectionState)
  | createSession (p2pSessionId : Str) (remotePeerId : UInt64)
  /-- `registerConnectionOnCloseSession`. -/
  | register (p2pSessionId : Str) (c : Ref)
  /-- `ID_P2P_CLOSE_SESSION`. -/
  | closeSession (p2pSessionId : Str)
  | close (c : Ref)
  /-- `RakNetTransport::onDisconnection`. -/
  | onDisconnection (c : Ref)
  | advance (i : Nat)
deriving DecidableEq

def register (s : Client) (p2pSessionId : Str) (c : Ref) (session : P2PSession) : Client :=
  { s with
    sessions :=
      s.sessions.insert p2pSessionId { session with onConnectionCloseSubscription := some c }
    all := s.all.modify c fun k => { k with onClose := k.onClose ++ [.session p2pSessionId] } }

def step (s : Client) : Action → Option Client
  | .newConnection id relay =>
    some { s with
      all := s.all ++
        [⟨id, relay, .disconnected, if relay then [.repository] else [.transport, .repository]⟩]
      connections := s.connections.emplace id s.all.length }
  | .setConnectionState c state => some (s.setConnectionState c state)
  | .createSession p2pSessionId remotePeerId =>
    if s.locked then none
    else some { s with sessions := s.sessions.emplace p2pSessionId ⟨remotePeerId, none⟩ }
  | .register p2pSessionId c =>
    (s.sessions.lookup p2pSessionId).bind fun session =>
      if session.onConnectionCloseSubscription = none then
        some (s.register p2pSessionId c session)
      else none
  | .closeSession p2pSessionId =>
    some { s with threads := s.threads ++ [[.closeSession p2pSessionId]] }
  | .close c => some { s with threads := s.threads ++ [[.close c]] }
  | .onDisconnection c =>
    some { s with
      threads := s.threads ++ [[.closeConnection c, .onClose c,
        .setConnectionState c .disconnecting, .setConnectionState c .disconnected]] }
  | .advance i =>
    match s.threads[i]? with
    | some (task :: rest) =>
      (s.perform rest task).map fun result =>
        { result.1 with threads := s.threads.set i result.2 }
    | _ => none

/-! ## The condition -/

/-- What a thread does while it has the mutex locked. -/
def underLock (tasks : List Task) : List Task :=
  if .unlock ∈ tasks then tasks.takeWhile fun task => decide (task ≠ .unlock) else []

/-- No P2P session is registered on the connection. -/
def unshared (s : Client) (c : Ref) : Bool :=
  (s.all[c]?).all fun k => k.onClose.all fun h => !h.isSession

/-- The connection that `closeSession` finds is not open, or no session is registered on it
other than the one that is closed. -/
def closesAlone (s : Client) (p2pSessionId : Str) : Bool :=
  (s.sessions.lookup p2pSessionId).all fun session =>
    (s.connections.lookup session.remotePeerId).all fun c =>
      let s := s.eraseSession p2pSessionId session
      !(s.all[c]?).any Connection.isOpen || s.unshared c

/-- The session that the thread is about to close, if it is, is closed alone. -/
def mayAdvance (s : Client) (i : Nat) : Bool :=
  match s.threads[i]? with
  | some (.closeSession p2pSessionId :: _) => s.closesAlone p2pSessionId
  | _ => true

/-- The condition on a step: `closeSession` closes a connection that no other session is
registered on, and no session is registered on a connection between this and its `onClose`. -/
def noSharedClose (s : Client) : Action → Bool
  | .advance i => s.mayAdvance i
  | .register _ c => s.threads.all fun t => !decide (.onClose c ∈ underLock t)
  | _ => true

abbrev NoSharedClose (s : Client) (a : Action) : Prop := s.noSharedClose a = true

/-- The thread is about to lock the mutex that it has locked. -/
def reenters : List Task → Bool
  | .closeSession _ :: rest => decide (.unlock ∈ rest)
  | _ => false

/-! ## The invariant -/

/-- A task that does not lead to the mutex again. -/
def Safe (s : Client) : Task → Prop
  | .closeSession _ | .close _ => False
  | .onClose c => s.unshared c = true
  | .handler _ h => h.isSession = false
  | _ => True

structure Inv (s : Client) : Prop where
  single : ∀ t ∈ s.threads, t.count .unlock ≤ 1
  safe : ∀ t ∈ s.threads, ∀ task ∈ underLock t, s.Safe task

/-! ## Helpers -/

namespace SessionsLemmas

variable {s s' : Client}

/-! ### The handlers -/

theorem unshared_iff {c : Ref} : s.unshared c = true ↔
    ∀ k, s.all[c]? = some k → ∀ h ∈ k.onClose, h.isSession = false := by
  unfold unshared
  cases s.all[c]? with
  | none => simp
  | some k => simp

/-- The step registers no session. -/
def Shrinks (s s' : Client) : Prop := ∀ c, s.unshared c = true → s'.unshared c = true

theorem Shrinks.refl (s : Client) : Shrinks s s := fun _ h => h

theorem Shrinks.trans {s'' : Client} (h : Shrinks s s') (h' : Shrinks s' s'') : Shrinks s s'' :=
  fun c hc => h' c (h c hc)

theorem shrinks_modify {c : Ref} {f : Connection → Connection}
    (hall : s'.all = s.all.modify c f) (hf : ∀ k, (f k).onClose ⊆ k.onClose) : Shrinks s s' := by
  intro d hd
  rw [unshared_iff] at hd ⊢
  intro k' hk' h hh
  rw [hall, List.getElem?_modify] at hk'
  obtain ⟨k, hk, rfl⟩ := Option.map_eq_some_iff.mp hk'
  split at hh
  · exact hd k hk h (hf k hh)
  · exact hd k hk h hh

theorem shrinks_setConnectionState (s : Client) (c : Ref) (state : ConnectionState) :
    Shrinks s (s.setConnectionState c state) :=
  shrinks_modify rfl fun _ => List.Subset.refl _

theorem shrinks_eraseSession (s : Client) (p2pSessionId : Str) (session : P2PSession) :
    Shrinks s (s.eraseSession p2pSessionId session) := by
  cases hsub : session.onConnectionCloseSubscription with
  | none =>
    have hall : (s.eraseSession p2pSessionId session).all = s.all := by
      rw [eraseSession, hsub]
    intro c hc
    rw [unshared, hall]
    exact hc
  | some c =>
    have hall : (s.eraseSession p2pSessionId session).all = s.all.modify c fun k =>
        { k with onClose := k.onClose.erase (.session p2pSessionId) } := by
      rw [eraseSession, hsub]
    exact shrinks_modify hall fun _ => List.erase_subset

theorem shrinks_eraseConnection (s : Client) (c : Ref) : Shrinks s (s.eraseConnection c) := by
  unfold eraseConnection
  split
  · exact Shrinks.refl s
  · exact Shrinks.refl s

/-- `close` leaves `onClose` and a state to do, when the connection is open. -/
theorem close_cases (s : Client) (c : Ref) :
    Shrinks s (s.close c).1 ∧ ((s.close c).2 = [] ∨
      (s.all[c]?).any Connection.isOpen = true ∧
        (s.close c).2 = [.onClose c, .setConnectionState c .disconnected]) := by
  unfold close
  split
  · next hopen => exact ⟨shrinks_setConnectionState s c _, .inr ⟨hopen, rfl⟩⟩
  · exact ⟨Shrinks.refl s, .inl rfl⟩

theorem closeSession_cases (s : Client) (p2pSessionId : Str) :
    Shrinks s (s.closeSession p2pSessionId).1 ∧
      ((s.closeSession p2pSessionId).2 = [] ∨ ∃ c, (s.closeSession p2pSessionId).2 =
          [.onClose c, .setConnectionState c .disconnected] ∧
        (s.closesAlone p2pSessionId = true →
          (s.closeSession p2pSessionId).1.unshared c = true)) := by
  unfold closeSession closesAlone
  cases s.sessions.lookup p2pSessionId with
  | none => exact ⟨Shrinks.refl s, .inl rfl⟩
  | some session =>
    have herase := shrinks_eraseSession s p2pSessionId session
    dsimp only
    cases hlookup : s.connections.lookup session.remotePeerId with
    | none => exact ⟨herase, .inl rfl⟩
    | some c =>
      obtain ⟨hclose, htasks | ⟨hopen, htasks⟩⟩ :=
        close_cases (s.eraseSession p2pSessionId session) c
      · exact ⟨herase.trans hclose, .inl htasks⟩
      · refine ⟨herase.trans hclose, .inr ⟨c, htasks, fun halone => hclose c ?_⟩⟩
        simpa [hlookup, hopen] using halone

/-! ### The mutex -/

theorem underLock_of_not_mem {t : List Task} (h : .unlock ∉ t) : underLock t = [] := if_neg h

theorem underLock_append {new rest : List Task} (hnew : .unlock ∉ new) (hrest : .unlock ∈ rest) :
    underLock (new ++ rest) = new ++ underLock rest := by
  rw [underLock, underLock, if_pos hrest, if_pos (List.mem_append_right _ hrest),
    List.takeWhile_append_of_pos]
  intro task htask
  rw [decide_eq_true_iff]
  rintro rfl
  exact hnew htask

theorem underLock_unlock (rest : List Task) : underLock (.unlock :: rest) = [] := by
  rw [underLock, if_pos List.mem_cons_self, List.takeWhile_cons_of_neg (by simp)]

theorem nothing_left {P : Prop} {x : Task} (hx : x ∈ ([] : List Task)) : P :=
  absurd hx List.not_mem_nil

/-- What a task other than `closeSession` and `unlock` leaves to do. A task that is safe leaves
only tasks that are safe. -/
theorem perform_cases {task : Task} {rest tasks : List Task}
    (hclose : ∀ p2pSessionId, task ≠ .closeSession p2pSessionId) (hunlock : task ≠ .unlock)
    (h : s.perform rest task = some (s', tasks)) :
    Shrinks s s' ∧ ∃ new, tasks = new ++ rest ∧ .unlock ∉ new ∧
      (s.Safe task → ∀ x ∈ new, s'.Safe x) := by
  cases task with
  | closeSession p2pSessionId => exact absurd rfl (hclose p2pSessionId)
  | unlock => exact absurd rfl hunlock
  | close c =>
    cases h
    obtain ⟨hshrinks, htasks | ⟨-, htasks⟩⟩ := close_cases s c
    · exact ⟨hshrinks, _, rfl, by simp [htasks], False.elim⟩
    · exact ⟨hshrinks, _, rfl, by simp [htasks], False.elim⟩
  | closeConnection c =>
    cases h
    exact ⟨shrinks_eraseConnection s c, [], rfl, List.not_mem_nil, fun _ _ => nothing_left⟩
  | onClose c =>
    cases h
    refine ⟨Shrinks.refl s, _, rfl, ?_, fun hsafe x hx => ?_⟩
    · cases s.all[c]? <;> simp
    · cases hk : s.all[c]? with
      | none =>
        rw [hk] at hx
        cases hx
      | some k =>
        rw [hk] at hx
        obtain ⟨which, hwhich, rfl⟩ := List.mem_map.mp hx
        exact unshared_iff.mp hsafe k hk which hwhich
  | handler c which =>
    cases which with
    | transport =>
      cases h
      exact ⟨Shrinks.refl s, [], rfl, List.not_mem_nil, fun _ _ => nothing_left⟩
    | repository =>
      cases h
      exact ⟨shrinks_eraseConnection s c, [], rfl, List.not_mem_nil, fun _ _ => nothing_left⟩
    | session p2pSessionId =>
      cases h
      refine ⟨Shrinks.refl s, [.closeSession p2pSessionId], rfl, by simp, fun hsafe => ?_⟩
      exact absurd hsafe (by simp [Safe, Handler.isSession])
  | setConnectionState c state =>
    cases h
    exact ⟨shrinks_setConnectionState s c state, [], rfl, List.not_mem_nil,
      fun _ _ => nothing_left⟩

theorem safe_of_shrinks (h : Shrinks s s') {task : Task} (hsafe : s.Safe task) :
    s'.Safe task := by
  cases task with
  | onClose c => exact h c hsafe
  | closeSession | close => exact hsafe
  | handler c which => exact hsafe
  | unlock | closeConnection | setConnectionState => trivial

/-! ### The steps -/

theorem not_locked_iff : s.locked = false ↔ ∀ t ∈ s.threads, .unlock ∉ t := by
  simp [locked]

/-- A step of the thread `t` that leaves `tasks` to do. -/
theorem inv_of_perform (hinv : Inv s) {i : Nat} {tasks : List Task} (hshrinks : Shrinks s s')
    (hthreads : s'.threads = s.threads.set i tasks) (hcount : tasks.count .unlock ≤ 1)
    (hsafe : ∀ x ∈ underLock tasks, s'.Safe x) : Inv s' := by
  constructor
  case single =>
    intro t ht
    rw [hthreads] at ht
    rcases List.mem_or_eq_of_mem_set ht with ht | rfl
    · exact hinv.single t ht
    · exact hcount
  case safe =>
    intro t ht task htask
    rw [hthreads] at ht
    rcases List.mem_or_eq_of_mem_set ht with ht | rfl
    · exact safe_of_shrinks hshrinks (hinv.safe t ht task htask)
    · exact hsafe task htask

theorem not_mem_of_count {rest : List Task} (h : (.unlock :: rest).count .unlock ≤ 1) :
    .unlock ∉ rest := by
  rw [List.count_cons_self] at h
  exact List.count_eq_zero.mp (Nat.le_zero.mp (Nat.le_of_succ_le_succ h))

/-- The mutex was free, so the tasks before `unlock` are those of `closeSession`. -/
theorem inv_closeSession (hinv : Inv s) {i : Nat} {p2pSessionId : Str} {rest : List Task}
    (hrest : .unlock ∉ rest) (hguard : s.closesAlone p2pSessionId = true) :
    Inv { (s.closeSession p2pSessionId).1 with
      threads := s.threads.set i ((s.closeSession p2pSessionId).2 ++ .unlock :: rest) } := by
  have hcount : (Task.unlock :: rest).count .unlock ≤ 1 := by
    rw [List.count_cons_self, List.count_eq_zero_of_not_mem hrest]
  obtain ⟨hshrinks, htasks | ⟨c, htasks, halone⟩⟩ := closeSession_cases s p2pSessionId
  · rw [htasks, List.nil_append]
    refine inv_of_perform hinv hshrinks rfl hcount ?_
    rw [underLock_unlock]
    exact fun _ => nothing_left
  · rw [htasks]
    refine inv_of_perform hinv hshrinks rfl hcount ?_
    rw [underLock_append (by simp) List.mem_cons_self, underLock_unlock, List.append_nil]
    intro x hx
    rcases List.mem_cons.mp hx with rfl | hx
    · exact halone hguard
    · rw [List.mem_singleton.mp hx]
      trivial

theorem inv_other (hinv : Inv s) {i : Nat} {task : Task} {rest tasks : List Task}
    (hmem : task :: rest ∈ s.threads) (hclose : ∀ p2pSessionId, task ≠ .closeSession p2pSessionId)
    (hunlock : task ≠ .unlock) (h : s.perform rest task = some (s', tasks)) :
    Inv { s' with threads := s.threads.set i tasks } := by
  obtain ⟨hshrinks, new, rfl, hnew, hsafe⟩ := perform_cases hclose hunlock h
  have hcount := hinv.single _ hmem
  rw [List.count_cons_of_ne hunlock] at hcount
  refine inv_of_perform hinv hshrinks rfl ?_ ?_
  · rw [List.count_append, List.count_eq_zero_of_not_mem hnew, Nat.zero_add]
    exact hcount
  · by_cases hrest : .unlock ∈ rest
    · have hfirst : Task.unlock ∉ [task] := by simpa using Ne.symm hunlock
      have hlocked : underLock (task :: rest) = task :: underLock rest :=
        underLock_append hfirst hrest
      have hbefore := hinv.safe _ hmem
      rw [hlocked, List.forall_mem_cons] at hbefore
      rw [underLock_append hnew hrest, List.forall_mem_append]
      exact ⟨hsafe hbefore.1, fun x hx => safe_of_shrinks hshrinks (hbefore.2 x hx)⟩
    · rw [underLock_of_not_mem]
      · exact fun _ => nothing_left
      · rw [List.mem_append, not_or]
        exact ⟨hnew, hrest⟩

theorem inv_advance (hinv : Inv s) {i : Nat} {task : Task} {rest tasks : List Task}
    (hi : s.threads[i]? = some (task :: rest))
    (hguard : ∀ p2pSessionId, task = .closeSession p2pSessionId →
      s.closesAlone p2pSessionId = true)
    (h : s.perform rest task = some (s', tasks)) :
    Inv { s' with threads := s.threads.set i tasks } := by
  have hmem := List.mem_of_getElem? hi
  cases task with
  | closeSession p2pSessionId =>
    rw [perform] at h
    split at h
    · cases h
    · next hlocked =>
      cases h
      have hfree := not_locked_iff.mp (Bool.eq_false_of_not_eq_true hlocked) _ hmem
      exact inv_closeSession hinv (fun hunlock => hfree (List.mem_cons_of_mem _ hunlock))
        (hguard p2pSessionId rfl)
  | unlock =>
    cases h
    have hrest := not_mem_of_count (hinv.single _ hmem)
    refine inv_of_perform hinv (Shrinks.refl s) rfl ?_ ?_
    · rw [List.count_eq_zero_of_not_mem hrest]
      exact Nat.zero_le 1
    · rw [underLock_of_not_mem hrest]
      exact fun _ => nothing_left
  | close | closeConnection | onClose | handler | setConnectionState =>
    exact inv_other hinv hmem (fun _ => Task.noConfusion) Task.noConfusion h

/-- A new thread, which has not locked the mutex. -/
theorem inv_spawn (hinv : Inv s) {t : List Task} (ht : .unlock ∉ t) :
    Inv { s with threads := s.threads ++ [t] } := by
  constructor
  case single =>
    rw [List.forall_mem_append, List.forall_mem_singleton, List.count_eq_zero_of_not_mem ht]
    exact ⟨hinv.single, Nat.zero_le 1⟩
  case safe =>
    rw [List.forall_mem_append, List.forall_mem_singleton, underLock_of_not_mem ht]
    exact ⟨hinv.safe, fun _ => nothing_left⟩

theorem inv_congr (hinv : Inv s) (hthreads : s'.threads = s.threads) (hshrinks : Shrinks s s') :
    Inv s' := by
  constructor
  case single => rw [hthreads]; exact hinv.single
  case safe =>
    rw [hthreads]
    exact fun t ht task htask => safe_of_shrinks hshrinks (hinv.safe t ht task htask)

theorem inv_newConnection (hinv : Inv s) (id : UInt64) (relay : Bool)
    (connections : Slots.Table UInt64 Ref) :
    Inv { s with
      all := s.all ++
        [⟨id, relay, .disconnected, if relay then [.repository] else [.transport, .repository]⟩]
      connections := connections } := by
  refine inv_congr hinv rfl fun c hc => ?_
  rw [unshared_iff] at hc ⊢
  intro k hk which hwhich
  rcases Heap.of_make hk with hk | ⟨-, rfl⟩
  · exact hc k hk which hwhich
  · have hnone : ∀ r : Bool, ∀ which ∈ (if r then [Handler.repository] else
        [Handler.transport, Handler.repository]), which.isSession = false := by decide
    exact hnone relay which hwhich

/-- A session that is registered on a connection whose `onClose` no thread is about to call under
the lock. -/
theorem inv_register (hinv : Inv s) {p2pSessionId : Str} {c : Ref} (session : P2PSession)
    (hguard : ∀ t ∈ s.threads, .onClose c ∉ underLock t) :
    Inv (s.register p2pSessionId c session) := by
  refine ⟨hinv.single, fun t ht task htask => ?_⟩
  have hsafe := hinv.safe t ht task htask
  cases task with
  | onClose d =>
    have hne : d ≠ c := by
      rintro rfl
      exact hguard t ht htask
    have hbefore : s.unshared d = true := hsafe
    show (s.register p2pSessionId c session).unshared d = true
    rw [unshared_iff] at hbefore ⊢
    intro k hk
    rw [register, List.getElem?_modify] at hk
    obtain ⟨before, hbefore', rfl⟩ := Option.map_eq_some_iff.mp hk
    rw [if_neg (Ne.symm hne)]
    exact hbefore before hbefore'
  | closeSession | close => exact hsafe
  | handler d which => exact hsafe
  | unlock | closeConnection | setConnectionState => trivial

end SessionsLemmas

open SessionsLemmas

variable {s s' : Client}

/-! ## Results -/

theorem inv_step {a : Action} (hinv : Inv s) (hguard : s.NoSharedClose a)
    (h : step s a = some s') : Inv s' := by
  cases a with
  | newConnection id relay =>
    cases h
    exact inv_newConnection hinv id relay _
  | setConnectionState c state =>
    cases h
    exact inv_congr hinv rfl (shrinks_setConnectionState s c state)
  | createSession p2pSessionId remotePeerId =>
    rw [step] at h
    split at h
    · cases h
    · cases h
      exact inv_congr hinv rfl (Shrinks.refl s)
  | register p2pSessionId c =>
    obtain ⟨session, -, hregister⟩ := Option.bind_eq_some_iff.mp h
    split at hregister
    · cases hregister
      refine inv_register hinv session fun t ht hmem => ?_
      have hnot := List.all_eq_true.mp hguard t ht
      rw [decide_eq_true hmem] at hnot
      cases hnot
    · cases hregister
  | closeSession p2pSessionId =>
    cases h
    exact inv_spawn hinv (by simp)
  | close c =>
    cases h
    exact inv_spawn hinv (by simp)
  | onDisconnection c =>
    cases h
    exact inv_spawn hinv (by simp)
  | advance i =>
    rw [step] at h
    split at h
    · next task rest hi =>
      obtain ⟨⟨s₁, tasks⟩, hperform, rfl⟩ := Option.map_eq_some_iff.mp h
      refine inv_advance hinv hi (fun p2pSessionId htask => ?_) hperform
      subst htask
      have halone : s.mayAdvance i = true := hguard
      rw [mayAdvance, hi] at halone
      exact halone
    · cases h

/-- Over every run whose steps meet the condition, no thread locks the mutex that it has
locked. -/
theorem no_reentry (h : Lts.Reachable step NoSharedClose init s) {t : List Task}
    (ht : t ∈ s.threads) : reenters t = false := by
  have hinv : Inv s := by
    refine h.invariant ⟨?_, ?_⟩ fun _ _ _ hinv hguard hs => inv_step hinv hguard hs
    · exact fun _ hmem => absurd hmem List.not_mem_nil
    · exact fun _ hmem => absurd hmem List.not_mem_nil
  unfold reenters
  split
  · next p2pSessionId rest =>
    refine decide_eq_false fun hrest => ?_
    have hfirst : Task.unlock ∉ [Task.closeSession p2pSessionId] := by simp
    have hlocked : underLock (.closeSession p2pSessionId :: rest) =
        .closeSession p2pSessionId :: underLock rest := underLock_append hfirst hrest
    have hsafe := hinv.safe _ ht
    rw [hlocked, List.forall_mem_cons] at hsafe
    exact hsafe.1
  · rfl

/-- A session that is registered alone on the connection of the peer 7 is closed. -/
def oneSession : List Action :=
  [.newConnection 7 false, .setConnectionState 0 .connected, .createSession ['a'] 7,
    .register ['a'] 0, .closeSession ['a'], .advance 0, .advance 0]

theorem no_reentry_oneSession :
    ∃ t, t = [.handler 0 .transport, .handler 0 .repository,
        .setConnectionState 0 .disconnected, .unlock] ∧ reenters t = false := by
  obtain ⟨s, hs, hp⟩ := Lts.Reachable.of_exec step NoSharedClose init oneSession
    (fun s => decide ([.handler 0 .transport, .handler 0 .repository,
      .setConnectionState 0 .disconnected, .unlock] ∈ s.threads)) (by decide +kernel)
  exact ⟨_, rfl, no_reentry hs (of_decide_eq_true hp)⟩

/-- Two sessions of the peer 7 share its connection, and one of them is closed. -/
def twoSessions : List Action :=
  [.newConnection 7 false, .setConnectionState 0 .connected, .createSession ['a'] 7,
    .register ['a'] 0, .createSession ['b'] 7, .register ['b'] 0, .closeSession ['a'],
    .advance 0, .advance 0, .advance 0, .advance 0, .advance 0]

theorem shared_connection_reenters :
    ¬ ∀ s, Lts.Reachable step Lts.anyStep init s → ∀ t ∈ s.threads, reenters t = false := by
  intro hclaim
  obtain ⟨s, hs, hp⟩ := Lts.Reachable.of_exec step Lts.anyStep init twoSessions
    (fun s => s.threads.any reenters) (by decide +kernel)
  obtain ⟨t, ht, hreenters⟩ := List.any_eq_true.mp hp
  rw [hclaim s hs t ht] at hreenters
  cases hreenters

end Client

end Stormancer.P2P.Sessions
