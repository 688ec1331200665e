import Mathlib.Data.UInt
import Stormancer.Lib.Heap
import Stormancer.Lib.Rx
import Stormancer.Lib.Slots

/-!
# The caller side of `RpcService`

The state and the functions of `RpcService` that start RPCs and handle the answers, with
`RpcRequest`. A `shared_ptr<RpcRequest>` is an index (`Ref`) into the list of all requests ever
made. A request is alive while the pending table or the copy of a `cancelAll` call holds it
(`isHeld`); when the last of them lets it go, its destructor runs (`release`).

A message handler runs to its end as one step: it takes the lock once, to look the request up.
Three things are not part of the step that starts them. The continuation that `complete`
attaches to `waitingForDataTce` runs later, on another thread. `cancelAll` copies the table
under the lock, then works through the copy without it, so other steps may come between. The
counter of `reserveId` is a function static, so every other `RpcService` of the process moves it.

The packets are modelled after their ids and flags have been read from the stream. The texts
of the log are left out.
-/

namespace Stormancer.Rpc

/-! ## Data -/

/-- The bytes of a packet that follow the RPC header. -/
abbrev Payload := List UInt8

/-- The identity of a `shared_ptr<RpcRequest>`. -/
abbrev Ref := Nat

abbrev Observer := Rx.Subscriber Payload String

def pluginName : String := "stormancer.plugins.rpc"

def version : String := "1.1.0"

/-- A route of the remote host: its name and metadata. -/
structure Route where
  name : String
  metadata : List (String × String)

/-- What the caller side sends to the scene host. -/
inductive Outgoing
  | request (route : String) (id : UInt16) (payload : Payload)
  | cancellation (id : UInt16)
deriving DecidableEq

structure RpcRequest where
  id : UInt16
  observer : Observer
  /-- `waitingForDataTce` is set. -/
  waitingForDataTce : Bool
  hasCompleted : Bool
  route : String
  /-- The teardown of `rpcObservable` has been added to the subscriber. -/
  tearsDown : Bool
  /-- Continuations that `complete` attached to the event and that have not run. -/
  continuations : Nat
  /-- The owner of the subscription gave it up (for the statements only). -/
  unsubscribed : Bool

/-- A `cancelAll` call between its locked part and its return. -/
structure CancelAll where
  reason : String
  pendingRequestsCopy : List Ref
  /-- The entries its loop has not reached. -/
  todo : List Ref

structure RpcService where
  heap : List RpcRequest
  pendingRequests : Slots.Table UInt16 Ref
  /-- The static counter of `reserveId`. -/
  lastId : UInt16
  cancelAlls : List CancelAll
  /-- The scene's connection state is `Connected`. -/
  connected : Bool
  remoteRoutes : List Route
  sent : List Outgoing
  /-- Errors of RPCs that ended before a request was made. -/
  rejected : List String

/-! ## The life of a request -/

/-- `RpcRequest::RpcRequest`, with the id that `rpcObservable` then stores. -/
def RpcRequest.create (route : String) (id : UInt16) : RpcRequest where
  id := id
  observer := Rx.Subscriber.fresh
  waitingForDataTce := false
  hasCompleted := false
  route := route
  tearsDown := false
  continuations := 0
  unsubscribed := false

/-- `RpcRequest::~RpcRequest`. -/
def RpcRequest.destroy (q : RpcRequest) : RpcRequest :=
  if q.hasCompleted then q
  else { q with observer := q.observer.onError "task canceled", hasCompleted := true }

namespace RpcService

def modify (s : RpcService) (r : Ref) (f : RpcRequest → RpcRequest) : RpcService :=
  { s with heap := s.heap.modify r f }

/-- Some `shared_ptr` keeps the request alive. -/
def isHeld (s : RpcService) (r : Ref) : Bool :=
  s.pendingRequests.values.contains r ||
    s.cancelAlls.any fun c => c.pendingRequestsCopy.contains r

/-- A `shared_ptr` to the request goes away. -/
def release (s : RpcService) (r : Ref) : RpcService :=
  if s.isHeld r then s else s.modify r RpcRequest.destroy

def eraseRequest (s : RpcService) (requestId : UInt16) : RpcService :=
  match s.pendingRequests.lookup requestId with
  | none => s
  | some r => { s with pendingRequests := s.pendingRequests.erase requestId }.release r

/-- The teardown that `rpcObservable` adds to the subscriber of `r`. -/
def teardown (s : RpcService) (r : Ref) : RpcService :=
  match s.heap[r]? with
  | none => s
  | some q =>
    -- `wRequest.lock()` fails once the destructor of the request has started.
    if q.tearsDown && s.isHeld r then
      let s :=
        if !q.hasCompleted && s.connected then { s with sent := s.sent ++ [.cancellation q.id] }
        else s
      s.eraseRequest q.id
    else s

/-- Sends something to the observer of `r`; if that ends it, its teardown runs. -/
def notify (s : RpcService) (r : Ref) (f : Observer → Observer) : RpcService :=
  match s.heap[r]? with
  | none => s
  | some q =>
    let s := s.modify r fun q => { q with observer := f q.observer }
    if q.observer.isSubscribed && !(f q.observer).isSubscribed then s.teardown r else s

/-! ## Starting an RPC -/

/-- The checks of `rpcObservable` on the remote route. -/
def checkRoute (s : RpcService) (route : String) : Except String Unit :=
  match s.remoteRoutes.find? fun r => r.name == route with
  | none => .error ("The target route '" ++ route ++ "' does not exist on the remote host.")
  | some r =>
    match r.metadata.lookup pluginName with
    | none => .error ("The target remote route '" ++ route ++ "' is not an RPC route.")
    | some v =>
      if v = version then .ok ()
      else .error ("The target remote route '" ++ route ++
        "' does not support the plugin RPC version " ++ version)

/-- The id `reserveId` returns and stores in the counter. -/
def reserveId (s : RpcService) : Option UInt16 :=
  Slots.nextFree (· + 1) (fun id => (s.pendingRequests.lookup id).isSome) 0x10000 s.lastId

/-- `Scene_Impl::send` to the host: `fails` is what it throws beyond the connection check. -/
def sceneSend (s : RpcService) (m : Outgoing) (fails : Option String) : Except String RpcService :=
  if !s.connected then .error "The scene is not connected"
  else
    match fails with
    | some what => .error what
    | none => .ok { s with sent := s.sent ++ [m] }

/-- A new request is stored under a free id. -/
def withRequest (s : RpcService) (route : String) (id : UInt16) : RpcService :=
  { s with
    heap := s.heap ++ [RpcRequest.create route id]
    lastId := id
    pendingRequests := s.pendingRequests.insert id s.heap.length }

/-- A subscription to the observable that `rpcObservable` returns. -/
def rpc (s : RpcService) (route : String) (payload : Payload) (sendFails : Option String) :
    RpcService :=
  match s.checkRoute route with
  | .error what => { s with rejected := s.rejected ++ [what] }
  | .ok () =>
    match s.reserveId with
    | none => { s with rejected := s.rejected ++
        ["Unable to create a new RPC request: Too many pending requests."] }
    | some id =>
      let r := s.heap.length
      let s := s.withRequest route id
      match s.sceneSend (.request route id payload) sendFails with
      -- The handler returns before `subscriber.add`; the entry stays in the table.
      | .error what => s.notify r (·.onError what)
      | .ok s => s.modify r fun q => { q with tearsDown := true }

/-! ## Answers -/

/-- `next`: `thrown` is what the observer's own handler throws, if it does. -/
def next (s : RpcService) (id : UInt16) (packet : Payload) (thrown : Option String) : RpcService :=
  match s.pendingRequests.lookup id with
  | none => s
  | some r =>
    (s.notify r (·.onNext packet thrown)).modify r fun q => { q with waitingForDataTce := true }

/-- `error`: `text` is `none` when the message cannot be decoded. -/
def error (s : RpcService) (id : UInt16) (text : Option String) : RpcService :=
  match s.pendingRequests.lookup id with
  | none => s
  | some r =>
    let s := s.modify r fun q => { q with hasCompleted := true }
    match text with
    -- `deserializeOne` throws out of the handler; the flag stays set and the entry stays.
    | none => s
    | some msg =>
      let msg := if msg = "" then "RPC failed (An unknown error occured on the server)" else msg
      s.notify r (·.onError msg)

def complete (s : RpcService) (messageSent : Bool) (id : UInt16) : RpcService :=
  match s.pendingRequests.lookup id with
  | none => s
  | some r =>
    s.modify r fun q => { q with
      hasCompleted := true
      waitingForDataTce := q.waitingForDataTce || !messageSent
      continuations := q.continuations + 1 }

/-- The continuation of `complete`, possible once `waitingForDataTce` is set. -/
def continuation (s : RpcService) (r : Ref) : Option RpcService :=
  match s.heap[r]? with
  | none => none
  | some q =>
    if q.waitingForDataTce && 0 < q.continuations then
      let s := s.modify r fun q => { q with continuations := q.continuations - 1 }
      some (if s.isHeld r then s.notify r (·.onCompleted) else s)
    else none

/-- The owner unsubscribes, as the cancellation callback of `rpcInternal` does. -/
def unsubscribe (s : RpcService) (r : Ref) : Option RpcService :=
  match s.heap[r]? with
  | none => none
  | some q =>
    if q.observer.isSubscribed then
      some ((s.modify r fun q => { q with unsubscribed := true }).notify r (·.unsubscribe))
    else none

/-! ## `cancelAll` -/

/-- The locked part: the table moves to a copy. -/
def cancelAllBegin (s : RpcService) (reason : String) : RpcService :=
  let values := s.pendingRequests.values
  { s with
    pendingRequests := ∅
    cancelAlls := s.cancelAlls ++
      [{ reason := reason, pendingRequestsCopy := values, todo := values }] }

/-- One turn of the loop of the `i`-th call, for any entry it has not reached. -/
def cancelAllEntry (s : RpcService) (i : Nat) (r : Ref) : Option RpcService :=
  match s.cancelAlls[i]?, s.heap[r]? with
  | some c, some q =>
    if r ∈ c.todo then
      let s := { s with cancelAlls := s.cancelAlls.set i { c with todo := c.todo.erase r } }
      some (
        if q.hasCompleted then s
        else (s.modify r fun q => { q with hasCompleted := true }).notify r (·.onError c.reason))
    else none
  | _, _ => none

/-- The `i`-th call returns and its copy is destroyed. -/
def cancelAllReturn (s : RpcService) (i : Nat) : Option RpcService :=
  match s.cancelAlls[i]? with
  | none => none
  | some c =>
    if c.todo = [] then
      some (c.pendingRequestsCopy.foldl release { s with cancelAlls := s.cancelAlls.eraseIdx i })
    else none

/-! ## Steps -/

inductive Action
  | rpc (route : String) (payload : Payload) (sendFails : Option String)
  | next (id : UInt16) (packet : Payload) (thrown : Option String)
  | error (id : UInt16) (text : Option String)
  | complete (messageSent : Bool) (id : UInt16)
  | continuation (r : Ref)
  | unsubscribe (r : Ref)
  | cancelAllBegin (reason : String)
  | cancelAllEntry (i : Nat) (r : Ref)
  | cancelAllReturn (i : Nat)
  /-- The connection state of the scene changes. -/
  | sceneState (connected : Bool)
  /-- Another `RpcService` of the process reserves ids. -/
  | otherService (lastId : UInt16)
deriving DecidableEq

def step (s : RpcService) : Action → Option RpcService
  | .rpc route payload sendFails => some (s.rpc route payload sendFails)
  | .next id packet thrown => some (s.next id packet thrown)
  | .error id text => some (s.error id text)
  | .complete messageSent id => some (s.complete messageSent id)
  | .continuation r => s.continuation r
  | .unsubscribe r => s.unsubscribe r
  | .cancelAllBegin reason => some (s.cancelAllBegin reason)
  | .cancelAllEntry i r => s.cancelAllEntry i r
  | .cancelAllReturn i => s.cancelAllReturn i
  | .sceneState connected => some { s with connected := connected }
  | .otherService lastId => some { s with lastId := lastId }

/-- A service on a scene with the given remote routes, before any RPC. -/
def init (remoteRoutes : List Route) : RpcService where
  heap := []
  pendingRequests := ∅
  lastId := 0
  cancelAlls := []
  connected := true
  remoteRoutes := remoteRoutes
  sent := []
  rejected := []

/-! ## Reading the state after an update -/

theorem modify_get {s : RpcService} {r r' : Ref} {f : RpcRequest → RpcRequest} :
    (s.modify r f).heap[r']? = if r = r' then (s.heap[r']?).map f else s.heap[r']? := by
  unfold RpcService.modify
  rw [List.getElem?_modify]
  split <;> simp

theorem modify_isHeld (s : RpcService) (r r' : Ref) (f : RpcRequest → RpcRequest) :
    (s.modify r f).isHeld r' = s.isHeld r' := rfl

theorem isHeld_iff {s : RpcService} {r : Ref} :
    s.isHeld r = true ↔ (∃ id, s.pendingRequests.lookup id = some r) ∨
      ∃ c ∈ s.cancelAlls, r ∈ c.pendingRequestsCopy := by
  simp [RpcService.isHeld, Slots.Table.mem_values]

theorem isHeld_false_iff {s : RpcService} {r : Ref} :
    s.isHeld r = false ↔ (∀ id, s.pendingRequests.lookup id ≠ some r) ∧
      ∀ c ∈ s.cancelAlls, r ∉ c.pendingRequestsCopy := by
  rw [← Bool.not_eq_true, isHeld_iff]
  simp

theorem reserveId_free {s : RpcService} {id : UInt16} (h : s.reserveId = some id) :
    s.pendingRequests.lookup id = none := by
  have := Slots.nextFree_free h
  simpa using this

/-! ## The steps that need something -/

theorem of_continuation {s s' : RpcService} {r : Ref} (h : s.continuation r = some s') :
    ∃ q, s.heap[r]? = some q ∧ (q.waitingForDataTce && 0 < q.continuations) = true ∧
      s' = let t := s.modify r fun q => { q with continuations := q.continuations - 1 }
        if t.isHeld r then t.notify r (·.onCompleted) else t := by
  unfold continuation at h
  split at h
  · cases h
  · next q hq =>
    obtain ⟨hready, hs⟩ := Option.ite_none_right_eq_some.mp h
    exact ⟨q, hq, hready, (Option.some.inj hs).symm⟩

theorem of_unsubscribe {s s' : RpcService} {r : Ref} (h : s.unsubscribe r = some s') :
    ∃ q, s.heap[r]? = some q ∧ q.observer.isSubscribed = true ∧
      s' = (s.modify r fun q => { q with unsubscribed := true }).notify r (·.unsubscribe) := by
  unfold unsubscribe at h
  split at h
  · cases h
  · next q hq =>
    obtain ⟨hsub, hs⟩ := Option.ite_none_right_eq_some.mp h
    exact ⟨q, hq, hsub, (Option.some.inj hs).symm⟩

theorem of_cancelAllEntry {s s' : RpcService} {i : Nat} {r : Ref}
    (h : s.cancelAllEntry i r = some s') :
    ∃ c q, s.cancelAlls[i]? = some c ∧ s.heap[r]? = some q ∧ r ∈ c.todo ∧
      s' = let t := { s with cancelAlls := s.cancelAlls.set i { c with todo := c.todo.erase r } }
        if q.hasCompleted then t
        else (t.modify r fun q => { q with hasCompleted := true }).notify r
          (·.onError c.reason) := by
  unfold cancelAllEntry at h
  split at h
  · next c q hc hq =>
    obtain ⟨htodo, hs⟩ := Option.ite_none_right_eq_some.mp h
    exact ⟨c, q, hc, hq, htodo, (Option.some.inj hs).symm⟩
  · cases h

theorem of_cancelAllReturn {s s' : RpcService} {i : Nat} (h : s.cancelAllReturn i = some s') :
    ∃ c, s.cancelAlls[i]? = some c ∧ c.todo = [] ∧
      s' = c.pendingRequestsCopy.foldl release
        { s with cancelAlls := s.cancelAlls.eraseIdx i } := by
  unfold cancelAllReturn at h
  split at h
  · cases h
  · next c hc =>
    obtain ⟨htodo, hs⟩ := Option.ite_none_right_eq_some.mp h
    exact ⟨c, hc, htodo, (Option.some.inj hs).symm⟩

end RpcService

end Stormancer.Rpc
