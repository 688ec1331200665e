import Mathlib.Data.UInt
import Mathlib.Logic.Function.Basic
import Stormancer.Lib.Heap
import Stormancer.Lib.Slots
import Stormancer.Packets.ChannelUidStore

/-!
# The callee side of `RpcService`

The procedures that `addProcedure` adds to the scene, their table `_runningRequests`, and
`RpcRequestContext`. A context is found by the peer it was made for and its position among the
contexts of that peer (`ContextRef`); the token source in the table is the one of the context,
so the table leads to the context.

A request is accepted in one step. What follows comes later and on other threads: the handler
sends values and ends, the continuation of its task takes the lock, and what the continuation
then sends goes out after the lock is released. Each of these is a step of its own.

The answers go out with the channel uid that the `ChannelUidStore` of the host's connection gives
for `RPC_client`. All that is sent over the connection takes uids from that store, so the uid may
change between two answers, to any other (`ChannelUidStore.channelUid_any`); what it is at present
is part of the state.

The scene hands a message to a route after two checks of its filter, which are the same check.
The texts of the log are left out.
-/

namespace Stormancer.Rpc

/-! ## Data -/

/-- The other end of a connection of the scene. -/
inductive Peer
  | host
  | p2p (sessionId : String)
deriving DecidableEq

inductive MessageOriginFilter
  | host
  | peer
  | all
deriving DecidableEq

def MessageOriginFilter.value : MessageOriginFilter → UInt32
  | .host => 1
  | .peer => 2
  | .all => 0xFF

/-- The filter check of `Scene_Impl::handleMessage`. -/
def MessageOriginFilter.admits (filter : MessageOriginFilter) : Peer → Bool
  | .host => filter.value &&& MessageOriginFilter.host.value != 0
  | .p2p _ => filter.value &&& MessageOriginFilter.peer.value != 0

/-- What `addProcedure` is given, but for the handler. -/
structure Procedure where
  route : String
  filter : MessageOriginFilter
  ordered : Bool

inductive PacketReliability
  | reliable
  | reliableOrdered
deriving DecidableEq

/-- The body of a message on one of the routes `rpc.next`, `rpc.error`, `rpc.complete`. -/
inductive Reply
  | next (value : List UInt8)
  | error (msg : String)
  | complete (msgSent : Bool)
deriving DecidableEq

def Reply.isTerminal : Reply → Bool
  | .next _ => false
  | .error _ => true
  | .complete _ => true

/-- How the task of a handler ends. `t.wait()` returns for a cancelled task as for a completed
one; it throws what the handler threw. -/
inductive Outcome
  | success
  | canceled
  | exception (what : String)
  /-- Something that is not a `std::exception`; nothing catches it. -/
  | otherThrown
deriving DecidableEq

/-- Where an invocation stands between its handler and the last message. -/
inductive Phase
  | running
  /-- The task has ended, its continuation has not taken the lock. -/
  | ended (outcome : Outcome)
  /-- The continuation has erased the entry and is about to send COMPLETE. -/
  | completing
  /-- The continuation is about to send ERROR. -/
  | failing (what : String)
  | finished
deriving DecidableEq

/-- The identity of an `RpcRequestContext`: its `_peer` and its place among their contexts. -/
structure ContextRef where
  peer : Peer
  index : Nat
deriving DecidableEq

structure RpcRequestContext where
  id : UInt16
  ordered : Bool
  msgSent : Bool
  /-- The token of `_cancellationToken` is cancelled. -/
  canceled : Bool
  phase : Phase
deriving DecidableEq

/-- The continuation of the handler's task has not taken the lock yet. -/
def RpcRequestContext.isRunning (ctx : RpcRequestContext) : Bool :=
  match ctx.phase with
  | .running | .ended _ => true
  | .completing | .failing _ | .finished => false

/-- `t.wait()` is about to return. -/
def RpcRequestContext.returned (ctx : RpcRequestContext) : Bool :=
  match ctx.phase with
  | .ended .success | .ended .canceled => true
  | _ => false

/-- `t.wait()` is about to throw a `std::exception`. -/
def RpcRequestContext.threwException (ctx : RpcRequestContext) : Bool :=
  match ctx.phase with
  | .ended (.exception _) => true
  | _ => false

/-- `t.wait()` is about to throw. -/
def RpcRequestContext.threw (ctx : RpcRequestContext) : Bool :=
  match ctx.phase with
  | .ended (.exception _) | .ended .otherThrown => true
  | _ => false

/-- The continuation is about to send COMPLETE or ERROR. -/
def RpcRequestContext.isReplying (ctx : RpcRequestContext) : Bool :=
  match ctx.phase with
  | .completing | .failing _ => true
  | .running | .ended _ | .finished => false

/-- The continuation is about to send ERROR. -/
def RpcRequestContext.isFailing (ctx : RpcRequestContext) : Bool :=
  match ctx.phase with
  | .failing _ => true
  | .running | .ended _ | .completing | .finished => false

abbrev ChannelUid := Fin Packets.channelUidsCount

/-- A message that went out, and the context it went out for. -/
structure Message where
  context : ContextRef
  target : Peer
  id : UInt16
  body : Reply
  reliability : PacketReliability
  channelUid : ChannelUid
deriving DecidableEq

structure RpcCallee where
  procedures : List Procedure
  /-- The scene's connection state is `Connected`. -/
  connected : Bool
  connectedPeers : List String
  /-- What `getChannelUid` gives at present for `_rpcClientChannelIdentifier`. -/
  channelUid : ChannelUid
  contexts : Peer → List RpcRequestContext
  runningRequests : Slots.Table UInt16 ContextRef
  sent : List Message
  /-- The context last accepted under each id (for the statements only). -/
  accepted : Slots.Table UInt16 ContextRef

/-! ## Functions -/

/-- `RpcRequestContext::RpcRequestContext`, for a handler that is being started. -/
def RpcRequestContext.create (id : UInt16) (ordered : Bool) : RpcRequestContext where
  id := id
  ordered := ordered
  msgSent := false
  canceled := false
  phase := .running

/-- The reliability of the values of a context. -/
def RpcRequestContext.reliability (ctx : RpcRequestContext) : PacketReliability :=
  if ctx.ordered then .reliableOrdered else .reliable

namespace RpcCallee

def context? (s : RpcCallee) (c : ContextRef) : Option RpcRequestContext :=
  (s.contexts c.peer)[c.index]?

def modify (s : RpcCallee) (c : ContextRef) (f : RpcRequestContext → RpcRequestContext) :
    RpcCallee :=
  { s with contexts := Function.update s.contexts c.peer ((s.contexts c.peer).modify c.index f) }

def setPhase (s : RpcCallee) (c : ContextRef) (phase : Phase) : RpcCallee :=
  s.modify c fun ctx => { ctx with phase := phase }

/-- The scene knows the peer: its host, or a P2P peer that is connected to it. -/
def knows (s : RpcCallee) : Peer → Bool
  | .host => true
  | .p2p sessionId => s.connectedPeers.contains sessionId

/-- The new context takes the id. -/
def accept (s : RpcCallee) (peer : Peer) (id : UInt16) (ordered : Bool) : RpcCallee :=
  let c : ContextRef := ⟨peer, (s.contexts peer).length⟩
  { s with
    contexts := Function.update s.contexts peer
      (s.contexts peer ++ [RpcRequestContext.create id ordered])
    runningRequests := s.runningRequests.insert id c
    accepted := s.accepted.insert id c }

/-- The procedure on whose route the scene lets a message of the peer through. -/
def procedure? (s : RpcCallee) (route : String) (peer : Peer) : Option Procedure :=
  (s.procedures.find? fun p => p.route == route).filter fun p =>
    p.filter.admits peer && s.knows peer

/-- A message on a route: the handler that `addProcedure` gives to the scene. -/
def request (s : RpcCallee) (route : String) (peer : Peer) (id : UInt16) : RpcCallee :=
  match s.procedure? route peer with
  | none => s
  | some p =>
    match s.runningRequests.lookup id with
    -- Nothing tells the peer that its request was dropped.
    | some _ => s
    | none => s.accept peer id p.ordered

/-- `cancel`. The route `rpc.cancel` has the default filter. -/
def cancel (s : RpcCallee) (peer : Peer) (id : UInt16) : RpcCallee :=
  if MessageOriginFilter.host.admits peer then
    match s.runningRequests.lookup id with
    | none => s
    | some c =>
      { s with runningRequests := s.runningRequests.erase id }.modify c
        fun ctx => { ctx with canceled := true }
  else s

/-- The part of `cancelAll` about the running requests. -/
def cancelAll (s : RpcCallee) : RpcCallee :=
  s.runningRequests.values.foldl (fun s c => s.modify c fun ctx => { ctx with canceled := true })
    { s with runningRequests := ∅ }

/-- A message goes out for the context. It is for the scene host, whoever `c.peer` is. -/
def emit (s : RpcCallee) (c : ContextRef) (id : UInt16) (body : Reply)
    (reliability : PacketReliability) : RpcCallee :=
  { s with sent := s.sent ++ [⟨c, .host, id, body, reliability, s.channelUid⟩] }

/-- `Scene_Impl::send(routeName, …)`, which sends to `PeerFilter::matchSceneHost()`. `fails` is
what it throws beyond the connection check. -/
def send (s : RpcCallee) (c : ContextRef) (id : UInt16) (body : Reply)
    (reliability : PacketReliability) (fails : Option String) : Except String RpcCallee :=
  if !s.connected then .error "The scene is not connected"
  else
    match fails with
    | some what => .error what
    | none => .ok (s.emit c id body reliability)

/-- `sendValue`. What it throws is thrown to the handler. -/
def sendValue (s : RpcCallee) (c : ContextRef) (value : List UInt8) (fails : Option String) :
    Option RpcCallee :=
  match s.context? c with
  | none => none
  | some ctx =>
    match s.send c ctx.id (.next value) ctx.reliability fails with
    | .error _ => some s
    | .ok s => some (s.modify c fun ctx => { ctx with msgSent := true })

/-- `sendError` by the handler itself. -/
def sendError (s : RpcCallee) (c : ContextRef) (errorMsg : String) (fails : Option String) :
    Option RpcCallee :=
  match s.context? c with
  | none => none
  | some ctx =>
    match s.send c ctx.id (.error errorMsg) .reliableOrdered fails with
    | .error _ => some s
    | .ok s => some s

/-- The task of the handler ends. -/
def handlerEnds (s : RpcCallee) (c : ContextRef) (outcome : Outcome) : Option RpcCallee :=
  match s.context? c with
  | none => none
  | some ctx => if ctx.phase = .running then some (s.setPhase c (.ended outcome)) else none

/-- The continuation of `addProcedure` up to what it sends: `t.wait()` and the locked part. -/
def continuation (s : RpcCallee) (c : ContextRef) : Option RpcCallee :=
  match s.context? c with
  | none => none
  | some ctx =>
    match ctx.phase with
    | .ended .success | .ended .canceled =>
      match s.runningRequests.lookup ctx.id with
      | some _ =>
        some ({ s with runningRequests := s.runningRequests.erase ctx.id }.setPhase c .completing)
      | none => some (s.setPhase c .finished)
    -- The entry under the id is not erased on these two paths.
    | .ended (.exception what) => some (s.setPhase c (.failing what))
    | .ended .otherThrown => some (s.setPhase c .finished)
    | .running | .completing | .failing _ | .finished => none

/-- `sendComplete` by the continuation. If it throws, the error is sent instead. -/
def sendComplete (s : RpcCallee) (c : ContextRef) (fails : Option String) : Option RpcCallee :=
  match s.context? c with
  | none => none
  | some ctx =>
    if ctx.phase = .completing then
      match s.send c ctx.id (.complete ctx.msgSent) .reliableOrdered fails with
      | .error what => some (s.setPhase c (.failing what))
      | .ok s => some (s.setPhase c .finished)
    else none

/-- `sendError` by the continuation. What it throws is swallowed. -/
def reportError (s : RpcCallee) (c : ContextRef) (fails : Option String) : Option RpcCallee :=
  match s.context? c with
  | none => none
  | some ctx =>
    match ctx.phase with
    | .failing what =>
      match s.send c ctx.id (.error what) .reliableOrdered fails with
      | .error _ => some (s.setPhase c .finished)
      | .ok s => some (s.setPhase c .finished)
    | .running | .ended _ | .completing | .finished => none

/-! ## Steps -/

inductive Action
  | request (route : String) (peer : Peer) (id : UInt16)
  | cancel (peer : Peer) (id : UInt16)
  | cancelAll
  | sendValue (c : ContextRef) (value : List UInt8) (fails : Option String)
  | sendError (c : ContextRef) (errorMsg : String) (fails : Option String)
  | handlerEnds (c : ContextRef) (outcome : Outcome)
  | continuation (c : ContextRef)
  | sendComplete (c : ContextRef) (fails : Option String)
  | reportError (c : ContextRef) (fails : Option String)
  /-- The connection state of the scene changes. -/
  | sceneState (connected : Bool)
  /-- The P2P peers of the scene change. -/
  | peers (connectedPeers : List String)
  /-- Another identifier takes a uid, and that of the answers changes. -/
  | channelUid (uid : ChannelUid)
deriving DecidableEq

def step (s : RpcCallee) : Action → Option RpcCallee
  | .request route peer id => some (s.request route peer id)
  | .cancel peer id => some (s.cancel peer id)
  | .cancelAll => some s.cancelAll
  | .sendValue c value fails => s.sendValue c value fails
  | .sendError c errorMsg fails => s.sendError c errorMsg fails
  | .handlerEnds c outcome => s.handlerEnds c outcome
  | .continuation c => s.continuation c
  | .sendComplete c fails => s.sendComplete c fails
  | .reportError c fails => s.reportError c fails
  | .sceneState connected => some { s with connected := connected }
  | .peers connectedPeers => some { s with connectedPeers := connectedPeers }
  | .channelUid uid => some { s with channelUid := uid }

/-- A service with the given procedures, before any request. -/
def init (procedures : List Procedure) : RpcCallee where
  procedures := procedures
  connected := true
  connectedPeers := []
  channelUid := ⟨0, by decide⟩
  contexts := fun _ => []
  runningRequests := ∅
  sent := []
  accepted := ∅

/-! ## What an operation changes -/

@[simp] theorem context?_modify (s : RpcCallee) (c c' : ContextRef)
    (f : RpcRequestContext → RpcRequestContext) :
    (s.modify c f).context? c' = if c = c' then (s.context? c').map f else s.context? c' := by
  obtain ⟨peer, index⟩ := c
  obtain ⟨peer', index'⟩ := c'
  unfold modify context?
  dsimp only
  by_cases hp : peer' = peer
  · subst hp
    rw [Function.update_self, List.getElem?_modify]
    by_cases hi : index = index'
    · simp [hi]
    · simp [hi]
  · rw [Function.update_of_ne hp, if_neg]
    rintro h
    cases h
    exact hp rfl

@[simp] theorem runningRequests_modify (s : RpcCallee) (c : ContextRef)
    (f : RpcRequestContext → RpcRequestContext) :
    (s.modify c f).runningRequests = s.runningRequests := rfl

@[simp] theorem accepted_modify (s : RpcCallee) (c : ContextRef)
    (f : RpcRequestContext → RpcRequestContext) : (s.modify c f).accepted = s.accepted := rfl

@[simp] theorem sent_modify (s : RpcCallee) (c : ContextRef)
    (f : RpcRequestContext → RpcRequestContext) : (s.modify c f).sent = s.sent := rfl

/-- The context that `accept` makes. -/
def nextContext (s : RpcCallee) (peer : Peer) : ContextRef := ⟨peer, (s.contexts peer).length⟩

theorem context?_nextContext (s : RpcCallee) (peer : Peer) :
    s.context? (s.nextContext peer) = none := by
  unfold context? nextContext
  simp

@[simp] theorem context?_accept (s : RpcCallee) (peer : Peer) (id : UInt16) (ordered : Bool)
    (c : ContextRef) :
    (s.accept peer id ordered).context? c =
      if c = s.nextContext peer then some (RpcRequestContext.create id ordered)
      else s.context? c := by
  obtain ⟨peer', index⟩ := c
  unfold accept context? nextContext
  dsimp only
  by_cases hp : peer' = peer
  · subst hp
    rw [Function.update_self, Heap.get_make]
    simp only [ContextRef.mk.injEq, true_and]
  · rw [Function.update_of_ne hp, if_neg]
    rintro h
    cases h
    exact hp rfl

/-- `cancelAll` cancels the contexts of the table and empties it. -/
theorem cancelAll_spec (s : RpcCallee) :
    s.cancelAll.runningRequests = ∅ ∧ s.cancelAll.accepted = s.accepted ∧
    s.cancelAll.sent = s.sent ∧ ∀ c, s.cancelAll.context? c = (s.context? c).map fun ctx =>
      if c ∈ s.runningRequests.values then { ctx with canceled := true } else ctx := by
  suffices h : ∀ (l : List ContextRef) (t : RpcCallee),
      let u := l.foldl (fun s c => s.modify c fun ctx => { ctx with canceled := true }) t
      u.runningRequests = t.runningRequests ∧ u.accepted = t.accepted ∧ u.sent = t.sent ∧
      ∀ c, u.context? c = (t.context? c).map fun ctx =>
        if c ∈ l then { ctx with canceled := true } else ctx from
    h s.runningRequests.values { s with runningRequests := ∅ }
  intro l
  induction l with
  | nil => simp
  | cons c l ih =>
    intro t
    obtain ⟨h1, h2, h3, h4⟩ := ih (t.modify c fun ctx => { ctx with canceled := true })
    refine ⟨h1, h2, h3, fun c' => ?_⟩
    rw [List.foldl_cons, h4, context?_modify]
    by_cases hc : c = c'
    · subst hc
      cases t.context? c <;> simp
    · have hc' : c' ≠ c := fun h => hc h.symm
      simp [hc, hc']

theorem cancelAll_config (s : RpcCallee) :
    s.cancelAll.procedures = s.procedures ∧ s.cancelAll.connected = s.connected ∧
    s.cancelAll.connectedPeers = s.connectedPeers ∧
    s.cancelAll.channelUid = s.channelUid := by
  suffices h : ∀ (l : List ContextRef) (t : RpcCallee),
      let u := l.foldl (fun s c => s.modify c fun ctx => { ctx with canceled := true }) t
      u.procedures = t.procedures ∧ u.connected = t.connected ∧
      u.connectedPeers = t.connectedPeers ∧ u.channelUid = t.channelUid from
    h s.runningRequests.values { s with runningRequests := ∅ }
  intro l
  induction l with
  | nil => simp
  | cons c l ih => exact fun t => ih (t.modify c fun ctx => { ctx with canceled := true })

/-- Everything a step can do. -/
inductive StepCase (s : RpcCallee) : Action → RpcCallee → Prop
  /-- A message is dropped, a cancellation finds nothing, or a send of the handler throws. -/
  | idle (a : Action) : StepCase s a s
  | sceneState (connected : Bool) :
      StepCase s (.sceneState connected) { s with connected := connected }
  | peers (connectedPeers : List String) :
      StepCase s (.peers connectedPeers) { s with connectedPeers := connectedPeers }
  | channelUid (uid : ChannelUid) : StepCase s (.channelUid uid) { s with channelUid := uid }
  | accept (route : String) (peer : Peer) (id : UInt16) (p : Procedure)
      (hproc : s.procedure? route peer = some p)
      (hfree : s.runningRequests.lookup id = none) :
      StepCase s (.request route peer id) (s.accept peer id p.ordered)
  | cancel (peer : Peer) (id : UInt16) (c : ContextRef)
      (hadm : MessageOriginFilter.host.admits peer = true)
      (hentry : s.runningRequests.lookup id = some c) :
      StepCase s (.cancel peer id)
        ({ s with runningRequests := s.runningRequests.erase id }.modify c
          fun ctx => { ctx with canceled := true })
  | cancelAll : StepCase s .cancelAll s.cancelAll
  | value (c : ContextRef) (ctx : RpcRequestContext) (value : List UInt8)
      (hctx : s.context? c = some ctx) (hsend : s.connected = true) :
      StepCase s (.sendValue c value none)
        ((s.emit c ctx.id (.next value) ctx.reliability).modify c
          fun ctx => { ctx with msgSent := true })
  | handlerError (c : ContextRef) (ctx : RpcRequestContext) (errorMsg : String)
      (hctx : s.context? c = some ctx) (hsend : s.connected = true) :
      StepCase s (.sendError c errorMsg none) (s.emit c ctx.id (.error errorMsg) .reliableOrdered)
  | ended (c : ContextRef) (ctx : RpcRequestContext) (outcome : Outcome)
      (hctx : s.context? c = some ctx) (hp : ctx.phase = .running) :
      StepCase s (.handlerEnds c outcome) (s.setPhase c (.ended outcome))
  /-- The continuation finds an entry under its id. -/
  | erased (c c' : ContextRef) (ctx : RpcRequestContext) (hctx : s.context? c = some ctx)
      (hp : ctx.returned = true) (hentry : s.runningRequests.lookup ctx.id = some c') :
      StepCase s (.continuation c)
        ({ s with runningRequests := s.runningRequests.erase ctx.id }.setPhase c .completing)
  | notFound (c : ContextRef) (ctx : RpcRequestContext) (hctx : s.context? c = some ctx)
      (hp : ctx.returned = true) (hentry : s.runningRequests.lookup ctx.id = none) :
      StepCase s (.continuation c) (s.setPhase c .finished)
  | threw (c : ContextRef) (ctx : RpcRequestContext) (what : String)
      (hctx : s.context? c = some ctx) (hp : ctx.phase = .ended (.exception what)) :
      StepCase s (.continuation c) (s.setPhase c (.failing what))
  | threwOther (c : ContextRef) (ctx : RpcRequestContext) (hctx : s.context? c = some ctx)
      (hp : ctx.phase = .ended .otherThrown) : StepCase s (.continuation c) (s.setPhase c .finished)
  | completed (c : ContextRef) (ctx : RpcRequestContext) (hctx : s.context? c = some ctx)
      (hp : ctx.phase = .completing) (hsend : s.connected = true) :
      StepCase s (.sendComplete c none)
        ((s.emit c ctx.id (.complete ctx.msgSent) .reliableOrdered).setPhase c .finished)
  | failed (c : ContextRef) (ctx : RpcRequestContext) (what : String)
      (hctx : s.context? c = some ctx) (hp : ctx.phase = .failing what)
      (hsend : s.connected = true) :
      StepCase s (.reportError c none)
        ((s.emit c ctx.id (.error what) .reliableOrdered).setPhase c .finished)
  /-- `sendComplete` throws. -/
  | completeFailed (c : ContextRef) (ctx : RpcRequestContext) (what : String)
      (fails : Option String) (hctx : s.context? c = some ctx) (hp : ctx.phase = .completing) :
      StepCase s (.sendComplete c fails) (s.setPhase c (.failing what))
  /-- `sendError` throws. -/
  | errorFailed (c : ContextRef) (ctx : RpcRequestContext) (what : String)
      (fails : Option String) (hctx : s.context? c = some ctx) (hp : ctx.phase = .failing what) :
      StepCase s (.reportError c fails) (s.setPhase c .finished)

theorem send_ok {s s' : RpcCallee} {c : ContextRef} {id : UInt16} {body : Reply}
    {reliability : PacketReliability} {fails : Option String}
    (h : s.send c id body reliability fails = .ok s') :
    s.connected = true ∧ fails = none ∧ s' = s.emit c id body reliability := by
  unfold send at h
  split at h
  · cases h
  · next hconn =>
    cases fails with
    | some what => cases h
    | none =>
      cases h
      exact ⟨by simpa using hconn, rfl, rfl⟩

/-- The handler returned: its entry is erased if it is still there. -/
theorem erase_cases {s s' : RpcCallee} {c : ContextRef} {ctx : RpcRequestContext}
    (hctx : s.context? c = some ctx) (hp : ctx.returned = true)
    (h : (match s.runningRequests.lookup ctx.id with
      | some _ =>
        some ({ s with runningRequests := s.runningRequests.erase ctx.id }.setPhase c .completing)
      | none => some (s.setPhase c .finished)) = some s') :
    StepCase s (.continuation c) s' := by
  cases hentry : s.runningRequests.lookup ctx.id with
  | some c' =>
    rw [hentry] at h
    cases h
    exact .erased c c' ctx hctx hp hentry
  | none =>
    rw [hentry] at h
    cases h
    exact .notFound c ctx hctx hp hentry

theorem continuation_cases {s s' : RpcCallee} {c : ContextRef} (h : s.continuation c = some s') :
    StepCase s (.continuation c) s' := by
  unfold continuation at h
  split at h
  · cases h
  · next ctx hctx =>
    split at h
    · next hp => exact erase_cases hctx (by simp [RpcRequestContext.returned, hp]) h
    · next hp => exact erase_cases hctx (by simp [RpcRequestContext.returned, hp]) h
    · next what hp =>
      cases h
      exact .threw c ctx what hctx hp
    · next hp =>
      cases h
      exact .threwOther c ctx hctx hp
    all_goals cases h

theorem step_cases {s s' : RpcCallee} {a : Action} (h : step s a = some s') :
    StepCase s a s' := by
  cases a with
  | request route peer id =>
    cases h
    unfold request
    split
    · exact .idle _
    · next p hproc =>
      split
      · exact .idle _
      · next hfree => exact .accept route peer id p hproc hfree
  | cancel peer id =>
    cases h
    unfold cancel
    split
    · next hadm =>
      split
      · exact .idle _
      · next c hentry => exact .cancel peer id c hadm hentry
    · exact .idle _
  | cancelAll =>
    cases h
    exact .cancelAll
  | sendValue c value fails =>
    simp only [step, sendValue] at h
    split at h
    · cases h
    · next ctx hctx =>
      split at h
      · cases h
        exact .idle _
      · next hs =>
        obtain ⟨hsend, rfl, rfl⟩ := send_ok hs
        cases h
        exact .value c ctx value hctx hsend
  | sendError c errorMsg fails =>
    simp only [step, sendError] at h
    split at h
    · cases h
    · next ctx hctx =>
      split at h
      · cases h
        exact .idle _
      · next hs =>
        obtain ⟨hsend, rfl, rfl⟩ := send_ok hs
        cases h
        exact .handlerError c ctx errorMsg hctx hsend
  | handlerEnds c outcome =>
    simp only [step, handlerEnds] at h
    split at h
    · cases h
    · next ctx hctx =>
      split at h
      · next hp =>
        cases h
        exact .ended c ctx outcome hctx hp
      · cases h
  | continuation c => exact continuation_cases h
  | sendComplete c fails =>
    simp only [step, sendComplete] at h
    split at h
    · cases h
    · next ctx hctx =>
      split at h
      · next hp =>
        split at h
        · next what _ =>
          cases h
          exact .completeFailed c ctx what fails hctx hp
        · next hs =>
          obtain ⟨hsend, rfl, rfl⟩ := send_ok hs
          cases h
          exact .completed c ctx hctx hp hsend
      · cases h
  | reportError c fails =>
    simp only [step, reportError] at h
    split at h
    · cases h
    · next ctx hctx =>
      split at h
      · next what hp =>
        split at h
        · cases h
          exact .errorFailed c ctx what fails hctx hp
        · next hs =>
          obtain ⟨hsend, rfl, rfl⟩ := send_ok hs
          cases h
          exact .failed c ctx what hctx hp hsend
      all_goals cases h
  | sceneState connected =>
    cases h
    exact .sceneState connected
  | peers connectedPeers =>
    cases h
    exact .peers connectedPeers
  | channelUid uid =>
    cases h
    exact .channelUid uid

end RpcCallee

end Stormancer.Rpc
