import Mathlib.Data.UInt
import Stormancer.Lib.Slots

/-!
# The client side of `RequestProcessor`

`sendSystemRequest` with `reserveRequestSlot` and `freeRequestSlot`, the processors of the three
kinds of response, and `SystemRequest`. A `shared_ptr<SystemRequest>` is an index (`Ref`) into
the list of all requests. Between the steps only the table holds one, so a request that leaves
the table is destroyed at the end of the step; the task of a completion event that is destroyed
before it was set is cancelled.

A cancellation token is a number; `none` is `cancellation_token::none()`. Cancelling it runs the
callbacks registered on it and cancels the tasks created with it. A callback that is registered
on a token that is cancelled already runs at once.

The packets are modelled after their ids have been read from the stream. The log, the refresh
times, the packet metadata and the priority are left out.
-/

namespace Stormancer.Requests

/-! ## Data -/

/-- The identity of a `shared_ptr<SystemRequest>`. -/
abbrev Ref := Nat

abbrev Token := Option Nat

abbrev Payload := List UInt8

/-- The task that `getTask` returned. `set_exception` is given a `std::exception` by value, so
the text of what was thrown is lost. -/
inductive TaskState
  | pending
  | value (packet : Option Payload)
  | exception
  | canceled
deriving DecidableEq

structure SystemRequest where
  id : UInt16
  msgId : UInt8
  ct : Token
  complete : Bool
  task : TaskState
deriving DecidableEq

/-- A callback of `sendSystemRequest`: it is registered on a token and captures a request id. -/
structure Callback where
  token : Nat
  requestId : UInt16
deriving DecidableEq

/-- A system request as it is sent. -/
structure Outgoing where
  msgId : UInt8
  id : UInt16
  payload : Payload
  dontEncrypt : Bool
deriving DecidableEq

structure RequestProcessor where
  heap : List SystemRequest
  pendingRequests : Slots.Table UInt16 Ref
  requestIdCounter : UInt16
  callbacks : List Callback
  canceledTokens : List Nat
  sent : List Outgoing
  /-- What `sendSystemRequest` threw or returned instead of a request. -/
  rejected : List String

/-- `SystemRequestIDTypes::ID_SET_METADATA`. -/
def idSetMetadata : UInt8 := 0

/-! ## `SystemRequest` -/

namespace SystemRequest

/-- `SystemRequest::SystemRequest`. -/
def create (msgId : UInt8) (id : UInt16) (ct : Token) : SystemRequest where
  id := id
  msgId := msgId
  ct := ct
  complete := false
  task := .pending

/-- A task that has ended stays as it is. -/
def settle (q : SystemRequest) (task : TaskState) : SystemRequest :=
  if q.task = .pending then { q with task := task } else q

def trySet (q : SystemRequest) (packet : Option Payload) : SystemRequest :=
  if q.complete then q else { q.settle (.value packet) with complete := true }

def trySetException (q : SystemRequest) : SystemRequest :=
  if q.complete then q else { q.settle .exception with complete := true }

/-- The destructor: the event is cancelled unless it was set. -/
def destroy (q : SystemRequest) : SystemRequest :=
  if q.complete then q else q.settle .canceled

end SystemRequest

/-! ## `RequestProcessor` -/

namespace RequestProcessor

def modify (s : RequestProcessor) (r : Ref) (f : SystemRequest → SystemRequest) :
    RequestProcessor :=
  { s with heap := s.heap.modify r f }

/-- The id that `reserveRequestSlot` takes. -/
def nextId (s : RequestProcessor) : Option UInt16 :=
  Slots.nextFree (· + 1) (fun id => (s.pendingRequests.lookup id).isSome) 0x10000
    s.requestIdCounter

/-- `reserveRequestSlot`: the request takes the id. -/
def reserveRequestSlot (s : RequestProcessor) (msgId : UInt8) (ct : Token) (id : UInt16) :
    RequestProcessor :=
  { s with
    heap := s.heap ++ [SystemRequest.create msgId id ct]
    pendingRequests := s.pendingRequests.insert id s.heap.length
    requestIdCounter := id }

/-- `freeRequestSlot`. -/
def freeRequestSlot (s : RequestProcessor) (requestId : UInt16) :
    RequestProcessor × Option Ref :=
  match s.pendingRequests.lookup requestId with
  | none => (s, none)
  | some r => ({ s with pendingRequests := s.pendingRequests.erase requestId }, some r)

/-- The callback of a token: the slot is freed and the request in it is destroyed. -/
def freeAndDestroy (s : RequestProcessor) (requestId : UInt16) : RequestProcessor :=
  match s.freeRequestSlot requestId with
  | (s, none) => s
  | (s, some r) => s.modify r SystemRequest.destroy

def isCanceled (s : RequestProcessor) : Token → Bool
  | none => false
  | some t => s.canceledTokens.contains t

/-- `ct.register_callback` in `sendSystemRequest`. The request is still held there. -/
def registerCallback (s : RequestProcessor) (ct : Token) (requestId : UInt16) :
    RequestProcessor :=
  match ct with
  | none => s
  | some t =>
    if s.isCanceled ct then (s.freeRequestSlot requestId).1
    else { s with callbacks := s.callbacks ++ [⟨t, requestId⟩] }

/-- `sendSystemRequest`: `peer` says that the peer is not null, `sendFails` that `send` throws. -/
def sendSystemRequest (s : RequestProcessor) (peer : Bool) (msgId : UInt8) (payload : Payload)
    (ct : Token) (sendFails : Bool) : RequestProcessor :=
  if !peer then { s with rejected := s.rejected ++ ["peer should not be nullptr"] }
  else
    match s.nextId with
    | none => { s with rejected := s.rejected ++
        ["Unable to create a new request: Too many pending requests."] }
    | some id =>
      let r := s.heap.length
      let s := (s.reserveRequestSlot msgId ct id).registerCallback ct id
      let s :=
        -- The request that could not be sent keeps its slot.
        if sendFails then s.modify r SystemRequest.trySetException
        else { s with sent := s.sent ++ [⟨msgId, id, payload, msgId == idSetMetadata⟩] }
      -- `getTask(ct)`: an exception that was set comes before the cancellation.
      if s.isCanceled ct then s.modify r (·.settle .canceled) else s

/-! ## Responses -/

/-- A response takes the request out of its slot and answers it. -/
def respond (s : RequestProcessor) (id : UInt16) (f : SystemRequest → SystemRequest) :
    RequestProcessor :=
  match s.freeRequestSlot id with
  | (s, none) => s
  | (s, some r) => (s.modify r f).modify r SystemRequest.destroy

/-- `ID_REQUEST_RESPONSE_MSG`. -/
def responseMsg (s : RequestProcessor) (id : UInt16) (packet : Payload) : RequestProcessor :=
  s.respond id (·.trySet (some packet))

/-- `ID_REQUEST_RESPONSE_COMPLETE`. -/
def responseComplete (s : RequestProcessor) (id : UInt16) (hasValues : Bool) :
    RequestProcessor :=
  if hasValues then s else s.respond id (·.trySet none)

/-- `ID_REQUEST_RESPONSE_ERROR`: `decoded` is false when the text cannot be decoded. The
exception then leaves the processor, and the request is destroyed without an answer. -/
def responseError (s : RequestProcessor) (id : UInt16) (decoded : Bool) : RequestProcessor :=
  s.respond id fun q => if decoded then q.trySetException else q

/-! ## Cancellation -/

/-- The ids that the callbacks of a token captured. -/
def capturedIds (s : RequestProcessor) (t : Nat) : List UInt16 :=
  (s.callbacks.filter fun c => c.token == t).map (·.requestId)

/-- A token is cancelled: its callbacks run, and the tasks created with it are cancelled. -/
def cancelToken (s : RequestProcessor) (t : Nat) : RequestProcessor :=
  if s.canceledTokens.contains t then s
  else
    let ids := s.capturedIds t
    let s := { s with
      canceledTokens := s.canceledTokens ++ [t]
      callbacks := s.callbacks.filter fun c => c.token != t }
    let s := ids.foldl freeAndDestroy s
    { s with heap := s.heap.map fun q => if q.ct = some t then q.settle .canceled else q }

/-! ## Steps -/

inductive Action
  | sendSystemRequest (peer : Bool) (msgId : UInt8) (payload : Payload) (ct : Token)
      (sendFails : Bool)
  | responseMsg (id : UInt16) (packet : Payload)
  | responseComplete (id : UInt16) (hasValues : Bool)
  | responseError (id : UInt16) (decoded : Bool)
  | cancelToken (t : Nat)
deriving DecidableEq

def step (s : RequestProcessor) : Action → Option RequestProcessor
  | .sendSystemRequest peer msgId payload ct sendFails =>
    some (s.sendSystemRequest peer msgId payload ct sendFails)
  | .responseMsg id packet => some (s.responseMsg id packet)
  | .responseComplete id hasValues => some (s.responseComplete id hasValues)
  | .responseError id decoded => some (s.responseError id decoded)
  | .cancelToken t => some (s.cancelToken t)

/-- A processor before any request. Some tokens may be cancelled already. -/
def init (canceledTokens : List Nat) : RequestProcessor where
  heap := []
  pendingRequests := ∅
  requestIdCounter := 0
  callbacks := []
  canceledTokens := canceledTokens
  sent := []
  rejected := []

end RequestProcessor

end Stormancer.Requests
