import Mathlib.Data.UInt
import Stormancer.Utilities.StringSplit

/-!
# The pending connections of `RakNetTransport`

`connect`, `startNextPendingConnections`, `stop`, and the messages of `run` that report how a
connection attempt went. The requests are in a list of all requests, and `_pendingConnections`
holds their indices (`Ref`).

RakNet itself is outside of the model. `connects` and `attempts` record what the peer was asked
and which attempts it has in progress: an attempt begins with a `Connect` that returns
`CONNECTION_ATTEMPT_STARTED`, and it lasts until the peer reports how it ended or until the
connection is established for the transport. The results of `Connect` are part of the action in
which it is called. A message of `run` names the request whose attempt led to the peer that it
comes from.

The log, the pings, the messages of established connections and the incoming side (new
connections and requests of `ID_ADVERTISE_PEERID`) are left out: they do not touch the queue.
-/

namespace Stormancer.RakNet

/-! ## Data -/

/-- The identity of a `ConnectionRequest`. -/
abbrev Ref := Nat

/-- A cancellation token; `none` is `cancellation_token::none()`. -/
abbrev Token := Option Nat

/-- A `task_completion_event`: the connection that was set (its peer id), or the exception. -/
inductive CompletionEvent
  | unset
  | connection (peerId : UInt64)
  | exception (text : Str)
deriving DecidableEq

structure ConnectionRequest where
  tce : CompletionEvent
  endpoint : Str
  cancellationToken : Token
  id : Str
  parentId : Str
deriving DecidableEq

inductive ConnectionAttemptResult
  | connectionAttemptStarted
  | invalidParameter
  | cannotResolveDomainName
  | alreadyConnectedToEndpoint
  | connectionAttemptAlreadyInProgress
  | securityInitializationFailed
deriving DecidableEq

/-- A call of `RakPeerInterface::Connect` and what it returned. -/
structure ConnectCall where
  request : Ref
  host : Str
  port : UInt16
  result : ConnectionAttemptResult
deriving DecidableEq

structure P2PConnectionInfosExchange where
  parentConnectionId : UInt64
  parentId : Str
  id : Str
  isRequest : Bool
deriving DecidableEq

structure RakNetTransport where
  requests : List ConnectionRequest
  pendingConnections : List Ref
  canceledTokens : List Nat
  isRunning : Bool
  /-- `_peer != nullptr && _peer->IsActive()`. -/
  peerActive : Bool
  port : UInt16
  connects : List ConnectCall
  attempts : List Ref
  advertised : List P2PConnectionInfosExchange
deriving DecidableEq

/-! ## Messages of `run` -/

/-- The messages that are handled as a failed attempt. -/
inductive FailureId
  | noFreeIncomingConnections
  | incompatibleProtocolVersion
  | connectionAttemptFailed
deriving DecidableEq

/-- The messages that end an attempt and are only logged, as far as the queue is concerned. -/
inductive LoggedId
  | alreadyConnected
  | connectionBanned
  | invalidPassword
  | ipRecentlyConnected
  | disconnectionNotification
  | connectionLost
deriving DecidableEq

inductive Message
  /-- `parent` is the connection that `_handler->getConnection(rq.parentId)` finds. -/
  | connectionRequestAccepted (parent : Option UInt64)
  | failed (id : FailureId)
  | logged (id : LoggedId)
  /-- `throws`: the handler or an observer of the connection state throws in `onConnection`. -/
  | connectionResult (sid : UInt64) (throws : Bool)
  /-- `ID_ADVERTISE_PEERID` with `isRequest` false. -/
  | advertisePeerIdResponse (parentConnectionId : UInt64) (throws : Bool)
deriving DecidableEq

/-- Every message but the acceptance ends the attempt that it is about. -/
def Message.isTerminal : Message → Bool
  | .connectionRequestAccepted _ => false
  | _ => true

/-! ## Endpoints -/

/-- What `std::atoi` makes of a number: the number, when it fits an `int`. C leaves the others
undefined. -/
class CLibrary where
  toInt : Int → Int
  toInt_eq : ∀ n, -2 ^ 31 ≤ n → n < 2 ^ 31 → toInt n = n

/-- The bounds of `int` stand for what is beyond them. -/
abbrev CLibrary.int32 : CLibrary where
  toInt n := max (-2 ^ 31) (min n (2 ^ 31 - 1))
  toInt_eq n := by omega

/-- `std::atoi` is `strtol`, the bounds of a `long` of 64 bits stand for what is beyond them, and
the low bits are an `int`. -/
abbrev CLibrary.long64 : CLibrary where
  toInt n := (max (-2 ^ 63) (min n (2 ^ 63 - 1))).bmod (2 ^ 32)
  toInt_eq n hle hlt := by
    have hclamp : max (-2 ^ 63) (min n (2 ^ 63 - 1)) = n := by omega
    rw [hclamp]
    exact Int.bmod_eq_of_le (by omega) (by omega)

def isBlank (c : Char) : Bool :=
  c == ' ' || c == '\t' || c == '\n' || c == '\x0b' || c == '\x0c' || c == '\r'

def digits (s : Str) : Nat :=
  (s.takeWhile Char.isDigit).foldl (fun n c => 10 * n + (c.toNat - '0'.toNat)) 0

/-- The number at the start of a string, as it is written. -/
def written (s : Str) : Int :=
  match s.dropWhile isBlank with
  | '-' :: s => - (digits s : Int)
  | '+' :: s => digits s
  | s => digits s

/-- `std::atoi`. -/
def atoi [CLibrary] (s : Str) : Int := CLibrary.toInt (written s)

/-- `(uint16)std::atoi(portString.c_str())`. -/
def portOf [CLibrary] (portString : Str) : UInt16 := UInt16.ofInt (atoi portString)

/-- The tests of `startNextPendingConnections` on the endpoint alone. -/
def validEndpoint [CLibrary] (endpoint : Str) : Bool :=
  match StringUtilities.stringSplitChar endpoint ':' with
  | _ :: portString :: _ =>
    !decide (endpoint.length - 1 ≤ portString.length) && portOf portString != 0
  | _ => false

namespace ConnectionRequest

def isP2P (rq : ConnectionRequest) : Bool := rq.parentId != []

/-- An event is set at most once. -/
def complete (rq : ConnectionRequest) (tce : CompletionEvent) : ConnectionRequest :=
  if rq.tce = .unset then { rq with tce := tce } else rq

end ConnectionRequest

/-! ## `RakNetTransport` -/

namespace RakNetTransport

def complete (s : RakNetTransport) (r : Ref) (tce : CompletionEvent) : RakNetTransport :=
  { s with requests := s.requests.modify r (·.complete tce) }

def setException (s : RakNetTransport) (r : Ref) (text : Str) : RakNetTransport :=
  s.complete r (.exception text)

def isCanceledToken (s : RakNetTransport) : Token → Bool
  | none => false
  | some t => s.canceledTokens.contains t

/-- `rq.cancellationToken.is_canceled()`. -/
def isCanceled (s : RakNetTransport) (r : Ref) : Bool :=
  match s.requests[r]? with
  | none => false
  | some rq => s.isCanceledToken rq.cancellationToken

/-- `_pendingConnections.pop()`. -/
def pop (s : RakNetTransport) : RakNetTransport :=
  { s with pendingConnections := s.pendingConnections.tail }

/-- The attempt of the request is over. -/
def endAttempt (s : RakNetTransport) (r : Ref) : RakNetTransport :=
  { s with attempts := s.attempts.erase r }

/-- `_peer->Connect`, and the test of its result. -/
def connectPeer (s : RakNetTransport) (r : Ref) (host : Str) (port : UInt16)
    (result : ConnectionAttemptResult) : RakNetTransport :=
  let call : ConnectCall := ⟨r, host, port, result⟩
  let s := { s with connects := s.connects ++ [call] }
  if result = .connectionAttemptStarted then { s with attempts := s.attempts ++ [r] }
  else s.setException r
    ("Bad RakNet connection attempt result (".toList ++ (toString result.ctorIdx).toList ++ [')'])

section Connecting

variable [CLibrary]

/-- `startNextPendingConnections` after its test for a cancelled request. -/
def tryConnect (s : RakNetTransport) (results : Ref → ConnectionAttemptResult) (r : Ref) :
    RakNetTransport :=
  match s.requests[r]? with
  | none => s
  | some rq =>
    match StringUtilities.stringSplitChar rq.endpoint ':' with
    | hostStr :: portString :: _ =>
      if rq.endpoint.length - 1 ≤ portString.length then
        s.setException r ("Bad server endpoint, no host (".toList ++ rq.endpoint ++ [')'])
      else
        let port := portOf portString
        let s := { s with port := port }
        if port = 0 then s.setException r
          ("Server endpoint port should not be 0 (".toList ++ rq.endpoint ++ [')'])
        else if !s.peerActive then
          s.setException r "Transport not started. Make sure you started it.".toList
        else s.connectPeer r hostStr port (results r)
    | _ => s.setException r ("Bad server endpoint, no port (".toList ++ rq.endpoint ++ [')'])

/-- `startNextPendingConnections`, by recursion on the queue. After a cancelled request it
calls itself, and does not return then: the request that was popped is tried as well. -/
def startFrom (results : Ref → ConnectionAttemptResult) :
    List Ref → RakNetTransport → RakNetTransport
  | [], s => s
  | r :: rest, s =>
    if s.isCanceled r then (startFrom results rest s.pop).tryConnect results r
    else s.tryConnect results r

def startNextPendingConnections (s : RakNetTransport)
    (results : Ref → ConnectionAttemptResult) : RakNetTransport :=
  startFrom results s.pendingConnections s

/-- `_pendingConnections.push(rq)` for a new request. -/
def push (s : RakNetTransport) (endpoint id parentId : Str) (ct : Token) : RakNetTransport :=
  let rq : ConnectionRequest :=
    { tce := .unset, endpoint, cancellationToken := ct, id, parentId }
  { s with
    requests := s.requests ++ [rq]
    pendingConnections := s.pendingConnections ++ [s.requests.length] }

def connect (s : RakNetTransport) (endpoint id parentId : Str) (ct : Token)
    (results : Ref → ConnectionAttemptResult) : RakNetTransport :=
  let shouldStart := s.pendingConnections.isEmpty
  let s := s.push endpoint id parentId ct
  if shouldStart then s.startNextPendingConnections results else s

end Connecting

/-- `start`: `active` says that the peer was created and started up. -/
def start (s : RakNetTransport) (active : Bool) : RakNetTransport :=
  if s.isRunning then s else { s with isRunning := true, peerActive := active }

/-- `stop`: it throws when the transport is not running. -/
def stop (s : RakNetTransport) : RakNetTransport :=
  if !s.isRunning then s
  else { s with isRunning := false, peerActive := false, attempts := [] }

def cancelToken (s : RakNetTransport) (t : Nat) : RakNetTransport :=
  { s with canceledTokens := s.canceledTokens ++ [t] }

/-- The request for the peer id that a P2P connection sends when it is accepted. -/
def advertisement (s : RakNetTransport) (r : Ref) (parentConnectionId : UInt64) :
    List P2PConnectionInfosExchange :=
  match s.requests[r]? with
  | none => []
  | some rq => [⟨parentConnectionId, rq.parentId, rq.id, true⟩]

def isP2P (s : RakNetTransport) (r : Ref) : Bool :=
  match s.requests[r]? with
  | none => false
  | some rq => rq.isP2P

/-! ## The handlers of the messages -/

section Handlers

variable [CLibrary]

/-- `onConnection` for the request that was popped, and what follows it: when it throws, the
exception leaves the handler. -/
def onConnection (s : RakNetTransport) (r : Ref) (peerId : UInt64) (throws : Bool)
    (results : Ref → ConnectionAttemptResult) : RakNetTransport :=
  if throws then s
  else (s.complete r (.connection peerId)).startNextPendingConnections results

/-- A message of `run` from the peer that the attempt of `peer` led to. `none`: the code reads
the front of an empty queue, or follows a null pointer. -/
def receive (s : RakNetTransport) (peer : Ref) (m : Message)
    (results : Ref → ConnectionAttemptResult) : Option RakNetTransport :=
  match m, s.pendingConnections with
  | .connectionRequestAccepted _, [] => some s
  | .connectionRequestAccepted parent, r :: _ =>
    if s.isCanceled r then some (s.endAttempt peer)
    else if s.isP2P r then
      parent.map fun c => { s with advertised := s.advertised ++ s.advertisement r c }
    else some s
  | .failed _, [] => some (s.endAttempt peer)
  | .failed _, r :: _ =>
    let s := (s.endAttempt peer).pop
    let s := if s.isCanceled r then s else s.setException r "Connection attempt failed".toList
    some (s.startNextPendingConnections results)
  | .logged _, _ => some (s.endAttempt peer)
  | .connectionResult _ _, [] => some (s.endAttempt peer)
  | .connectionResult sid throws, r :: _ =>
    some ((s.endAttempt peer).pop.onConnection r sid throws results)
  | .advertisePeerIdResponse _ _, [] => none
  | .advertisePeerIdResponse parentConnectionId throws, r :: _ =>
    let s := (s.endAttempt peer).pop
    if s.isCanceled r then some (s.startNextPendingConnections results)
    else some (s.onConnection r parentConnectionId throws results)

end Handlers

/-! ## Steps -/

inductive Action
  | start (active : Bool)
  | stop
  | connect (endpoint id parentId : Str) (ct : Token) (results : Ref → ConnectionAttemptResult)
  | cancelToken (t : Nat)
  | receive (peer : Ref) (m : Message) (results : Ref → ConnectionAttemptResult)

def step [CLibrary] (s : RakNetTransport) : Action → Option RakNetTransport
  | .start active => some (s.start active)
  | .stop => some s.stop
  | .connect endpoint id parentId ct results => some (s.connect endpoint id parentId ct results)
  | .cancelToken t => some (s.cancelToken t)
  | .receive peer m results => s.receive peer m results

def init : RakNetTransport where
  requests := []
  pendingConnections := []
  canceledTokens := []
  isRunning := false
  peerActive := false
  port := 0
  connects := []
  attempts := []
  advertised := []

end RakNetTransport

end Stormancer.RakNet
