import Stormancer.RakNet.Transport

/-!
# Reads of the queue of pending connections

`front()` and `pop()` on an empty `std::queue` are undefined. Here the functions that touch
`_pendingConnections` are written with both as operations that fail on an empty queue, each at the
place where the code has it, with the tests that the code makes before. A message may come from any
peer, also from one that no request has led to.

Results:
1. `stepChecked_toOption`: where no access fails, these are the steps of the transport.
2. `reads_nonempty_iff`: a run reads an empty queue exactly when it receives a response of
   `ID_ADVERTISE_PEERID` while no connection is pending.
3. `unsolicited_response`: a peer that sends such a response first.
-/

namespace Stormancer.RakNet

/-! ## Definitions -/

/-- What is undefined in the code. -/
inductive Fault
  | emptyQueue
  | nullPointer
deriving DecidableEq

namespace RakNetTransport

/-- `_pendingConnections.front()`. -/
def front (s : RakNetTransport) : Except Fault Ref :=
  match s.pendingConnections with
  | [] => .error .emptyQueue
  | r :: _ => .ok r

/-- `_pendingConnections.pop()`. -/
def popChecked (s : RakNetTransport) : Except Fault RakNetTransport :=
  match s.pendingConnections with
  | [] => .error .emptyQueue
  | _ :: _ => .ok s.pop

section Platform

variable [CLibrary]

/-- `startNextPendingConnections`, on a queue of at most `n` requests. -/
def startNextChecked (results : Ref → ConnectionAttemptResult) :
    Nat → RakNetTransport → Except Fault RakNetTransport
  | 0, s => .ok s
  | n + 1, s =>
    if s.pendingConnections.isEmpty then .ok s
    else do
      let r ← s.front
      if s.isCanceled r then do
        let s ← s.popChecked
        let s ← startNextChecked results n s
        .ok (s.tryConnect results r)
      else .ok (s.tryConnect results r)

def startChecked (s : RakNetTransport) (results : Ref → ConnectionAttemptResult) :
    Except Fault RakNetTransport :=
  startNextChecked results s.pendingConnections.length s

def connectChecked (s : RakNetTransport) (endpoint id parentId : Str) (ct : Token)
    (results : Ref → ConnectionAttemptResult) : Except Fault RakNetTransport :=
  let shouldStart := s.pendingConnections.isEmpty
  let s := s.push endpoint id parentId ct
  if shouldStart then s.startChecked results else .ok s

/-- `onConnection`, and what follows it in the handler. -/
def onConnectionChecked (s : RakNetTransport) (r : Ref) (peerId : UInt64) (throws : Bool)
    (results : Ref → ConnectionAttemptResult) : Except Fault RakNetTransport :=
  if throws then .ok s else (s.complete r (.connection peerId)).startChecked results

/-- The handlers of `run`. -/
def receiveChecked (s : RakNetTransport) (peer : Ref) (m : Message)
    (results : Ref → ConnectionAttemptResult) : Except Fault RakNetTransport :=
  match m with
  | .connectionRequestAccepted parent =>
    if s.pendingConnections.isEmpty then .ok s
    else do
      let r ← s.front
      if s.isCanceled r then .ok (s.endAttempt peer)
      else if s.isP2P r then
        match parent with
        | none => .error .nullPointer
        | some c => .ok { s with advertised := s.advertised ++ s.advertisement r c }
      else .ok s
  | .failed _ =>
    let s := s.endAttempt peer
    if s.pendingConnections.isEmpty then .ok s
    else do
      let r ← s.front
      let s ← s.popChecked
      let s := if s.isCanceled r then s else s.setException r "Connection attempt failed".toList
      s.startChecked results
  | .logged _ => .ok (s.endAttempt peer)
  | .connectionResult sid throws =>
    let s := s.endAttempt peer
    if s.pendingConnections.isEmpty then .ok s
    else do
      let r ← s.front
      let s ← s.popChecked
      s.onConnectionChecked r sid throws results
  -- The only handler that does not look whether the queue is empty.
  | .advertisePeerIdResponse parentConnectionId throws => do
    let s := s.endAttempt peer
    let r ← s.front
    let s ← s.popChecked
    if s.isCanceled r then s.startChecked results
    else s.onConnectionChecked r parentConnectionId throws results

def stepChecked (s : RakNetTransport) : Action → Except Fault RakNetTransport
  | .start active => .ok (s.start active)
  | .stop => .ok s.stop
  | .connect endpoint id parentId ct results => s.connectChecked endpoint id parentId ct results
  | .cancelToken t => .ok (s.cancelToken t)
  | .receive peer m results => s.receiveChecked peer m results

/-- A run: it ends with the first fault. -/
def run (s : RakNetTransport) : List Action → Except Fault RakNetTransport
  | [] => .ok s
  | a :: as => s.stepChecked a >>= fun s => s.run as

/-- A response of `ID_ADVERTISE_PEERID` arrives while a connection is pending. -/
def Solicited (s : RakNetTransport) : Action → Prop
  | .receive _ (.advertisePeerIdResponse _ _) _ => s.pendingConnections ≠ []
  | _ => True

/-- Every step of the run meets `Solicited`. -/
def SolicitedAlong (s : RakNetTransport) : List Action → Prop
  | [] => True
  | a :: as => s.Solicited a ∧ ∀ s', s.stepChecked a = .ok s' → s'.SolicitedAlong as

end Platform

end RakNetTransport

namespace QueueReadLemmas

open RakNetTransport

variable {s : RakNetTransport}

/-! ## The accesses -/

theorem front_cons {r : Ref} {rest : List Ref} (h : s.pendingConnections = r :: rest) :
    s.front = .ok r := by
  rw [front, h]

theorem popChecked_cons {r : Ref} {rest : List Ref} (h : s.pendingConnections = r :: rest) :
    s.popChecked = .ok s.pop := by
  rw [popChecked, h]

theorem pop_pending {r : Ref} {rest : List Ref} (h : s.pendingConnections = r :: rest) :
    s.pop.pendingConnections = rest := by
  show s.pendingConnections.tail = rest
  rw [h, List.tail_cons]

/-- What a handler does that begins with an access to the front. -/
theorem front_pop_cons {r : Ref} {rest : List Ref} (h : s.pendingConnections = r :: rest)
    (f : Ref → RakNetTransport → Except Fault RakNetTransport) :
    (do let r ← s.front
        let s ← s.popChecked
        f r s) = f r s.pop := by
  rw [front_cons h, popChecked_cons h]
  rfl

section Platform

variable [CLibrary]

/-- The loop over cancelled requests looks at the queue before each access. -/
theorem startNextChecked_eq (results : Ref → ConnectionAttemptResult) (queue : List Ref)
    (h : s.pendingConnections = queue) :
    startNextChecked results queue.length s = .ok (startFrom results queue s) := by
  induction queue generalizing s with
  | nil => rfl
  | cons r rest ih =>
    rw [List.length_cons, startNextChecked, startFrom, h, List.isEmpty_cons, front_cons h,
      popChecked_cons h]
    rw [if_neg Bool.false_ne_true]
    show (if s.isCanceled r = true then _ else _) = _
    split
    · show (startNextChecked results rest.length s.pop >>= _) = _
      rw [ih (pop_pending h)]
      rfl
    · rfl

theorem startChecked_eq (s : RakNetTransport) (results : Ref → ConnectionAttemptResult) :
    s.startChecked results = .ok (s.startNextPendingConnections results) :=
  startNextChecked_eq results s.pendingConnections rfl

theorem onConnectionChecked_eq (s : RakNetTransport) (r : Ref) (peerId : UInt64) (throws : Bool)
    (results : Ref → ConnectionAttemptResult) :
    s.onConnectionChecked r peerId throws results =
      .ok (s.onConnection r peerId throws results) := by
  unfold onConnectionChecked onConnection
  split
  · rfl
  · exact startChecked_eq _ results

/-! ## The steps -/

/-- With a pending connection no access fails. -/
theorem receiveChecked_of_pending {r : Ref} {rest : List Ref}
    (h : s.pendingConnections = r :: rest) (peer : Ref) (m : Message)
    (results : Ref → ConnectionAttemptResult) :
    s.receiveChecked peer m results =
      (s.receive peer m results).elim (.error .nullPointer) .ok := by
  have hend : (s.endAttempt peer).pendingConnections = r :: rest := h
  have hempty : ¬ (r :: rest).isEmpty = true := Bool.false_ne_true
  cases m with
  | connectionRequestAccepted parent =>
    unfold receiveChecked receive
    rw [front_cons h, h]
    dsimp only
    rw [if_neg hempty]
    show (if s.isCanceled r = true then _ else _) = _
    split
    · rfl
    · split
      · cases parent <;> rfl
      · rfl
  | failed id =>
    unfold receiveChecked receive
    rw [h]
    dsimp only
    rw [hend, if_neg hempty, front_pop_cons hend]
    exact startChecked_eq _ results
  | logged id => rfl
  | connectionResult sid throws =>
    unfold receiveChecked receive
    rw [h]
    dsimp only
    rw [hend, if_neg hempty, front_pop_cons hend]
    exact onConnectionChecked_eq _ r sid throws results
  | advertisePeerIdResponse parentConnectionId throws =>
    unfold receiveChecked receive
    rw [h]
    dsimp only
    rw [front_pop_cons hend, startChecked_eq, onConnectionChecked_eq]
    split <;> rfl

/-- Without one, a handler that looks at the queue first does not touch it. -/
theorem receiveChecked_of_empty (h : s.pendingConnections = []) (peer : Ref) (m : Message)
    (results : Ref → ConnectionAttemptResult) :
    s.receiveChecked peer m results = (s.receive peer m results).elim (.error .emptyQueue) .ok := by
  have hend : (s.endAttempt peer).pendingConnections = [] := h
  cases m with
  | logged id => rfl
  | advertisePeerIdResponse parentConnectionId throws =>
    unfold receiveChecked receive front
    rw [h]
    dsimp only
    rw [hend]
    rfl
  | _ =>
    unfold receiveChecked receive
    rw [h]
    dsimp only
    first | rfl | (rw [hend]; rfl)

/-- A message is handled without a fault when its handler in the model gives a state. -/
theorem receiveChecked_toOption (s : RakNetTransport) (peer : Ref) (m : Message)
    (results : Ref → ConnectionAttemptResult) :
    (s.receiveChecked peer m results).toOption = s.receive peer m results := by
  cases h : s.pendingConnections with
  | nil =>
    rw [receiveChecked_of_empty h]
    cases s.receive peer m results <;> rfl
  | cons r rest =>
    rw [receiveChecked_of_pending h]
    cases s.receive peer m results <;> rfl

/-- With an empty queue only the response of `ID_ADVERTISE_PEERID` has no state. -/
theorem receive_of_empty (h : s.pendingConnections = []) (peer : Ref) (m : Message)
    (results : Ref → ConnectionAttemptResult) :
    s.receive peer m results = none ↔ ∃ c throws, m = .advertisePeerIdResponse c throws := by
  unfold receive
  rw [h]
  cases m <;> simp

theorem connectChecked_eq (s : RakNetTransport) (endpoint id parentId : Str) (ct : Token)
    (results : Ref → ConnectionAttemptResult) :
    s.connectChecked endpoint id parentId ct results =
      .ok (s.connect endpoint id parentId ct results) := by
  unfold connectChecked connect
  dsimp only
  split
  · exact startChecked_eq _ results
  · rfl

end Platform

end QueueReadLemmas

open QueueReadLemmas RakNetTransport

section Platform

variable [CLibrary]

/-- Where no access fails, the steps are those of the transport. -/
theorem stepChecked_toOption (s : RakNetTransport) (a : RakNetTransport.Action) :
    (s.stepChecked a).toOption = s.step a := by
  cases a with
  | connect endpoint id parentId ct results =>
    show (s.connectChecked endpoint id parentId ct results).toOption = _
    rw [connectChecked_eq]
    rfl
  | receive peer m results => exact receiveChecked_toOption s peer m results
  | _ => rfl

/-- A step reads an empty queue exactly when the response comes while nothing is pending. -/
theorem stepChecked_nonempty_iff (s : RakNetTransport) (a : RakNetTransport.Action) :
    s.stepChecked a ≠ .error .emptyQueue ↔ s.Solicited a := by
  cases a with
  | connect endpoint id parentId ct results =>
    show s.connectChecked endpoint id parentId ct results ≠ _ ↔ True
    rw [connectChecked_eq]
    simp
  | receive peer m results =>
    show s.receiveChecked peer m results ≠ _ ↔ _
    cases h : s.pendingConnections with
    | nil =>
      rw [receiveChecked_of_empty h]
      cases hr : s.receive peer m results with
      | none =>
        obtain ⟨c, throws, rfl⟩ := (receive_of_empty h peer m results).mp hr
        simp [Solicited, h]
      | some s' =>
        cases m with
        | advertisePeerIdResponse c throws =>
          have hnone := (receive_of_empty h peer _ results).mpr ⟨c, throws, rfl⟩
          rw [hnone] at hr
          cases hr
        | _ => simp [Solicited]
    | cons r rest =>
      rw [receiveChecked_of_pending h]
      cases s.receive peer m results <;> cases m <;> simp [Solicited, h]
  | _ => simp [stepChecked, Solicited]

/-- For every sequence of messages, local calls and cancellations: a run never reads an empty queue
exactly when each response of `ID_ADVERTISE_PEERID` in it finds a pending connection. -/
theorem reads_nonempty_iff (s : RakNetTransport) (as : List RakNetTransport.Action) :
    s.run as ≠ .error .emptyQueue ↔ s.SolicitedAlong as := by
  induction as generalizing s with
  | nil => simp [run, SolicitedAlong]
  | cons a as ih =>
    have hstep := stepChecked_nonempty_iff s a
    show (s.stepChecked a >>= fun s => s.run as) ≠ _ ↔
      s.Solicited a ∧ ∀ s', s.stepChecked a = .ok s' → s'.SolicitedAlong as
    rw [← hstep]
    cases hs : s.stepChecked a with
    | error fault =>
      show Except.error fault ≠ _ ↔ _
      simp
    | ok s' =>
      show s'.run as ≠ _ ↔ _
      rw [ih s']
      simp

end Platform

/-! ## Example -/

section Example

attribute [local instance] CLibrary.long64

/-- A peer that has connected to the transport answers a request that was never sent. -/
theorem unsolicited_response : ¬ ∀ as : List RakNetTransport.Action,
    RakNetTransport.init.run as ≠ .error .emptyQueue := by
  intro hall
  exact hall [.start true,
    .receive 0 (.advertisePeerIdResponse 7 false) fun _ => .connectionAttemptStarted] rfl

end Example

end Stormancer.RakNet
