import Stormancer.Streams.Serializer
import Stormancer.Utilities.StringSplit

/-!
# `GameFinderService`

The handler of `gamefinder.update`. The state of the service is set to the status of the message
first. For a status that ends a search, the handler then reads what follows the status, tells its
subscribers, and sets the state back to `Idle`. An exception on the way leaves the state as it is,
and with any state but `Idle` the service refuses to find a game.

MessagePack is a parameter, and so is what the subscribers of the events do: one of them may call
`findGame`, or throw. Of several subscribers it is the sum. The content of a request, its
cancellation token and the other routes are left out.

Results:
1. `fire_andThen_idle`, `reads_idle`: an event or a read on the way back to `Idle`.
2. `returns_to_idle_iff`: when the state is `Idle` after a message that ends a search.
3. `blocked_until_failure`: what a state other than `Idle` means for the next call of `findGame`.
4. `failed_without_reason`: a failure without a reason leaves the state `Failed`.
-/

namespace Stormancer.GameFinder

open Streams

/-! ## Data -/

inductive GameFinderStatus
  | idle
  | searching
  | candidateFound
  | waitingPlayersReady
  | success
  | failed
  | canceled
  | loading
  /-- A value without a name. -/
  | other (value : UInt8)
deriving DecidableEq

/-- `(GameFinderStatus)gameState`. -/
def GameFinderStatus.ofByte (gameState : UInt8) : GameFinderStatus :=
  match gameState with
  | 0 => .searching
  | 1 => .candidateFound
  | 2 => .waitingPlayersReady
  | 3 => .success
  | 4 => .failed
  | 5 => .canceled
  | 6 => .loading
  | value => .other value

/-- What a message contains after its status. A `GameFinderResponseDto` is its connection token. -/
inductive Payload
  | gameFinderResponseDto
  | reason
deriving DecidableEq

abbrev Unpacker := Serializer.Unpacker Payload (fun _ => Str) (List UInt8) String

inductive Event
  | gameFinderStatusUpdated (status : GameFinderStatus)
  | gameFound (connectionToken : Str)
  | findGameRequestFailed (reason : Str)
deriving DecidableEq

/-- What the subscribers of an event do. -/
structure Reaction where
  /-- They call `findGame`. -/
  findGame : Bool
  throws : Option String
deriving DecidableEq

structure GameFinderService where
  currentState : GameFinderStatus
  /-- The calls of `gamefinder.find` that have not ended. -/
  searches : Nat
deriving DecidableEq

/-- What a call returned or threw, and the service after it. -/
abbrev Outcome := Except String Unit × GameFinderService

/-- Goes on with the service unless the call has thrown. -/
def Outcome.andThen (r : Outcome) (next : GameFinderService → Outcome) : Outcome :=
  match r with
  | (.error what, service) => (.error what, service)
  | (.ok _, service) => next service

namespace GameFinderService

/-! ## Operations -/

/-- `findGameInternal`. -/
def findGame (s : GameFinderService) : Outcome :=
  if s.currentState ≠ .idle then (.error "Already finding a game !", s)
  else (.ok (), { s with currentState := .searching, searches := s.searches + 1 })

/-- An event is fired. -/
def fire (subscribers : Event → Reaction) (event : Event) (s : GameFinderService) : Outcome :=
  let reaction := subscribers event
  let s := if reaction.findGame then s.findGame.2 else s
  match reaction.throws with
  | some what => (.error what, s)
  | none => (.ok (), s)

def setIdle (subscribers : Event → Reaction) (s : GameFinderService) : Outcome :=
  fire subscribers (.gameFinderStatusUpdated .idle) { s with currentState := .idle }

/-- The continuation of the call of `gamefinder.find`. -/
def findEnds (subscribers : Event → Reaction) (failed : Bool) (s : GameFinderService) : Outcome :=
  let s := { s with searches := s.searches - 1 }
  if failed ∧ s.currentState ≠ .idle then s.setIdle subscribers else (.ok (), s)

/-- `_serializer.deserializeOne<T>(packet->stream)`. -/
def deserializeOne (u : Unpacker) (payload : Payload) (stream : IByteStream) : Except String Str :=
  match (Serializer.deserialize u stream [⟨payload, []⟩]).1 with
  | .error what => .error what
  | .ok values => .ok (values.flatMap Sigma.snd)

/-- The handler of `gamefinder.update`. `uninitialized` is what the variable of the status holds
before the status is read. -/
def onUpdate (u : Unpacker) (subscribers : Event → Reaction) (uninitialized : UInt8)
    (message : List UInt8) (s : GameFinderService) : Outcome :=
  let r := (IByteStream.ofBytes message).read 1
  let gameStateByte := r.1.headD uninitialized
  let stream := r.2
  let s := { s with currentState := GameFinderStatus.ofByte gameStateByte }
  (s.fire subscribers (.gameFinderStatusUpdated s.currentState)).andThen fun s =>
    match s.currentState with
    | .success =>
      match deserializeOne u .gameFinderResponseDto stream with
      | .error what => (.error what, s)
      | .ok connectionToken =>
        (s.fire subscribers (.gameFound connectionToken)).andThen (setIdle subscribers)
    | .canceled => s.setIdle subscribers
    | .failed =>
      -- The status was read, so the stream is good, whether or not a reason follows.
      match if stream.good then deserializeOne u .reason stream else .ok [] with
      | .error what => (.error what, s)
      | .ok reason =>
        (s.fire subscribers (.findGameRequestFailed reason)).andThen (setIdle subscribers)
    | _ => (.ok (), s)

end GameFinderService

/-! ## The property -/

/-- The statuses that end a search. -/
inductive Terminal
  | success
  | failed
  | canceled
deriving DecidableEq

namespace Terminal

def byte : Terminal → UInt8
  | .success => 3
  | .failed => 4
  | .canceled => 5

def status : Terminal → GameFinderStatus
  | .success => .success
  | .failed => .failed
  | .canceled => .canceled

/-- What the handler reads after the status, and the event for it. -/
def payload? : Terminal → Option (Payload × (Str → Event))
  | .success => some (.gameFinderResponseDto, .gameFound)
  | .failed => some (.reason, .findGameRequestFailed)
  | .canceled => none

end Terminal

/-- After a message that ends a search, the state is `Idle`. -/
def ReturnsToIdle (u : Unpacker) (subscribers : Event → Reaction) (uninitialized : UInt8)
    (s : GameFinderService) (t : Terminal) (payload : List UInt8) : Prop :=
  (s.onUpdate u subscribers uninitialized (t.byte :: payload)).2.currentState = .idle

/-! ## The condition -/

/-- The first value of the bytes. -/
def decode (u : Unpacker) (payload : Payload) (bytes : List UInt8) : Except String Str :=
  match Serializer.deserializeBytes u bytes ⟨payload, []⟩ 0 with
  | .error what => .error what
  | .ok (value, _) => .ok value.2

/-- What is read after the status can be decoded, no subscriber throws before the state is set back,
and none starts a search when it is told that the state is `Idle`. -/
structure Undisturbed (u : Unpacker) (subscribers : Event → Reaction) (t : Terminal)
    (bytes : List UInt8) : Prop where
  status : (subscribers (.gameFinderStatusUpdated t.status)).throws = none
  payload : ∀ p ∈ t.payload?, ∃ value, decode u p.1 bytes = .ok value ∧
    (subscribers (p.2 value)).throws = none
  idle : (subscribers (.gameFinderStatusUpdated .idle)).findGame = false

namespace ServiceLemmas

open IByteStream IByteStream.IByteStreamLemmas IByteStream.PositionsLemmas
open GameFinderService

variable {u : Unpacker} {subscribers : Event → Reaction} {s : GameFinderService}

/-- The stream after its first byte. -/
theorem read_status (b : UInt8) (bytes : List UInt8) :
    ((ofBytes (b :: bytes)).read 1).1 = [b] ∧
      ((ofBytes (b :: bytes)).read 1).2.Over (b :: bytes) ∧
      ((ofBytes (b :: bytes)).read 1).2.good = true ∧
      ((ofBytes (b :: bytes)).read 1).2.unread = bytes := by
  have hover := over_ofBytes (b :: bytes)
  obtain ⟨-, hread, hunread, hgood⟩ := read_spec hover.inv rfl 1
  rw [unread_ofBytes] at hread hunread hgood
  refine ⟨hread, over_access hover (.read 1), ?_, hunread⟩
  rw [Nat.cast_one] at hgood
  rw [hgood]
  simp

theorem deserializeOne_eq {stream : IByteStream} {data : List UInt8} (h : stream.Over data)
    (hgood : stream.good = true) (payload : Payload) :
    deserializeOne u payload stream = decode u payload stream.unread := by
  unfold deserializeOne decode
  rw [Serializer.SerializerLemmas.deserialize_eq u h hgood]
  unfold Serializer.unstackAndDeserialize Serializer.unstackAndDeserialize
  rw [List.drop_zero]
  cases Serializer.deserializeBytes u stream.unread ⟨payload, []⟩ 0 with
  | error what => rfl
  | ok r => exact congrArg Except.ok (List.flatMap_singleton _ _)

/-! ### Events -/

/-- Unless the state is `Idle`, subscribers do not change it. -/
theorem fire_busy (event : Event) (hbusy : s.currentState ≠ .idle) :
    s.fire subscribers event =
      match (subscribers event).throws with
      | some what => (.error what, s)
      | none => (.ok (), s) := by
  unfold fire findGame
  dsimp only
  rw [if_pos hbusy, ite_self]

theorem setIdle_idle (s : GameFinderService) :
    (s.setIdle subscribers).2.currentState = .idle ↔
      (subscribers (.gameFinderStatusUpdated .idle)).findGame = false := by
  unfold setIdle fire findGame
  generalize subscribers (.gameFinderStatusUpdated .idle) = reaction
  obtain ⟨findGame, throws⟩ := reaction
  cases findGame <;> cases throws <;> simp

/-- An event, and what follows it unless a subscriber throws. -/
theorem fire_andThen_idle {event : Event} {next : GameFinderService → Outcome}
    (hbusy : s.currentState ≠ .idle) :
    ((s.fire subscribers event).andThen next).2.currentState = .idle ↔
      (subscribers event).throws = none ∧ (next s).2.currentState = .idle := by
  rw [fire_busy event hbusy]
  unfold Outcome.andThen
  cases (subscribers event).throws with
  | some what => exact iff_of_false hbusy fun h => Option.some_ne_none _ h.1
  | none => exact (and_iff_right rfl).symm

/-- What the handler reads after the status, with the event for it. -/
theorem reads_idle {bytes : List UInt8} {payload : Payload} (event : Str → Event)
    (hbusy : s.currentState ≠ .idle) :
    (match decode u payload bytes with
      | .error what => (.error what, s)
      | .ok value =>
        (s.fire subscribers (event value)).andThen (setIdle subscribers) : Outcome).2.currentState =
        .idle ↔
      (∃ value, decode u payload bytes = .ok value ∧ (subscribers (event value)).throws = none) ∧
        (subscribers (.gameFinderStatusUpdated .idle)).findGame = false := by
  cases hdecode : decode u payload bytes with
  | error what => simp [hbusy]
  | ok value =>
    dsimp only
    rw [fire_andThen_idle hbusy, setIdle_idle]
    simp

theorem undisturbed_iff {t : Terminal} {bytes : List UInt8} {payload : Payload}
    {event : Str → Event} (hp : t.payload? = some (payload, event)) :
    (subscribers (.gameFinderStatusUpdated t.status)).throws = none ∧
        (∃ value, decode u payload bytes = .ok value ∧
          (subscribers (event value)).throws = none) ∧
        (subscribers (.gameFinderStatusUpdated .idle)).findGame = false ↔
      Undisturbed u subscribers t bytes := by
  constructor
  · rintro ⟨hstatus, hread, hidle⟩
    refine ⟨hstatus, fun q hq => ?_, hidle⟩
    rw [hp, Option.mem_some] at hq
    subst hq
    exact hread
  · rintro ⟨hstatus, hread, hidle⟩
    exact ⟨hstatus, hread _ hp, hidle⟩

end ServiceLemmas

open ServiceLemmas GameFinderService

/-! ## Results -/

/-- For every state of the service, every message that ends a search and all subscribers. -/
theorem returns_to_idle_iff (u : Unpacker) (subscribers : Event → Reaction) (uninitialized : UInt8)
    (s : GameFinderService) (t : Terminal) (bytes : List UInt8) :
    ReturnsToIdle u subscribers uninitialized s t bytes ↔ Undisturbed u subscribers t bytes := by
  obtain ⟨hstatus, hover, hgood, hunread⟩ := read_status t.byte bytes
  have hbyte : GameFinderStatus.ofByte t.byte = t.status := by cases t <;> rfl
  have hbusy : t.status ≠ .idle := by cases t <;> nofun
  have hdecode := deserializeOne_eq (u := u) hover hgood
  rw [hunread] at hdecode
  unfold ReturnsToIdle onUpdate
  dsimp only
  rw [hstatus, hgood, if_pos rfl, List.headD_cons, hbyte, fire_andThen_idle hbusy, hdecode,
    hdecode]
  cases t with
  | success =>
    exact (and_congr_right fun _ => reads_idle .gameFound hbusy).trans (undisturbed_iff rfl)
  | failed =>
    exact (and_congr_right fun _ => reads_idle .findGameRequestFailed hbusy).trans
      (undisturbed_iff rfl)
  | canceled =>
    refine (and_congr_right fun _ => setIdle_idle _).trans ⟨?_, ?_⟩
    · rintro ⟨hthrows, hidle⟩
      exact ⟨hthrows, nofun, hidle⟩
    · rintro ⟨hthrows, -, hidle⟩
      exact ⟨hthrows, hidle⟩

/-- After a message that leaves another state than `Idle`, no game can be found until the call of
`gamefinder.find` fails. -/
theorem blocked_until_failure {u : Unpacker} {subscribers : Event → Reaction}
    {uninitialized : UInt8} {s s' : GameFinderService} {t : Terminal} {bytes : List UInt8}
    (h : ¬ ReturnsToIdle u subscribers uninitialized s t bytes)
    (hs' : s' = (s.onUpdate u subscribers uninitialized (t.byte :: bytes)).2) :
    s'.findGame = (.error "Already finding a game !", s') ∧
      (s'.findEnds subscribers false).2.currentState ≠ .idle ∧
      ((s'.findEnds subscribers true).2.currentState = .idle ↔
        (subscribers (.gameFinderStatusUpdated .idle)).findGame = false) := by
  have hbusy : s'.currentState ≠ .idle := by
    rw [hs']
    exact h
  refine ⟨if_pos hbusy, hbusy, ?_⟩
  unfold findEnds
  dsimp only
  rw [if_pos ⟨rfl, hbusy⟩]
  exact setIdle_idle _

/-- The strings of less than 32 bytes. -/
def shortStrings : Unpacker where
  unpack
    | [] => .error "insufficient bytes"
    | header :: rest =>
      let n := (header &&& 0x1f).toNat
      if 0xa0 ≤ header ∧ header ≤ 0xbf ∧ n ≤ rest.length then .ok (rest.take n, n + 1)
      else .error "insufficient bytes"
  convert _ _ obj := .ok (obj.map fun b => Char.ofNat b.toNat)

/-- A failure without a reason: the state stays `Failed`. -/
theorem failed_without_reason : ¬ ∀ (s : GameFinderService) (t : Terminal) (bytes : List UInt8),
    ReturnsToIdle shortStrings (fun _ => ⟨false, none⟩) 0 s t bytes := by
  intro h
  have hstate : (onUpdate shortStrings (fun _ => ⟨false, none⟩) 0 [4]
      ⟨.searching, 1⟩).2.currentState = .failed := by decide
  exact absurd (hstate.symm.trans (h ⟨.searching, 1⟩ .failed [])) (by decide)

end Stormancer.GameFinder
