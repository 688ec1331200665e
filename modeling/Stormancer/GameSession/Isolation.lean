import Mathlib.Data.List.Basic
import Stormancer.Lib.Heap
import Stormancer.Lib.Run

/-!
# Attempts to connect to a game session

`connectToGameSession` stores a new container in `_currentGameSession` and starts a chain of
continuations for it, which knows its own container by a weak pointer. Two of its continuations do
not look at it: the callback of the caller's cancellation token clears `_currentGameSession`, and the
continuation that handles a failure calls `disconnectFromGameSession`, which takes the task of the
scene of the current container and disconnects the scene when the task has ended.

A container that is no longer the current one is destroyed, which cancels what its chain waits for;
that an attempt fails is left to the environment, and so are the requests to the scene. Two attempts
may connect to one scene, since the client has one for an address. A call with an empty token, which
does nothing, and the tunnels are left out.

Results:
1. `attempts_isolated`: as long as each step meets `keepsLater`, an event of an attempt clears,
   disconnects or completes no session of a later attempt.
2. `failure_disconnects_later`: an attempt that was replaced fails, and the session that replaced it
   is disconnected.
-/

namespace Stormancer.GameSession

/-! ## Definitions -/

inductive Phase
  | connecting
  /-- The scene is connected; the P2P token and the P2P connection are requested. -/
  | p2p
  /-- The task `scene` of the container succeeded: waiting for the role, and for the host. -/
  | waiting
  | completed
  /-- The continuation that handles the failure has still to run. -/
  | failing
  | failed
deriving DecidableEq

/-- An attempt, with its `GameSessionContainer`. -/
structure Attempt where
  phase : Phase
  /-- The scene that `connectToPrivateScene` gave. -/
  scene : Option Nat
  /-- The task `scene` of the container succeeded. -/
  sceneReady : Bool
  /-- `sessionReadyTce`, with the parameter `isHost`. -/
  sessionReady : Option Bool
  hostIsReady : Bool
  /-- The caller's cancellation token can be cancelled. -/
  cancelable : Bool
deriving DecidableEq

/-- The result of the task `scene` of the container, when it has succeeded. -/
def Attempt.sceneResult (a : Attempt) : Option Nat := if a.sceneReady then a.scene else none

/-- A call of `disconnectFromGameSession` that waits for the task of a scene. -/
structure Disconnection where
  /-- The attempt whose failure made the call, if it was not the user. -/
  attempt : Option Nat
  target : Nat
deriving DecidableEq

/-- An event of an attempt cleared, disconnected or completed the session of an attempt. -/
structure Effect where
  event : Nat
  session : Nat
deriving DecidableEq

structure GameSessionImpl where
  /-- `_currentGameSession`, by the number of the attempt. -/
  currentGameSession : Option Nat
  attempts : List Attempt
  disconnections : List Disconnection
  effects : List Effect
deriving DecidableEq

namespace GameSessionImpl

def init : GameSessionImpl := ⟨none, [], [], []⟩

/-- `connectToGameSession`, which replaces the current container. -/
def connectToGameSession (s : GameSessionImpl) (cancelable : Bool) : GameSessionImpl :=
  { s with
    currentGameSession := some s.attempts.length
    attempts := s.attempts ++ [⟨.connecting, none, false, none, false, cancelable⟩]
    effects := s.effects ++ s.currentGameSession.toList.map (⟨s.attempts.length, ·⟩) }

/-- `disconnectFromGameSession`, with the task that `getCurrentGameSession` returns. -/
def disconnectFromGameSession (s : GameSessionImpl) (attempt : Option Nat) : GameSessionImpl :=
  match s.currentGameSession with
  | some j => { s with disconnections := s.disconnections ++ [⟨attempt, j⟩] }
  | none => s

def setAttempt (s : GameSessionImpl) (i : Nat) (a : Attempt) : GameSessionImpl :=
  { s with attempts := s.attempts.set i a }

/-- The attempts that have a scene. -/
def attemptsOf (s : GameSessionImpl) (scene : Nat) : List Nat :=
  (s.attempts.zipIdx.filter fun p => p.1.scene = some scene).map Prod.snd

/-- The continuation of `disconnectFromGameSession`: it disconnects the scene. -/
def disconnectScene (s : GameSessionImpl) (attempt : Option Nat) (scene : Option Nat) :
    GameSessionImpl :=
  match attempt, scene with
  | some i, some k => { s with effects := s.effects ++ (s.attemptsOf k).map (⟨i, ·⟩) }
  | _, _ => s

inductive Action
  | connectToGameSession (cancelable : Bool)
  /-- The callback of the caller's cancellation token. -/
  | cancel (i : Nat)
  | connected (i : Nat) (scene : Nat)
  | p2pEnds (i : Nat)
  /-- The events of the game session service. -/
  | roleReceived (i : Nat) (isHost : Bool)
  | hostIsReady (i : Nat)
  | completes (i : Nat)
  | fails (i : Nat)
  /-- The continuation that handles the failure. -/
  | failure (i : Nat)
  /-- A call of `disconnectFromGameSession` by the user. -/
  | disconnectFromGameSession
  | sceneTaskEnded (j : Nat)
  /-- The scene of a game session is disconnecting. -/
  | sceneDisconnecting (scene : Nat)
deriving DecidableEq

def step (s : GameSessionImpl) : Action → Option GameSessionImpl
  | .connectToGameSession cancelable => some (s.connectToGameSession cancelable)
  | .cancel i =>
    match s.attempts[i]? with
    | some a =>
      if a.cancelable then
        some { s.setAttempt i { a with cancelable := false } with
          currentGameSession := none
          effects := s.effects ++ s.currentGameSession.toList.map (⟨i, ·⟩) }
      else none
    | none => none
  | .connected i scene =>
    match s.attempts[i]? with
    | some a =>
      if a.phase = .connecting then
        some (s.setAttempt i { a with phase := .p2p, scene := some scene })
      else none
    | none => none
  | .p2pEnds i =>
    match s.attempts[i]? with
    | some a =>
      -- The continuation locks the container, and throws when it was destroyed.
      if a.phase = .p2p then
        if s.currentGameSession = some i then
          some (s.setAttempt i { a with phase := .waiting, sceneReady := true })
        else some (s.setAttempt i { a with phase := .failing })
      else none
    | none => none
  | .roleReceived i isHost =>
    match s.attempts[i]? with
    | some a =>
      if s.currentGameSession = some i then
        some (s.setAttempt i { a with sessionReady := a.sessionReady <|> some isHost })
      else some s
    | none => none
  | .hostIsReady i =>
    match s.attempts[i]? with
    | some a =>
      if s.currentGameSession = some i then some (s.setAttempt i { a with hostIsReady := true })
      else some s
    | none => none
  | .completes i =>
    match s.attempts[i]? with
    | some a =>
      if a.phase = .waiting ∧ a.sessionReady.any fun isHost => isHost || a.hostIsReady then
        some { s.setAttempt i { a with phase := .completed } with
          effects := s.effects ++ [⟨i, i⟩] }
      else none
    | none => none
  | .fails i =>
    match s.attempts[i]? with
    | some a =>
      if a.phase = .connecting ∨ a.phase = .p2p ∨ a.phase = .waiting then
        some (s.setAttempt i { a with phase := .failing })
      else none
    | none => none
  | .failure i =>
    match s.attempts[i]? with
    | some a =>
      if a.phase = .failing then
        some ((s.setAttempt i { a with phase := .failed }).disconnectFromGameSession (some i))
      else none
    | none => none
  | .disconnectFromGameSession => some (s.disconnectFromGameSession none)
  | .sceneTaskEnded j =>
    match s.disconnections[j]? with
    | some d =>
      match s.attempts[d.target]? with
      | some a =>
        if a.phase = .connecting ∨ a.phase = .p2p then none
        else
          some ({ s with disconnections := s.disconnections.eraseIdx j }.disconnectScene d.attempt
            a.sceneResult)
      | none => none
    | none => none
  -- The plugin raises `onDisconnectingFromScene`. Nothing calls `onDisconnectingFromGameSession`,
  -- which would clear `_currentGameSession`.
  | .sceneDisconnecting _ => some s

/-! ## The property -/

/-- No event of an attempt cleared, disconnected or completed the session of a later one. -/
def Isolated (s : GameSessionImpl) : Prop := ∀ e ∈ s.effects, e.session ≤ e.event

/-! ## The condition -/

/-- The token of an attempt is cancelled, and its failure handled, only when no session of a later
attempt is the current one; and no attempt connects to a scene that the failure of an earlier one is
about to disconnect. -/
def keepsLater (s : GameSessionImpl) : Action → Bool
  | .cancel i | .failure i => s.currentGameSession.all (· ≤ i)
  | .connected _ scene =>
    s.disconnections.all fun d =>
      d.attempt = none || s.attempts[d.target]?.all fun a => a.sceneResult ≠ some scene
  | _ => true

abbrev KeepsLater (s : GameSessionImpl) (a : Action) : Prop := s.keepsLater a = true

/-! ## The invariant -/

/-- A disconnection that follows a failure is one of the attempt's own scene, to which no later
attempt has connected. -/
def Own (attempts : List Attempt) (d : Disconnection) : Prop :=
  ∀ i, d.attempt = some i → d.target = i ∧
    ∃ a, attempts[i]? = some a ∧ a.phase = .failed ∧
      ∀ scene, a.sceneResult = some scene →
        ∀ (k : Nat) (b : Attempt), attempts[k]? = some b → b.scene = some scene → k ≤ i

/-- The current container is that of the last attempt. -/
structure Apart (s : GameSessionImpl) : Prop where
  latest : ∀ j, s.currentGameSession = some j → j + 1 = s.attempts.length
  own : ∀ d ∈ s.disconnections, Own s.attempts d
  isolated : s.Isolated

/-! ## Helpers -/

namespace IsolationLemmas

variable {s s' : GameSessionImpl} {attempts : List Attempt} {d : Disconnection} {i : Nat}
  {a a' : Attempt}

theorem own_user {target : Nat} : Own attempts ⟨none, target⟩ := by
  intro i hi
  cases hi

theorem own_make (h : Own attempts d) (ha : a.scene = none) : Own (attempts ++ [a]) d := by
  intro i hi
  obtain ⟨htarget, b, hb, hphase, hlater⟩ := h i hi
  refine ⟨htarget, b, ?_, hphase, ?_⟩
  · exact (List.getElem?_append_left (List.getElem?_eq_some_iff.mp hb).1).trans hb
  · intro scene hscene k c hc hk
    rcases Heap.of_make hc with hold | ⟨-, rfl⟩
    · exact hlater scene hscene k c hold hk
    · cases ha.symm.trans hk

/-- An attempt changes: one that has failed keeps its scene, and the scene that another one connects
to is not about to be disconnected. -/
theorem own_set (h : Own attempts d) (ha : attempts[i]? = some a)
    (hkeep : a.phase = .failed → a'.phase = .failed ∧ a'.sceneResult = a.sceneResult)
    (hscene : ∀ scene, a'.scene = some scene → a.scene = some scene ∨ d.attempt = none ∨
      ∀ b, attempts[d.target]? = some b → b.sceneResult ≠ some scene) :
    Own (attempts.set i a') d := by
  intro j hj
  obtain ⟨htarget, b, hb, hphase, hlater⟩ := h j hj
  obtain ⟨b', hb', hphase', hresult⟩ : ∃ b', (attempts.set i a')[j]? = some b' ∧
      b'.phase = .failed ∧ b'.sceneResult = b.sceneResult := by
    rcases eq_or_ne i j with rfl | hne
    · cases ha.symm.trans hb
      exact ⟨a', List.getElem?_set_self (List.getElem?_eq_some_iff.mp ha).1, hkeep hphase⟩
    · exact ⟨b, (List.getElem?_set_ne hne).trans hb, hphase, rfl⟩
  refine ⟨htarget, b', hb', hphase', fun scene hb'scene k c hc hk => ?_⟩
  have hbscene := hresult.symm.trans hb'scene
  rcases Heap.of_set hc with ⟨-, hold⟩ | ⟨rfl, rfl⟩
  · exact hlater scene hbscene k c hold hk
  · rcases hscene scene hk with hsame | huser | hother
    · exact hlater scene hbscene k a ha hsame
    · cases huser.symm.trans hj
    · exact absurd hbscene (hother b (htarget ▸ hb))

theorem isolated_append (hs : s.Isolated) {effects : List Effect}
    (heffects : ∀ e ∈ effects, e.session ≤ e.event) :
    ∀ e ∈ s.effects ++ effects, e.session ≤ e.event := by
  intro e he
  rcases List.mem_append.mp he with hold | hnew
  · exact hs e hold
  · exact heffects e hnew

/-- What an event does to the current session. -/
theorem effect_current {c : Option Nat} (h : ∀ j, c = some j → j ≤ i) :
    ∀ e ∈ c.toList.map (Effect.mk i), e.session ≤ e.event := by
  intro e he
  obtain ⟨j, hj, rfl⟩ := List.mem_map.mp he
  exact h j (Option.mem_toList.mp hj)

theorem apart_connect (hs : Apart s) (cancelable : Bool) :
    Apart (s.connectToGameSession cancelable) := by
  constructor
  case latest =>
    intro j hj
    cases hj
    unfold connectToGameSession
    rw [List.length_append, List.length_singleton]
  case own => exact fun d hd => own_make (hs.own d hd) rfl
  case isolated =>
    refine isolated_append hs.isolated (effect_current fun j hj => ?_)
    exact (hs.latest j hj) ▸ Nat.le_succ j

/-- An attempt goes on with its own container. -/
theorem apart_set (hs : Apart s) (ha : s.attempts[i]? = some a)
    (hkeep : a.phase = .failed → a'.phase = .failed ∧ a'.sceneResult = a.sceneResult)
    (hscene : a'.scene = a.scene) : Apart (s.setAttempt i a') := by
  constructor
  case latest => exact fun j hj => (hs.latest j hj).trans List.length_set.symm
  case own =>
    refine fun d hd => own_set (hs.own d hd) ha hkeep fun scene hk => .inl ?_
    exact hscene.symm.trans hk
  case isolated => exact hs.isolated

theorem apart_connected (hs : Apart s) (ha : s.attempts[i]? = some a)
    (hphase : a.phase = .connecting) {scene : Nat}
    (hguard : s.KeepsLater (.connected i scene)) :
    Apart (s.setAttempt i { a with phase := .p2p, scene := some scene }) := by
  constructor
  case latest => exact fun j hj => (hs.latest j hj).trans List.length_set.symm
  case own =>
    intro d hd
    refine own_set (hs.own d hd) ha (fun hfailed => ?_) fun scene' hscene' => .inr ?_
    · cases hphase.symm.trans hfailed
    · cases hscene'
      have hd' := List.all_eq_true.mp hguard d hd
      rw [Bool.or_eq_true, decide_eq_true_eq, Option.all_eq_true] at hd'
      exact hd'.imp_right fun hall b hb => of_decide_eq_true (hall b hb)
  case isolated => exact hs.isolated

theorem current_le (hguard : s.currentGameSession.all (· ≤ i) = true) :
    ∀ j, s.currentGameSession = some j → j ≤ i := by
  intro j hj
  rw [hj] at hguard
  exact of_decide_eq_true hguard

theorem apart_cancel (hs : Apart s) (ha : s.attempts[i]? = some a)
    (hguard : s.currentGameSession.all (· ≤ i) = true) :
    Apart { s.setAttempt i { a with cancelable := false } with
      currentGameSession := none
      effects := s.effects ++ s.currentGameSession.toList.map (⟨i, ·⟩) } := by
  have hset : Apart (s.setAttempt i { a with cancelable := false }) :=
    apart_set hs ha (fun h => ⟨h, rfl⟩) rfl
  constructor
  case latest =>
    intro j hj
    cases hj
  case own => exact hset.own
  case isolated => exact isolated_append hs.isolated (effect_current (current_le hguard))

/-- A failure that is handled while no later attempt is the current one disconnects the scene of the
attempt itself. -/
theorem apart_failure (hs : Apart s) (ha : s.attempts[i]? = some a) (hphase : a.phase = .failing)
    (hguard : s.currentGameSession.all (· ≤ i) = true) :
    Apart ((s.setAttempt i { a with phase := .failed }).disconnectFromGameSession (some i)) := by
  have hi := (List.getElem?_eq_some_iff.mp ha).1
  have hset : Apart (s.setAttempt i { a with phase := .failed }) :=
    apart_set hs ha (fun hfailed => by cases hphase.symm.trans hfailed) rfl
  unfold disconnectFromGameSession
  split
  case h_2 => exact hset
  case h_1 j hj =>
    have hj' : s.currentGameSession = some j := hj
    obtain rfl : j = i := by
      have hlast := hs.latest j hj'
      have hle := current_le hguard j hj'
      omega
    refine ⟨hset.latest, fun d hd => ?_, hset.isolated⟩
    rcases List.mem_append.mp hd with hold | hnew
    · exact hset.own d hold
    · cases List.mem_singleton.mp hnew
      intro i hi'
      cases hi'
      refine ⟨rfl, { a with phase := .failed }, List.getElem?_set_self hi, rfl, ?_⟩
      intro scene _ k b hb _
      have hk : k < (s.attempts.set j { a with phase := .failed }).length :=
        (List.getElem?_eq_some_iff.mp hb).1
      rw [List.length_set, ← hs.latest j hj'] at hk
      exact Nat.le_of_lt_succ hk

theorem apart_sceneTaskEnded (hs : Apart s) {j : Nat} (hd : s.disconnections[j]? = some d)
    (ha : s.attempts[d.target]? = some a) :
    Apart ({ s with disconnections := s.disconnections.eraseIdx j }.disconnectScene d.attempt
      a.sceneResult) := by
  have hown : ∀ d' ∈ s.disconnections.eraseIdx j, Own s.attempts d' :=
    fun d' hd' => hs.own d' (List.mem_of_mem_eraseIdx hd')
  unfold disconnectScene
  split
  case h_2 => exact ⟨hs.latest, hown, hs.isolated⟩
  case h_1 i k hi hk =>
    refine ⟨hs.latest, hown, isolated_append hs.isolated fun e he => ?_⟩
    obtain ⟨htarget, b, hb, -, hlater⟩ := hs.own d (List.mem_of_getElem? hd) i hi
    rw [htarget] at ha
    cases ha.symm.trans hb
    obtain ⟨k', hk', rfl⟩ := List.mem_map.mp he
    obtain ⟨⟨c, k''⟩, hc, rfl⟩ := List.mem_map.mp hk'
    obtain ⟨hmem, hscene⟩ := List.mem_filter.mp hc
    exact hlater k hk k'' c (List.mk_mem_zipIdx_iff_getElem?.mp hmem) (of_decide_eq_true hscene)

/-- What an event of an attempt finds and does. -/
theorem of_attempt {o : Option Attempt} {p : Attempt → Prop} [DecidablePred p]
    {f : Attempt → GameSessionImpl}
    (h : (match o with | some a => if p a then some (f a) else none | none => none) = some s') :
    ∃ a, o = some a ∧ p a ∧ f a = s' := by
  cases o with
  | none => cases h
  | some a =>
    obtain ⟨hp, hf⟩ := Option.ite_none_right_eq_some.mp h
    exact ⟨a, rfl, hp, Option.some.inj hf⟩

/-- An event of the service concerns the attempt whose container is the current one. -/
theorem of_serviceEvent {o : Option Attempt} {f : Attempt → GameSessionImpl}
    (h : (match o with
      | some a => if s.currentGameSession = some i then some (f a) else some s
      | none => none) = some s') :
    s' = s ∨ ∃ a, o = some a ∧ f a = s' := by
  cases o with
  | none => cases h
  | some a =>
    dsimp only at h
    split at h
    · exact .inr ⟨a, rfl, Option.some.inj h⟩
    · exact .inl (Option.some.inj h).symm

theorem apart_step (hs : Apart s) {act : Action} (hguard : s.KeepsLater act)
    (hstep : s.step act = some s') : Apart s' := by
  unfold step at hstep
  cases act with
  | connectToGameSession cancelable =>
    cases hstep
    exact apart_connect hs cancelable
  | disconnectFromGameSession =>
    cases hstep
    unfold GameSessionImpl.disconnectFromGameSession
    split
    case h_2 => exact hs
    case h_1 j _ =>
      refine ⟨hs.latest, fun d hd => ?_, hs.isolated⟩
      rcases List.mem_append.mp hd with hold | hnew
      · exact hs.own d hold
      · cases List.mem_singleton.mp hnew
        exact own_user
  | sceneTaskEnded j =>
    dsimp only at hstep
    split at hstep
    case h_2 => cases hstep
    case h_1 d hd =>
      split at hstep
      case h_2 => cases hstep
      case h_1 a ha =>
        split at hstep
        case isTrue => cases hstep
        case isFalse =>
          cases hstep
          exact apart_sceneTaskEnded hs hd ha
  | sceneDisconnecting scene =>
    cases hstep
    exact hs
  | cancel i =>
    obtain ⟨a, ha, -, rfl⟩ := of_attempt hstep
    exact apart_cancel hs ha hguard
  | connected i scene =>
    obtain ⟨a, ha, hphase, rfl⟩ := of_attempt hstep
    exact apart_connected hs ha hphase hguard
  | p2pEnds i =>
    dsimp only at hstep
    split at hstep
    case h_2 => cases hstep
    case h_1 a ha =>
      obtain ⟨hphase, hset⟩ := Option.ite_none_right_eq_some.mp hstep
      have hnot : a.phase = .failed → False := fun hfailed => by cases hphase.symm.trans hfailed
      split at hset
      · cases hset
        exact apart_set hs ha (fun hfailed => (hnot hfailed).elim) rfl
      · cases hset
        exact apart_set hs ha (fun hfailed => (hnot hfailed).elim) rfl
  | roleReceived i isHost =>
    rcases of_serviceEvent hstep with rfl | ⟨a, ha, rfl⟩
    · exact hs
    · exact apart_set hs ha (fun hfailed => ⟨hfailed, rfl⟩) rfl
  | hostIsReady i =>
    rcases of_serviceEvent hstep with rfl | ⟨a, ha, rfl⟩
    · exact hs
    · exact apart_set hs ha (fun hfailed => ⟨hfailed, rfl⟩) rfl
  | completes i =>
    obtain ⟨a, ha, hwaiting, rfl⟩ := of_attempt hstep
    have hset : Apart (s.setAttempt i { a with phase := .completed }) :=
      apart_set hs ha (fun hfailed => by cases hwaiting.1.symm.trans hfailed) rfl
    refine ⟨hset.latest, hset.own, isolated_append hs.isolated fun e he => ?_⟩
    cases List.mem_singleton.mp he
    exact Nat.le_refl i
  | fails i =>
    obtain ⟨a, ha, hphase, rfl⟩ := of_attempt hstep
    refine apart_set hs ha (fun hfailed => ?_) rfl
    rw [hfailed] at hphase
    rcases hphase with h | h | h
    all_goals cases h
  | failure i =>
    obtain ⟨a, ha, hphase, rfl⟩ := of_attempt hstep
    exact apart_failure hs ha hphase hguard

end IsolationLemmas

open IsolationLemmas

/-! ## Results -/

/-- As long as each step meets the condition, no event of an attempt clears, disconnects or completes
the session of a later attempt. -/
theorem attempts_isolated {s : GameSessionImpl} (h : Lts.Reachable step KeepsLater init s) :
    s.Isolated := by
  have hinit : Apart init := by
    refine ⟨fun j hj => ?_, fun d hd => ?_, fun e he => ?_⟩
    · cases hj
    · cases hd
    · cases he
  exact (h.invariant hinit fun _ _ _ hs hguard hstep => apart_step hs hguard hstep).isolated

/-- An attempt that fails while it waits and disconnects its scene, and a second one that completes
and is cancelled. -/
theorem attempts_isolated_second : ∃ s : GameSessionImpl,
    s.effects = [⟨0, 0⟩, ⟨1, 0⟩, ⟨1, 1⟩, ⟨1, 1⟩] ∧ s.Isolated := by
  obtain ⟨s, hreach, htest⟩ := Lts.Reachable.of_exec step KeepsLater init
    [.connectToGameSession false, .connected 0 0, .p2pEnds 0, .fails 0, .failure 0,
      .sceneTaskEnded 0, .connectToGameSession true, .connected 1 1, .p2pEnds 1,
      .roleReceived 1 true, .completes 1, .cancel 1]
    (fun s => decide (s.effects = [⟨0, 0⟩, ⟨1, 0⟩, ⟨1, 1⟩, ⟨1, 1⟩])) (by decide +kernel)
  exact ⟨s, of_decide_eq_true htest, attempts_isolated hreach⟩

/-- An attempt that was replaced fails: the session of the second attempt, which has been connected,
is disconnected. -/
theorem failure_disconnects_later :
    ¬ ∀ s, Lts.Reachable step Lts.anyStep init s → s.Isolated := by
  intro hall
  obtain ⟨s, hreach, htest⟩ := Lts.Reachable.of_exec step Lts.anyStep init
    [.connectToGameSession false, .connectToGameSession false, .fails 0, .failure 0,
      .connected 1 0, .p2pEnds 1, .sceneTaskEnded 0]
    (fun s => decide (⟨0, 1⟩ ∈ s.effects)) (by decide +kernel)
  exact absurd (hall s hreach ⟨0, 1⟩ (of_decide_eq_true htest)) (Nat.not_succ_le_zero 0)

end GameSessionImpl

end Stormancer.GameSession
