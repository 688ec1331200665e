import Stormancer.Lib.Heap
import Stormancer.Lib.Run

/-!
# Logging in and out

`getAuthenticationScene` starts an attempt to log in when there is no `_authTask` and automatic
reconnection is on, and assigns its task to `_authTask` when `loginImpl` has returned. The attempt
connects to the authentication scene, asks the event handlers for credentials and calls the
`Authentication.Login` procedure. When it fails, its last continuation may start `loginImpl` again
after a delay, as a part of the same task. A connection state that the authentication scene reports
may start an attempt of its own.

An action runs one continuation, so that calls, reports and timers come in any order between them.
The observers of `connectionStateChanged` are not part of the model: what one of them calls is a
call between two actions. The client is alive. How long a delay takes is left out, since a timer
may expire at any time, and so are the user's id and name.

Results:
1. `of_continue`, `of_step`: what a continuation of an attempt and a step do, as relations.
2. `getAuthenticationScene_off`, `setDisconnected_off`: with automatic reconnection off nothing
   starts an attempt.
3. `logout_cases`: what a call of `logout` does.
-/

namespace Stormancer.Users

/-! ## Data -/

inductive GameConnectionState
  | disconnected
  | connecting
  | authenticated
  | disconnecting
  | authenticating
  | reconnecting
deriving DecidableEq

/-- What a scene has reported last, as far as the subscription of `loginImpl` changes the connection
state. Reports of an earlier scene come through an earlier subscription, which is not cancelled. -/
inductive SceneState
  | connected
  | disconnecting
  | disconnected
deriving DecidableEq

namespace SceneState

/-- A scene reports its states in order, `Disconnected` last. -/
def mayReport : SceneState → SceneState → Bool
  | .connected, .disconnecting | .connected, .disconnected | .disconnecting, .disconnected => true
  | _, _ => false

end SceneState

/-- The reasons of a disconnection that switch automatic reconnection off. -/
def finalReasons : List String :=
  ["User connected elsewhere", "Authentication failed", "auth.login.new_connection"]

/-- How far an attempt is. -/
inductive Phase
  /-- `connectToPublicScene`. -/
  | connecting
  /-- `runCredentialsEventHandlers`. -/
  | credentials (scene : Nat)
  /-- The request `Authentication.Login`. -/
  | login (scene : Nat)
  /-- An error: the last continuation of `loginImpl` has still to run. -/
  | failing
  /-- The `taskDelay` of `reconnect`. -/
  | delay
  | done (scene : Nat)
  | failed
deriving DecidableEq

namespace Phase

/-- The task of the attempt has not ended. -/
def inProgress : Phase → Bool
  | .done _ | .failed => false
  | _ => true

/-- The attempt works on a login: its last `loginImpl` has not failed. -/
def inFlight : Phase → Bool
  | .connecting | .credentials _ | .login _ => true
  | _ => false

end Phase

structure Attempt where
  phase : Phase
  retry : Nat
  /-- `getAuthenticationScene` assigned the task to `_authTask`. -/
  assigned : Bool
deriving DecidableEq

/-- What a call of `logout` waits for: the task of an attempt, then the disconnection of its
scene. -/
inductive Logout
  | waiting (attempt : Nat)
  | disconnecting (scene : Nat)
deriving DecidableEq

structure UsersApi where
  connectionState : GameConnectionState
  autoReconnect : Bool
  /-- `_authTask`, by the number of the attempt. -/
  authTask : Option Nat
  /-- There are authentication event handlers, or `getCredentialsCallback` is set. -/
  hasHandlers : Bool
  attempts : List Attempt
  /-- The continuations that `getAuthenticationScene` put on the task of an attempt. -/
  waiters : List Nat
  scenes : List SceneState
  /-- The calls of `logout` since the last `login` whose task has not completed. -/
  logouts : List Logout
  /-- The connection state at each completion of a `logout` since the last `login`. -/
  completions : List GameConnectionState
  /-- The calls of `loginImpl` that follow the completion of a `logout`, and no `login`. -/
  relogins : Nat
deriving DecidableEq

namespace UsersApi

def init (hasHandlers : Bool) : UsersApi :=
  ⟨.disconnected, true, none, hasHandlers, [], [], [], [], [], 0⟩

/-! ## Operations -/

/-- The start of `loginImpl`, and the phase in which it leaves the attempt. It sets `Connecting`;
without handlers it switches automatic reconnection off and sets `Disconnected`. -/
def loginImpl (s : UsersApi) : UsersApi × Phase :=
  let s₁ := { s with
    connectionState := .connecting
    relogins := if s.completions = [] then s.relogins else s.relogins + 1 }
  if s.hasHandlers then (s₁, .connecting)
  else
    ({ s₁ with autoReconnect := false, authTask := none, connectionState := .disconnected },
      .failed)

/-- `getAuthenticationScene`. The assignment to `_authTask` that follows `loginImpl` is an action of
its own. -/
def getAuthenticationScene (s : UsersApi) : UsersApi :=
  match s.authTask with
  | some i => { s with waiters := s.waiters ++ [i] }
  | none =>
    if s.autoReconnect then
      let r := s.loginImpl
      { r.1 with attempts := s.attempts ++ [⟨r.2, 0, false⟩] }
    else s

def setReconnecting (s : UsersApi) : UsersApi :=
  if s.connectionState = .reconnecting then s
  else { s with connectionState := .reconnecting }.getAuthenticationScene

def setDisconnected (s : UsersApi) (reason : String) : UsersApi :=
  let s₁ := { s with
    authTask := none
    autoReconnect := s.autoReconnect && decide (reason ∉ finalReasons) }
  if s₁.autoReconnect then s₁.setReconnecting
  else { s₁ with connectionState := .disconnected }

def setConnectionState (s : UsersApi) (state : GameConnectionState) (reason : String) :
    UsersApi :=
  if s.connectionState = state then s
  else
    match state with
    | .disconnected => s.setDisconnected reason
    | .reconnecting => s.setReconnecting
    | _ => { s with connectionState := state }

/-- The handler of the states of the scene. -/
def onSceneState (s : UsersApi) (state : SceneState) (reason : String) : UsersApi :=
  match state with
  | .disconnecting => s.setConnectionState .disconnecting ""
  | .disconnected => s.setConnectionState .disconnected reason
  | .connected => s

def login (s : UsersApi) : UsersApi :=
  -- What an earlier `logout` still does is to disconnect its scene, which reports it.
  { s with autoReconnect := true, logouts := [], completions := [] }.getAuthenticationScene

/-- The task of a `logout` completes. -/
def completeLogout (s : UsersApi) : UsersApi :=
  { s with completions := s.completions ++ [s.connectionState] }

def logout (s : UsersApi) : UsersApi :=
  let s₁ := { s with autoReconnect := false }
  match s.connectionState with
  | .disconnected | .disconnecting => s₁.completeLogout
  | _ =>
    let s₂ := (s₁.setConnectionState .disconnecting "").getAuthenticationScene
    match s.authTask with
    | some i => { s₂ with logouts := s.logouts ++ [.waiting i] }
    -- `getAuthenticationScene` fails, which the last continuation ignores.
    | none => s₂.completeLogout

/-! ## The continuations of an attempt -/

inductive LoginResult
  | success
  | refused
  /-- The request failed. -/
  | error
deriving DecidableEq

inductive Continuation
  | connectEnds (scene : Option Nat)
  | credentialsEnd (ok : Bool)
  | loginEnds (result : LoginResult)
  /-- The last continuation of `loginImpl`, after an error. -/
  | failure
  | delayEnds
deriving DecidableEq

def retryCounterMax : Nat := 100

/-- What a continuation of an attempt does to the `UsersApi` and to the attempt. -/
def continueAttempt (s : UsersApi) (a : Attempt) : Continuation → Option (UsersApi × Attempt)
  | .connectEnds scene =>
    match a.phase, scene with
    | .connecting, some k =>
      if k < s.scenes.length then
        some (s, { a with phase := if s.autoReconnect then .credentials k else .failing })
      else none
    | .connecting, none => some (s, { a with phase := .failing })
    | _, _ => none
  | .credentialsEnd ok =>
    match a.phase with
    | .credentials k =>
      if ok then some (s, { a with phase := .login k })
      else some ({ s with autoReconnect := false }, { a with phase := .failing })
    | _ => none
  | .loginEnds result =>
    match a.phase with
    | .login k =>
      match result with
      | .success => some (s.setConnectionState .authenticated "", { a with phase := .done k })
      | .refused =>
        some ({ s with autoReconnect := false }.setConnectionState .disconnected "",
          { a with phase := .failing })
      | .error => some (s, { a with phase := .failing })
    | _ => none
  | .failure =>
    match a.phase with
    | .failing =>
      if s.autoReconnect ∧ s.connectionState ≠ .disconnected then
        some (s.setConnectionState .reconnecting "",
          { a with phase := .delay, retry := min (a.retry + 1) retryCounterMax })
      else some (s, { a with phase := .failed })
    | _ => none
  | .delayEnds =>
    match a.phase with
    | .delay => some (s.loginImpl.1, { a with phase := s.loginImpl.2 })
    | _ => none

/-! ## Steps -/

inductive Action
  | login
  | logout
  /-- A call of another method that needs the authentication scene. -/
  | use
  | setCredentialsCallback (isSet : Bool)
  /-- The assignment to `_authTask`. -/
  | assign (i : Nat)
  /-- `connectToPublicScene` made a scene, and its initializer subscribed to it. -/
  | makeScene
  | attempt (i : Nat) (c : Continuation)
  | waiter (w : Nat)
  | sceneReports (k : Nat) (state : SceneState) (reason : String)
  /-- The continuation of `logout` that gets the scene. -/
  | logoutScene (j : Nat)
  /-- The task of `Scene::disconnect` ends. -/
  | logoutEnds (j : Nat)
deriving DecidableEq

def step (s : UsersApi) : Action → Option UsersApi
  | .login => some s.login
  | .logout => some s.logout
  | .use => some s.getAuthenticationScene
  | .setCredentialsCallback isSet => some { s with hasHandlers := isSet }
  | .assign i =>
    match s.attempts[i]? with
    | some a =>
      if a.assigned then none
      else
        some { s with
          authTask := some i
          waiters := s.waiters ++ [i]
          attempts := s.attempts.set i { a with assigned := true } }
    | none => none
  | .makeScene =>
    if s.attempts.any fun a => a.phase = .connecting then
      some { s with scenes := s.scenes ++ [.connected] }
    else none
  | .attempt i c =>
    match s.attempts[i]? with
    | some a =>
      (s.continueAttempt a c).map fun r => { r.1 with attempts := r.1.attempts.set i r.2 }
    | none => none
  | .waiter w =>
    match s.waiters[w]?.bind fun i => s.attempts[i]? with
    | some a =>
      if a.phase.inProgress then none
      else
        some { s with
          authTask := if a.phase = .failed then none else s.authTask
          waiters := s.waiters.eraseIdx w }
    | none => none
  | .sceneReports k state reason =>
    if s.scenes[k]?.any fun st => st.mayReport state then
      some ({ s with scenes := s.scenes.set k state }.onSceneState state reason)
    else none
  | .logoutScene j =>
    match s.logouts[j]? with
    | some (.waiting i) =>
      match s.attempts[i]?.map Attempt.phase with
      | some (.done k) => some { s with logouts := s.logouts.set j (.disconnecting k) }
      | some .failed => some { s with logouts := s.logouts.eraseIdx j }.completeLogout
      | _ => none
    | _ => none
  | .logoutEnds j =>
    match s.logouts[j]? with
    | some (.disconnecting _) => some { s with logouts := s.logouts.eraseIdx j }.completeLogout
    | _ => none

/-! ## What the operations do -/

/-- What a continuation of an attempt does, as a relation. -/
inductive Continues (s : UsersApi) (a : Attempt) : Continuation → UsersApi → Attempt → Prop
  | connected {k : Nat} : a.phase = .connecting → s.autoReconnect = true → k < s.scenes.length →
      Continues s a (.connectEnds (some k)) s { a with phase := .credentials k }
  | connectFails {scene : Option Nat} : a.phase = .connecting →
      s.autoReconnect = false ∨ scene = none →
      Continues s a (.connectEnds scene) s { a with phase := .failing }
  | credentials {k : Nat} : a.phase = .credentials k →
      Continues s a (.credentialsEnd true) s { a with phase := .login k }
  | credentialsFail {k : Nat} : a.phase = .credentials k →
      Continues s a (.credentialsEnd false) { s with autoReconnect := false }
        { a with phase := .failing }
  | success {k : Nat} : a.phase = .login k →
      Continues s a (.loginEnds .success) { s with connectionState := .authenticated }
        { a with phase := .done k }
  | refused {k : Nat} : a.phase = .login k →
      Continues s a (.loginEnds .refused)
        ({ s with autoReconnect := false }.setConnectionState .disconnected "")
        { a with phase := .failing }
  | error {k : Nat} : a.phase = .login k →
      Continues s a (.loginEnds .error) s { a with phase := .failing }
  | retries : a.phase = .failing → s.autoReconnect = true →
      Continues s a .failure (s.setConnectionState .reconnecting "")
        { a with phase := .delay, retry := min (a.retry + 1) retryCounterMax }
  | fails : a.phase = .failing →
      s.autoReconnect = false ∨ s.connectionState = .disconnected →
      Continues s a .failure s { a with phase := .failed }
  | delayEnds : a.phase = .delay →
      Continues s a .delayEnds s.loginImpl.1 { a with phase := s.loginImpl.2 }

/-- What a step does, as a relation. -/
inductive Steps (s : UsersApi) : Action → UsersApi → Prop
  | login : Steps s .login s.login
  | logout : Steps s .logout s.logout
  | use : Steps s .use s.getAuthenticationScene
  | setCredentialsCallback {isSet : Bool} :
      Steps s (.setCredentialsCallback isSet) { s with hasHandlers := isSet }
  | assign {i : Nat} {a : Attempt} : s.attempts[i]? = some a →
      Steps s (.assign i) { s with
        authTask := some i
        waiters := s.waiters ++ [i]
        attempts := s.attempts.set i { a with assigned := true } }
  | makeScene : Steps s .makeScene { s with scenes := s.scenes ++ [.connected] }
  | attempt {i : Nat} {a a' : Attempt} {c : Continuation} {s₁ : UsersApi} :
      s.attempts[i]? = some a → Continues s a c s₁ a' →
      Steps s (.attempt i c) { s₁ with attempts := s₁.attempts.set i a' }
  | waiterFails {w : Nat} {a : Attempt} :
      (s.waiters[w]?.bind fun i => s.attempts[i]?) = some a → a.phase = .failed →
      Steps s (.waiter w) { s with authTask := none, waiters := s.waiters.eraseIdx w }
  | waiter {w : Nat} : Steps s (.waiter w) { s with waiters := s.waiters.eraseIdx w }
  | sceneReports {k : Nat} {state : SceneState} {reason : String} :
      s.scenes[k]?.any (fun st => st.mayReport state) = true →
      Steps s (.sceneReports k state reason)
        ({ s with scenes := s.scenes.set k state }.onSceneState state reason)
  | logoutScene {j i k : Nat} : s.logouts[j]? = some (.waiting i) →
      s.attempts[i]?.map Attempt.phase = some (.done k) →
      Steps s (.logoutScene j) { s with logouts := s.logouts.set j (.disconnecting k) }
  | logoutFails {j i : Nat} : s.logouts[j]? = some (.waiting i) →
      s.attempts[i]?.map Attempt.phase = some .failed →
      Steps s (.logoutScene j) ({ s with logouts := s.logouts.eraseIdx j }.completeLogout)
  | logoutEnds {j k : Nat} : s.logouts[j]? = some (.disconnecting k) →
      Steps s (.logoutEnds j) ({ s with logouts := s.logouts.eraseIdx j }.completeLogout)

namespace UsersApiLemmas

variable {s s' : UsersApi} {a a' : Attempt} {c : Continuation}

theorem setConnectionState_of_ne (s : UsersApi) (state : GameConnectionState)
    (hne : state ≠ .disconnected) (hne' : state ≠ .reconnecting) :
    s.setConnectionState state "" = { s with connectionState := state } := by
  unfold setConnectionState
  split
  · next h => rw [← h]
  · split
    · exact absurd rfl hne
    · exact absurd rfl hne'
    · rfl

theorem of_continue (h : s.continueAttempt a c = some (s', a')) : Continues s a c s' a' := by
  unfold continueAttempt at h
  cases c with
  | connectEnds scene =>
    dsimp only at h
    split at h
    · next k hphase =>
      split at h
      · next hk =>
        cases h
        cases hauto : s.autoReconnect with
        | true => exact .connected hphase hauto hk
        | false => exact .connectFails hphase (.inl hauto)
      · cases h
    · next hphase =>
      cases h
      exact .connectFails hphase (.inr rfl)
    · cases h
  | credentialsEnd ok =>
    dsimp only at h
    split at h
    · next k hphase =>
      cases ok with
      | true =>
        cases h
        exact .credentials hphase
      | false =>
        cases h
        exact .credentialsFail hphase
    · cases h
  | loginEnds result =>
    dsimp only at h
    split at h
    · next k hphase =>
      cases result with
      | success =>
        cases h
        rw [setConnectionState_of_ne s .authenticated (by decide) (by decide)]
        exact .success hphase
      | refused =>
        cases h
        exact .refused hphase
      | error =>
        cases h
        exact .error hphase
    · cases h
  | failure =>
    dsimp only at h
    split at h
    · next hphase =>
      split at h
      · next hretry =>
        cases h
        exact .retries hphase hretry.1
      · next hretry =>
        cases h
        refine .fails hphase ?_
        cases hauto : s.autoReconnect with
        | false => exact .inl rfl
        | true => exact .inr (not_not.mp fun hne => hretry ⟨hauto, hne⟩)
    · cases h
  | delayEnds =>
    dsimp only at h
    split at h
    · next hphase =>
      cases h
      exact .delayEnds hphase
    · cases h

theorem of_step {act : Action} (h : s.step act = some s') : Steps s act s' := by
  unfold step at h
  cases act with
  | login => cases h; exact .login
  | logout => cases h; exact .logout
  | use => cases h; exact .use
  | setCredentialsCallback isSet => cases h; exact .setCredentialsCallback
  | assign i =>
    dsimp only at h
    split at h
    · next a ha =>
      split at h
      · cases h
      · cases h
        exact .assign ha
    · cases h
  | makeScene =>
    dsimp only at h
    split at h
    · cases h
      exact .makeScene
    · cases h
  | attempt i c =>
    dsimp only at h
    split at h
    · next a ha =>
      obtain ⟨r, hr, rfl⟩ := Option.map_eq_some_iff.mp h
      exact .attempt ha (of_continue hr)
    · cases h
  | waiter w =>
    dsimp only at h
    split at h
    · next a ha =>
      split at h
      · cases h
      · cases h
        split
        · next hfailed => exact .waiterFails ha hfailed
        · exact .waiter
    · cases h
  | sceneReports k state reason =>
    dsimp only at h
    split at h
    · next hmay =>
      cases h
      exact .sceneReports hmay
    · cases h
  | logoutScene j =>
    dsimp only at h
    split at h
    · next i hj =>
      split at h
      · next k hphase =>
        cases h
        exact .logoutScene hj hphase
      · next hphase =>
        cases h
        exact .logoutFails hj hphase
      · cases h
    · cases h
  | logoutEnds j =>
    dsimp only at h
    split at h
    · next k hj =>
      cases h
      exact .logoutEnds hj
    · cases h

theorem inProgress_of_continues (h : Continues s a c s' a') : a.phase.inProgress = true := by
  cases h with
  | connected hphase | connectFails hphase | credentials hphase | credentialsFail hphase
  | success hphase | refused hphase | error hphase | retries hphase | fails hphase
  | delayEnds hphase => rw [hphase]; rfl

theorem assigned_of_continues (h : Continues s a c s' a') : a'.assigned = a.assigned := by
  cases h <;> rfl

/-! ### With automatic reconnection off -/

theorem getAuthenticationScene_off (hoff : s.autoReconnect = false) :
    ∃ waiters, s.getAuthenticationScene = { s with waiters := waiters } := by
  unfold getAuthenticationScene
  split
  · exact ⟨_, rfl⟩
  · split
    · next hon => cases hoff.symm.trans hon
    · exact ⟨s.waiters, rfl⟩

theorem setDisconnected_off (hoff : s.autoReconnect = false) (reason : String) :
    s.setDisconnected reason =
      { s with authTask := none, connectionState := .disconnected } := by
  unfold setDisconnected
  rw [hoff]
  rfl

theorem setConnectionState_disconnected_off (hoff : s.autoReconnect = false)
    (reason : String) : ∃ authTask, s.setConnectionState .disconnected reason =
      { s with authTask := authTask, connectionState := .disconnected } := by
  unfold setConnectionState
  split
  · next h =>
    refine ⟨s.authTask, ?_⟩
    rw [← h]
  · exact ⟨none, setDisconnected_off hoff reason⟩

theorem logout_cases (s : UsersApi) :
    ((s.connectionState = .disconnected ∨ s.connectionState = .disconnecting) ∧
      s.logout = { s with
        autoReconnect := false
        completions := s.completions ++ [s.connectionState] }) ∨
    (s.connectionState ≠ .disconnected ∧ s.connectionState ≠ .disconnecting ∧
      ∃ waiters, (∃ i, s.authTask = some i ∧ s.logout = { s with
          autoReconnect := false
          connectionState := .disconnecting
          waiters := waiters
          logouts := s.logouts ++ [.waiting i] }) ∨
        s.authTask = none ∧ s.logout = { s with
          autoReconnect := false
          connectionState := .disconnecting
          waiters := waiters
          completions := s.completions ++ [.disconnecting] }) := by
  unfold logout
  split
  · next h => exact .inl ⟨.inl h, rfl⟩
  · next h => exact .inl ⟨.inr h, rfl⟩
  · next hne hne' =>
    have hset := setConnectionState_of_ne { s with autoReconnect := false } .disconnecting
      (by decide) (by decide)
    obtain ⟨waiters, hwaiters⟩ := getAuthenticationScene_off
      (s := { s with autoReconnect := false, connectionState := .disconnecting }) rfl
    refine .inr ⟨hne, hne', waiters, ?_⟩
    dsimp only
    rw [hset, hwaiters]
    split
    · next i htask => exact .inl ⟨i, htask, rfl⟩
    · next htask => exact .inr ⟨htask, rfl⟩

end UsersApiLemmas

end UsersApi

end Stormancer.Users
