import Mathlib.Data.List.Chain
import Stormancer.Users.UsersApi

/-!
# The events of the connection state

`setConnectionState` assigns the state and publishes it, unless the state is the same. The handler
of the states of the authentication scene calls it for `Disconnecting` and `Disconnected`, and for
`Connecting` publishes the event without it.

The operations here are those of `UsersApi` with the events that they publish. The observers of an
event may call the `UsersApi`, which then publishes events of its own. What they do is a function,
and `observersAt` has those that make any calls, nested up to a depth.

Results:
1. `step_silent`, `run_silent`: with observers that do nothing, what happens to the `UsersApi` is
   what happens without events.
2. `keeps_step`: a step other than a report of `Connecting` keeps the last event equal to the state.
3. `events_agree_iff`: each event has the current state and differs from the event before it,
   exactly in the runs in which no scene reports `Connecting`.
-/

namespace Stormancer.Users

/-! ## Data -/

/-- An event, with what `connectionState()` returns when it is published. -/
structure Publication where
  event : GameConnectionState
  connectionState : GameConnectionState
deriving DecidableEq

structure ObservedApi where
  api : UsersApi
  published : List Publication
  /-- The scenes that have reported `Connecting`. -/
  connecting : List Nat
deriving DecidableEq

/-- A call of a method of the `UsersApi`. -/
inductive Call
  | login
  | logout
  | use
  | setCredentialsCallback (isSet : Bool)
deriving DecidableEq

namespace ObservedApi

def init (hasHandlers : Bool) : ObservedApi := ⟨.init hasHandlers, [], []⟩

/-! ## Operations -/

section Operations

variable (observers : ObservedApi → ObservedApi)

/-- `connectionStateChanged(event)`. -/
def publish (s : ObservedApi) (event : GameConnectionState) : ObservedApi :=
  observers { s with published := s.published ++ [⟨event, s.api.connectionState⟩] }

/-- The state is assigned and published. -/
def change (s : ObservedApi) (state : GameConnectionState) : ObservedApi :=
  { s with api.connectionState := state }.publish observers state

def loginImpl (s : ObservedApi) : ObservedApi × Phase :=
  let s₁ := { s with
    api.relogins := if s.api.completions = [] then s.api.relogins else s.api.relogins + 1 }
  let s₂ := if s.api.connectionState = .connecting then s₁ else s₁.change observers .connecting
  if s₂.api.hasHandlers then (s₂, .connecting)
  else
    let s₃ := { s₂ with api.autoReconnect := false }
    -- The observers may have called `logout`.
    if s₂.api.connectionState = .disconnected then (s₃, .failed)
    else ({ s₃ with api.authTask := none }.change observers .disconnected, .failed)

def getAuthenticationScene (s : ObservedApi) : ObservedApi :=
  match s.api.authTask with
  | some i => { s with api.waiters := s.api.waiters ++ [i] }
  | none =>
    if s.api.autoReconnect then
      let r := s.loginImpl observers
      { r.1 with api.attempts := r.1.api.attempts ++ [⟨r.2, 0, false⟩] }
    else s

def setReconnecting (s : ObservedApi) : ObservedApi :=
  if s.api.connectionState = .reconnecting then s
  else (s.change observers .reconnecting).getAuthenticationScene observers

def setDisconnected (s : ObservedApi) (reason : String) : ObservedApi :=
  let s₁ := { s with
    api.authTask := none
    api.autoReconnect := s.api.autoReconnect && decide (reason ∉ finalReasons) }
  if s₁.api.autoReconnect then s₁.setReconnecting observers
  else s₁.change observers .disconnected

def setConnectionState (s : ObservedApi) (state : GameConnectionState) (reason : String) :
    ObservedApi :=
  if s.api.connectionState = state then s
  else
    match state with
    | .disconnected => s.setDisconnected observers reason
    | .reconnecting => s.setReconnecting observers
    | _ => s.change observers state

def onSceneState (s : ObservedApi) (state : SceneState) (reason : String) : ObservedApi :=
  match state with
  | .disconnecting => s.setConnectionState observers .disconnecting ""
  | .disconnected => s.setConnectionState observers .disconnected reason
  | .connected => s

def login (s : ObservedApi) : ObservedApi :=
  { s with
    api.autoReconnect := true
    api.logouts := []
    api.completions := [] }.getAuthenticationScene observers

def logout (s : ObservedApi) : ObservedApi :=
  let s₁ := { s with api.autoReconnect := false }
  match s.api.connectionState with
  | .disconnected | .disconnecting => { s₁ with api := s₁.api.completeLogout }
  | _ =>
    let s₂ := s₁.setConnectionState observers .disconnecting ""
    let s₃ := s₂.getAuthenticationScene observers
    match s₂.api.authTask with
    | some i => { s₃ with api.logouts := s₃.api.logouts ++ [.waiting i] }
    | none =>
      -- The observers may have called `login`.
      if s₂.api.autoReconnect then
        { s₃ with api.logouts := s₃.api.logouts ++ [.waiting (s₃.api.attempts.length - 1)] }
      else { s₃ with api := s₃.api.completeLogout }

def call (s : ObservedApi) : Call → ObservedApi
  | .login => s.login observers
  | .logout => s.logout observers
  | .use => s.getAuthenticationScene observers
  | .setCredentialsCallback isSet => { s with api.hasHandlers := isSet }

def continueAttempt (s : ObservedApi) (a : Attempt) (c : UsersApi.Continuation) :
    Option (ObservedApi × Attempt) :=
  match c, a.phase with
  | .loginEnds .success, .login k =>
    some (s.setConnectionState observers .authenticated "", { a with phase := .done k })
  | .loginEnds .refused, .login _ =>
    some ({ s with api.autoReconnect := false }.setConnectionState observers .disconnected "",
      { a with phase := .failing })
  | .failure, .failing =>
    if s.api.autoReconnect ∧ s.api.connectionState ≠ .disconnected then
      some (s.setConnectionState observers .reconnecting "",
        { a with phase := .delay, retry := min (a.retry + 1) UsersApi.retryCounterMax })
    else some (s, { a with phase := .failed })
  | .delayEnds, .delay =>
    some ((s.loginImpl observers).1, { a with phase := (s.loginImpl observers).2 })
  -- The others publish nothing.
  | c, _ => (s.api.continueAttempt a c).map fun r => ({ s with api := r.1 }, r.2)

end Operations

/-! ## Observers -/

/-- Observers that make the given calls when an event is published. The events of these calls are
observed up to a depth. -/
def observersAt (calls : List Publication → List Call) : Nat → ObservedApi → ObservedApi
  | 0, s => s
  | n + 1, s => (calls s.published).foldl (fun s c => s.call (observersAt calls n) c) s

/-! ## Steps -/

inductive Action
  | api (a : UsersApi.Action)
  /-- An authentication scene reports `Connecting`, which it does before its other states. -/
  | sceneConnecting (k : Nat)
deriving DecidableEq

def step (observers : ObservedApi → ObservedApi) (s : ObservedApi) : Action → Option ObservedApi
  | .api .login => some (s.call observers .login)
  | .api .logout => some (s.call observers .logout)
  | .api .use => some (s.call observers .use)
  | .api (.attempt i c) =>
    match s.api.attempts[i]? with
    | some a =>
      (s.continueAttempt observers a c).map fun r =>
        { r.1 with api.attempts := r.1.api.attempts.set i r.2 }
    | none => none
  | .api (.sceneReports k state reason) =>
    if s.api.scenes[k]?.any fun st => st.mayReport state then
      some ({ s with api.scenes := s.api.scenes.set k state }.onSceneState observers state reason)
    else none
  -- The others publish nothing.
  | .api a => (s.api.step a).map fun api => { s with api := api }
  | .sceneConnecting k =>
    if s.api.scenes[k]? = some .connected ∧ k ∉ s.connecting then
      some ({ s with connecting := k :: s.connecting }.publish observers .connecting)
    else none

/-! ## The property -/

/-- Each event has the state of that time and differs from the event before it. -/
structure Agrees (published : List Publication) : Prop where
  current : ∀ p ∈ published, p.event = p.connectionState
  changes : (published.map Publication.event).IsChain (· ≠ ·)

/-! ## The invariant -/

/-- The last event, or the state in which nothing has been published. -/
def lastEvent (published : List Publication) : GameConnectionState :=
  (published.map Publication.event).getLast?.getD .disconnected

structure Inv (s : ObservedApi) : Prop where
  agrees : Agrees s.published
  last : lastEvent s.published = s.api.connectionState

/-- What an operation does to the events, and that it keeps the invariant. -/
structure Keeps (s s' : ObservedApi) : Prop where
  inv : s.Inv → s'.Inv
  published : s.published <+: s'.published

theorem Agrees.earlier {published published' : List Publication} (h : Agrees published')
    (hgrows : published <+: published') : Agrees published where
  current := fun p hp => h.current p (hgrows.subset hp)
  changes := h.changes.prefix (hgrows.map _)

namespace Keeps

variable {s s' : ObservedApi}

theorem refl (s : ObservedApi) : Keeps s s := ⟨id, List.prefix_rfl⟩

theorem trans {s₁ s₂ s₃ : ObservedApi} (h : Keeps s₁ s₂) (h' : Keeps s₂ s₃) : Keeps s₁ s₃ :=
  ⟨fun hinv => h'.inv (h.inv hinv), h.published.trans h'.published⟩

/-- An operation that leaves the state and the events alone. -/
theorem of_same (hstate : s'.api.connectionState = s.api.connectionState)
    (hpublished : s'.published = s.published) : Keeps s s' := by
  refine ⟨fun hinv => ⟨?_, ?_⟩, hpublished ▸ List.prefix_rfl⟩
  · rw [hpublished]
    exact hinv.agrees
  · rw [hpublished, hstate]
    exact hinv.last

/-- What keeps a state keeps it after a change of other fields. -/
theorem after {s₁ : ObservedApi} (h : Keeps s₁ s')
    (hstate : s₁.api.connectionState = s.api.connectionState)
    (hpublished : s₁.published = s.published) : Keeps s s' :=
  (Keeps.of_same hstate hpublished).trans h

end Keeps

namespace PublicationsLemmas

open UsersApi.UsersApiLemmas

variable {s s' : ObservedApi} {observers : ObservedApi → ObservedApi}

theorem agrees_append (h : Agrees s.published) {p : Publication}
    (hcurrent : p.event = p.connectionState)
    (hlast : lastEvent s.published ≠ p.event) :
    Agrees (s.published ++ [p]) where
  current := by
    intro q hq
    rcases List.mem_append.mp hq with hq | hq
    · exact h.current q hq
    · obtain rfl := List.mem_singleton.mp hq
      exact hcurrent
  changes := by
    rw [List.map_append, List.isChain_append]
    refine ⟨h.changes, List.isChain_singleton _, fun x hx y hy => ?_⟩
    obtain rfl : p.event = y := by simpa using hy
    unfold lastEvent at hlast
    rw [Option.mem_def.mp hx] at hlast
    exact hlast

theorem lastEvent_append (published : List Publication) (p : Publication) :
    lastEvent (published ++ [p]) = p.event := by
  simp [lastEvent]

/-! ### The operations -/

section Operations

variable (hobservers : ∀ s, Keeps s (observers s))

include hobservers

theorem keeps_change {state : GameConnectionState} (hne : s.api.connectionState ≠ state) :
    Keeps s (s.change observers state) := by
  refine Keeps.trans ⟨fun hinv => ?_, List.prefix_append _ _⟩ (hobservers _)
  refine ⟨agrees_append hinv.agrees rfl ?_, lastEvent_append _ _⟩
  rw [hinv.last]
  exact hne

theorem keeps_loginImpl (s : ObservedApi) : Keeps s (s.loginImpl observers).1 := by
  have hconnecting : ∀ relogins : Nat,
      Keeps s (if s.api.connectionState = .connecting then { s with api.relogins := relogins }
        else { s with api.relogins := relogins }.change observers .connecting) := by
    intro relogins
    split
    · exact .of_same rfl rfl
    · next hne =>
      refine Keeps.after (keeps_change hobservers ?_) rfl rfl
      exact hne
  unfold loginImpl
  dsimp only
  generalize hs₂ : ite (s.api.connectionState = .connecting) _ _ = s₂
  have hkeeps : Keeps s s₂ := hs₂ ▸ hconnecting _
  split
  · exact hkeeps
  · split
    · exact hkeeps.trans (.of_same rfl rfl)
    · next hne =>
      refine hkeeps.trans (Keeps.after (keeps_change hobservers ?_) rfl rfl)
      exact hne

theorem keeps_getAuthenticationScene (s : ObservedApi) :
    Keeps s (s.getAuthenticationScene observers) := by
  unfold getAuthenticationScene
  split
  · exact .of_same rfl rfl
  · split
    · exact (keeps_loginImpl hobservers s).trans (.of_same rfl rfl)
    · exact .refl s

theorem keeps_setReconnecting (s : ObservedApi) : Keeps s (s.setReconnecting observers) := by
  unfold setReconnecting
  split
  · exact .refl s
  · next hne =>
    exact (keeps_change hobservers hne).trans (keeps_getAuthenticationScene hobservers _)

theorem keeps_setDisconnected (hne : s.api.connectionState ≠ .disconnected) (reason : String) :
    Keeps s (s.setDisconnected observers reason) := by
  unfold setDisconnected
  dsimp only
  split
  · exact (keeps_setReconnecting hobservers _).after rfl rfl
  · refine Keeps.after (keeps_change hobservers ?_) rfl rfl
    exact hne

theorem keeps_setConnectionState (s : ObservedApi) (state : GameConnectionState)
    (reason : String) : Keeps s (s.setConnectionState observers state reason) := by
  unfold setConnectionState
  split
  · exact .refl s
  · next hne =>
    split
    · exact keeps_setDisconnected hobservers hne reason
    · exact keeps_setReconnecting hobservers s
    · exact keeps_change hobservers hne

theorem keeps_onSceneState (s : ObservedApi) (state : SceneState) (reason : String) :
    Keeps s (s.onSceneState observers state reason) := by
  cases state with
  | disconnecting => exact keeps_setConnectionState hobservers s .disconnecting ""
  | disconnected => exact keeps_setConnectionState hobservers s .disconnected reason
  | connected => exact .refl s

theorem keeps_logout (s : ObservedApi) : Keeps s (s.logout observers) := by
  have hleaves : Keeps s (({ s with api.autoReconnect := false }.setConnectionState observers
      .disconnecting "").getAuthenticationScene observers) := by
    have hset := keeps_setConnectionState hobservers { s with api.autoReconnect := false }
      .disconnecting ""
    exact Keeps.trans (hset.after rfl rfl) (keeps_getAuthenticationScene hobservers _)
  unfold logout
  split
  · exact .of_same rfl rfl
  · exact .of_same rfl rfl
  · dsimp only
    split
    · exact hleaves.trans (.of_same rfl rfl)
    · split
      · exact hleaves.trans (.of_same rfl rfl)
      · exact hleaves.trans (.of_same rfl rfl)

theorem keeps_call (s : ObservedApi) (c : Call) : Keeps s (s.call observers c) := by
  cases c with
  | login => exact (keeps_getAuthenticationScene hobservers _).after rfl rfl
  | logout => exact keeps_logout hobservers s
  | use => exact keeps_getAuthenticationScene hobservers s
  | setCredentialsCallback isSet => exact .of_same rfl rfl

theorem keeps_continueAttempt {a a' : Attempt} {c : UsersApi.Continuation}
    (h : s.continueAttempt observers a c = some (s', a')) : Keeps s s' := by
  unfold continueAttempt at h
  split at h
  · cases h
    exact keeps_setConnectionState hobservers s .authenticated ""
  · cases h
    have hset := keeps_setConnectionState hobservers { s with api.autoReconnect := false }
      .disconnected ""
    exact hset.after rfl rfl
  · split at h
    · cases h
      exact keeps_setConnectionState hobservers s .reconnecting ""
    · cases h
      exact .refl s
  · cases h
    exact keeps_loginImpl hobservers s
  · next hsuccess hrefused hfailure hdelay =>
    obtain ⟨⟨api, a₁⟩, hr, heq⟩ := Option.map_eq_some_iff.mp h
    cases heq
    refine .of_same ?_ rfl
    cases of_continue hr with
    | connected | connectFails | credentials | credentialsFail | error | fails => rfl
    | success hphase => exact absurd hphase (hsuccess _ rfl)
    | refused hphase => exact absurd hphase (hrefused _ rfl)
    | retries hphase => exact absurd hphase (hfailure rfl)
    | delayEnds hphase => exact absurd hphase (hdelay rfl)

theorem keeps_step {a : UsersApi.Action} (h : s.step observers (.api a) = some s') :
    Keeps s s' := by
  unfold step at h
  cases a with
  | login =>
    cases h
    exact keeps_call hobservers s .login
  | logout =>
    cases h
    exact keeps_call hobservers s .logout
  | use =>
    cases h
    exact keeps_call hobservers s .use
  | attempt i c =>
    dsimp only at h
    split at h
    · obtain ⟨r, hr, rfl⟩ := Option.map_eq_some_iff.mp h
      exact (keeps_continueAttempt hobservers hr).trans (.of_same rfl rfl)
    · cases h
  | sceneReports k state reason =>
    dsimp only at h
    split at h
    · cases h
      have hreport := keeps_onSceneState hobservers
        { s with api.scenes := s.api.scenes.set k state } state reason
      exact hreport.after rfl rfl
    · cases h
  | setCredentialsCallback | assign | makeScene | waiter | logoutScene | logoutEnds =>
    obtain ⟨api, hapi, rfl⟩ := Option.map_eq_some_iff.mp h
    cases of_step hapi <;> exact .of_same rfl rfl

end Operations

theorem keeps_observersAt (calls : List Publication → List Call) (n : Nat) (s : ObservedApi) :
    Keeps s (observersAt calls n s) := by
  induction n generalizing s with
  | zero => exact .refl s
  | succ n ih =>
    unfold observersAt
    generalize calls s.published = cs
    induction cs generalizing s with
    | nil => exact .refl s
    | cons c cs ihcs => exact (keeps_call ih s c).trans (ihcs _)

/-! ### Reports of `Connecting` -/

/-- The event of a report differs from the state, or repeats the event before it. -/
theorem not_agrees_connecting (hs : s.Inv) :
    ¬ Agrees (s.published ++ [⟨.connecting, s.api.connectionState⟩]) := by
  intro hagrees
  have hstate : GameConnectionState.connecting = s.api.connectionState :=
    hagrees.current _ (List.mem_append_right _ (List.mem_singleton_self _))
  have hlast := hs.last
  unfold lastEvent at hlast
  rw [← hstate] at hlast
  have hchanges := hagrees.changes
  rw [List.map_append, List.isChain_append] at hchanges
  cases hevent : (s.published.map Publication.event).getLast? with
  | none =>
    rw [hevent] at hlast
    cases hlast
  | some event =>
    rw [hevent] at hlast
    exact hchanges.2.2 event hevent .connecting rfl hlast

theorem published_sceneConnecting (hobservers : ∀ s, Keeps s (observers s)) {k : Nat}
    (h : s.step observers (.sceneConnecting k) = some s') :
    s.published ++ [⟨.connecting, s.api.connectionState⟩] <+: s'.published := by
  unfold step at h
  dsimp only at h
  split at h
  · cases h
    have hkeeps := hobservers { s with
      connecting := k :: s.connecting
      published := s.published ++ [⟨.connecting, s.api.connectionState⟩] }
    exact hkeeps.published
  · cases h

/-- A run with a report of `Connecting` has events that do not agree, from then on. -/
theorem of_run (hobservers : ∀ s, Keeps s (observers s)) {hasHandlers : Bool} {as : List Action}
    (h : Lts.Run (step observers) Lts.anyStep (init hasHandlers) as s) :
    ((∀ k, .sceneConnecting k ∉ as) → s.Inv) ∧
      ((∃ k, .sceneConnecting k ∈ as) → ¬ Agrees s.published) := by
  induction h with
  | nil => exact ⟨fun _ => ⟨⟨nofun, .nil⟩, rfl⟩, nofun⟩
  | @snoc as a s s' _ _ hstep ih =>
    obtain ⟨hinv, hbad⟩ := ih
    cases a with
    | api a =>
      have hkeeps := keeps_step hobservers hstep
      constructor
      · intro hnone
        exact hkeeps.inv (hinv fun k hk => hnone k (List.mem_append_left _ hk))
      · rintro ⟨k, hk⟩ hagrees
        have hmem : .sceneConnecting k ∈ as := by simpa using hk
        exact hbad ⟨k, hmem⟩ (hagrees.earlier hkeeps.published)
    | sceneConnecting k =>
      have hgrows := published_sceneConnecting hobservers hstep
      constructor
      · intro hnone
        exact absurd (List.mem_append_right _ (List.mem_singleton_self _)) (hnone k)
      · rintro - hagrees
        by_cases hbefore : ∃ k, .sceneConnecting k ∈ as
        · exact hbad hbefore (hagrees.earlier ((List.prefix_append _ _).trans hgrows))
        · have hs := hinv fun k hk => hbefore ⟨k, hk⟩
          exact not_agrees_connecting hs (hagrees.earlier hgrows)

/-! ### Without observers -/

theorem silent_loginImpl (s : ObservedApi) :
    (s.loginImpl id).1.api = s.api.loginImpl.1 ∧ (s.loginImpl id).2 = s.api.loginImpl.2 := by
  unfold loginImpl UsersApi.loginImpl
  dsimp only
  generalize hs₂ : ite (s.api.connectionState = .connecting) _ _ = s₂
  have hapi : s₂.api = { s.api with
      connectionState := .connecting
      relogins := if s.api.completions = [] then s.api.relogins else s.api.relogins + 1 } := by
    rw [← hs₂]
    split
    · next h => rw [← h]
    · rfl
  rw [hapi]
  dsimp only
  split
  · exact ⟨hapi, rfl⟩
  · rw [if_neg (by decide)]
    exact ⟨rfl, rfl⟩

theorem silent_getAuthenticationScene (s : ObservedApi) :
    (s.getAuthenticationScene id).api = s.api.getAuthenticationScene := by
  obtain ⟨hapi, hphase⟩ := silent_loginImpl s
  have hattempts : s.api.loginImpl.1.attempts = s.api.attempts := by
    unfold UsersApi.loginImpl
    dsimp only
    split <;> rfl
  unfold getAuthenticationScene UsersApi.getAuthenticationScene
  dsimp only
  cases s.api.authTask with
  | some i => rfl
  | none =>
    dsimp only
    split
    · dsimp only
      rw [hapi, hphase, hattempts]
    · rfl

theorem silent_setReconnecting (s : ObservedApi) :
    (s.setReconnecting id).api = s.api.setReconnecting := by
  unfold setReconnecting UsersApi.setReconnecting
  split
  · rfl
  · exact silent_getAuthenticationScene _

theorem silent_setConnectionState (s : ObservedApi) (state : GameConnectionState)
    (reason : String) :
    (s.setConnectionState id state reason).api = s.api.setConnectionState state reason := by
  have hdisconnected : (s.setDisconnected id reason).api = s.api.setDisconnected reason := by
    unfold setDisconnected UsersApi.setDisconnected
    dsimp only
    split
    · exact silent_setReconnecting _
    · rfl
  unfold setConnectionState UsersApi.setConnectionState
  split
  · rfl
  · cases state with
    | disconnected => exact hdisconnected
    | reconnecting => exact silent_setReconnecting s
    | connecting | authenticated | disconnecting | authenticating => rfl

theorem silent_onSceneState (s : ObservedApi) (state : SceneState) (reason : String) :
    (s.onSceneState id state reason).api = s.api.onSceneState state reason := by
  cases state with
  | disconnecting => exact silent_setConnectionState s .disconnecting ""
  | disconnected => exact silent_setConnectionState s .disconnected reason
  | connected => rfl

theorem silent_logout (s : ObservedApi) : (s.logout id).api = s.api.logout := by
  have hset := silent_setConnectionState { s with api.autoReconnect := false } .disconnecting ""
  have hleaves := setConnectionState_of_ne { s.api with autoReconnect := false } .disconnecting
    (by decide) (by decide)
  obtain ⟨waiters, hwaiters⟩ := getAuthenticationScene_off
    (s := { s.api with autoReconnect := false, connectionState := .disconnecting }) rfl
  unfold logout UsersApi.logout
  dsimp only at hset ⊢
  generalize setConnectionState id _ .disconnecting "" = s₂ at hset ⊢
  have hscene := silent_getAuthenticationScene s₂
  generalize s₂.getAuthenticationScene id = s₃ at hscene ⊢
  rw [hset, hleaves, hwaiters] at hscene
  rw [hleaves] at hset ⊢
  rw [hwaiters, hset]
  dsimp only
  cases s.api.connectionState with
  | disconnected | disconnecting => rfl
  | connecting | authenticated | authenticating | reconnecting =>
    cases htask : s.api.authTask with
    | some i =>
      dsimp only
      rw [hscene, htask]
    | none =>
      rw [htask] at hscene
      exact congrArg UsersApi.completeLogout hscene

theorem silent_continueAttempt (s : ObservedApi) (a : Attempt) (c : UsersApi.Continuation) :
    (s.continueAttempt id a c).map (fun r => (r.1.api, r.2)) = s.api.continueAttempt a c := by
  unfold continueAttempt
  split
  · next k hphase =>
    unfold UsersApi.continueAttempt
    dsimp only
    rw [hphase]
    exact congrArg (fun api => some (api, _)) (silent_setConnectionState s .authenticated "")
  · next k hphase =>
    unfold UsersApi.continueAttempt
    dsimp only
    rw [hphase]
    exact congrArg (fun api => some (api, _))
      (silent_setConnectionState { s with api.autoReconnect := false } .disconnected "")
  · next hphase =>
    unfold UsersApi.continueAttempt
    dsimp only
    rw [hphase]
    dsimp only
    split
    · exact congrArg (fun api => some (api, _)) (silent_setConnectionState s .reconnecting "")
    · rfl
  · next hphase =>
    obtain ⟨hapi, hnext⟩ := silent_loginImpl s
    unfold UsersApi.continueAttempt
    dsimp only
    rw [hphase, Option.map_some, hapi, hnext]
  · rw [Option.map_map]
    exact congrFun Option.map_id _

end PublicationsLemmas

open PublicationsLemmas

/-! ## Results -/

/-- With observers that do nothing, an action does to the `UsersApi` what it does without events. -/
theorem step_silent (s : ObservedApi) (a : UsersApi.Action) :
    (s.step id (.api a)).map ObservedApi.api = s.api.step a := by
  unfold step
  cases a with
  | login => exact congrArg some (silent_getAuthenticationScene _)
  | logout => exact congrArg some (silent_logout s)
  | use => exact congrArg some (silent_getAuthenticationScene s)
  | attempt i c =>
    dsimp only
    unfold UsersApi.step
    dsimp only
    cases s.api.attempts[i]? with
    | none => rfl
    | some a =>
      dsimp only
      rw [← silent_continueAttempt, Option.map_map, Option.map_map]
      rfl
  | sceneReports k state reason =>
    dsimp only
    unfold UsersApi.step
    dsimp only
    split
    · exact congrArg some (silent_onSceneState _ state reason)
    · rfl
  | setCredentialsCallback | assign | makeScene | waiter | logoutScene | logoutEnds =>
    dsimp only
    rw [Option.map_map]
    exact congrFun Option.map_id _

/-- The action of the `UsersApi`. -/
def Action.api? : Action → Option UsersApi.Action
  | .api a => some a
  | .sceneConnecting _ => none

/-- A run with observers that do nothing is a run of the `UsersApi`. -/
theorem run_silent {hasHandlers : Bool} {as : List Action} {s : ObservedApi}
    (h : Lts.Run (step id) Lts.anyStep (init hasHandlers) as s) :
    Lts.Run UsersApi.step Lts.anyStep (.init hasHandlers) (as.filterMap Action.api?) s.api := by
  induction h with
  | nil => exact .nil
  | @snoc as a s s' _ _ hstep ih =>
    rw [List.filterMap_append]
    cases a with
    | api a =>
      have hsilent := step_silent s a
      rw [hstep] at hsilent
      exact .snoc ih trivial hsilent.symm
    | sceneConnecting k =>
      unfold step at hstep
      dsimp only at hstep
      split at hstep
      · cases hstep
        rw [List.filterMap_cons_none rfl, List.filterMap_nil, List.append_nil]
        exact ih
      · cases hstep

/-- For every run, with or without handlers, and all observers. -/
theorem events_agree_iff {calls : List Publication → List Call} {n : Nat} {hasHandlers : Bool}
    {as : List Action} {s : ObservedApi}
    (h : Lts.Run (step (observersAt calls n)) Lts.anyStep (init hasHandlers) as s) :
    Agrees s.published ↔ ∀ k, .sceneConnecting k ∉ as := by
  obtain ⟨hinv, hbad⟩ := of_run (keeps_observersAt calls n) h
  constructor
  · intro hagrees k hk
    exact hbad ⟨k, hk⟩ hagrees
  · exact fun hnone => (hinv hnone).agrees

/-- No scene can be reached, and an observer logs out as soon as the login is tried again. -/
theorem events_agree_iff_run : ∃ s : ObservedApi, Agrees s.published ∧
    s.published.map Publication.event = [.connecting, .reconnecting, .disconnecting] := by
  have hrun : Lts.Run (step (observersAt
      (fun published =>
        if published.getLast? = some ⟨.reconnecting, .reconnecting⟩ then [.logout] else []) 2))
      Lts.anyStep (init true) [.api .login, .api (.assign 0),
        .api (.attempt 0 (.connectEnds none)), .api (.attempt 0 .failure)] _ := Lts.Run.of_exec rfl
  exact ⟨_, (events_agree_iff hrun).mpr (by simp), rfl⟩

/-- The authentication scene reports that it connects. -/
theorem connecting_published_twice : ¬ ∀ (calls : List Publication → List Call) (n : Nat)
    (hasHandlers : Bool) (s : ObservedApi),
    Lts.Reachable (step (observersAt calls n)) Lts.anyStep (init hasHandlers) s →
      Agrees s.published := by
  intro hclaim
  obtain ⟨s, hs, hp⟩ := Lts.Reachable.of_exec (step (observersAt (fun _ => []) 1)) Lts.anyStep
    (init true) [.api .login, .api .makeScene, .sceneConnecting 0]
    (fun s => decide (s.published.map Publication.event = [.connecting, .connecting])) (by decide)
  have hagrees := hclaim _ 1 true s hs
  have hchanges := hagrees.changes
  rw [of_decide_eq_true hp] at hchanges
  exact absurd hchanges (by decide)

end ObservedApi

end Stormancer.Users
