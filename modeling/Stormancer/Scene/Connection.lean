import Stormancer.Lib.Heap
import Stormancer.Scene.Routes

/-!
# The connection state of a scene

What sets the state of a `Scene_Impl`: `connect`, `disconnect`, the disconnections that the
client makes itself or for the server, and the changes of the connection to the host.
`setConnectionState` posts a job on the dispatcher, which runs its jobs in order, each from
start to end. A continuation that follows a job or a request is an action of its own, since
anything can come before it. With the dispatcher that runs jobs at once, a job runs right after
it was posted.

The client is alive. The requests are left to the environment: they succeed or fail. The peers of
a scene that is disconnected are disconnected before it; with no peers the first continuation of
`disconnect` has the token of the call, and is cancelled with it. What becomes of the peers, what the
continuations do with routes and scene tables, and the reasons are left out.

Results:
1. `transition_of_step`: what each step does, as a relation.
2. `setConnectionStateInternal_cases`: what a job does to the state.
3. `base_reachable`: whatever happens, a scene starts with jobs that set `Connecting`, and is
   never set to `Connecting` again.
-/

namespace Stormancer.Scene

/-! ## Data -/

/-- A job that runs `setConnectionStateInternal`, and the task that continues after it. -/
inductive Job
  /-- From `Client::connectToScene`: the first job and the last job of an attempt. -/
  | connecting (attempt : Nat)
  | connected (attempt : Nat)
  /-- From `Client::disconnect`. -/
  | disconnecting (flow : Nat)
  | disconnected (flow : Nat)
  /-- From the subscription to the state of the host connection; `last` says that the host
  connection is lost, and that `Disconnected` comes next. -/
  | hostDisconnecting (last : Bool)
  | hostDisconnected
deriving DecidableEq

def Job.state : Job → ConnectionState
  | .connecting _ => .connecting
  | .connected _ => .connected
  | .disconnecting _ | .hostDisconnecting _ => .disconnecting
  | .disconnected _ | .hostDisconnected => .disconnected

/-- How far a `Client::connectToScene` is. -/
inductive ConnectAttempt
  | posted
  | requesting
  | finishing
  | succeeded
  | failed
deriving DecidableEq

def ConnectAttempt.ended (a : ConnectAttempt) : Bool := a = .succeeded ∨ a = .failed

/-- How far a `Client::disconnect` is. -/
inductive DisconnectFlow
  | posted
  | requesting
  | finishing
  | done
deriving DecidableEq

/-- `_connectTask`. -/
inductive ConnectTask
  | none
  | attempt (n : Nat)
  | failed
deriving DecidableEq

/-- `_disconnectTask`, by what it waits for. -/
inductive DisconnectTask
  | notRequested
  /-- `disconnectAllPeers`, with peers or without. -/
  | peers (connected : Bool)
  | attempt (n : Nat)
  | flow (n : Nat)
  | itself
  | done
deriving DecidableEq

structure SceneImpl where
  connectionState : ConnectionState
  /-- `_connectionStateObservableCompleted`. -/
  completed : Bool
  /-- The states that `on_next` published. -/
  published : List ConnectionState
  /-- The calls of the plugins' handlers, by plugin. -/
  notified : List (Nat × ConnectionState)
  queue : List Job
  attempts : List ConnectAttempt
  flows : List DisconnectFlow
  /-- The continuations that will post `hostDisconnected`. -/
  hostContinuations : Nat
  connectTask : ConnectTask
  /-- Whether `_connectionCts` was cancelled. -/
  canceled : Bool
  disconnectTask : DisconnectTask
  /-- Whether the token of the call that made `_disconnectTask` was cancelled. -/
  disconnectCanceled : Bool
deriving DecidableEq

namespace SceneImpl

def initial : SceneImpl :=
  ⟨.disconnected, false, [], [], [], [], [], 0, .none, false, .notRequested, false⟩

/-! ## Operations -/

/-- `setConnectionStateInternal` for a number of plugins. When a handler throws, `throwing` is
its plugin. The result says whether the call returned. -/
def setConnectionStateInternal (plugins : Nat) (s : SceneImpl) (state : ConnectionState)
    (throwing : Option Nat) : SceneImpl × Bool :=
  if s.connectionState ≠ state ∧ s.completed = false then
    let s' := { s with
      connectionState := state
      completed := decide (state = ConnectionState.disconnected) }
    match throwing.filter (· < plugins) with
    | some p =>
      ({ s' with notified := s.notified ++ (List.range (p + 1)).map (·, state) }, false)
    | none =>
      ({ s' with
          notified := s.notified ++ (List.range plugins).map (·, state)
          published := s.published ++ [state] }, true)
  else (s, true)

def setAttempt (s : SceneImpl) (n : Nat) (a : ConnectAttempt) : SceneImpl :=
  { s with attempts := s.attempts.set n a }

def setFlow (s : SceneImpl) (n : Nat) (f : DisconnectFlow) : SceneImpl :=
  { s with flows := s.flows.set n f }

def post (s : SceneImpl) (job : Job) : SceneImpl := { s with queue := s.queue ++ [job] }

/-- What follows a job, given whether it returned. -/
def continueJob (s : SceneImpl) (returned : Bool) : Job → SceneImpl
  | .connecting n => s.setAttempt n (if returned then .requesting else .failed)
  | .connected n => s.setAttempt n (if returned then .succeeded else .failed)
  | .disconnecting n => s.setFlow n .requesting
  | .disconnected n => s.setFlow n .done
  | .hostDisconnecting last =>
    if last ∧ returned then { s with hostContinuations := s.hostContinuations + 1 } else s
  | .hostDisconnected => s

def runJob (plugins : Nat) (s : SceneImpl) (job : Job) (rest : List Job)
    (throwing : Option Nat) : SceneImpl :=
  let r := setConnectionStateInternal plugins { s with queue := rest } job.state throwing
  r.1.continueJob r.2 job

/-- `Scene_Impl::connect`, with the start of `Client::connectToScene`. -/
def connect (s : SceneImpl) : SceneImpl :=
  match s.connectionState with
  | .disconnected =>
    { s with
      attempts := s.attempts ++ [.posted]
      queue := s.queue ++ [.connecting s.attempts.length]
      connectTask := .attempt s.attempts.length }
  | .disconnecting => { s with connectTask := .failed }
  | _ => s

/-- The continuation of the connection request: the scene is complete, and `Connected` is
posted. -/
def connectResult (s : SceneImpl) (n : Nat) : SceneImpl :=
  (s.setAttempt n .finishing).post (.connected n)

/-- `Client::disconnect` of a scene that is connected. -/
def startFlow (s : SceneImpl) : SceneImpl :=
  { s with
    flows := s.flows ++ [.posted]
    queue := s.queue ++ [.disconnecting s.flows.length] }

/-- `Client::disconnect` of a scene. -/
def clientDisconnect (s : SceneImpl) : SceneImpl :=
  match s.connectionState with
  | .connected => s.startFlow
  | _ => s

/-- The last continuation of `Client::disconnect`, whatever became of the request. -/
def disconnectRequestEnds (s : SceneImpl) (n : Nat) : SceneImpl :=
  (s.setFlow n .finishing).post (.disconnected n)

/-- `Scene_Impl::disconnect`, up to `disconnectAllPeers`: `connected` says that the scene has peers,
`canceled` that the token is cancelled already. -/
def disconnect (s : SceneImpl) (connected canceled : Bool) : SceneImpl :=
  match s.disconnectTask with
  | .notRequested =>
    { s with disconnectTask := .peers connected, disconnectCanceled := canceled }
  | _ => s

def disconnectFromHost (s : SceneImpl) : SceneImpl :=
  match s.connectionState with
  | .connected => { s.startFlow with disconnectTask := .flow s.flows.length }
  | .connecting =>
    { s with
      canceled := true
      disconnectTask := match s.connectTask with
        | .attempt n => .attempt n
        | _ => .done }
  | _ => { s with disconnectTask := .done }

/-- The continuation of `_connectTask` in `disconnectFromHost`: `disconnect` was requested, so it
returns `_disconnectTask` itself. -/
def connectTaskEnded (s : SceneImpl) (a : ConnectAttempt) : SceneImpl :=
  { s with disconnectTask := if a = .succeeded then .itself else .done }

/-- The handler of the state of the host connection. -/
def hostState (s : SceneImpl) (state : ConnectionState) : SceneImpl :=
  if state = .disconnecting ∧ s.connectionState ≠ .disconnecting ∧
      s.connectionState ≠ .disconnected then
    s.post (.hostDisconnecting false)
  else if state = .disconnected ∧ s.connectionState ≠ .disconnected then
    if s.connectionState ≠ .disconnecting then s.post (.hostDisconnecting true)
    else { s with hostContinuations := s.hostContinuations + 1 }
  else s

inductive Action
  | connect
  | disconnect (connected canceled : Bool)
  /-- The token of the disconnection is cancelled. -/
  | cancelDisconnection
  | clientDisconnect
  | hostState (state : ConnectionState)
  | runJob (throwing : Option Nat)
  | connectResult (attempt : Nat)
  | connectFails (attempt : Nat)
  | disconnectRequestEnds (flow : Nat)
  | hostContinuation
  | disconnectFromHost
  /-- The continuation that calls `disconnectFromHost` is cancelled, and the task is done. -/
  | disconnectSkipped
  | connectTaskEnded
  | flowEnded
deriving DecidableEq

def step (plugins : Nat) (s : SceneImpl) : Action → Option SceneImpl
  | .connect => some s.connect
  | .disconnect connected canceled => some (s.disconnect connected canceled)
  | .cancelDisconnection => some { s with disconnectCanceled := true }
  | .clientDisconnect => some s.clientDisconnect
  | .hostState state => some (s.hostState state)
  | .runJob throwing =>
    match s.queue with
    | [] => none
    | job :: rest => some (s.runJob plugins job rest throwing)
  | .connectResult n =>
    -- The continuation has the token of the attempt.
    if s.attempts[n]? = some .requesting ∧ s.canceled = false then some (s.connectResult n)
    else none
  | .connectFails n =>
    if s.attempts[n]? = some .requesting then some (s.setAttempt n .failed) else none
  | .disconnectRequestEnds n =>
    if s.flows[n]? = some .requesting then some (s.disconnectRequestEnds n) else none
  | .hostContinuation =>
    match s.hostContinuations with
    | 0 => none
    | n + 1 => some ({ s with hostContinuations := n }.post .hostDisconnected)
  | .disconnectFromHost =>
    match s.disconnectTask with
    | .peers connected =>
      if connected = true ∨ s.disconnectCanceled = false then some s.disconnectFromHost else none
    | _ => none
  | .disconnectSkipped =>
    if s.disconnectTask = .peers false ∧ s.disconnectCanceled = true then
      some { s with disconnectTask := .done }
    else none
  | .connectTaskEnded =>
    match s.disconnectTask with
    | .attempt n => (s.attempts[n]?.filter (·.ended)).map s.connectTaskEnded
    | _ => none
  | .flowEnded =>
    match s.disconnectTask with
    | .flow n =>
      if s.flows[n]? = some .done then some { s with disconnectTask := .done } else none
    | _ => none

/-- The steps as a relation: one rule for each branch that changes something. -/
inductive Transition (plugins : Nat) (s : SceneImpl) : Action → SceneImpl → Prop
  | unchanged (a : Action) : Transition plugins s a s
  | connect (hstate : s.connectionState = .disconnected) :
      Transition plugins s .connect { s with
        attempts := s.attempts ++ [.posted]
        queue := s.queue ++ [.connecting s.attempts.length]
        connectTask := .attempt s.attempts.length }
  | connectRefused (hstate : s.connectionState = .disconnecting) :
      Transition plugins s .connect { s with connectTask := .failed }
  | disconnect (connected canceled : Bool) (hfirst : s.disconnectTask = .notRequested) :
      Transition plugins s (.disconnect connected canceled)
        { s with disconnectTask := .peers connected, disconnectCanceled := canceled }
  | cancelDisconnection :
      Transition plugins s .cancelDisconnection { s with disconnectCanceled := true }
  | clientDisconnect (hstate : s.connectionState = .connected) :
      Transition plugins s .clientDisconnect s.startFlow
  | hostDisconnecting (state : ConnectionState) (last : Bool)
      (hstate : s.connectionState = .connecting ∨ s.connectionState = .connected) :
      Transition plugins s (.hostState state) (s.post (.hostDisconnecting last))
  | hostDisconnected (hstate : s.connectionState = .disconnecting) :
      Transition plugins s (.hostState .disconnected)
        { s with hostContinuations := s.hostContinuations + 1 }
  | runJob (throwing : Option Nat) (job : Job) (rest : List Job)
      (hqueue : s.queue = job :: rest) :
      Transition plugins s (.runJob throwing) (s.runJob plugins job rest throwing)
  | connectResult (n : Nat) (hphase : s.attempts[n]? = some .requesting)
      (hcanceled : s.canceled = false) :
      Transition plugins s (.connectResult n) (s.connectResult n)
  | connectFails (n : Nat) (hphase : s.attempts[n]? = some .requesting) :
      Transition plugins s (.connectFails n) (s.setAttempt n .failed)
  | disconnectRequestEnds (n : Nat) (hphase : s.flows[n]? = some .requesting) :
      Transition plugins s (.disconnectRequestEnds n) (s.disconnectRequestEnds n)
  | hostContinuation (n : Nat) (hpending : s.hostContinuations = n + 1) :
      Transition plugins s .hostContinuation
        ({ s with hostContinuations := n }.post .hostDisconnected)
  | disconnectConnected (connected : Bool) (htask : s.disconnectTask = .peers connected)
      (hstate : s.connectionState = .connected) :
      Transition plugins s .disconnectFromHost
        { s.startFlow with disconnectTask := .flow s.flows.length }
  | disconnectConnecting (connected : Bool) (htask : s.disconnectTask = .peers connected)
      (hstate : s.connectionState = .connecting) (t : DisconnectTask)
      (ht : t = .done ∨ ∃ n, t = .attempt n ∧ s.connectTask = .attempt n) :
      Transition plugins s .disconnectFromHost { s with canceled := true, disconnectTask := t }
  | disconnectOther (connected : Bool) (htask : s.disconnectTask = .peers connected)
      (hstate : s.connectionState = .disconnected ∨ s.connectionState = .disconnecting) :
      Transition plugins s .disconnectFromHost { s with disconnectTask := .done }
  | disconnectSkipped (htask : s.disconnectTask = .peers false)
      (hcanceled : s.disconnectCanceled = true) :
      Transition plugins s .disconnectSkipped { s with disconnectTask := .done }
  | connectTaskEnded (n : Nat) (a : ConnectAttempt) (htask : s.disconnectTask = .attempt n)
      (hphase : s.attempts[n]? = some a) (hended : a.ended = true) :
      Transition plugins s .connectTaskEnded (s.connectTaskEnded a)
  | flowEnded (n : Nat) (htask : s.disconnectTask = .flow n)
      (hphase : s.flows[n]? = some .done) :
      Transition plugins s .flowEnded { s with disconnectTask := .done }

/-! ## What holds in every run -/

/-- The scene has left its first state. -/
def Started (s : SceneImpl) : Prop :=
  s.completed = true ∨ s.connectionState ≠ .disconnected

structure Base (s : SceneImpl) : Prop where
  /-- Until the first job has run there are only jobs that set `Connecting`. -/
  first : ¬ s.Started → (∀ job ∈ s.queue, job.state = .connecting) ∧
    (∀ a ∈ s.attempts, a = .posted) ∧ s.flows = [] ∧ s.hostContinuations = 0
  /-- The jobs that set `Connecting` come before the others. -/
  order : s.completed = false →
    s.queue.Pairwise fun a b => b.state = .connecting → a.state = .connecting
  left : s.connectionState = .connected ∨ s.connectionState = .disconnecting →
    ∀ job ∈ s.queue, job.state ≠ .connecting
  completed : s.completed = true → s.connectionState = .disconnected
  succeeded : ConnectAttempt.succeeded ∈ s.attempts →
    s.completed = true ∨ s.connectionState = .connected ∨ s.connectionState = .disconnecting
  done : DisconnectFlow.done ∈ s.flows → s.completed = true

namespace ConnectionLemmas

variable {plugins : Nat} {s s' : SceneImpl}

theorem transition_of_step {a : Action} (h : step plugins s a = some s') :
    Transition plugins s a s' := by
  cases a with
  | connect =>
    cases h
    unfold connect
    split
    · next hstate => exact .connect hstate
    · next hstate => exact .connectRefused hstate
    · exact .unchanged _
  | disconnect connected canceled =>
    cases h
    unfold disconnect
    split
    · next hfirst => exact .disconnect connected canceled hfirst
    · exact .unchanged _
  | cancelDisconnection =>
    cases h
    exact .cancelDisconnection
  | clientDisconnect =>
    cases h
    unfold clientDisconnect
    split
    · next hstate => exact .clientDisconnect hstate
    · exact .unchanged _
  | hostState state =>
    cases h
    unfold hostState
    have hopen : s.connectionState ≠ .disconnecting → s.connectionState ≠ .disconnected →
        s.connectionState = .connecting ∨ s.connectionState = .connected := by
      cases s.connectionState <;> simp
    split
    · next hcond => exact .hostDisconnecting state false (hopen hcond.2.1 hcond.2.2)
    · split
      · next hcond =>
        split
        · next hnot => exact .hostDisconnecting state true (hopen hnot hcond.2)
        · next hnot =>
          rw [hcond.1]
          exact .hostDisconnected (not_not.mp hnot)
      · exact .unchanged _
  | runJob throwing =>
    simp only [step] at h
    split at h
    · cases h
    · next job rest hqueue =>
      cases h
      exact .runJob throwing job rest hqueue
  | connectResult n =>
    simp only [step, Option.ite_none_right_eq_some] at h
    obtain ⟨⟨hphase, hcanceled⟩, heq⟩ := h
    cases heq
    exact .connectResult n hphase hcanceled
  | connectFails n =>
    simp only [step, Option.ite_none_right_eq_some] at h
    obtain ⟨hphase, heq⟩ := h
    cases heq
    exact .connectFails n hphase
  | disconnectRequestEnds n =>
    simp only [step, Option.ite_none_right_eq_some] at h
    obtain ⟨hphase, heq⟩ := h
    cases heq
    exact .disconnectRequestEnds n hphase
  | hostContinuation =>
    simp only [step] at h
    split at h
    · cases h
    · next n hpending =>
      cases h
      exact .hostContinuation n hpending
  | disconnectFromHost =>
    simp only [step] at h
    split at h
    · next connected htask =>
      obtain ⟨-, heq⟩ := Option.ite_none_right_eq_some.mp h
      cases heq
      unfold disconnectFromHost
      split
      · next hstate => exact .disconnectConnected connected htask hstate
      · next hstate =>
        refine .disconnectConnecting connected htask hstate _ ?_
        split
        · next n hconnect => exact .inr ⟨n, rfl, hconnect⟩
        · exact .inl rfl
      · next hconnected hconnecting =>
        refine .disconnectOther connected htask ?_
        cases hstate : s.connectionState <;> simp_all
    · cases h
  | disconnectSkipped =>
    simp only [step, Option.ite_none_right_eq_some] at h
    obtain ⟨⟨htask, hcanceled⟩, heq⟩ := h
    cases heq
    exact .disconnectSkipped htask hcanceled
  | connectTaskEnded =>
    simp only [step] at h
    split at h
    · next n htask =>
      simp only [Option.map_eq_some_iff, Option.filter_eq_some_iff] at h
      obtain ⟨a, ⟨hphase, hended⟩, rfl⟩ := h
      exact .connectTaskEnded n a htask hphase hended
    · cases h
  | flowEnded =>
    simp only [step] at h
    split at h
    · next n htask =>
      rw [Option.ite_none_right_eq_some] at h
      obtain ⟨hphase, heq⟩ := h
      cases heq
      exact .flowEnded n htask hphase
    · cases h

/-! ### Jobs -/

/-- A job does nothing, or it sets the state. When it returned, every plugin was notified and
the state was published. -/
theorem setConnectionStateInternal_cases (plugins : Nat) (s : SceneImpl)
    (state : ConnectionState) (throwing : Option Nat) :
    ((s.connectionState = state ∨ s.completed = true) ∧
      setConnectionStateInternal plugins s state throwing = (s, true)) ∨
    s.connectionState ≠ state ∧ s.completed = false ∧ ∃ notified published returned,
      setConnectionStateInternal plugins s state throwing = ({ s with
        connectionState := state
        completed := decide (state = ConnectionState.disconnected)
        notified := s.notified ++ notified
        published := s.published ++ published }, returned) ∧
      (throwing = none → returned = true ∧ published = [state] ∧
        notified = (List.range plugins).map (·, state)) := by
  unfold setConnectionStateInternal
  split
  · next hcond =>
    refine .inr ⟨hcond.1, hcond.2, ?_⟩
    cases hthrow : throwing.filter (· < plugins) with
    | none => exact ⟨_, _, _, rfl, fun _ => ⟨rfl, rfl, rfl⟩⟩
    | some p =>
      refine ⟨(List.range (p + 1)).map (·, state), [], false, ?_, ?_⟩
      · simp
      · rintro rfl
        cases hthrow
  · next hcond =>
    refine .inl ⟨?_, rfl⟩
    by_cases heq : s.connectionState = state
    · exact .inl heq
    · exact .inr (by simpa [heq] using hcond)

/-- A continuation writes only the phases. -/
theorem continueJob_keeps (s : SceneImpl) (returned : Bool) (job : Job) :
    ∃ attempts flows n, s.continueJob returned job =
      { s with attempts := attempts, flows := flows, hostContinuations := n } := by
  cases job with
  | hostDisconnecting last =>
    unfold continueJob
    dsimp only
    split
    · exact ⟨_, _, _, rfl⟩
    · exact ⟨_, _, _, rfl⟩
  | _ => exact ⟨_, _, _, rfl⟩

theorem succeeded_continueJob {returned : Bool} {job : Job} {n : Nat}
    (h : (s.continueJob returned job).attempts[n]? = some .succeeded) :
    s.attempts[n]? = some .succeeded ∨ job = .connected n := by
  cases job with
  | connecting m =>
    rcases Heap.of_set h with ⟨-, hold⟩ | ⟨-, heq⟩
    · exact .inl hold
    · cases returned <;> cases heq
  | connected m =>
    rcases Heap.of_set h with ⟨-, hold⟩ | ⟨rfl, -⟩
    · exact .inl hold
    · exact .inr rfl
  | hostDisconnecting last =>
    unfold continueJob at h
    dsimp only at h
    split at h
    · exact .inl h
    · exact .inl h
  | _ => exact .inl h

theorem done_continueJob {returned : Bool} {job : Job}
    (h : DisconnectFlow.done ∈ (s.continueJob returned job).flows) :
    DisconnectFlow.done ∈ s.flows ∨ job.state = .disconnected ∧ s.flows ≠ [] := by
  cases job with
  | disconnecting n =>
    rcases List.mem_or_eq_of_mem_set h with hold | heq
    · exact .inl hold
    · cases heq
  | disconnected n =>
    refine .inr ⟨rfl, ?_⟩
    intro hnil
    simp [continueJob, setFlow, hnil] at h
  | hostDisconnecting last =>
    unfold continueJob at h
    dsimp only at h
    split at h
    · exact .inl h
    · exact .inl h
  | _ => exact .inl h

/-- What a job does to the state of the scene. -/
inductive Ran (plugins : Nat) (s s' : SceneImpl) (job : Job) (throwing : Option Nat) : Prop
  | void (hvoid : s.connectionState = job.state ∨ s.completed = true)
      (hstate : s'.connectionState = s.connectionState) (hcompleted : s'.completed = s.completed)
      (hpublished : s'.published = s.published) (hnotified : s'.notified = s.notified)
  | set (hne : s.connectionState ≠ job.state) (hopen : s.completed = false)
      (hstate : s'.connectionState = job.state)
      (hcompleted : s'.completed = decide (job.state = ConnectionState.disconnected))
      (hreturned : throwing = none → s'.published = s.published ++ [job.state] ∧
        s'.notified = s.notified ++ (List.range plugins).map (·, job.state))

theorem runJob_ran (plugins : Nat) (s : SceneImpl) (job : Job) (rest : List Job)
    (throwing : Option Nat) : Ran plugins s (s.runJob plugins job rest throwing) job throwing := by
  unfold runJob
  rcases setConnectionStateInternal_cases plugins { s with queue := rest } job.state throwing with
    ⟨hvoid, heq⟩ | ⟨hne, hopen, notified, published, returned, heq, hreturned⟩
  · rw [heq]
    obtain ⟨attempts, flows, n, hkeeps⟩ := continueJob_keeps { s with queue := rest } true job
    dsimp only
    rw [hkeeps]
    exact .void hvoid rfl rfl rfl rfl
  · rw [heq]
    dsimp only
    obtain ⟨attempts, flows, n, hkeeps⟩ := continueJob_keeps _ returned job
    rw [hkeeps]
    refine .set hne hopen rfl rfl ?_
    intro hnone
    obtain ⟨-, rfl, rfl⟩ := hreturned hnone
    exact ⟨rfl, rfl⟩

/-- The fields that a job does not touch before its continuation. -/
theorem setConnectionStateInternal_keeps (plugins : Nat) (s : SceneImpl)
    (state : ConnectionState) (throwing : Option Nat) :
    ∃ current completed notified published returned,
      setConnectionStateInternal plugins s state throwing = ({ s with
        connectionState := current
        completed := completed
        notified := notified
        published := published }, returned) := by
  rcases setConnectionStateInternal_cases plugins s state throwing with
    ⟨-, heq⟩ | ⟨-, -, notified, published, returned, heq, -⟩
  · exact ⟨_, _, _, _, _, heq⟩
  · exact ⟨_, _, _, _, _, heq⟩

theorem runJob_keeps (plugins : Nat) (s : SceneImpl) (job : Job) (rest : List Job)
    (throwing : Option Nat) : (s.runJob plugins job rest throwing).queue = rest ∧
      (s.runJob plugins job rest throwing).disconnectTask = s.disconnectTask := by
  unfold runJob
  obtain ⟨current, completed, notified, published, returned, heq⟩ :=
    setConnectionStateInternal_keeps plugins { s with queue := rest } job.state throwing
  rw [heq]
  dsimp only
  obtain ⟨attempts, flows, n, hkeeps⟩ := continueJob_keeps _ returned job
  rw [hkeeps]
  exact ⟨rfl, rfl⟩

theorem succeeded_runJob {job : Job} {rest : List Job} {throwing : Option Nat} {n : Nat}
    (h : (s.runJob plugins job rest throwing).attempts[n]? = some .succeeded) :
    s.attempts[n]? = some .succeeded ∨ job = .connected n := by
  unfold runJob at h
  obtain ⟨current, completed, notified, published, returned, heq⟩ :=
    setConnectionStateInternal_keeps plugins { s with queue := rest } job.state throwing
  rw [heq] at h
  have hcases := succeeded_continueJob h
  exact hcases

theorem done_runJob {job : Job} {rest : List Job} {throwing : Option Nat}
    (h : DisconnectFlow.done ∈ (s.runJob plugins job rest throwing).flows) :
    DisconnectFlow.done ∈ s.flows ∨ job.state = .disconnected ∧ s.flows ≠ [] := by
  unfold runJob at h
  obtain ⟨current, completed, notified, published, returned, heq⟩ :=
    setConnectionStateInternal_keeps plugins { s with queue := rest } job.state throwing
  rw [heq] at h
  have hcases := done_continueJob h
  exact hcases

/-! ### The base invariant -/

theorem base_initial : Base initial := by
  refine ⟨?_, ?_, ?_, ?_, ?_, ?_⟩
  · intro
    refine ⟨?_, ?_, rfl, rfl⟩
    · intro job hmem
      cases hmem
    · intro a hmem
      cases hmem
  · intro
    exact List.Pairwise.nil
  · rintro - job hmem
    cases hmem
  · nofun
  · intro hmem
    cases hmem
  · intro hmem
    cases hmem

/-- A step that leaves what the base invariant is about. -/
theorem base_congr (hb : s.Base) (hstate : s'.connectionState = s.connectionState)
    (hcompleted : s'.completed = s.completed) (hqueue : s'.queue = s.queue)
    (hattempts : s'.attempts = s.attempts) (hflows : s'.flows = s.flows)
    (hhost : s'.hostContinuations = s.hostContinuations) : s'.Base := by
  refine ⟨?_, ?_, ?_, ?_, ?_, ?_⟩
  · unfold Started
    rw [hstate, hcompleted, hqueue, hattempts, hflows, hhost]
    exact hb.first
  · rw [hcompleted, hqueue]
    exact hb.order
  · rw [hstate, hqueue]
    exact hb.left
  · rw [hstate, hcompleted]
    exact hb.completed
  · rw [hstate, hcompleted, hattempts]
    exact hb.succeeded
  · rw [hcompleted, hflows]
    exact hb.done

/-- A step of a scene that has started, which posts at most jobs that do not set `Connecting`
and ends no attempt and no disconnection. -/
theorem base_started (hb : s.Base) (hstarted : s.Started)
    (hstate : s'.connectionState = s.connectionState) (hcompleted : s'.completed = s.completed)
    (added : List Job) (hqueue : s'.queue = s.queue ++ added)
    (hadded : ∀ job ∈ added, job.state ≠ .connecting)
    (hattempts : ConnectAttempt.succeeded ∈ s'.attempts → ConnectAttempt.succeeded ∈ s.attempts)
    (hflows : DisconnectFlow.done ∈ s'.flows → DisconnectFlow.done ∈ s.flows) : s'.Base := by
  refine ⟨?_, ?_, ?_, ?_, ?_, ?_⟩
  · unfold Started
    rw [hstate, hcompleted]
    exact fun hnot => absurd hstarted hnot
  · intro hopen
    rw [hqueue]
    refine List.pairwise_append.mpr ⟨hb.order (hcompleted ▸ hopen), ?_, ?_⟩
    · refine List.pairwise_of_forall_mem_list ?_
      intro a _ b hmem hconnecting
      exact absurd hconnecting (hadded b hmem)
    · intro a _ b hmem hconnecting
      exact absurd hconnecting (hadded b hmem)
  · rw [hstate, hqueue]
    intro hleft job hmem
    rcases List.mem_append.mp hmem with hmem | hmem
    · exact hb.left hleft job hmem
    · exact hadded job hmem
  · rw [hstate, hcompleted]
    exact hb.completed
  · rw [hstate, hcompleted]
    exact fun hmem => hb.succeeded (hattempts hmem)
  · rw [hcompleted]
    exact fun hmem => hb.done (hflows hmem)

theorem started_of_ne (h : s.connectionState ≠ .disconnected) : s.Started := .inr h

theorem started_of_requesting (hb : s.Base) {n : Nat}
    (h : s.attempts[n]? = some .requesting) : s.Started := by
  by_contra hnot
  cases (hb.first hnot).2.1 _ (List.mem_of_getElem? h)

theorem started_of_flow (hb : s.Base) {n : Nat} {f : DisconnectFlow}
    (h : s.flows[n]? = some f) : s.Started := by
  by_contra hnot
  rw [(hb.first hnot).2.2.1] at h
  cases h

/-- A job that does not set `Connecting` runs only when the scene has started. -/
theorem started_of_job (hb : s.Base) {job : Job} (hmem : job ∈ s.queue)
    (hne : job.state ≠ .connecting) : s.Started := by
  by_contra hnot
  exact hne ((hb.first hnot).1 job hmem)

theorem base_connect (hb : s.Base) (hstate : s.connectionState = .disconnected) : Base { s with
    attempts := s.attempts ++ [.posted]
    queue := s.queue ++ [.connecting s.attempts.length]
    connectTask := .attempt s.attempts.length } := by
  refine ⟨?_, ?_, ?_, hb.completed, ?_, hb.done⟩
  · intro hnot
    obtain ⟨hqueue, hattempts, hflows, hhost⟩ := hb.first hnot
    refine ⟨?_, ?_, hflows, hhost⟩
    · intro job hmem
      rcases List.mem_append.mp hmem with hmem | hmem
      · exact hqueue job hmem
      · rw [List.mem_singleton.mp hmem]
        rfl
    · intro a hmem
      rcases List.mem_append.mp hmem with hmem | hmem
      · exact hattempts a hmem
      · exact List.mem_singleton.mp hmem
  · intro hopen
    have hnot : ¬ s.Started := by
      rintro (hcompleted | hne)
      · rw [hopen] at hcompleted
        cases hcompleted
      · exact hne hstate
    refine List.pairwise_append.mpr ⟨hb.order hopen, List.pairwise_singleton _ _, ?_⟩
    intro a hmem b _ _
    exact (hb.first hnot).1 a hmem
  · rintro (h | h)
    · cases hstate.symm.trans h
    · cases hstate.symm.trans h
  · intro hmem
    rcases List.mem_append.mp hmem with hmem | hmem
    · exact hb.succeeded hmem
    · cases List.mem_singleton.mp hmem

theorem base_runJob (plugins : Nat) {job : Job} {rest : List Job} (throwing : Option Nat)
    (hb : s.Base) (hqueue : s.queue = job :: rest) : (s.runJob plugins job rest throwing).Base := by
  have hjob : job ∈ s.queue := hqueue ▸ List.mem_cons_self
  have hrest : ∀ j ∈ rest, j ∈ s.queue := fun j hj => hqueue ▸ List.mem_cons_of_mem _ hj
  have hsucceeded : ConnectAttempt.succeeded ∈ (s.runJob plugins job rest throwing).attempts →
      ConnectAttempt.succeeded ∈ s.attempts ∨ job.state = .connected := by
    intro hmem
    obtain ⟨n, hn⟩ := List.mem_iff_getElem?.mp hmem
    rcases succeeded_runJob hn with hold | rfl
    · exact .inl (List.mem_of_getElem? hold)
    · exact .inr rfl
  have hdone := @done_runJob plugins s job rest throwing
  have hkeeps := (runJob_keeps plugins s job rest throwing).1
  have hran := runJob_ran plugins s job rest throwing
  generalize s.runJob plugins job rest throwing = s' at *
  cases hran with
  | void hvoid hstate hcompleted =>
    -- Before the start the job sets `Connecting`, so it is not void.
    have hstarted : s.Started := by
      by_contra hnot
      rcases hvoid with heq | hcompleted
      · rw [(hb.first hnot).1 job hjob] at heq
        exact hnot (.inr (by rw [heq]; nofun))
      · exact hnot (.inl hcompleted)
    refine ⟨?_, ?_, ?_, ?_, ?_, ?_⟩
    · unfold Started
      rw [hstate, hcompleted]
      exact fun hnot => absurd hstarted hnot
    · rw [hcompleted, hkeeps]
      intro hopen
      exact (List.pairwise_cons.mp (hqueue ▸ hb.order hopen)).2
    · rw [hstate, hkeeps]
      intro hleft j hj
      exact hb.left hleft j (hrest j hj)
    · rw [hstate, hcompleted]
      exact hb.completed
    · rw [hstate, hcompleted]
      intro hmem
      rcases hsucceeded hmem with hold | hconnected
      · exact hb.succeeded hold
      · rcases hvoid with heq | hclosed
        · exact .inr (.inl (heq.trans hconnected))
        · exact .inl hclosed
    · rw [hcompleted]
      intro hmem
      rcases hdone hmem with hold | ⟨hdisconnected, hflows⟩
      · exact hb.done hold
      · rcases hvoid with heq | hclosed
        · by_contra hopen
          refine hflows (hb.first ?_).2.2.1
          rintro (hclosed | hne)
          · exact hopen hclosed
          · exact hne (heq.trans hdisconnected)
        · exact hclosed
  | set hne hopen hstate hcompleted =>
    have horder := List.pairwise_cons.mp (hqueue ▸ hb.order hopen)
    have hsucceeds : ConnectAttempt.succeeded ∈ s.attempts → job.state ≠ .connecting := by
      intro hold
      rcases hb.succeeded hold with hclosed | hleft
      · rw [hopen] at hclosed
        cases hclosed
      · exact hb.left hleft job hjob
    refine ⟨?_, ?_, ?_, ?_, ?_, ?_⟩
    · intro hnot
      refine absurd ?_ hnot
      unfold Started
      rw [hstate, hcompleted, decide_eq_true_eq]
      exact em _
    · rw [hkeeps]
      exact fun _ => horder.2
    · rw [hstate, hkeeps]
      intro hleft j hj hconnecting
      rw [horder.1 j hj hconnecting] at hleft
      rcases hleft with h | h
      · cases h
      · cases h
    · rw [hstate, hcompleted, decide_eq_true_eq]
      exact id
    · rw [hstate, hcompleted, decide_eq_true_eq]
      intro hmem
      have hnot : job.state ≠ .connecting := by
        rcases hsucceeded hmem with hold | hconnected
        · exact hsucceeds hold
        · rw [hconnected]
          nofun
      cases hjobState : job.state with
      | disconnected => exact .inl rfl
      | connecting => exact absurd hjobState hnot
      | connected => exact .inr (.inl rfl)
      | disconnecting => exact .inr (.inr rfl)
    · rw [hcompleted, decide_eq_true_eq]
      intro hmem
      rcases hdone hmem with hold | ⟨hdisconnected, -⟩
      · rw [hb.done hold] at hopen
        cases hopen
      · exact hdisconnected

theorem succeeded_set {n : Nat} {a : ConnectAttempt} (ha : a ≠ .succeeded)
    (h : ConnectAttempt.succeeded ∈ s.attempts.set n a) :
    ConnectAttempt.succeeded ∈ s.attempts :=
  (List.mem_or_eq_of_mem_set h).resolve_right (Ne.symm ha)

theorem done_set {n : Nat} {f : DisconnectFlow} (hf : f ≠ .done)
    (h : DisconnectFlow.done ∈ s.flows.set n f) : DisconnectFlow.done ∈ s.flows :=
  (List.mem_or_eq_of_mem_set h).resolve_right (Ne.symm hf)

theorem base_startFlow (hb : s.Base) (hstate : s.connectionState = .connected) :
    s.startFlow.Base := by
  refine base_started hb (started_of_ne (by rw [hstate]; nofun)) rfl rfl
    [.disconnecting s.flows.length] rfl ?_ id ?_
  · intro job hmem
    rw [List.mem_singleton.mp hmem]
    nofun
  · intro hmem
    rcases List.mem_append.mp hmem with hmem | hmem
    · exact hmem
    · cases List.mem_singleton.mp hmem

theorem base_post (hb : s.Base) (hstarted : s.Started) {job : Job}
    (hjob : job.state ≠ .connecting) : (s.post job).Base := by
  refine base_started hb hstarted rfl rfl [job] rfl ?_ id id
  intro j hmem
  rw [List.mem_singleton.mp hmem]
  exact hjob

theorem base_step {a : Action} (hb : s.Base) (h : Transition plugins s a s') : s'.Base := by
  cases h with
  | unchanged => exact hb
  | connect hstate => exact base_connect hb hstate
  | connectRefused | disconnect | cancelDisconnection | disconnectConnecting | disconnectOther
  | disconnectSkipped | connectTaskEnded | flowEnded =>
    exact base_congr hb rfl rfl rfl rfl rfl rfl
  | clientDisconnect hstate => exact base_startFlow hb hstate
  | hostDisconnecting state last hstate =>
    refine base_post hb (started_of_ne ?_) nofun
    rcases hstate with hstate | hstate <;> simp [hstate]
  | hostDisconnected hstate =>
    exact base_started hb (started_of_ne (by rw [hstate]; nofun)) rfl rfl []
      (List.append_nil _).symm nofun id id
  | runJob throwing job rest hqueue => exact base_runJob plugins throwing hb hqueue
  | connectResult n hphase =>
    refine base_started hb (started_of_requesting hb hphase) rfl rfl [.connected n] rfl ?_
      (succeeded_set nofun) id
    intro job hmem
    rw [List.mem_singleton.mp hmem]
    nofun
  | connectFails n hphase =>
    exact base_started hb (started_of_requesting hb hphase) rfl rfl []
      (List.append_nil _).symm nofun (succeeded_set nofun) id
  | disconnectRequestEnds n hphase =>
    refine base_started hb (started_of_flow hb hphase) rfl rfl [.disconnected n] rfl ?_ id
      (done_set nofun)
    intro job hmem
    rw [List.mem_singleton.mp hmem]
    nofun
  | hostContinuation n hpending =>
    have hstarted : s.Started := by
      by_contra hnot
      rw [(hb.first hnot).2.2.2] at hpending
      cases hpending
    refine base_started hb hstarted rfl rfl [.hostDisconnected] rfl ?_ id id
    intro job hmem
    rw [List.mem_singleton.mp hmem]
    nofun
  | disconnectConnected connected htask hstate =>
    exact base_congr (base_startFlow hb hstate) rfl rfl rfl rfl rfl rfl

end ConnectionLemmas

open ConnectionLemmas

theorem base_reachable {plugins : Nat} {G : SceneImpl → Action → Prop} {s : SceneImpl}
    (h : Lts.Reachable (step plugins) G initial s) : s.Base :=
  h.invariant base_initial fun _ _ _ hb _ hs => base_step hb (transition_of_step hs)

end SceneImpl
end Stormancer.Scene
