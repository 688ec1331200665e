import Mathlib.Logic.Relation
import Stormancer.Scene.Connection

/-!
# The disconnection of a scene that is connecting

`disconnectFromHost` cancels a connection that is in progress and continues when the connection
task has ended: it is done when the connection failed, and calls `disconnect` when it succeeded.
But `disconnect` was already requested, so it returns the task that is waiting. With a cancelled token
and no peers `disconnectFromHost` is not called at all.

Results:
1. `disconnect_settles`: in every run whose steps meet `DisconnectsInTime`, no task of the scene
   waits for itself, and in every quiescent state in which a disconnection was requested, the
   scene is not connected and the disconnection task is done.
2. `no_step_of_quiescent`: in a quiescent state nothing can happen but calls and events of the
   host connection.
3. `disconnect_waits_for_itself`: the connection succeeds too late for its cancellation, and the
   token of a disconnection is cancelled.
-/

namespace Stormancer.Scene.SceneImpl

open ConnectionLemmas

/-! ## The property -/

/-- No job, request or continuation is outstanding. -/
def Quiescent (s : SceneImpl) : Prop :=
  s.queue = [] ∧ (∀ a ∈ s.attempts, a ≠ .requesting) ∧ (∀ f ∈ s.flows, f ≠ .requesting) ∧
  s.hostContinuations = 0 ∧
  match s.disconnectTask with
  | .peers _ => False
  | .attempt n => ∀ a ∈ s.attempts[n]?, a.ended = false
  | .flow n => s.flows[n]? ≠ some .done
  | _ => True

instance (s : SceneImpl) : Decidable s.Quiescent := by
  unfold Quiescent
  cases s.disconnectTask <;> dsimp only <;> infer_instance

/-- The tasks of a scene. -/
inductive TaskRef
  | disconnect
  | attempt (n : Nat)
  | flow (n : Nat)

/-- The task that a task waits for. An attempt and a `Client::disconnect` wait for jobs and
requests only. -/
def waitsFor (s : SceneImpl) : TaskRef → Option TaskRef
  | .disconnect =>
    match s.disconnectTask with
    | .attempt n => some (.attempt n)
    | .flow n => some (.flow n)
    | .itself => some .disconnect
    | _ => none
  | _ => none

/-- No task waits, directly or through others, for itself. -/
def NoWaitCycle (s : SceneImpl) : Prop :=
  ∀ t, ¬ Relation.TransGen (fun a b => s.waitsFor a = some b) t t

/-- A requested disconnection has taken place. -/
def Settled (s : SceneImpl) : Prop :=
  s.disconnectTask ≠ .notRequested →
    s.connectionState ≠ .connected ∧ s.disconnectTask = .done

/-! ## The condition -/

/-- `disconnectFromHost` has run or was skipped, and no `Client::disconnect` that it has started is
in progress. -/
def Decided (s : SceneImpl) : Bool :=
  match s.disconnectTask with
  | .attempt _ | .done => true
  | _ => false

/-- An attempt does not succeed when the disconnection waits for it, and does not set `Connected`
when the disconnection counts on it not to. -/
def JobInTime (s : SceneImpl) : Job → Prop
  | .connected n => s.disconnectTask ≠ .attempt n ∧
    (s.connectionState = .connecting ∨ s.connectionState = .disconnecting → s.Decided = false)
  | _ => True

/-- The condition on a step. A connected scene is not left without its `disconnectFromHost`. -/
def DisconnectsInTime (s : SceneImpl) : Action → Prop
  | .runJob _ => ∀ job ∈ s.queue.head?, s.JobInTime job
  | .disconnectSkipped => s.connectionState ≠ .connected
  | _ => True

instance (s : SceneImpl) : (job : Job) → Decidable (s.JobInTime job)
  | .connected _ => by unfold JobInTime; infer_instance
  | .connecting _ | .disconnecting _ | .disconnected _ | .hostDisconnecting _
  | .hostDisconnected => inferInstanceAs (Decidable True)

instance (s : SceneImpl) : (a : Action) → Decidable (DisconnectsInTime s a)
  | .runJob _ => by unfold DisconnectsInTime; infer_instance
  | .disconnectSkipped => inferInstanceAs (Decidable (s.connectionState ≠ .connected))
  | .connect | .disconnect .. | .cancelDisconnection | .clientDisconnect | .hostState _
  | .connectResult _ | .connectFails _ | .disconnectRequestEnds _ | .hostContinuation
  | .disconnectFromHost | .connectTaskEnded | .flowEnded => inferInstanceAs (Decidable True)

/-! ## The invariants -/

/-- The job of an attempt or of a `Client::disconnect` that waits for one is in the queue. -/
structure Queued (s : SceneImpl) : Prop where
  connecting : ∀ n, s.attempts[n]? = some .posted → .connecting n ∈ s.queue
  connected : ∀ n, s.attempts[n]? = some .finishing → .connected n ∈ s.queue
  disconnecting : ∀ n, s.flows[n]? = some .posted → .disconnecting n ∈ s.queue
  disconnected : ∀ n, s.flows[n]? = some .finishing → .disconnected n ∈ s.queue

structure DisconnectInv (s : SceneImpl) : Prop where
  base : s.Base
  connectTask : ∀ n, s.connectTask = .attempt n → n < s.attempts.length
  decided : s.Decided = true → s.connectionState ≠ .connected
  attempt : ∀ n, s.disconnectTask = .attempt n →
    n < s.attempts.length ∧ s.attempts[n]? ≠ some .succeeded
  flow : ∀ n, s.disconnectTask = .flow n → n < s.flows.length
  notItself : s.disconnectTask ≠ .itself

namespace DisconnectionLemmas

variable {plugins : Nat} {s s' : SceneImpl}

/-! ### Jobs in the queue -/

theorem attempt_continueJob {returned : Bool} {job : Job} {n : Nat} {a : ConnectAttempt}
    (ha : a = .posted ∨ a = .finishing)
    (h : (s.continueJob returned job).attempts[n]? = some a) :
    s.attempts[n]? = some a ∧ job ≠ .connecting n ∧ job ≠ .connected n := by
  cases job with
  | connecting m =>
    rcases Heap.of_set h with ⟨hne, hold⟩ | ⟨-, rfl⟩
    · exact ⟨hold, by simpa using Ne.symm hne, by simp⟩
    · cases returned <;> exact absurd ha (by decide)
  | connected m =>
    rcases Heap.of_set h with ⟨hne, hold⟩ | ⟨-, rfl⟩
    · exact ⟨hold, by simp, by simpa using Ne.symm hne⟩
    · cases returned <;> exact absurd ha (by decide)
  | hostDisconnecting last =>
    unfold continueJob at h
    dsimp only at h
    split at h
    · exact ⟨h, by simp, by simp⟩
    · exact ⟨h, by simp, by simp⟩
  | _ => exact ⟨h, by simp, by simp⟩

theorem flow_continueJob {returned : Bool} {job : Job} {n : Nat} {f : DisconnectFlow}
    (hf : f = .posted ∨ f = .finishing)
    (h : (s.continueJob returned job).flows[n]? = some f) :
    s.flows[n]? = some f ∧ job ≠ .disconnecting n ∧ job ≠ .disconnected n := by
  cases job with
  | disconnecting m =>
    rcases Heap.of_set h with ⟨hne, hold⟩ | ⟨-, rfl⟩
    · exact ⟨hold, by simpa using Ne.symm hne, by simp⟩
    · cases returned <;> exact absurd hf (by decide)
  | disconnected m =>
    rcases Heap.of_set h with ⟨hne, hold⟩ | ⟨-, rfl⟩
    · exact ⟨hold, by simp, by simpa using Ne.symm hne⟩
    · cases returned <;> exact absurd hf (by decide)
  | hostDisconnecting last =>
    unfold continueJob at h
    dsimp only at h
    split at h
    · exact ⟨h, by simp, by simp⟩
    · exact ⟨h, by simp, by simp⟩
  | _ => exact ⟨h, by simp, by simp⟩

theorem queued_runJob {job : Job} {rest : List Job} (throwing : Option Nat) (hq : s.Queued)
    (hqueue : s.queue = job :: rest) : (s.runJob plugins job rest throwing).Queued := by
  have hkeeps := (runJob_keeps plugins s job rest throwing).1
  have hleft : ∀ j, j ∈ s.queue → job ≠ j → j ∈ (s.runJob plugins job rest throwing).queue := by
    intro j hj hne
    rw [hqueue] at hj
    rw [hkeeps]
    exact (List.mem_cons.mp hj).resolve_left (Ne.symm hne)
  unfold runJob at hleft ⊢
  obtain ⟨current, completed, notified, published, returned, heq⟩ :=
    setConnectionStateInternal_keeps plugins { s with queue := rest } job.state throwing
  rw [heq] at hleft ⊢
  refine ⟨?_, ?_, ?_, ?_⟩
  · intro n hn
    obtain ⟨hold, hne, -⟩ := attempt_continueJob (.inl rfl) hn
    exact hleft _ (hq.connecting n hold) hne
  · intro n hn
    obtain ⟨hold, -, hne⟩ := attempt_continueJob (.inr rfl) hn
    exact hleft _ (hq.connected n hold) hne
  · intro n hn
    obtain ⟨hold, hne, -⟩ := flow_continueJob (.inl rfl) hn
    exact hleft _ (hq.disconnecting n hold) hne
  · intro n hn
    obtain ⟨hold, -, hne⟩ := flow_continueJob (.inr rfl) hn
    exact hleft _ (hq.disconnected n hold) hne

theorem queued_initial : Queued initial := ⟨nofun, nofun, nofun, nofun⟩

theorem queued_post (hq : s.Queued) (job : Job) : (s.post job).Queued where
  connecting n hn := List.mem_append_left _ (hq.connecting n hn)
  connected n hn := List.mem_append_left _ (hq.connected n hn)
  disconnecting n hn := List.mem_append_left _ (hq.disconnecting n hn)
  disconnected n hn := List.mem_append_left _ (hq.disconnected n hn)

theorem queued_connect (hq : s.Queued) : Queued { s with
    attempts := s.attempts ++ [.posted]
    queue := s.queue ++ [.connecting s.attempts.length]
    connectTask := .attempt s.attempts.length } := by
  refine ⟨?_, ?_, ?_, ?_⟩
  · intro n hn
    rcases Heap.of_make hn with hn | ⟨rfl, -⟩
    · exact List.mem_append_left _ (hq.connecting n hn)
    · exact List.mem_append_right _ (List.mem_singleton_self _)
  · intro n hn
    rcases Heap.of_make hn with hn | ⟨-, heq⟩
    · exact List.mem_append_left _ (hq.connected n hn)
    · cases heq
  · intro n hn
    exact List.mem_append_left _ (hq.disconnecting n hn)
  · intro n hn
    exact List.mem_append_left _ (hq.disconnected n hn)

theorem queued_startFlow (hq : s.Queued) : s.startFlow.Queued := by
  refine ⟨?_, ?_, ?_, ?_⟩
  · intro n hn
    exact List.mem_append_left _ (hq.connecting n hn)
  · intro n hn
    exact List.mem_append_left _ (hq.connected n hn)
  · intro n hn
    rcases Heap.of_make hn with hn | ⟨rfl, -⟩
    · exact List.mem_append_left _ (hq.disconnecting n hn)
    · exact List.mem_append_right _ (List.mem_singleton_self _)
  · intro n hn
    rcases Heap.of_make hn with hn | ⟨-, heq⟩
    · exact List.mem_append_left _ (hq.disconnected n hn)
    · cases heq

theorem queued_connectResult (hq : s.Queued) (n : Nat) : (s.connectResult n).Queued := by
  refine ⟨?_, ?_, ?_, ?_⟩
  · intro m hm
    rcases Heap.of_set hm with ⟨-, hm⟩ | ⟨-, heq⟩
    · exact List.mem_append_left _ (hq.connecting m hm)
    · cases heq
  · intro m hm
    rcases Heap.of_set hm with ⟨-, hm⟩ | ⟨rfl, -⟩
    · exact List.mem_append_left _ (hq.connected m hm)
    · exact List.mem_append_right _ (List.mem_singleton_self _)
  · intro m hm
    exact List.mem_append_left _ (hq.disconnecting m hm)
  · intro m hm
    exact List.mem_append_left _ (hq.disconnected m hm)

theorem queued_connectFails (hq : s.Queued) (n : Nat) : (s.setAttempt n .failed).Queued := by
  refine ⟨?_, ?_, hq.disconnecting, hq.disconnected⟩
  · intro m hm
    rcases Heap.of_set hm with ⟨-, hm⟩ | ⟨-, heq⟩
    · exact hq.connecting m hm
    · cases heq
  · intro m hm
    rcases Heap.of_set hm with ⟨-, hm⟩ | ⟨-, heq⟩
    · exact hq.connected m hm
    · cases heq

theorem queued_disconnectRequestEnds (hq : s.Queued) (n : Nat) :
    (s.disconnectRequestEnds n).Queued := by
  refine ⟨?_, ?_, ?_, ?_⟩
  · intro m hm
    exact List.mem_append_left _ (hq.connecting m hm)
  · intro m hm
    exact List.mem_append_left _ (hq.connected m hm)
  · intro m hm
    rcases Heap.of_set hm with ⟨-, hm⟩ | ⟨-, heq⟩
    · exact List.mem_append_left _ (hq.disconnecting m hm)
    · cases heq
  · intro m hm
    rcases Heap.of_set hm with ⟨-, hm⟩ | ⟨rfl, -⟩
    · exact List.mem_append_left _ (hq.disconnected m hm)
    · exact List.mem_append_right _ (List.mem_singleton_self _)

theorem queued_step {a : Action} (hq : s.Queued) (h : Transition plugins s a s') :
    s'.Queued := by
  cases h with
  | unchanged => exact hq
  | connect => exact queued_connect hq
  | connectRefused | disconnect | cancelDisconnection | hostDisconnected | disconnectConnecting
  | disconnectOther | disconnectSkipped | connectTaskEnded | flowEnded =>
    exact ⟨hq.connecting, hq.connected, hq.disconnecting, hq.disconnected⟩
  | clientDisconnect => exact queued_startFlow hq
  | hostDisconnecting => exact queued_post hq _
  | runJob throwing job rest hqueue => exact queued_runJob throwing hq hqueue
  | connectResult n => exact queued_connectResult hq n
  | connectFails n => exact queued_connectFails hq n
  | disconnectRequestEnds n => exact queued_disconnectRequestEnds hq n
  | hostContinuation n =>
    have hpost := queued_post hq .hostDisconnected
    exact ⟨hpost.connecting, hpost.connected, hpost.disconnecting, hpost.disconnected⟩
  | disconnectConnected =>
    have hflow := queued_startFlow hq
    exact ⟨hflow.connecting, hflow.connected, hflow.disconnecting, hflow.disconnected⟩

/-- With nothing outstanding, every attempt and every `Client::disconnect` has ended. -/
theorem ended_of_quiescent (hq : s.Queued) (h : s.Quiescent) :
    (∀ (n : Nat) (a : ConnectAttempt), s.attempts[n]? = some a → a.ended = true) ∧
      ∀ (n : Nat) (f : DisconnectFlow), s.flows[n]? = some f → f = .done := by
  obtain ⟨hempty, hattempts, hflows, -⟩ := h
  have hnone : ∀ job, job ∉ s.queue := by
    rw [hempty]
    exact fun _ => List.not_mem_nil
  constructor
  · intro n a ha
    cases a with
    | posted => exact absurd (hq.connecting n ha) (hnone _)
    | requesting => exact absurd rfl (hattempts _ (List.mem_of_getElem? ha))
    | finishing => exact absurd (hq.connected n ha) (hnone _)
    | succeeded | failed => rfl
  · intro n f hf
    cases f with
    | posted => exact absurd (hq.disconnecting n hf) (hnone _)
    | requesting => exact absurd rfl (hflows _ (List.mem_of_getElem? hf))
    | finishing => exact absurd (hq.disconnected n hf) (hnone _)
    | done => rfl

/-! ### The disconnection task -/

theorem length_continueJob (s : SceneImpl) (returned : Bool) (job : Job) :
    (s.continueJob returned job).attempts.length = s.attempts.length ∧
      (s.continueJob returned job).flows.length = s.flows.length ∧
      (s.continueJob returned job).connectTask = s.connectTask := by
  cases job with
  | hostDisconnecting last =>
    unfold continueJob
    dsimp only
    split <;> exact ⟨rfl, rfl, rfl⟩
  | _ => simp [continueJob, setAttempt, setFlow]

theorem length_runJob (plugins : Nat) (s : SceneImpl) (job : Job) (rest : List Job)
    (throwing : Option Nat) :
    (s.runJob plugins job rest throwing).attempts.length = s.attempts.length ∧
      (s.runJob plugins job rest throwing).flows.length = s.flows.length ∧
      (s.runJob plugins job rest throwing).connectTask = s.connectTask := by
  unfold runJob
  obtain ⟨current, completed, notified, published, returned, heq⟩ :=
    setConnectionStateInternal_keeps plugins { s with queue := rest } job.state throwing
  rw [heq]
  exact length_continueJob _ returned job

theorem decided_congr (h : s'.disconnectTask = s.disconnectTask) : s'.Decided = s.Decided := by
  unfold Decided
  rw [h]

theorem inv_runJob {job : Job} {rest : List Job} {throwing : Option Nat} (hi : s.DisconnectInv)
    (hqueue : s.queue = job :: rest) (hg : DisconnectsInTime s (.runJob throwing)) :
    (s.runJob plugins job rest throwing).DisconnectInv := by
  have hbase := base_runJob plugins throwing hi.base hqueue
  have htime := hg job (by rw [hqueue]; rfl)
  have hjob : job ∈ s.queue := hqueue ▸ List.mem_cons_self
  have hsucceeded := @succeeded_runJob plugins s job rest throwing
  have htask := (runJob_keeps plugins s job rest throwing).2
  obtain ⟨hattempts, hflows, hconnect⟩ := length_runJob plugins s job rest throwing
  have hran := runJob_ran plugins s job rest throwing
  generalize s.runJob plugins job rest throwing = s' at *
  refine ⟨hbase, ?_, ?_, ?_, ?_, htask ▸ hi.notItself⟩
  · rw [hconnect, hattempts]
    exact hi.connectTask
  · rw [decided_congr htask]
    intro hdecided
    cases hran with
    | void hvoid hstate =>
      rw [hstate]
      exact hi.decided hdecided
    | set hne hopen hstate =>
      rw [hstate]
      intro hconnected
      cases job with
      | connected n =>
        -- The scene has started, so it is connecting or disconnecting.
        have hstarted := started_of_job hi.base hjob nofun
        have hundecided : s.Decided = false := by
          refine htime.2 ?_
          rcases hstarted with hclosed | hnot
          · rw [hopen] at hclosed
            cases hclosed
          · cases hcurrent : s.connectionState with
            | disconnected => exact absurd hcurrent hnot
            | connecting => exact .inl rfl
            | connected => exact absurd hcurrent hne
            | disconnecting => exact .inr rfl
        rw [hdecided] at hundecided
        cases hundecided
      | _ => cases hconnected
  · rw [htask, hattempts]
    intro n hn
    obtain ⟨hlt, hnot⟩ := hi.attempt n hn
    refine ⟨hlt, ?_⟩
    intro hget
    rcases hsucceeded hget with hold | rfl
    · exact hnot hold
    · exact htime.1 hn
  · rw [htask, hflows]
    exact hi.flow

/-- A step that leaves the disconnection task. -/
theorem inv_keeps (hi : s.DisconnectInv) (hb : s'.Base)
    (hconnect : s'.connectTask = s.connectTask ∨ ∀ n, s'.connectTask = .attempt n →
      n < s'.attempts.length)
    (hstate : s'.connectionState = s.connectionState)
    (htask : s'.disconnectTask = s.disconnectTask)
    (hattempts : s.attempts.length ≤ s'.attempts.length)
    (hsucceeded : ∀ n : Nat, s'.attempts[n]? = some ConnectAttempt.succeeded →
      s.attempts[n]? = some ConnectAttempt.succeeded)
    (hflows : s.flows.length ≤ s'.flows.length) : s'.DisconnectInv := by
  refine ⟨hb, ?_, ?_, ?_, ?_, htask ▸ hi.notItself⟩
  · rcases hconnect with heq | hlt
    · rw [heq]
      exact fun n hn => Nat.lt_of_lt_of_le (hi.connectTask n hn) hattempts
    · exact hlt
  · rw [decided_congr htask, hstate]
    exact hi.decided
  · rw [htask]
    intro n hn
    obtain ⟨hlt, hnot⟩ := hi.attempt n hn
    exact ⟨Nat.lt_of_lt_of_le hlt hattempts, fun h => hnot (hsucceeded n h)⟩
  · rw [htask]
    exact fun n hn => Nat.lt_of_lt_of_le (hi.flow n hn) hflows

theorem succeeded_set_get {n m : Nat} {a : ConnectAttempt} (ha : a ≠ .succeeded)
    (h : (s.attempts.set n a)[m]? = some .succeeded) : s.attempts[m]? = some .succeeded := by
  rcases Heap.of_set h with ⟨-, h⟩ | ⟨-, heq⟩
  · exact h
  · exact absurd heq.symm ha

theorem succeeded_append {n : Nat} (h : (s.attempts ++ [.posted])[n]? = some .succeeded) :
    s.attempts[n]? = some .succeeded := by
  rcases Heap.of_make h with h | ⟨-, heq⟩
  · exact h
  · cases heq

theorem inv_done (hb : s.Base)
    (hconnect : ∀ n, s.connectTask = .attempt n → n < s.attempts.length)
    (hstate : s.connectionState ≠ .connected) (htask : s.disconnectTask = .done) :
    s.DisconnectInv := by
  refine ⟨hb, hconnect, fun _ => hstate, ?_, ?_, ?_⟩
  · intro n hn
    cases htask.symm.trans hn
  · intro n hn
    cases htask.symm.trans hn
  · intro hitself
    cases htask.symm.trans hitself

theorem inv_step {a : Action} (hi : s.DisconnectInv) (hg : DisconnectsInTime s a)
    (h : Transition plugins s a s') : s'.DisconnectInv := by
  have hb := base_step hi.base h
  cases h with
  | unchanged => exact hi
  | runJob throwing job rest hqueue => exact inv_runJob hi hqueue hg
  | connect =>
    refine inv_keeps hi hb (.inr ?_) rfl rfl (by simp) (fun _ => succeeded_append)
      (Nat.le_refl _)
    intro n hn
    cases hn
    simp
  | connectRefused =>
    exact inv_keeps hi hb (.inr (by simp)) rfl rfl (Nat.le_refl _) (fun _ => id) (Nat.le_refl _)
  | clientDisconnect =>
    exact inv_keeps hi hb (.inl rfl) rfl rfl (Nat.le_refl _) (fun _ => id) (by simp [startFlow])
  | hostDisconnecting | hostDisconnected | hostContinuation | cancelDisconnection =>
    exact inv_keeps hi hb (.inl rfl) rfl rfl (Nat.le_refl _) (fun _ => id) (Nat.le_refl _)
  | connectResult n | connectFails n =>
    exact inv_keeps hi hb (.inl rfl) rfl rfl (by simp [connectResult, setAttempt, post])
      (fun _ => succeeded_set_get (by simp)) (Nat.le_refl _)
  | disconnectRequestEnds n =>
    exact inv_keeps hi hb (.inl rfl) rfl rfl (Nat.le_refl _) (fun _ => id)
      (by simp [disconnectRequestEnds, setFlow, post])
  | disconnect connected canceled hfirst =>
    exact ⟨hb, hi.connectTask, by simp [Decided], by simp, by simp, by simp⟩
  | disconnectConnected =>
    refine ⟨hb, hi.connectTask, by simp [Decided], by simp, ?_, by simp⟩
    intro n hn
    cases hn
    simp [startFlow]
  | disconnectConnecting connected htask hstate t ht =>
    have hconnecting : s.connectionState ≠ .connected := by
      intro hconnected
      cases hstate.symm.trans hconnected
    rcases ht with rfl | ⟨m, rfl, hconnect⟩
    · exact inv_done hb hi.connectTask hconnecting rfl
    · refine ⟨hb, hi.connectTask, fun _ => hconnecting, ?_, by simp, by simp⟩
      intro n hn
      cases hn
      refine ⟨hi.connectTask m hconnect, ?_⟩
      -- An attempt that succeeded has left `Connecting` for good.
      intro hget
      rcases hi.base.succeeded (List.mem_of_getElem? hget) with hclosed | hleft | hleft
      · cases hstate.symm.trans (hi.base.completed hclosed)
      · cases hstate.symm.trans hleft
      · cases hstate.symm.trans hleft
  | disconnectOther connected htask hstate =>
    refine inv_done hb hi.connectTask ?_ rfl
    intro hconnected
    rcases hstate with hstate | hstate
    · cases hstate.symm.trans hconnected
    · cases hstate.symm.trans hconnected
  | disconnectSkipped htask hcanceled => exact inv_done hb hi.connectTask hg rfl
  | connectTaskEnded n a htask hphase hended =>
    have hfailed : a ≠ .succeeded := by
      rintro rfl
      exact (hi.attempt n htask).2 hphase
    have hdecided : s.Decided = true := by
      unfold Decided
      rw [htask]
    unfold connectTaskEnded at hb ⊢
    rw [if_neg hfailed] at hb ⊢
    exact inv_done hb hi.connectTask (hi.decided hdecided) rfl
  | flowEnded n htask hphase =>
    refine inv_done hb hi.connectTask ?_ rfl
    intro hconnected
    have hclosed := hi.base.done (List.mem_of_getElem? hphase)
    cases (hi.base.completed hclosed).symm.trans hconnected

theorem inv_initial : DisconnectInv initial :=
  ⟨base_initial, nofun, nofun, nofun, nofun, nofun⟩

/-! ### What the invariants give -/

theorem settled_of_quiescent (hi : s.DisconnectInv) (hq : s.Queued) (h : s.Quiescent) :
    s.Settled := by
  intro hrequested
  obtain ⟨hattempts, hflows⟩ := ended_of_quiescent hq h
  have hdone : s.disconnectTask = .done := by
    have htask := h.2.2.2.2
    cases heq : s.disconnectTask with
    | notRequested => exact absurd heq hrequested
    | peers connected =>
      rw [heq] at htask
      cases htask
    | attempt n =>
      rw [heq] at htask
      have hget := List.getElem?_eq_getElem (hi.attempt n heq).1
      have hopen := htask _ hget
      rw [hattempts n _ hget] at hopen
      cases hopen
    | flow n =>
      rw [heq] at htask
      have hget := List.getElem?_eq_getElem (hi.flow n heq)
      rw [hflows n _ hget] at hget
      exact absurd hget htask
    | itself => exact absurd heq hi.notItself
    | done => rfl
  refine ⟨hi.decided ?_, hdone⟩
  unfold Decided
  rw [hdone]

theorem noWaitCycle_of_inv (hi : s.DisconnectInv) : s.NoWaitCycle := by
  intro t hcycle
  -- Only the disconnection task waits, and not for itself.
  obtain ⟨u, hfirst, -⟩ := Relation.TransGen.head'_iff.mp hcycle
  obtain ⟨v, -, hlast⟩ := Relation.TransGen.tail'_iff.mp hcycle
  cases t with
  | attempt n | flow n => cases hfirst
  | disconnect =>
    cases v with
    | attempt n | flow n => cases hlast
    | disconnect =>
      simp only [waitsFor] at hlast
      split at hlast
      · cases hlast
      · cases hlast
      · next heq => exact hi.notItself heq
      · cases hlast

end DisconnectionLemmas

open DisconnectionLemmas

/-! ## Main results -/

/-- The actions that run or continue something outstanding. -/
def Action.outstanding : Action → Bool
  | .connect | .disconnect .. | .cancelDisconnection | .clientDisconnect | .hostState _ => false
  | _ => true

/-- In a quiescent state nothing goes on by itself. -/
theorem no_step_of_quiescent {plugins : Nat} {s : SceneImpl} {a : Action} (h : s.Quiescent)
    (ha : a.outstanding = true) : step plugins s a = none := by
  obtain ⟨hqueue, hattempts, hflows, hhost, htask⟩ := h
  cases a with
  | connect | disconnect | cancelDisconnection | clientDisconnect | hostState => cases ha
  | runJob throwing => simp only [step, hqueue]
  | connectResult n =>
    simp only [step]
    rw [if_neg fun h => hattempts _ (List.mem_of_getElem? h.1) rfl]
  | connectFails n =>
    simp only [step]
    rw [if_neg fun h => hattempts _ (List.mem_of_getElem? h) rfl]
  | disconnectRequestEnds n =>
    simp only [step]
    rw [if_neg fun h => hflows _ (List.mem_of_getElem? h) rfl]
  | hostContinuation => simp only [step, hhost]
  | disconnectFromHost =>
    simp only [step]
    split
    · next connected heq =>
      rw [heq] at htask
      cases htask
    · rfl
  | disconnectSkipped =>
    simp only [step]
    rw [if_neg]
    rintro ⟨heq, -⟩
    rw [heq] at htask
    exact htask
  | connectTaskEnded =>
    simp only [step]
    split
    · next n heq =>
      rw [heq] at htask
      rw [Option.map_eq_none_iff, Option.filter_eq_none_iff]
      intro a hget
      simp [htask a hget]
    · rfl
  | flowEnded =>
    simp only [step]
    split
    · next n heq =>
      rw [heq] at htask
      rw [if_neg htask]
    · rfl

/-- In every run whose steps meet the condition no task waits for itself, and when nothing is
outstanding a requested disconnection has taken place. -/
theorem disconnect_settles {plugins : Nat} {s : SceneImpl}
    (h : Lts.Reachable (step plugins) DisconnectsInTime initial s) :
    s.NoWaitCycle ∧ (s.Quiescent → s.Settled) := by
  have hi : s.DisconnectInv := h.invariant inv_initial
    fun _ _ _ hi hg hs => inv_step hi hg (transition_of_step hs)
  have hq : s.Queued := h.invariant queued_initial
    fun _ _ _ hq _ hs => queued_step hq (transition_of_step hs)
  exact ⟨noWaitCycle_of_inv hi, settled_of_quiescent hi hq⟩

/-- The connection is cancelled in time. -/
def cancelledInTime : List Action :=
  [.connect, .runJob none, .disconnect false false, .disconnectFromHost, .connectFails 0,
    .connectTaskEnded]

theorem disconnect_settles_cancelled :
    ∃ s, Lts.Reachable (step 1) DisconnectsInTime initial s ∧
      s.disconnectTask ≠ .notRequested ∧ s.Quiescent ∧ s.Settled := by
  obtain ⟨s, hs, hp⟩ := Lts.Reachable.of_exec (step 1) DisconnectsInTime initial cancelledInTime
    (fun s => decide (s.disconnectTask ≠ .notRequested ∧ s.Quiescent)) (by decide)
  obtain ⟨hrequested, hq⟩ := of_decide_eq_true hp
  exact ⟨s, hs, hrequested, hq, (disconnect_settles hs).2 hq⟩

/-- The result of the connection request has been handled when the connection is cancelled. -/
def cancelledTooLate : List Action :=
  [.connect, .runJob none, .disconnect false false, .connectResult 0, .disconnectFromHost,
    .runJob none, .connectTaskEnded]

/-- A connected scene without peers is disconnected with a token that is cancelled at once. -/
def tokenCancelled : List Action :=
  [.connect, .runJob none, .connectResult 0, .runJob none, .disconnect false true,
    .disconnectSkipped]

/-- The disconnection task waits for itself, or it is done; the scene stays connected. -/
theorem disconnect_waits_for_itself :
    (¬ ∀ plugins s, Lts.Reachable (step plugins) Lts.anyStep initial s →
      s.NoWaitCycle ∧ (s.Quiescent → s.Settled)) ∧
      ∃ s, Lts.Reachable (step 0) Lts.anyStep initial s ∧ s.Quiescent ∧ ¬ s.Settled ∧
        s.disconnectTask = .done := by
  constructor
  · intro hclaim
    obtain ⟨s, hs, hp⟩ := Lts.Reachable.of_exec (step 0) Lts.anyStep initial cancelledTooLate
      (fun s => decide (s.disconnectTask = .itself ∧ s.connectionState = .connected ∧
        s.Quiescent)) (by decide)
    obtain ⟨hitself, hconnected, hq⟩ := of_decide_eq_true hp
    have hsettled := (hclaim 0 s hs).2 hq (by rw [hitself]; nofun)
    exact hsettled.1 hconnected
  · obtain ⟨s, hs, hp⟩ := Lts.Reachable.of_exec (step 0) Lts.anyStep initial tokenCancelled
      (fun s => decide (s.disconnectTask = .done ∧ s.connectionState = .connected ∧
        s.Quiescent)) (by decide)
    obtain ⟨hdone, hconnected, hq⟩ := of_decide_eq_true hp
    exact ⟨s, hs, hq, fun hsettled => (hsettled (by rw [hdone]; nofun)).1 hconnected, hdone⟩

end Stormancer.Scene.SceneImpl
