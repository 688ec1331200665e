import Stormancer.Scene.Connection

/-!
# The order of the states of a scene

The job that sets `Connected` is posted when the connection request has succeeded. A
disconnection can be posted and run in between, and `setConnectionStateInternal` only refuses
the state that the scene already has.

Results:
1. `states_in_order`: in every run in which no plugin throws and no job sets `Connected` on a
   scene that is disconnecting, the published states are in order, and each plugin was notified
   of exactly the published states.
2. `connected_after_disconnecting`: the host connection is closed between the result of the
   connection request and the job that sets `Connected`.
-/

namespace Stormancer.Scene.SceneImpl

open ConnectionLemmas

/-! ## The property -/

/-- The states that a plugin was notified of. -/
def notificationsOf (s : SceneImpl) (p : Nat) : List ConnectionState :=
  s.notified.filterMap fun n => if n.1 = p then some n.2 else none

/-- The published states are the beginning of one of the two orders, and each plugin was notified
once of each of them, in this order. -/
def InOrder (plugins : Nat) (s : SceneImpl) : Prop :=
  (s.published <+: [.connecting, .connected, .disconnecting, .disconnected] ∨
    s.published <+: [.connecting, .disconnecting, .disconnected]) ∧
  ∀ p < plugins, s.notificationsOf p = s.published

/-- The condition on a step: no handler of a plugin throws, and `Connected` is not set on a scene
that is disconnecting. -/
def ConnectsInTime (s : SceneImpl) : Action → Prop
  | .runJob throwing => throwing = none ∧
    ∀ job ∈ s.queue.head?, job.state = .connected → s.connectionState ≠ .disconnecting
  | _ => True

instance (s : SceneImpl) : (a : Action) → Decidable (ConnectsInTime s a)
  | .runJob _ => by unfold ConnectsInTime; infer_instance
  | .connect | .disconnect .. | .cancelDisconnection | .clientDisconnect | .hostState _
  | .connectResult _ | .connectFails _ | .disconnectRequestEnds _ | .hostContinuation
  | .disconnectFromHost | .disconnectSkipped
  | .connectTaskEnded | .flowEnded => inferInstanceAs (Decidable True)

/-! ## The invariant -/

/-- What was published, by the state of the scene and whether its observable is completed. -/
inductive Trace : ConnectionState → Bool → List ConnectionState → Prop
  | start : Trace .disconnected false []
  | connecting : Trace .connecting false [.connecting]
  | connected : Trace .connected false [.connecting, .connected]
  | disconnecting {l : List ConnectionState} (h : l = [.connecting] ∨ l = [.connecting, .connected]) :
      Trace .disconnecting false (l ++ [.disconnecting])
  | disconnected {l : List ConnectionState} (h : l = [.connecting] ∨ l = [.connecting, .connected]) :
      Trace .disconnected true (l ++ [.disconnecting] ++ [.disconnected])

/-- `Disconnecting` was set. -/
def Leaving (s : SceneImpl) : Prop := s.completed = true ∨ s.connectionState = .disconnecting

structure OrderInv (plugins : Nat) (s : SceneImpl) : Prop where
  base : s.Base
  trace : Trace s.connectionState s.completed s.published
  plugins : ∀ p < plugins, s.notificationsOf p = s.published
  /-- What sets `Disconnected`, or will post the job that does, comes after `Disconnecting`. -/
  jobs : ∀ job ∈ s.queue, job.state = .disconnected → s.Leaving
  flows : DisconnectFlow.requesting ∈ s.flows → s.Leaving
  host : s.hostContinuations ≠ 0 → s.Leaving

namespace StateOrderLemmas

variable {plugins : Nat} {s s' : SceneImpl}

theorem filterMap_range (p n : Nat) (state : ConnectionState) :
    ((List.range n).map (·, state)).filterMap (fun x => if x.1 = p then some x.2 else none) =
      if p < n then [state] else [] := by
  induction n with
  | zero => rfl
  | succ n ih =>
    rw [List.range_succ, List.map_append, List.filterMap_append, ih]
    rcases Nat.lt_trichotomy p n with hlt | heq | hgt
    · simp [hlt, Nat.lt_succ_of_lt hlt, Nat.ne_of_gt hlt]
    · simp [heq]
    · have hnot : ¬ p < n + 1 := Nat.not_lt.mpr hgt
      simp [hnot, Nat.not_lt.mpr (Nat.le_of_lt hgt), Nat.ne_of_lt hgt]

theorem requesting_continueJob {returned : Bool} {job : Job}
    (h : DisconnectFlow.requesting ∈ (s.continueJob returned job).flows) :
    DisconnectFlow.requesting ∈ s.flows ∨ job.state = .disconnecting := by
  cases job with
  | disconnecting n => exact .inr rfl
  | disconnected n =>
    rcases List.mem_or_eq_of_mem_set h with hold | heq
    · exact .inl hold
    · cases heq
  | hostDisconnecting last => exact .inr rfl
  | _ => exact .inl h

theorem host_continueJob {returned : Bool} {job : Job}
    (h : (s.continueJob returned job).hostContinuations ≠ 0) :
    s.hostContinuations ≠ 0 ∨ job.state = .disconnecting := by
  cases job with
  | hostDisconnecting last => exact .inr rfl
  | _ => exact .inl h

/-- The continuations that a job leaves come after `Disconnecting`. -/
theorem pending_runJob {job : Job} {rest : List Job} {throwing : Option Nat}
    (h : DisconnectFlow.requesting ∈ (s.runJob plugins job rest throwing).flows ∨
      (s.runJob plugins job rest throwing).hostContinuations ≠ 0) :
    DisconnectFlow.requesting ∈ s.flows ∨ s.hostContinuations ≠ 0 ∨
      job.state = .disconnecting := by
  unfold runJob at h
  obtain ⟨current, completed, notified, published, returned, heq⟩ :=
    setConnectionStateInternal_keeps plugins { s with queue := rest } job.state throwing
  rw [heq] at h
  rcases h with hflow | hhost
  · have hcases := requesting_continueJob hflow
    exact hcases.imp_right .inr
  · have hcases := host_continueJob hhost
    exact .inr hcases

theorem leaving_runJob (plugins : Nat) {job : Job} {rest : List Job} {throwing : Option Nat}
    (hb : s.Base) (hqueue : s.queue = job :: rest) (hg : ConnectsInTime s (.runJob throwing))
    (h : s.Leaving) : (s.runJob plugins job rest throwing).Leaving := by
  have hran := runJob_ran plugins s job rest throwing
  unfold Leaving at h ⊢
  cases hran with
  | void hvoid hstate hcompleted =>
    rw [hstate, hcompleted]
    exact h
  | set hne hopen hstate hcompleted =>
    have hleaving : s.connectionState = .disconnecting := by
      rcases h with hclosed | hleaving
      · rw [hopen] at hclosed
        cases hclosed
      · exact hleaving
    rw [hstate, hcompleted, decide_eq_true_eq]
    cases hjob : job.state with
    | disconnected => exact .inl rfl
    | connecting =>
      exact absurd hjob (hb.left (.inr hleaving) job (hqueue ▸ List.mem_cons_self))
    | connected => exact absurd hleaving (hg.2 job (by rw [hqueue]; rfl) hjob)
    | disconnecting => exact .inr rfl

/-- After a job that sets `Disconnecting`, the scene is leaving. -/
theorem leaving_of_disconnecting {job : Job} {rest : List Job} {throwing : Option Nat}
    (hjob : job.state = .disconnecting) : (s.runJob plugins job rest throwing).Leaving := by
  have hran := runJob_ran plugins s job rest throwing
  unfold Leaving
  cases hran with
  | void hvoid hstate hcompleted =>
    rw [hstate, hcompleted, ← hjob]
    exact hvoid.symm
  | set hne hopen hstate hcompleted =>
    rw [hstate]
    exact .inr hjob

/-- A job that sets a state, sets the one that comes next. -/
theorem trace_set {job : Job} {rest : List Job} {throwing : Option Nat} (hi : s.OrderInv plugins)
    (hqueue : s.queue = job :: rest) (hg : ConnectsInTime s (.runJob throwing))
    (hne : s.connectionState ≠ job.state) (hopen : s.completed = false) :
    Trace job.state (decide (job.state = ConnectionState.disconnected))
      (s.published ++ [job.state]) := by
  have hjob : job ∈ s.queue := hqueue ▸ List.mem_cons_self
  have htrace := hi.trace
  have hleft := fun h => hi.base.left h job hjob
  have hstart : s.connectionState = .disconnected → job.state = .connecting := by
    intro hstate
    refine (hi.base.first ?_).1 job hjob
    rintro (hclosed | hnot)
    · rw [hopen] at hclosed
      cases hclosed
    · exact hnot hstate
  have hlast : job.state = .disconnected → s.connectionState = .disconnecting := by
    intro hdisconnected
    rcases hi.jobs job hjob hdisconnected with hclosed | hleaving
    · rw [hopen] at hclosed
      cases hclosed
    · exact hleaving
  have htime := hg.2 job (by rw [hqueue]; rfl)
  generalize s.connectionState = current at *
  generalize s.published = published at *
  rw [hopen] at htrace
  cases htrace with
  | start =>
    rw [hstart rfl]
    exact .connecting
  | connecting =>
    cases hstate : job.state with
    | connecting => exact absurd hstate.symm hne
    | connected => exact .connected
    | disconnecting => exact .disconnecting (.inl rfl)
    | disconnected => cases hlast hstate
  | connected =>
    cases hstate : job.state with
    | connecting => exact absurd hstate (hleft (.inl rfl))
    | connected => exact absurd hstate.symm hne
    | disconnecting => exact .disconnecting (.inr rfl)
    | disconnected => cases hlast hstate
  | disconnecting h =>
    cases hstate : job.state with
    | connecting => exact absurd hstate (hleft (.inr rfl))
    | connected => exact absurd rfl (htime hstate)
    | disconnecting => exact absurd hstate.symm hne
    | disconnected => exact .disconnected h

theorem inv_runJob {job : Job} {rest : List Job} {throwing : Option Nat}
    (hi : s.OrderInv plugins) (hqueue : s.queue = job :: rest)
    (hg : ConnectsInTime s (.runJob throwing)) :
    (s.runJob plugins job rest throwing).OrderInv plugins := by
  have hbase := base_runJob plugins throwing hi.base hqueue
  have hleaving := leaving_runJob plugins hi.base hqueue hg
  have hset := @leaving_of_disconnecting plugins s job rest throwing
  have hpending := @pending_runJob plugins s job rest throwing
  have hkeeps := (runJob_keeps plugins s job rest throwing).1
  have hran := runJob_ran plugins s job rest throwing
  generalize s.runJob plugins job rest throwing = s' at *
  have hcontinues : DisconnectFlow.requesting ∈ s'.flows ∨ s'.hostContinuations ≠ 0 →
      s'.Leaving := by
    intro h
    rcases hpending h with hflow | hhost | hstate
    · exact hleaving (hi.flows hflow)
    · exact hleaving (hi.host hhost)
    · exact hset hstate
  refine ⟨hbase, ?_, ?_, ?_, fun h => hcontinues (.inl h), fun h => hcontinues (.inr h)⟩
  · cases hran with
    | void hvoid hstate hcompleted hpublished =>
      rw [hstate, hcompleted, hpublished]
      exact hi.trace
    | set hne hopen hstate hcompleted hreturned =>
      rw [hstate, hcompleted, (hreturned hg.1).1]
      exact trace_set hi hqueue hg hne hopen
  · intro p hp
    cases hran with
    | void hvoid hstate hcompleted hpublished hnotified =>
      unfold notificationsOf
      rw [hpublished, hnotified]
      exact hi.plugins p hp
    | set hne hopen hstate hcompleted hreturned =>
      obtain ⟨hpublished, hnotified⟩ := hreturned hg.1
      have hold := hi.plugins p hp
      unfold notificationsOf at hold ⊢
      rw [hpublished, hnotified, List.filterMap_append, hold, filterMap_range, if_pos hp]
  · rw [hkeeps]
    intro j hj hdisconnected
    exact hleaving (hi.jobs j (hqueue ▸ List.mem_cons_of_mem _ hj) hdisconnected)

/-- A step that runs no job: what it posts and what it leaves to continue comes after
`Disconnecting`, if it is or leads to `Disconnected`. -/
theorem inv_keeps (hi : s.OrderInv plugins) (hb : s'.Base)
    (hstate : s'.connectionState = s.connectionState) (hcompleted : s'.completed = s.completed)
    (hpublished : s'.published = s.published) (hnotified : s'.notified = s.notified)
    (hjobs : ∀ job ∈ s'.queue, job.state = .disconnected → job ∈ s.queue ∨ s.Leaving)
    (hflows : DisconnectFlow.requesting ∈ s'.flows → DisconnectFlow.requesting ∈ s.flows)
    (hhost : s'.hostContinuations ≠ 0 → s.hostContinuations ≠ 0 ∨ s.Leaving) :
    s'.OrderInv plugins := by
  have hleaving : s'.Leaving ↔ s.Leaving := by
    unfold Leaving
    rw [hstate, hcompleted]
  refine ⟨hb, ?_, ?_, ?_, ?_, ?_⟩
  · rw [hstate, hcompleted, hpublished]
    exact hi.trace
  · unfold notificationsOf
    rw [hpublished, hnotified]
    exact hi.plugins
  · intro job hmem hdisconnected
    rw [hleaving]
    rcases hjobs job hmem hdisconnected with hold | h
    · exact hi.jobs job hold hdisconnected
    · exact h
  · rw [hleaving]
    exact fun h => hi.flows (hflows h)
  · rw [hleaving]
    intro h
    rcases hhost h with hold | h
    · exact hi.host hold
    · exact h

theorem jobs_append {new : Job} (hnew : new.state = .disconnected → s.Leaving) :
    ∀ job ∈ s.queue ++ [new], job.state = .disconnected → job ∈ s.queue ∨ s.Leaving := by
  intro job hmem hdisconnected
  rcases List.mem_append.mp hmem with hmem | hmem
  · exact .inl hmem
  · rw [List.mem_singleton.mp hmem] at hdisconnected
    exact .inr (hnew hdisconnected)

theorem requesting_set {n : Nat} {f : DisconnectFlow} (hf : f ≠ .requesting)
    (h : DisconnectFlow.requesting ∈ s.flows.set n f) : DisconnectFlow.requesting ∈ s.flows :=
  (List.mem_or_eq_of_mem_set h).resolve_right (Ne.symm hf)

theorem requesting_append (h : DisconnectFlow.requesting ∈ s.flows ++ [.posted]) :
    DisconnectFlow.requesting ∈ s.flows := by
  rcases List.mem_append.mp h with h | h
  · exact h
  · cases List.mem_singleton.mp h

theorem inv_initial : OrderInv plugins initial := by
  refine ⟨base_initial, .start, ?_, ?_, ?_, ?_⟩
  · intro p _
    rfl
  · intro job hmem
    cases hmem
  · intro hmem
    cases hmem
  · exact fun h => absurd rfl h

theorem inv_step {a : Action} (hi : s.OrderInv plugins) (hg : ConnectsInTime s a)
    (h : Transition plugins s a s') : s'.OrderInv plugins := by
  have hb := base_step hi.base h
  have hkept : ∀ job ∈ s.queue, job.state = .disconnected → job ∈ s.queue ∨ s.Leaving :=
    fun _ hmem _ => .inl hmem
  cases h with
  | unchanged => exact hi
  | runJob throwing job rest hqueue => exact inv_runJob hi hqueue hg
  | connect => exact inv_keeps hi hb rfl rfl rfl rfl (jobs_append nofun) id .inl
  | connectRefused | disconnect | cancelDisconnection | connectFails | disconnectConnecting
  | disconnectOther | disconnectSkipped | connectTaskEnded | flowEnded =>
    exact inv_keeps hi hb rfl rfl rfl rfl hkept id .inl
  | clientDisconnect | disconnectConnected =>
    exact inv_keeps hi hb rfl rfl rfl rfl (jobs_append nofun) requesting_append .inl
  | hostDisconnecting => exact inv_keeps hi hb rfl rfl rfl rfl (jobs_append nofun) id .inl
  | hostDisconnected hstate =>
    exact inv_keeps hi hb rfl rfl rfl rfl hkept id fun _ => .inr (.inr hstate)
  | connectResult => exact inv_keeps hi hb rfl rfl rfl rfl (jobs_append nofun) id .inl
  | disconnectRequestEnds n hphase =>
    have hleaving := hi.flows (List.mem_of_getElem? hphase)
    exact inv_keeps hi hb rfl rfl rfl rfl (jobs_append fun _ => hleaving)
      (requesting_set nofun) .inl
  | hostContinuation n hpending =>
    have hleaving := hi.host (by rw [hpending]; nofun)
    exact inv_keeps hi hb rfl rfl rfl rfl (jobs_append fun _ => hleaving) id
      fun _ => .inr hleaving

/-- Every trace is the beginning of one of the two orders. -/
theorem inOrder_of_trace {state : ConnectionState} {completed : Bool} {l : List ConnectionState}
    (h : Trace state completed l) :
    l <+: [.connecting, .connected, .disconnecting, .disconnected] ∨
      l <+: [.connecting, .disconnecting, .disconnected] := by
  cases h with
  | start | connecting | connected => exact .inl (by decide)
  | disconnecting h | disconnected h =>
    rcases h with rfl | rfl
    · exact .inr (by decide)
    · exact .inl (by decide)

end StateOrderLemmas

open StateOrderLemmas

/-! ## Main results -/

/-- In every run whose steps meet the condition the states are published in order, and every
plugin is notified once of each of them, in this order. -/
theorem states_in_order {plugins : Nat} {s : SceneImpl}
    (h : Lts.Reachable (step plugins) ConnectsInTime initial s) : InOrder plugins s := by
  have hi : s.OrderInv plugins := h.invariant inv_initial
    fun _ _ _ hi hg hs => inv_step hi hg (transition_of_step hs)
  exact ⟨inOrder_of_trace hi.trace, hi.plugins⟩

/-- The scene is connected, then the host connection is closed and is lost. -/
def hostLost : List Action :=
  [.connect, .runJob none, .connectResult 0, .runJob none, .hostState .disconnecting,
    .runJob none, .hostState .disconnected, .hostContinuation, .runJob none]

theorem states_in_order_hostLost :
    ∃ s, Lts.Reachable (step 2) ConnectsInTime initial s ∧ s.completed = true ∧ InOrder 2 s := by
  obtain ⟨s, hs, hp⟩ := Lts.Reachable.of_exec (step 2) ConnectsInTime initial hostLost
    (fun s => s.completed) (by decide)
  exact ⟨s, hs, hp, states_in_order hs⟩

/-- The host connection is closed after the connection request succeeded and before the job that
sets `Connected` is posted. -/
def hostClosing : List Action :=
  [.connect, .runJob none, .hostState .disconnecting, .connectResult 0, .runJob none,
    .runJob none]

/-- `Connected` is published after `Disconnecting`. -/
theorem connected_after_disconnecting :
    ¬ ∀ plugins s, Lts.Reachable (step plugins) Lts.anyStep initial s → InOrder plugins s := by
  intro hclaim
  obtain ⟨s, hs, hp⟩ := Lts.Reachable.of_exec (step 0) Lts.anyStep initial hostClosing
    (fun s => decide (s.published = [.connecting, .disconnecting, .connected])) (by decide)
  have horder := (hclaim 0 s hs).1
  rw [of_decide_eq_true hp] at horder
  revert horder
  decide

end Stormancer.Scene.SceneImpl
