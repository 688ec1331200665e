import Stormancer.Scene.Disconnection

/-!
# The failure of a connection

Nothing in `Client::connectToScene` or in `Scene_Impl::connect` sets the state of the scene when an
attempt fails: not when a handler throws, nor when the client, the connection to the host or the
request fails, the result cannot be read, or the token is canceled. The scene gets to
`Disconnected` only through a disconnection that something else has started: the loss of the
connection to the host, or a `Client::disconnect` of a scene that is connected.

Results:
1. `failure_undone`: as long as a connection fails only when the scene is disconnected or a
   disconnection is under way, which no handler cuts off, a failed connection is undone when
   nothing is outstanding. A step leads out of this exactly when it fails the condition.
2. `failed_stays_connecting`: the connection request fails.
-/

namespace Stormancer.Scene

/-- The job sets `Disconnected`, or what continues after it leads there. -/
def Job.undoes : Job → Bool
  | .disconnecting _ | .disconnected _ | .hostDisconnecting true | .hostDisconnected => true
  | .connecting _ | .connected _ | .hostDisconnecting false => false

namespace SceneImpl

open ConnectionLemmas DisconnectionLemmas

/-! ## The property -/

/-- `_connectTask` is the task of an attempt that has failed. -/
def connectFailed (s : SceneImpl) : Bool :=
  match s.connectTask with
  | .attempt n => s.attempts[n]? = some .failed
  | _ => false

/-- A disconnection of the scene is under way. -/
def underWay (s : SceneImpl) : Bool :=
  0 < s.hostContinuations || s.queue.any Job.undoes || s.flows.any (· = .requesting)

/-- When nothing is outstanding, a failed connection has been undone. -/
def Undone (s : SceneImpl) : Prop :=
  s.Quiescent → s.connectFailed = true → s.connectionState = .disconnected

/-- A failed connection has been undone, or it is going to be. -/
def Undoing (s : SceneImpl) : Prop :=
  s.connectFailed = true → s.connectionState = .disconnected ∨ s.underWay = true

/-! ## The condition -/

/-- A handler throws while the job sets the state. -/
def cutOff (plugins : Nat) (s : SceneImpl) (job : Job) (throwing : Option Nat) : Bool :=
  s.connectionState ≠ job.state && !s.completed && (throwing.filter (· < plugins)).isSome

/-- Cut off, the job leaves a connection that has failed: it fails it, or it was going to undo the
failure. -/
def leavesFailed (s : SceneImpl) : Job → Bool
  | .connecting n | .connected n => s.connectTask = .attempt n
  | .hostDisconnecting true => s.connectFailed
  | _ => false

/-- A job that leaves a failed connection is cut off only when a disconnection is under way
besides it. -/
def jobUndone (plugins : Nat) (s : SceneImpl) (job : Job) (rest : List Job)
    (throwing : Option Nat) : Bool :=
  !(s.cutOff plugins job throwing && s.leavesFailed job) || underWay { s with queue := rest }

/-- The attempt of `_connectTask` fails only when the scene is disconnected or a disconnection is
under way; and when it has failed, no handler cuts off the last disconnection. -/
def undoesFailure (plugins : Nat) (s : SceneImpl) : Action → Bool
  | .connectFails n =>
    s.connectTask ≠ .attempt n || s.connectionState = .disconnected || s.underWay
  | .runJob throwing =>
    match s.queue with
    | [] => true
    | job :: rest => s.jobUndone plugins job rest throwing
  | _ => true

abbrev UndoesFailure (plugins : Nat) (s : SceneImpl) (a : Action) : Prop :=
  s.undoesFailure plugins a = true

/-! ## The invariants -/

/-- The attempt of `_connectTask` and the disconnections of the jobs were made. -/
structure Numbered (s : SceneImpl) : Prop where
  attempt : ∀ n, s.connectTask = .attempt n → n < s.attempts.length
  flow : ∀ n, Job.disconnecting n ∈ s.queue → n < s.flows.length

namespace FailedConnectionLemmas

variable {plugins : Nat} {s s' : SceneImpl} {job : Job} {rest : List Job} {throwing : Option Nat}

theorem connectFailed_iff : s.connectFailed = true ↔
    ∃ n, s.connectTask = .attempt n ∧ s.attempts[n]? = some .failed := by
  unfold connectFailed
  split
  · next n htask => simp [htask]
  · next hnot =>
    refine ⟨fun h => absurd h Bool.false_ne_true, ?_⟩
    rintro ⟨n, htask, -⟩
    exact absurd htask (hnot n)

theorem underWay_iff : s.underWay = true ↔ 0 < s.hostContinuations ∨
    (∃ job ∈ s.queue, job.undoes = true) ∨ DisconnectFlow.requesting ∈ s.flows := by
  unfold underWay
  rw [Bool.or_eq_true, Bool.or_eq_true, List.any_eq_true, List.any_eq_true, decide_eq_true_eq,
    or_assoc]
  simp

/-- A step that keeps what the property is about, or adds to what is under way. -/
theorem undoing_mono (h : s.Undoing) (hfailed : s'.connectFailed = true → s.connectFailed = true)
    (hstate : s'.connectionState = s.connectionState)
    (hhost : s.hostContinuations ≤ s'.hostContinuations) (hqueue : s.queue ⊆ s'.queue)
    (hflows : DisconnectFlow.requesting ∈ s.flows → DisconnectFlow.requesting ∈ s'.flows) :
    s'.Undoing := by
  intro hnow
  rw [hstate, underWay_iff]
  refine (h (hfailed hnow)).imp_right fun hunder => ?_
  rcases underWay_iff.mp hunder with hcont | ⟨job, hjob, hundoes⟩ | hflow
  · exact .inl (Nat.lt_of_lt_of_le hcont hhost)
  · exact .inr (.inl ⟨job, hqueue hjob, hundoes⟩)
  · exact .inr (.inr (hflows hflow))

theorem undoing_of_job (job : Job) (hjob : job ∈ s.queue) (hundoes : job.undoes = true) :
    s.Undoing :=
  fun _ => .inr (underWay_iff.mpr (.inr (.inl ⟨job, hjob, hundoes⟩)))

theorem undoing_of_not_failed (h : ∀ n, s.connectTask = .attempt n →
    s.attempts[n]? ≠ some .failed) : s.Undoing := by
  intro hfailed
  obtain ⟨n, htask, hphase⟩ := connectFailed_iff.mp hfailed
  exact absurd hphase (h n htask)

/-- An attempt that has failed left its first phase, so a scene that is disconnected then is
closed. -/
theorem completed_of_failed (hb : s.Base) (hfailed : s.connectFailed = true)
    (hstate : s.connectionState = .disconnected) : s.completed = true := by
  obtain ⟨n, -, hphase⟩ := connectFailed_iff.mp hfailed
  by_contra hopen
  have hnot : ¬ s.Started := by
    rintro (hcompleted | hne)
    · exact hopen hcompleted
    · exact hne hstate
  cases (hb.first hnot).2.1 _ (List.mem_of_getElem? hphase)

theorem jobUndone_iff : s.jobUndone plugins job rest throwing = true ↔
    (s.cutOff plugins job throwing = true → s.leavesFailed job = true →
      underWay { s with queue := rest } = true) := by
  unfold jobUndone
  cases s.cutOff plugins job throwing <;> cases s.leavesFailed job <;> simp

/-! ### Jobs -/

theorem setConnectionStateInternal_returned (plugins : Nat) (s : SceneImpl) (rest : List Job)
    (job : Job) (throwing : Option Nat) :
    (setConnectionStateInternal plugins { s with queue := rest } job.state throwing).2 =
      !s.cutOff plugins job throwing := by
  unfold setConnectionStateInternal cutOff
  split
  · next hcond =>
    obtain ⟨hne, hopen⟩ : s.connectionState ≠ job.state ∧ s.completed = false := hcond
    cases throwing.filter (· < plugins) <;> simp [hne, hopen]
  · next hcond =>
    have hvoid : ¬ (s.connectionState ≠ job.state ∧ s.completed = false) := hcond
    by_cases hne : s.connectionState = job.state
    · simp [hne]
    · simp [show s.completed = true by simpa [hne] using hvoid]

/-- A job sets the state, and then what follows it writes the phases. -/
theorem runJob_eq (plugins : Nat) (s : SceneImpl) (job : Job) (rest : List Job)
    (throwing : Option Nat) : ∃ current completed notified published,
      s.runJob plugins job rest throwing = continueJob { s with
        queue := rest
        connectionState := current
        completed := completed
        notified := notified
        published := published } (!s.cutOff plugins job throwing) job := by
  unfold runJob
  obtain ⟨current, completed, notified, published, returned, heq⟩ :=
    setConnectionStateInternal_keeps plugins { s with queue := rest } job.state throwing
  have hreturned := setConnectionStateInternal_returned plugins s rest job throwing
  rw [heq] at hreturned ⊢
  dsimp only at hreturned ⊢
  rw [hreturned]
  exact ⟨_, _, _, _, rfl⟩

theorem failed_continueJob {returned : Bool} {n : Nat}
    (h : (s.continueJob returned job).attempts[n]? = some .failed) :
    s.attempts[n]? = some .failed ∨
      returned = false ∧ (job = .connecting n ∨ job = .connected n) := by
  cases job with
  | connecting m =>
    rcases Heap.of_set h with ⟨-, hold⟩ | ⟨rfl, heq⟩
    · exact .inl hold
    · cases returned with
      | true => cases heq
      | false => exact .inr ⟨rfl, .inl rfl⟩
  | connected m =>
    rcases Heap.of_set h with ⟨-, hold⟩ | ⟨rfl, heq⟩
    · exact .inl hold
    · cases returned with
      | true => cases heq
      | false => exact .inr ⟨rfl, .inr rfl⟩
  | hostDisconnecting last =>
    unfold continueJob at h
    dsimp only at h
    split at h
    · exact .inl h
    · exact .inl h
  | _ => exact .inl h

/-- What a job that is not the last one of a `Client::disconnect` leaves under way. -/
theorem underWay_continueJob {returned : Bool} (hjob : ∀ n, job ≠ .disconnected n)
    (h : s.underWay = true) : (s.continueJob returned job).underWay = true := by
  rw [underWay_iff] at h ⊢
  cases job with
  | disconnecting n =>
    refine h.imp_right fun h => h.imp_right fun hflow => ?_
    obtain ⟨m, hm⟩ := List.mem_iff_getElem?.mp hflow
    refine List.mem_iff_getElem?.mpr ⟨m, ?_⟩
    change (s.flows.set n .requesting)[m]? = some .requesting
    rw [List.getElem?_set]
    split
    · next heq =>
      subst heq
      rw [if_pos (List.getElem?_eq_some_iff.mp hm).1]
    · exact hm
  | disconnected n => exact absurd rfl (hjob n)
  | hostDisconnecting last =>
    unfold continueJob
    dsimp only
    split
    · exact h.imp_left Nat.lt_succ_of_lt
    · exact h
  | _ => exact h

theorem completed_runJob (hb : s.Base) (hcompleted : s.completed = true) :
    (s.runJob plugins job rest throwing).connectionState = .disconnected := by
  have hran := runJob_ran plugins s job rest throwing
  cases hran with
  | void hvoid hstate =>
    rw [hstate]
    exact hb.completed hcompleted
  | set hne hopen =>
    rw [hcompleted] at hopen
    cases hopen

/-- After a job that sets `Disconnected` the scene is disconnected. -/
theorem disconnected_runJob (hb : s.Base) (hjob : job.state = .disconnected) :
    (s.runJob plugins job rest throwing).connectionState = .disconnected := by
  have hran := runJob_ran plugins s job rest throwing
  cases hran with
  | void hvoid hstate =>
    rw [hstate]
    rcases hvoid with heq | hcompleted
    · exact heq.trans hjob
    · exact hb.completed hcompleted
  | set hne hopen hstate =>
    rw [hstate]
    exact hjob

/-- What is under way besides the job goes on after it, or the scene is disconnected. -/
theorem underWay_runJob (hb : s.Base) (h : SceneImpl.underWay { s with queue := rest } = true) :
    (s.runJob plugins job rest throwing).connectionState = .disconnected ∨
      (s.runJob plugins job rest throwing).underWay = true := by
  by_cases hjob : ∃ n, job = .disconnected n
  · obtain ⟨n, rfl⟩ := hjob
    exact .inl (disconnected_runJob hb rfl)
  · obtain ⟨current, completed, notified, published, heq⟩ := runJob_eq plugins s job rest throwing
    rw [heq]
    exact .inr (underWay_continueJob (fun n hn => hjob ⟨n, hn⟩) h)

/-- A job that undoes the connection and is not cut off leads on. -/
theorem undoes_runJob (hb : s.Base) (hn : s.Numbered) (hqueue : s.queue = job :: rest)
    (hundoes : job.undoes = true)
    (hkept : s.cutOff plugins job throwing = false ∨ job ≠ .hostDisconnecting true) :
    (s.runJob plugins job rest throwing).connectionState = .disconnected ∨
      (s.runJob plugins job rest throwing).underWay = true := by
  cases job with
  | disconnected n => exact .inl (disconnected_runJob hb rfl)
  | hostDisconnected => exact .inl (disconnected_runJob hb rfl)
  | connecting n => cases hundoes
  | connected n => cases hundoes
  | disconnecting n =>
    have hlt : n < s.flows.length := hn.flow n (by rw [hqueue]; exact List.mem_cons_self)
    obtain ⟨current, completed, notified, published, heq⟩ :=
      runJob_eq plugins s (.disconnecting n) rest throwing
    rw [heq, underWay_iff]
    exact .inr (.inr (.inr (Heap.mem_set_self (List.getElem?_eq_getElem hlt) _)))
  | hostDisconnecting last =>
    cases last with
    | false => cases hundoes
    | true =>
      have hreturns : s.cutOff plugins (.hostDisconnecting true) throwing = false :=
        hkept.resolve_right fun hne => hne rfl
      obtain ⟨current, completed, notified, published, heq⟩ :=
        runJob_eq plugins s (.hostDisconnecting true) rest throwing
      rw [heq, hreturns, underWay_iff]
      exact .inr (.inl (Nat.succ_pos _))

theorem underWay_cons (hqueue : s.queue = job :: rest) (h : s.underWay = true) :
    job.undoes = true ∨ SceneImpl.underWay { s with queue := rest } = true := by
  rw [underWay_iff] at h ⊢
  rw [hqueue] at h
  rcases h with hhost | ⟨j, hj, hundoes⟩ | hflow
  · exact .inr (.inl hhost)
  · rcases List.mem_cons.mp hj with rfl | hj
    · exact .inl hundoes
    · exact .inr (.inr (.inl ⟨j, hj, hundoes⟩))
  · exact .inr (.inr (.inr hflow))

/-- The attempt that a job fails, if it was not failed before. -/
theorem failed_runJob (h : (s.runJob plugins job rest throwing).connectFailed = true) :
    s.connectFailed = true ∨ s.cutOff plugins job throwing = true ∧
      ∃ n, s.connectTask = .attempt n ∧ (job = .connecting n ∨ job = .connected n) := by
  obtain ⟨n, htask, hphase⟩ := connectFailed_iff.mp h
  rw [(length_runJob plugins s job rest throwing).2.2] at htask
  obtain ⟨current, completed, notified, published, heq⟩ := runJob_eq plugins s job rest throwing
  rw [heq] at hphase
  rcases failed_continueJob hphase with hold | ⟨hreturned, hjob⟩
  · exact .inl (connectFailed_iff.mpr ⟨n, htask, hold⟩)
  · exact .inr ⟨by simpa using hreturned, n, htask, hjob⟩

theorem undoing_runJob (hb : s.Base) (hn : s.Numbered) (hu : s.Undoing)
    (hqueue : s.queue = job :: rest) (hg : s.jobUndone plugins job rest throwing = true) :
    (s.runJob plugins job rest throwing).Undoing := by
  intro hfailed
  by_cases hrest : underWay { s with queue := rest } = true
  · exact underWay_runJob hb hrest
  have hgood : s.cutOff plugins job throwing = true → s.leavesFailed job = true → False :=
    fun hcut hleaves => hrest (jobUndone_iff.mp hg hcut hleaves)
  rcases failed_runJob hfailed with hold | ⟨hcut, n, htask, hjob⟩
  · rcases hu hold with hstate | hunder
    · exact .inl (completed_runJob hb (completed_of_failed hb hold hstate))
    · have hundoes := (underWay_cons hqueue hunder).resolve_right hrest
      refine undoes_runJob hb hn hqueue hundoes ?_
      by_cases hlast : job = .hostDisconnecting true
      · subst hlast
        exact .inl (Bool.eq_false_iff.mpr fun hcut => hgood hcut hold)
      · exact .inr hlast
  · have hleaves : s.leavesFailed job = true := by
      rcases hjob with rfl | rfl <;> exact decide_eq_true htask
    exact absurd (hgood hcut hleaves) not_false

/-- A job that is cut off has set its state. -/
theorem state_of_cutOff (rest : List Job) (hcut : s.cutOff plugins job throwing = true) :
    (s.runJob plugins job rest throwing).connectionState = job.state := by
  unfold cutOff at hcut
  rw [Bool.and_eq_true, Bool.and_eq_true, decide_eq_true_eq, Bool.not_eq_true'] at hcut
  have hran := runJob_ran plugins s job rest throwing
  cases hran with
  | void hvoid =>
    rcases hvoid with heq | hcompleted
    · exact absurd heq hcut.1.1
    · rw [hcut.1.2] at hcompleted
      cases hcompleted
  | set hne hopen hstate => exact hstate

/-- A job that is cut off against the condition leaves a connection that has failed, and nothing
that undoes it. -/
theorem not_undoing_runJob (hn : s.Numbered)
    (hg : ¬ s.jobUndone plugins job rest throwing = true) :
    ¬ (s.runJob plugins job rest throwing).Undoing := by
  rw [jobUndone_iff] at hg
  push Not at hg
  obtain ⟨hcut, hleaves, hrest⟩ := hg
  have hstate := state_of_cutOff rest hcut
  obtain ⟨current, completed, notified, published, heq⟩ := runJob_eq plugins s job rest throwing
  rw [hcut] at heq
  have hfails : (s.runJob plugins job rest throwing).connectFailed = true ∧
      (s.runJob plugins job rest throwing).underWay = underWay { s with queue := rest } ∧
      job.state ≠ .disconnected := by
    rw [heq]
    cases job with
    | connecting n | connected n =>
      have htask : s.connectTask = .attempt n := of_decide_eq_true hleaves
      have hphase : (s.attempts.set n ConnectAttempt.failed)[n]? = some .failed :=
        List.getElem?_set_self (hn.attempt n htask)
      exact ⟨connectFailed_iff.mpr ⟨n, htask, hphase⟩, rfl, fun heq => by cases heq⟩
    | hostDisconnecting last =>
      cases last with
      | false => cases hleaves
      | true => exact ⟨hleaves, rfl, fun heq => by cases heq⟩
    | disconnecting n | disconnected n | hostDisconnected => cases hleaves
  obtain ⟨hfailed, hunder, hne⟩ := hfails
  intro hu
  rcases hu hfailed with hdisconnected | hunder'
  · exact hne (hstate.symm.trans hdisconnected)
  · exact hrest (hunder.symm.trans hunder')

/-! ### Steps -/

theorem numbered_runJob (hn : s.Numbered) (hqueue : s.queue = job :: rest) :
    (s.runJob plugins job rest throwing).Numbered := by
  obtain ⟨hattempts, hflows, htask⟩ := length_runJob plugins s job rest throwing
  constructor
  · rw [htask, hattempts]
    exact hn.attempt
  · rw [(runJob_keeps plugins s job rest throwing).1, hflows]
    exact fun n hmem => hn.flow n (by rw [hqueue]; exact List.mem_cons_of_mem _ hmem)

/-- A step that posts at most jobs that are no new disconnections. -/
theorem numbered_keeps (hn : s.Numbered) (htask : s'.connectTask = s.connectTask)
    (hattempts : s'.attempts.length = s.attempts.length)
    (hflows : s'.flows.length = s.flows.length)
    (hqueue : ∀ n, Job.disconnecting n ∈ s'.queue → Job.disconnecting n ∈ s.queue) :
    s'.Numbered := by
  constructor
  · rw [htask, hattempts]
    exact hn.attempt
  · rw [hflows]
    exact fun n hmem => hn.flow n (hqueue n hmem)

theorem disconnecting_post {new : Job} (hnew : ∀ n, new ≠ .disconnecting n) (n : Nat)
    (hmem : Job.disconnecting n ∈ (s.post new).queue) : Job.disconnecting n ∈ s.queue := by
  rcases List.mem_append.mp hmem with hold | heq
  · exact hold
  · exact absurd (List.mem_singleton.mp heq).symm (hnew n)

theorem numbered_startFlow (hn : s.Numbered) : s.startFlow.Numbered := by
  constructor
  · exact hn.attempt
  · intro n hmem
    change n < (s.flows ++ [DisconnectFlow.posted]).length
    rw [List.length_append, List.length_singleton]
    rcases List.mem_append.mp hmem with hold | heq
    · exact Nat.lt_succ_of_lt (hn.flow n hold)
    · cases List.mem_singleton.mp heq
      exact Nat.lt_succ_self _

theorem numbered_step {a : Action} (hn : s.Numbered) (h : Transition plugins s a s') :
    s'.Numbered := by
  cases h with
  | unchanged => exact hn
  | connect hstate =>
    constructor
    · intro n htask
      cases htask
      change s.attempts.length < (s.attempts ++ [ConnectAttempt.posted]).length
      rw [List.length_append]
      exact Nat.lt_succ_self _
    · exact fun n hmem => hn.flow n
        (disconnecting_post (fun _ heq => by cases heq) n hmem)
  | connectRefused hstate =>
    constructor
    · intro n htask
      cases htask
    · exact hn.flow
  | disconnect | cancelDisconnection | disconnectConnecting | disconnectOther | disconnectSkipped
  | connectTaskEnded | flowEnded
  | hostDisconnected => exact ⟨hn.attempt, hn.flow⟩
  | clientDisconnect hstate => exact numbered_startFlow hn
  | disconnectConnected connected htask hstate =>
    exact ⟨(numbered_startFlow hn).attempt, (numbered_startFlow hn).flow⟩
  | hostDisconnecting state last hstate =>
    exact numbered_keeps hn rfl rfl rfl (disconnecting_post fun _ heq => by cases heq)
  | runJob throwing job rest hqueue => exact numbered_runJob hn hqueue
  | connectResult n hphase =>
    exact numbered_keeps hn rfl (List.length_set ..) rfl
      (disconnecting_post (s := s.setAttempt n .finishing) fun _ heq => by cases heq)
  | connectFails n hphase => exact numbered_keeps hn rfl (List.length_set ..) rfl fun _ => id
  | disconnectRequestEnds n hphase =>
    exact numbered_keeps hn rfl rfl (List.length_set ..)
      (disconnecting_post (s := s.setFlow n .finishing) fun _ heq => by cases heq)
  | hostContinuation n hpending =>
    exact numbered_keeps hn rfl rfl rfl
      (disconnecting_post (s := { s with hostContinuations := n }) fun _ heq => by cases heq)

theorem undoing_connectFails {n : Nat} (hu : s.Undoing)
    (hg : s.undoesFailure plugins (.connectFails n) = true) :
    (s.setAttempt n .failed).Undoing := by
  intro hfailed
  obtain ⟨m, htask, hphase⟩ := connectFailed_iff.mp hfailed
  by_cases hm : m = n
  · subst hm
    have htask' : s.connectTask = .attempt m := htask
    have hcond : s.connectionState = .disconnected ∨ s.underWay = true := by
      simpa [undoesFailure, htask'] using hg
    exact hcond
  · rcases Heap.of_set hphase with ⟨-, hold⟩ | ⟨heq, -⟩
    · exact hu (connectFailed_iff.mpr ⟨m, htask, hold⟩)
    · exact absurd heq hm

theorem undoing_step {a : Action} (hb : s.Base) (hn : s.Numbered) (hu : s.Undoing)
    (hg : UndoesFailure plugins s a) (h : Transition plugins s a s') : s'.Undoing := by
  cases h with
  | unchanged => exact hu
  | connect hstate =>
    refine undoing_of_not_failed fun n htask hphase => ?_
    cases htask
    change (s.attempts ++ [ConnectAttempt.posted])[s.attempts.length]? = _ at hphase
    rw [List.getElem?_concat_length] at hphase
    cases hphase
  | connectRefused hstate => exact undoing_of_not_failed fun n htask => by cases htask
  | disconnect | cancelDisconnection | disconnectConnecting | disconnectOther | disconnectSkipped
  | connectTaskEnded | flowEnded => exact hu
  | clientDisconnect hstate | disconnectConnected connected htask hstate =>
    exact undoing_of_job (.disconnecting s.flows.length)
      (List.mem_append_right _ List.mem_cons_self) rfl
  | hostDisconnecting state last hstate =>
    exact undoing_mono hu id rfl (Nat.le_refl _) (List.subset_append_left _ _) id
  | hostDisconnected hstate =>
    exact fun _ => .inr (underWay_iff.mpr (.inl (Nat.succ_pos _)))
  | runJob throwing job rest hqueue =>
    refine undoing_runJob hb hn hu hqueue ?_
    unfold UndoesFailure undoesFailure at hg
    dsimp only at hg
    rw [hqueue] at hg
    exact hg
  | connectResult n hphase hcanceled =>
    refine undoing_mono hu ?_ rfl (Nat.le_refl _) (List.subset_append_left _ _) id
    intro hfailed
    obtain ⟨m, htask, hphase'⟩ := connectFailed_iff.mp hfailed
    rcases Heap.of_set hphase' with ⟨-, hold⟩ | ⟨-, heq⟩
    · exact connectFailed_iff.mpr ⟨m, htask, hold⟩
    · cases heq
  | connectFails n hphase => exact undoing_connectFails hu hg
  | disconnectRequestEnds n hphase =>
    exact undoing_of_job (.disconnected n) (List.mem_append_right _ List.mem_cons_self) rfl
  | hostContinuation n hpending =>
    exact undoing_of_job .hostDisconnected (List.mem_append_right _ List.mem_cons_self) rfl

/-- A step that fails the condition leaves a failed connection that nothing undoes. -/
theorem undoesFailure_of_undoing {a : Action} (hn : s.Numbered) (h : step plugins s a = some s')
    (hu : s'.Undoing) : UndoesFailure plugins s a := by
  cases a with
  | connectFails n =>
    obtain ⟨hphase, heq⟩ := Option.ite_none_right_eq_some.mp h
    cases heq
    by_contra hnot
    have hcond : s.connectTask = .attempt n ∧ s.connectionState ≠ .disconnected ∧
        s.underWay = false := by
      simpa [UndoesFailure, undoesFailure, and_assoc] using hnot
    obtain ⟨htask, hstate, hunder⟩ := hcond
    have hset : (s.attempts.set n ConnectAttempt.failed)[n]? = some .failed :=
      List.getElem?_set_self (hn.attempt n htask)
    rcases hu (connectFailed_iff.mpr ⟨n, htask, hset⟩) with hdisconnected | hunder'
    · exact hstate hdisconnected
    · exact Bool.false_ne_true (hunder.symm.trans hunder')
  | runJob throwing =>
    unfold UndoesFailure undoesFailure
    dsimp only
    cases hqueue : s.queue with
    | nil => rfl
    | cons job rest =>
      dsimp only
      unfold step at h
      dsimp only at h
      rw [hqueue] at h
      cases h
      by_contra hnot
      exact not_undoing_runJob hn hnot hu
  | _ => rfl

theorem numbered_initial : Numbered initial := by
  constructor
  · intro n htask
    cases htask
  · intro n hmem
    cases hmem

theorem undone_of_undoing (hu : s.Undoing) : s.Undone := by
  rintro ⟨hqueue, -, hflows, hhost, -⟩ hfailed
  refine (hu hfailed).resolve_right fun hunder => ?_
  rcases underWay_iff.mp hunder with hcont | ⟨job, hjob, -⟩ | hflow
  · rw [hhost] at hcont
    cases hcont
  · rw [hqueue] at hjob
    cases hjob
  · exact hflows _ hflow rfl

end FailedConnectionLemmas

open FailedConnectionLemmas

/-! ## Main results -/

/-- In every run whose steps meet the condition, a failed connection has been undone when nothing
is outstanding. A step that fails the condition leaves a failed connection with no disconnection
under way. -/
theorem failure_undone {plugins : Nat} {s : SceneImpl}
    (h : Lts.Reachable (step plugins) (UndoesFailure plugins) initial s) :
    s.Undone ∧ ∀ (a : Action) (s' : SceneImpl), step plugins s a = some s' →
      (s'.Undoing ↔ UndoesFailure plugins s a) := by
  have hb : s.Base := base_reachable h
  have hn : s.Numbered := h.invariant numbered_initial
    fun _ _ _ hn _ hstep => numbered_step hn (transition_of_step hstep)
  have hu : s.Undoing := by
    refine (h.invariant (I := fun s => (s.Base ∧ s.Numbered) ∧ s.Undoing)
      ⟨⟨base_initial, numbered_initial⟩, fun hfailed => absurd hfailed Bool.false_ne_true⟩ ?_).2
    rintro s a s' ⟨⟨hb, hn⟩, hu⟩ hg hstep
    have ht := transition_of_step hstep
    exact ⟨⟨base_step hb ht, numbered_step hn ht⟩, undoing_step hb hn hu hg ht⟩
  exact ⟨undone_of_undoing hu, fun a s' hstep => ⟨undoesFailure_of_undoing hn hstep,
    fun hg => undoing_step hb hn hu hg (transition_of_step hstep)⟩⟩

/-- The connection to the host is lost while the request is under way, and the request fails. -/
def failedWhileHostLost : List Action :=
  [.connect, .runJob none, .hostState .disconnected, .connectFails 0, .runJob none,
    .hostContinuation, .runJob none]

theorem failure_undone_hostLost : ∃ s : SceneImpl,
    s.Quiescent ∧ s.connectFailed = true ∧ s.Undone ∧
      ∀ (a : Action) (s' : SceneImpl), step 1 s a = some s' →
        (s'.Undoing ↔ UndoesFailure 1 s a) := by
  obtain ⟨s, hs, htest⟩ := Lts.Reachable.of_exec (step 1) (UndoesFailure 1) initial
    failedWhileHostLost (fun s => decide s.Quiescent && s.connectFailed) (by decide)
  obtain ⟨hq, hfailed⟩ := Bool.and_eq_true_iff.mp htest
  exact ⟨s, of_decide_eq_true hq, hfailed, failure_undone hs⟩

/-- The connection request fails, and the scene stays in `Connecting`. -/
theorem failed_stays_connecting :
    ¬ ∀ plugins s, Lts.Reachable (step plugins) Lts.anyStep initial s → s.Undone := by
  intro hall
  obtain ⟨s, hs, htest⟩ := Lts.Reachable.of_exec (step 0) Lts.anyStep initial
    [.connect, .runJob none, .connectFails 0]
    (fun s => decide (s.Quiescent ∧ s.connectFailed = true ∧ s.connectionState = .connecting))
    (by decide)
  obtain ⟨hq, hfailed, hconnecting⟩ := of_decide_eq_true htest
  cases hconnecting.symm.trans (hall 0 s hs hq hfailed)

end SceneImpl
end Stormancer.Scene
