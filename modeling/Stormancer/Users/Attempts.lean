import Stormancer.Users.UsersApi

/-!
# One login attempt at a time

An attempt is started when `_authTask` is empty. That there is one at a time rests on `_authTask`
pointing to the attempt that is in progress. It stops to do so when the authentication scene
reports `Disconnected` during the attempt, and when a call that waited for an earlier attempt
clears it; and it does not do so yet between `loginImpl` and the assignment.

Results:
1. `one_attempt`: as long as each step meets `keepsSlot`, one login is in progress at most, its
   retries and their delays included, so that one is in flight at most.
2. `disconnection_starts_second`: the scene is disconnected while the request of the attempt is
   under way.
-/

namespace Stormancer.Users.UsersApi

open UsersApiLemmas

/-! ## The property -/

/-- One attempt at most is in one of the phases. -/
def AtMostOne (s : UsersApi) (p : Phase → Bool) : Prop :=
  ∀ (i j : Nat) (a b : Attempt), s.attempts[i]? = some a → s.attempts[j]? = some b →
    p a.phase = true → p b.phase = true → i = j

/-! ## The condition -/

/-- What holds of the number of each attempt in progress. -/
def allInProgress (s : UsersApi) (p : Nat → Bool) : Bool :=
  s.attempts.zipIdx.all fun (a, i) => !a.phase.inProgress || p i

/-- No attempt is in progress. -/
def idle (s : UsersApi) : Bool := s.attempts.all fun a => !a.phase.inProgress

/-- `_authTask` points to the attempt in progress. -/
def slotKept (s : UsersApi) : Bool := s.allInProgress fun i => s.authTask = some i

/-- With automatic reconnection on, each call and each retry finds the attempt in progress in
`_authTask`; the scene does not report `Disconnected` while an attempt is in progress; and no call
that waited for a failed attempt clears the `_authTask` of another one, or assigns it when another
one is in progress. -/
def keepsSlot (s : UsersApi) : Action → Bool
  | .login => s.slotKept
  | .use | .attempt _ .failure => !s.autoReconnect || s.slotKept
  | .assign i => !s.autoReconnect || s.allInProgress fun k => k = i
  | .waiter w =>
    !s.autoReconnect || (s.waiters[w]?.bind fun i => s.attempts[i]?).all (·.phase ≠ .failed) ||
      s.allInProgress fun k => s.authTask ≠ some k
  | .sceneReports _ .disconnected reason =>
    s.connectionState = .disconnected || !s.autoReconnect || reason ∈ finalReasons || s.idle
  | _ => true

abbrev KeepsSlot (s : UsersApi) (a : Action) : Prop := s.keepsSlot a = true

/-! ## The invariant -/

/-- The attempt in progress is the one in `_authTask`, as long as automatic reconnection is on and
from the assignment on. -/
structure Kept (s : UsersApi) : Prop where
  single : s.AtMostOne Phase.inProgress
  slot : ∀ (i : Nat) (a : Attempt), s.attempts[i]? = some a → a.phase.inProgress = true →
    s.authTask = some i ∨ s.autoReconnect = false ∨ a.assigned = false

/-! ## Helpers -/

namespace AttemptsLemmas

variable {s s' : UsersApi} {i : Nat} {a a' : Attempt}

theorem allInProgress_iff {p : Nat → Bool} : s.allInProgress p = true ↔
    ∀ (i : Nat) (a : Attempt), s.attempts[i]? = some a → a.phase.inProgress = true →
      p i = true := by
  unfold allInProgress
  rw [List.all_eq_true]
  constructor
  · intro h i a ha hin
    have hp := h (a, i) (List.mk_mem_zipIdx_iff_getElem?.mpr ha)
    dsimp only at hp
    rw [hin] at hp
    exact hp
  · rintro h ⟨a, i⟩ hmem
    have ha := List.mk_mem_zipIdx_iff_getElem?.mp hmem
    dsimp only
    cases hin : a.phase.inProgress with
    | true => exact h i a ha hin
    | false => rfl

theorem ended_of_idle (h : s.idle = true) (ha : s.attempts[i]? = some a) :
    a.phase.inProgress = false :=
  (Bool.not_eq_true' _).mp (List.all_eq_true.mp h a (List.mem_of_getElem? ha))

theorem idle_of_slotKept (hslot : s.slotKept = true) (htask : s.authTask = none) :
    s.idle = true := by
  refine List.all_eq_true.mpr fun a ha => (Bool.not_eq_true' _).mpr ?_
  obtain ⟨i, ha⟩ := List.mem_iff_getElem?.mp ha
  cases hin : a.phase.inProgress with
  | false => rfl
  | true =>
    have hi := of_decide_eq_true (allInProgress_iff.mp hslot i a ha hin)
    cases htask.symm.trans hi

theorem slotKept_of_idle (h : s.idle = true) : s.slotKept = true := by
  refine allInProgress_iff.mpr fun i a ha hin => ?_
  cases (ended_of_idle h ha).symm.trans hin

theorem kept_of_idle (h : s.idle = true) : Kept s := by
  constructor
  case single =>
    intro i j a b ha _ hin _
    cases (ended_of_idle h ha).symm.trans hin
  case slot =>
    intro i a ha hin
    cases (ended_of_idle h ha).symm.trans hin

/-- Nothing that the invariant is about changes, or automatic reconnection is switched off. -/
theorem kept_frame (hs : Kept s) (hattempts : s'.attempts = s.attempts)
    (hslot : s'.autoReconnect = false ∨
      s'.authTask = s.authTask ∧ s'.autoReconnect = s.autoReconnect) : Kept s' := by
  constructor
  case single =>
    unfold AtMostOne
    rw [hattempts]
    exact hs.single
  case slot =>
    intro i a ha hin
    rcases hslot with hoff | ⟨htask, hauto⟩
    · exact .inr (.inl hoff)
    · rw [htask, hauto]
      exact hs.slot i a (hattempts ▸ ha) hin

/-- A new attempt starts when nothing is in progress. -/
theorem kept_start (h : s.idle = true) (phase : Phase)
    (hattempts : s'.attempts = s.attempts ++ [⟨phase, 0, false⟩]) : Kept s' := by
  have hnew : ∀ (i : Nat) (a : Attempt), s'.attempts[i]? = some a → a.phase.inProgress = true →
      i = s.attempts.length ∧ a.assigned = false := by
    intro i a ha hin
    rw [hattempts] at ha
    rcases Heap.of_make ha with hold | ⟨hi, rfl⟩
    · cases (ended_of_idle h hold).symm.trans hin
    · exact ⟨hi, rfl⟩
  constructor
  case single =>
    intro i j a b ha hb hin hjn
    exact (hnew i a ha hin).1.trans (hnew j b hb hjn).1.symm
  case slot => exact fun i a ha hin => .inr (.inr (hnew i a ha hin).2)

/-- An attempt in progress goes on. -/
theorem kept_set (hs : Kept s) (ha : s.attempts[i]? = some a) (hin : a.phase.inProgress = true)
    (hassigned : a'.assigned = a.assigned) :
    Kept { s with attempts := s.attempts.set i a' } := by
  have hold : ∀ (j : Nat) (b : Attempt), (s.attempts.set i a')[j]? = some b →
      b.phase.inProgress = true → ∃ c : Attempt, s.attempts[j]? = some c ∧
        c.phase.inProgress = true ∧ b.assigned = c.assigned := by
    intro j b hb hjn
    rcases Heap.of_set hb with ⟨-, hb⟩ | ⟨rfl, rfl⟩
    · exact ⟨b, hb, hjn, rfl⟩
    · exact ⟨a, ha, hin, hassigned⟩
  constructor
  case single =>
    intro j k b c hb hc hjn hkn
    obtain ⟨b', hb', hjn', -⟩ := hold j b hb hjn
    obtain ⟨c', hc', hkn', -⟩ := hold k c hc hkn
    exact hs.single j k b' c' hb' hc' hjn' hkn'
  case slot =>
    intro j b hb hjn
    obtain ⟨b', hb', hjn', hassigned⟩ := hold j b hb hjn
    rw [hassigned]
    exact hs.slot j b' hb' hjn'

theorem loginImpl_frame (s : UsersApi) : s.loginImpl.1.attempts = s.attempts ∧
    (s.loginImpl.1.autoReconnect = false ∨ s.loginImpl.1.authTask = s.authTask ∧
      s.loginImpl.1.autoReconnect = s.autoReconnect) := by
  unfold loginImpl
  dsimp only
  split
  · exact ⟨rfl, .inr ⟨rfl, rfl⟩⟩
  · exact ⟨rfl, .inl rfl⟩

theorem kept_getAuthenticationScene (hs : Kept s)
    (hslot : s.autoReconnect = false ∨ s.slotKept = true) : Kept s.getAuthenticationScene := by
  rcases hslot with hoff | hslot
  · obtain ⟨waiters, hwaiters⟩ := getAuthenticationScene_off hoff
    rw [hwaiters]
    exact kept_frame hs rfl (.inl hoff)
  · unfold getAuthenticationScene
    split
    · exact kept_frame hs rfl (.inr ⟨rfl, rfl⟩)
    · next htask =>
      split
      · exact kept_start (idle_of_slotKept hslot htask) s.loginImpl.2 rfl
      · exact hs

theorem kept_setReconnecting (hs : Kept s)
    (hslot : s.autoReconnect = false ∨ s.slotKept = true) : Kept s.setReconnecting := by
  unfold setReconnecting
  split
  · exact hs
  · exact kept_getAuthenticationScene (kept_frame hs rfl (.inr ⟨rfl, rfl⟩)) hslot

/-- A scene's `Disconnected`, in a state in which it does nothing, switches automatic reconnection
off or finds nothing in progress. -/
theorem kept_disconnected (hs : Kept s) {reason : String}
    (h : s.connectionState = .disconnected ∨ s.autoReconnect = false ∨ reason ∈ finalReasons ∨
      s.idle = true) :
    Kept (s.setConnectionState .disconnected reason) := by
  unfold setConnectionState
  split
  · exact hs
  · next hne =>
    unfold setDisconnected
    dsimp only
    split
    · next hon =>
      rw [Bool.and_eq_true, decide_eq_true_eq] at hon
      have hidle : s.idle = true := by
        rcases h with h | h | h | h
        · exact absurd h hne
        · cases h.symm.trans hon.1
        · exact absurd h hon.2
        · exact h
      exact kept_setReconnecting (kept_of_idle hidle) (.inr (slotKept_of_idle hidle))
    · next hoff => exact kept_frame hs rfl (.inl (Bool.eq_false_iff.mpr hoff))

/-- A call leaves the attempts that there are alone. -/
theorem get_getAuthenticationScene (ha : s.attempts[i]? = some a) :
    s.getAuthenticationScene.attempts[i]? = some a := by
  unfold getAuthenticationScene
  split
  · exact ha
  · split
    · exact (List.getElem?_append_left (List.getElem?_eq_some_iff.mp ha).1).trans ha
    · exact ha

theorem get_setReconnecting (ha : s.attempts[i]? = some a) :
    s.setReconnecting.attempts[i]? = some a := by
  unfold setReconnecting
  split
  · exact ha
  · exact get_getAuthenticationScene ha

theorem kept_continue (hs : Kept s) (ha : s.attempts[i]? = some a) {c : Continuation}
    (h : Continues s a c s' a')
    (hslot : c = .failure → s.autoReconnect = false ∨ s.slotKept = true) :
    Kept { s' with attempts := s'.attempts.set i a' } := by
  suffices hkept : Kept s' ∧ s'.attempts[i]? = some a from
    kept_set hkept.1 hkept.2 (inProgress_of_continues h) (assigned_of_continues h)
  cases h with
  | connected | connectFails | credentials | error | fails => exact ⟨hs, ha⟩
  | credentialsFail => exact ⟨kept_frame hs rfl (.inl rfl), ha⟩
  | success => exact ⟨kept_frame hs rfl (.inr ⟨rfl, rfl⟩), ha⟩
  | refused =>
    obtain ⟨authTask, hset⟩ := setConnectionState_disconnected_off
      (s := { s with autoReconnect := false }) rfl ""
    rw [hset]
    exact ⟨kept_frame hs rfl (.inl rfl), ha⟩
  | retries =>
    unfold setConnectionState
    split
    · exact ⟨hs, ha⟩
    · exact ⟨kept_setReconnecting hs (hslot rfl), get_setReconnecting ha⟩
  | delayEnds =>
    have hframe := loginImpl_frame s
    exact ⟨kept_frame hs hframe.1 hframe.2, hframe.1 ▸ ha⟩

/-- The task of an attempt is assigned: it is the attempt in progress, or none is. -/
theorem kept_assign (hs : Kept s) (ha : s.attempts[i]? = some a)
    (honly : s.autoReconnect = false ∨ s.allInProgress (fun k => k = i) = true)
    (waiters : List Nat) :
    Kept { s with
      authTask := some i
      waiters := waiters
      attempts := s.attempts.set i { a with assigned := true } } := by
  have hold : ∀ (j : Nat) (b : Attempt),
      (s.attempts.set i { a with assigned := true })[j]? = some b → b.phase.inProgress = true →
      ∃ c : Attempt, s.attempts[j]? = some c ∧ c.phase.inProgress = true := by
    intro j b hb hjn
    rcases Heap.of_set hb with ⟨-, hb⟩ | ⟨rfl, rfl⟩
    · exact ⟨b, hb, hjn⟩
    · exact ⟨a, ha, hjn⟩
  constructor
  case single =>
    intro j k b c hb hc hjn hkn
    obtain ⟨b', hb', hjn'⟩ := hold j b hb hjn
    obtain ⟨c', hc', hkn'⟩ := hold k c hc hkn
    exact hs.single j k b' c' hb' hc' hjn' hkn'
  case slot =>
    intro j b hb hjn
    rcases honly with hoff | honly
    · exact .inr (.inl hoff)
    · obtain ⟨c, hc, hjn'⟩ := hold j b hb hjn
      obtain rfl := of_decide_eq_true (allInProgress_iff.mp honly j c hc hjn')
      exact .inl rfl

/-- A call that waited for a failed attempt clears the slot, which is not that of the attempt in
progress. -/
theorem kept_clear (hs : Kept s)
    (hother : s.autoReconnect = false ∨
      s.allInProgress (fun k => s.authTask ≠ some k) = true) (waiters : List Nat) :
    Kept { s with authTask := none, waiters := waiters } := by
  constructor
  case single => exact hs.single
  case slot =>
    intro j b hb hjn
    rcases hother with hoff | hother
    · exact .inr (.inl hoff)
    · have hne := of_decide_eq_true (allInProgress_iff.mp hother j b hb hjn)
      exact .inr ((hs.slot j b hb hjn).resolve_left hne)

theorem or_of_guard {b : Bool} (h : (!s.autoReconnect || b) = true) :
    s.autoReconnect = false ∨ b = true :=
  ((Bool.or_eq_true _ _).mp h).imp_left (Bool.not_eq_true' _).mp

theorem kept_step (hs : Kept s) {act : Action} (hguard : s.KeepsSlot act)
    (hstep : s.step act = some s') : Kept s' := by
  unfold KeepsSlot keepsSlot at hguard
  cases of_step hstep with
  | login =>
    have hslot : ∀ (i : Nat) (a : Attempt), s.attempts[i]? = some a →
        a.phase.inProgress = true → s.authTask = some i :=
      fun i a ha hin => of_decide_eq_true (allInProgress_iff.mp hguard i a ha hin)
    exact kept_getAuthenticationScene ⟨hs.single, fun i a ha hin => .inl (hslot i a ha hin)⟩
      (.inr hguard)
  | logout =>
    rcases logout_cases s with ⟨-, h⟩ | ⟨-, -, waiters, ⟨i, -, h⟩ | ⟨-, h⟩⟩
    all_goals
      rw [h]
      exact kept_frame hs rfl (.inl rfl)
  | use => exact kept_getAuthenticationScene hs (or_of_guard hguard)
  | setCredentialsCallback | makeScene | waiter | logoutScene | logoutFails | logoutEnds =>
    exact kept_frame hs rfl (.inr ⟨rfl, rfl⟩)
  | assign ha => exact kept_assign hs ha (or_of_guard hguard) _
  | attempt ha hcontinues =>
    refine kept_continue hs ha hcontinues ?_
    rintro rfl
    exact or_of_guard hguard
  | waiterFails ha hfailed =>
    dsimp only at hguard
    rw [ha, Option.all_some, Bool.or_assoc, decide_eq_false (not_not.mpr hfailed),
      Bool.false_or] at hguard
    exact kept_clear hs (or_of_guard hguard) _
  | @sceneReports k state reason hmay =>
    have hscenes : Kept { s with scenes := s.scenes.set k state } :=
      kept_frame hs rfl (.inr ⟨rfl, rfl⟩)
    cases state with
    | connected => exact hscenes
    | disconnecting =>
      unfold onSceneState
      dsimp only
      rw [setConnectionState_of_ne _ .disconnecting (by decide) (by decide)]
      exact kept_frame hs rfl (.inr ⟨rfl, rfl⟩)
    | disconnected =>
      simp only [Bool.or_eq_true, decide_eq_true_eq, Bool.not_eq_true', or_assoc] at hguard
      exact kept_disconnected hscenes hguard

theorem inProgress_of_inFlight {phase : Phase} (h : phase.inFlight = true) :
    phase.inProgress = true := by
  cases phase with
  | connecting | credentials k | login k => rfl
  | failing | delay | done k | failed => cases h

end AttemptsLemmas

open AttemptsLemmas

/-! ## Results -/

/-- As long as each step meets the condition, at most one login is in progress, and so at most one
is in flight. -/
theorem one_attempt {hasHandlers : Bool} {s : UsersApi}
    (h : Lts.Reachable step KeepsSlot (init hasHandlers) s) :
    s.AtMostOne Phase.inProgress ∧ s.AtMostOne Phase.inFlight := by
  have hs : Kept s := h.invariant (kept_of_idle rfl) fun _ _ _ hs hguard hstep =>
    kept_step hs hguard hstep
  refine ⟨hs.single, fun i j a b ha hb hin hjn => ?_⟩
  exact hs.single i j a b ha hb (inProgress_of_inFlight hin) (inProgress_of_inFlight hjn)

/-- A request that fails, the retry, and a disconnection after the login. -/
theorem one_attempt_retry : ∃ s : UsersApi, s.attempts.map Attempt.phase = [.done 1, .connecting] ∧
    s.AtMostOne Phase.inProgress ∧ s.AtMostOne Phase.inFlight := by
  obtain ⟨s, hreach, htest⟩ := Lts.Reachable.of_exec step KeepsSlot (init true)
    [.login, .assign 0, .makeScene, .attempt 0 (.connectEnds (some 0)),
      .attempt 0 (.credentialsEnd true), .attempt 0 (.loginEnds .error), .attempt 0 .failure,
      .attempt 0 .delayEnds, .makeScene, .attempt 0 (.connectEnds (some 1)),
      .attempt 0 (.credentialsEnd true), .attempt 0 (.loginEnds .success), .waiter 0,
      .sceneReports 1 .disconnected "", .assign 1]
    (fun s => decide (s.attempts.map Attempt.phase = [.done 1, .connecting]))
    (by decide +kernel)
  exact ⟨s, of_decide_eq_true htest, one_attempt hreach⟩

/-- The scene is disconnected during the request of the login: a second attempt starts, and the
first one tries again beside it. -/
theorem disconnection_starts_second :
    ¬ ∀ s, Lts.Reachable step Lts.anyStep (init true) s → s.AtMostOne Phase.inFlight := by
  intro hall
  obtain ⟨s, hreach, htest⟩ := Lts.Reachable.of_exec step Lts.anyStep (init true)
    [.login, .assign 0, .makeScene, .attempt 0 (.connectEnds (some 0)),
      .attempt 0 (.credentialsEnd true), .sceneReports 0 .disconnected "", .assign 1,
      .attempt 0 (.loginEnds .error), .attempt 0 .failure, .attempt 0 .delayEnds]
    (fun s => decide (s.attempts = [⟨.connecting, 1, true⟩, ⟨.connecting, 0, true⟩]))
    (by decide +kernel)
  have hattempts := of_decide_eq_true htest
  have hone := hall s hreach 0 1
  rw [hattempts] at hone
  cases hone _ _ rfl rfl rfl rfl

end Stormancer.Users.UsersApi
