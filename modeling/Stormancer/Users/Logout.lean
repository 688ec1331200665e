import Stormancer.Users.UsersApi

/-!
# The end of a logout

`logout` switches automatic reconnection off and disconnects the authentication scene, which it
gets from the task in `_authTask`. With automatic reconnection off an attempt fails as soon as it
has connected. The task of `logout` completes when the disconnection has ended, and also when there
is no scene to disconnect.

Results:
1. `logout_final`: as long as each step meets `endsLogout`, a logout completes in the state
   `Disconnected`, and neither a login nor a reconnection follows before the next `login`.
2. `logout_while_connecting`: a logout during the connection completes in `Disconnecting`.
-/

namespace Stormancer.Users

/-- An attempt that can still log in with automatic reconnection off. -/
def Phase.mayLogIn : Phase → Bool
  | .credentials _ | .login _ | .delay => true
  | _ => false

namespace UsersApi

open UsersApiLemmas

/-! ## The property -/

/-- Each logout that completed did so in the state `Disconnected`, and since then the
authentication scene at most reported that it is disconnecting: there was no login, and no
reconnection. -/
structure LogoutFinal (s : UsersApi) : Prop where
  completed : ∀ state ∈ s.completions, state = .disconnected
  rest : s.completions ≠ [] → s.connectionState = .disconnected ∨ s.connectionState = .disconnecting
  relogins : s.relogins = 0

/-! ## The condition -/

def phase? (s : UsersApi) (i : Nat) : Option Phase := s.attempts[i]?.map Attempt.phase

/-- The scene has not reported `Disconnected`. -/
def alive (s : UsersApi) (k : Nat) : Bool := s.scenes[k]? ≠ some .disconnected

/-- An attempt in this phase has still to connect, or its scene has still to be disconnected. -/
def awaits (s : UsersApi) : Phase → Bool
  | .connecting | .credentials _ | .login _ => true
  | .done k => s.alive k
  | _ => false

/-- The scene of the logout has still to report `Disconnected`. -/
def onWay (s : UsersApi) : Logout → Bool
  | .waiting i => (s.phase? i).any s.awaits
  | .disconnecting k => s.alive k

/-- A logout is not called in the state `Disconnecting`, or while a retry waits for its delay, or
when `_authTask` is empty or failed without `Disconnected` having been set. From then on the
attempt that it waits for meets an error, but for a refused login, only in the state
`Disconnected`, and succeeds only before its scene is disconnected; no scene reports
`Disconnecting` once the attempt of a logout has met an error or its scene was disconnected; and the
disconnection of the scene ends with `Disconnected`. -/
def endsLogout (s : UsersApi) : Action → Bool
  | .logout =>
    match s.connectionState, s.authTask with
    | .disconnected, _ => s.attempts.all fun a => !a.phase.mayLogIn
    | .disconnecting, _ | _, none => false
    | _, some i =>
      s.onWay (.waiting i) && s.attempts.zipIdx.all fun (a, k) => k = i || !a.phase.mayLogIn
  | .attempt i (.connectEnds _) | .attempt i (.credentialsEnd false)
  | .attempt i (.loginEnds .error) =>
    .waiting i ∉ s.logouts || s.connectionState = .disconnected
  | .attempt i (.loginEnds .success) =>
    s.logouts = [] || (s.phase? i).all fun phase =>
      match phase with
      | .login k => s.alive k
      | _ => true
  | .sceneReports _ .disconnecting _ => s.logouts.all s.onWay
  | .logoutEnds j =>
    s.logouts[j]?.all fun l =>
      match l with
      | .disconnecting k => !s.alive k
      | .waiting _ => true
  | _ => true

abbrev EndsLogout (s : UsersApi) (a : Action) : Prop := s.endsLogout a = true

/-! ## The invariant -/

/-- No logout was called since the last login. -/
def NoLogout (s : UsersApi) : Prop := s.logouts = [] ∧ s.completions = []

/-- From a logout on automatic reconnection is off, only the attempt that the logouts wait for can
log in, and a logout whose scene reports nothing more is in the state `Disconnected`. -/
structure Leaving (s : UsersApi) : Prop where
  off : s.NoLogout ∨ s.autoReconnect = false
  noDelay : s.NoLogout ∨ ∀ i, s.phase? i ≠ some .delay
  able : ∀ i phase, s.phase? i = some phase → phase.mayLogIn = true →
    s.completions = [] ∧ ∀ l ∈ s.logouts, l = .waiting i
  ready : ∀ l ∈ s.logouts, s.onWay l = true ∨ s.connectionState = .disconnected
  final : s.LogoutFinal

/-! ## Helpers -/

namespace LogoutLemmas

variable {s s' : UsersApi} {i : Nat} {a a' : Attempt}

theorem leaving_of_noLogout (h : s.NoLogout) (hrelogins : s.relogins = 0) : Leaving s := by
  obtain ⟨hlogouts, hcompletions⟩ := h
  constructor
  case off => exact .inl ⟨hlogouts, hcompletions⟩
  case noDelay => exact .inl ⟨hlogouts, hcompletions⟩
  case able =>
    intro i phase _ _
    rw [hlogouts]
    exact ⟨hcompletions, fun l hl => absurd hl List.not_mem_nil⟩
  case ready =>
    rw [hlogouts]
    exact fun l hl => absurd hl List.not_mem_nil
  case final =>
    refine ⟨?_, fun hne => absurd hcompletions hne, hrelogins⟩
    rw [hcompletions]
    exact fun state hstate => absurd hstate List.not_mem_nil

/-! ### Before a logout -/

/-- What an operation other than `login` and `logout` leaves alone before a logout. -/
structure Before (s s' : UsersApi) : Prop where
  logouts : s'.logouts = s.logouts
  completions : s'.completions = s.completions
  relogins : s.completions = [] → s'.relogins = s.relogins

theorem before_loginImpl (s : UsersApi) : Before s s.loginImpl.1 := by
  unfold loginImpl
  dsimp only
  split
  · exact ⟨rfl, rfl, fun hnone => if_pos hnone⟩
  · exact ⟨rfl, rfl, fun hnone => if_pos hnone⟩

theorem before_getAuthenticationScene (s : UsersApi) : Before s s.getAuthenticationScene := by
  unfold getAuthenticationScene
  split
  · exact ⟨rfl, rfl, fun _ => rfl⟩
  · split
    · have hlogin := before_loginImpl s
      exact ⟨hlogin.logouts, hlogin.completions, hlogin.relogins⟩
    · exact ⟨rfl, rfl, fun _ => rfl⟩

theorem before_setReconnecting (s : UsersApi) : Before s s.setReconnecting := by
  unfold setReconnecting
  split
  · exact ⟨rfl, rfl, fun _ => rfl⟩
  · have hget := before_getAuthenticationScene { s with connectionState := .reconnecting }
    exact ⟨hget.logouts, hget.completions, hget.relogins⟩

theorem before_setConnectionState (s : UsersApi) (state : GameConnectionState)
    (reason : String) : Before s (s.setConnectionState state reason) := by
  unfold setConnectionState
  split
  · exact ⟨rfl, rfl, fun _ => rfl⟩
  · split
    · unfold setDisconnected
      extract_lets s₁
      split
      · have hset := before_setReconnecting s₁
        exact ⟨hset.logouts, hset.completions, hset.relogins⟩
      · exact ⟨rfl, rfl, fun _ => rfl⟩
    · exact before_setReconnecting s
    · exact ⟨rfl, rfl, fun _ => rfl⟩

theorem before_continue {c : Continuation} (h : Continues s a c s' a') : Before s s' := by
  cases h with
  | connected | connectFails | credentials | credentialsFail | success | error | fails =>
    exact ⟨rfl, rfl, fun _ => rfl⟩
  | refused =>
    have hset := before_setConnectionState { s with autoReconnect := false } .disconnected ""
    exact ⟨hset.logouts, hset.completions, hset.relogins⟩
  | retries => exact before_setConnectionState _ _ _
  | delayEnds => exact before_loginImpl s

/-! ### After a logout -/

/-- What a continuation of an attempt leaves alone after a logout. -/
structure After (s s' : UsersApi) : Prop where
  attempts : s'.attempts = s.attempts
  scenes : s'.scenes = s.scenes
  logouts : s'.logouts = s.logouts
  completions : s'.completions = s.completions
  relogins : s'.relogins = s.relogins
  off : s'.autoReconnect = false

theorem after_continue {c : Continuation} (hoff : s.autoReconnect = false)
    (hdelay : a.phase ≠ .delay) (h : Continues s a c s' a') : After s s' := by
  cases h with
  | connected | connectFails | credentials | success | error | fails =>
    exact ⟨rfl, rfl, rfl, rfl, rfl, hoff⟩
  | credentialsFail => exact ⟨rfl, rfl, rfl, rfl, rfl, rfl⟩
  | refused =>
    obtain ⟨authTask, hset⟩ := setConnectionState_disconnected_off
      (s := { s with autoReconnect := false }) rfl ""
    rw [hset]
    exact ⟨rfl, rfl, rfl, rfl, rfl, rfl⟩
  | retries _ hon => cases hoff.symm.trans hon
  | delayEnds hphase => exact absurd hphase hdelay

theorem not_noLogout_of_mem {l : Logout} (hl : l ∈ s.logouts) : ¬ s.NoLogout := by
  rintro ⟨hlogouts, -⟩
  rw [hlogouts] at hl
  cases hl

theorem phase_of_get (ha : s.attempts[i]? = some a) : s.phase? i = some a.phase := by
  rw [phase?, ha]
  rfl

/-- The phases that a logout waits for are those of its attempt. -/
theorem onWay_congr {l : Logout} (hscenes : s'.scenes = s.scenes)
    (hphase : ∀ j, l = .waiting j → s'.phase? j = s.phase? j) : s'.onWay l = s.onWay l := by
  have halive : s'.alive = s.alive := by
    unfold alive
    rw [hscenes]
  cases l with
  | waiting j =>
    have hawaits : s'.awaits = s.awaits := by
      unfold awaits
      rw [halive]
    unfold onWay
    dsimp only
    rw [hphase j rfl, hawaits]
  | disconnecting k =>
    unfold onWay
    dsimp only
    rw [halive]

theorem leaving_frame (hs : Leaving s) (hphase : s'.phase? = s.phase?)
    (hscenes : s'.scenes = s.scenes) (hstate : s'.connectionState = s.connectionState)
    (hlogouts : s'.logouts = s.logouts) (hcompletions : s'.completions = s.completions)
    (hrelogins : s'.relogins = s.relogins) (hauto : s'.autoReconnect = s.autoReconnect) :
    Leaving s' := by
  constructor
  case off =>
    unfold NoLogout
    rw [hlogouts, hcompletions, hauto]
    exact hs.off
  case noDelay =>
    unfold NoLogout
    rw [hlogouts, hcompletions, hphase]
    exact hs.noDelay
  case able =>
    rw [hlogouts, hcompletions, hphase]
    exact hs.able
  case ready =>
    intro l hl
    rw [onWay_congr hscenes fun j _ => congrFun hphase j, hstate]
    exact hs.ready l (hlogouts ▸ hl)
  case final =>
    constructor
    case completed =>
      rw [hcompletions]
      exact hs.final.completed
    case rest =>
      rw [hcompletions, hstate]
      exact hs.final.rest
    case relogins => exact hrelogins.trans hs.final.relogins

theorem phase_set (ha : s.attempts[i]? = some a) (hattempts : s'.attempts = s.attempts.set i a')
    (j : Nat) : s'.phase? j = if j = i then some a'.phase else s.phase? j := by
  unfold phase?
  rw [hattempts]
  split
  · next heq =>
    rw [heq, List.getElem?_set_self (List.getElem?_eq_some_iff.mp ha).1]
    rfl
  · next hne => rw [List.getElem?_set_ne (Ne.symm hne)]

/-- After a logout an attempt goes on. The logouts that wait for it are still on their way, or the
state is `Disconnected`. -/
theorem leaving_set (hs : Leaving s) (ha : s.attempts[i]? = some a) (hafter : After s s')
    (hdelay : a'.phase ≠ .delay) (hable : a'.phase.mayLogIn = true → a.phase.mayLogIn = true)
    (hstate : s'.connectionState = s.connectionState ∨ s'.connectionState = .disconnected ∨
      s.completions = [] ∧ ∀ l ∈ s.logouts, l = .waiting i)
    (hready : .waiting i ∈ s.logouts → s.awaits a'.phase = true ∨
      s'.connectionState = .disconnected)
    (hout : ¬ s.NoLogout) :
    Leaving { s' with attempts := s'.attempts.set i a' } := by
  have hattempts : s'.attempts.set i a' = s.attempts.set i a' := by rw [hafter.attempts]
  have hphase := fun j => phase_set ha
    (show { s' with attempts := s'.attempts.set i a' }.attempts = s.attempts.set i a' from
      hattempts) j
  have hold := hs.noDelay.resolve_left hout
  constructor
  case off => exact .inr hafter.off
  case noDelay =>
    refine .inr fun j hj => ?_
    rw [hphase] at hj
    split at hj
    · exact hdelay (Option.some.inj hj)
    · exact hold j hj
  case able =>
    intro j phase hj hmay
    dsimp only
    rw [hafter.completions, hafter.logouts]
    rw [hphase] at hj
    split at hj
    · next heq =>
      subst heq
      cases hj
      exact hs.able j a.phase (phase_of_get ha) (hable hmay)
    · exact hs.able j phase hj hmay
  case ready =>
    intro l hl
    replace hl : l ∈ s.logouts := hafter.logouts ▸ hl
    rcases eq_or_ne l (.waiting i) with rfl | hne
    · refine (hready hl).imp_left fun hawaits => ?_
      unfold onWay
      dsimp only
      rw [hphase, if_pos rfl, Option.any_some]
      unfold awaits alive at hawaits ⊢
      dsimp only
      rw [hafter.scenes]
      exact hawaits
    · have hway : onWay { s' with attempts := s'.attempts.set i a' } l = s.onWay l := by
        refine onWay_congr hafter.scenes fun j hj => ?_
        rw [hphase, if_neg]
        rintro rfl
        exact hne hj
      rw [hway]
      rcases hstate with hsame | hdisconnected | ⟨-, hall⟩
      · dsimp only
        rw [hsame]
        exact hs.ready l hl
      · exact .inr hdisconnected
      · exact absurd (hall l hl) hne
  case final =>
    constructor
    case completed =>
      dsimp only
      rw [hafter.completions]
      exact hs.final.completed
    case rest =>
      dsimp only
      rw [hafter.completions]
      intro hne
      rcases hstate with hsame | hdisconnected | ⟨hnone, -⟩
      · rw [hsame]
        exact hs.final.rest hne
      · exact .inl hdisconnected
      · exact absurd hnone hne
    case relogins => exact hafter.relogins.trans hs.final.relogins

theorem awaited_of_guard (hguard : (decide (.waiting i ∉ s.logouts) ||
    decide (s.connectionState = .disconnected)) = true) (hmem : .waiting i ∈ s.logouts) :
    s.connectionState = .disconnected := by
  rw [Bool.or_eq_true, decide_eq_true_eq, decide_eq_true_eq] at hguard
  exact hguard.resolve_left (not_not.mpr hmem)

theorem leaving_continue (hs : Leaving s) (hout : ¬ s.NoLogout) (ha : s.attempts[i]? = some a)
    {c : Continuation} (hguard : s.EndsLogout (.attempt i c)) (h : Continues s a c s' a') :
    Leaving { s' with attempts := s'.attempts.set i a' } := by
  have hoff := hs.off.resolve_left hout
  have hdelay : a.phase ≠ .delay := fun hphase =>
    hs.noDelay.resolve_left hout i ((phase_of_get ha).trans (congrArg some hphase))
  have hafter := after_continue hoff hdelay h
  unfold EndsLogout endsLogout at hguard
  cases h with
  | connected _ hon | retries _ hon => cases hoff.symm.trans hon
  | connectFails | error =>
    exact leaving_set hs ha hafter (by rintro ⟨⟩) (by rintro ⟨⟩) (.inl rfl)
      (fun hmem => .inr (awaited_of_guard hguard hmem)) hout
  | credentials hphase =>
    exact leaving_set hs ha hafter (by rintro ⟨⟩) (fun _ => hphase ▸ rfl) (.inl rfl)
      (fun _ => .inl rfl) hout
  | credentialsFail =>
    exact leaving_set hs ha hafter (by rintro ⟨⟩) (by rintro ⟨⟩) (.inl rfl)
      (fun hmem => .inr (awaited_of_guard hguard hmem)) hout
  | @success k hphase =>
    have honly := hs.able i a.phase (phase_of_get ha) (hphase ▸ rfl)
    refine leaving_set hs ha hafter (by rintro ⟨⟩) (by rintro ⟨⟩) (.inr (.inr honly))
      (fun hmem => .inl ?_) hout
    dsimp only at hguard
    rw [Bool.or_eq_true, decide_eq_true_eq, phase_of_get ha, hphase] at hguard
    exact hguard.resolve_left (List.ne_nil_of_mem hmem)
  | refused =>
    obtain ⟨authTask, hset⟩ := setConnectionState_disconnected_off
      (s := { s with autoReconnect := false }) rfl ""
    rw [hset] at hafter ⊢
    exact leaving_set hs ha hafter (by rintro ⟨⟩) (by rintro ⟨⟩) (.inr (.inl rfl))
      (fun _ => .inr rfl) hout
  | fails hphase =>
    refine leaving_set hs ha hafter (by rintro ⟨⟩) (by rintro ⟨⟩) (.inl rfl)
      (fun hmem => .inr ((hs.ready _ hmem).resolve_left ?_)) hout
    unfold onWay
    dsimp only
    rw [phase_of_get ha, hphase]
    exact Bool.false_ne_true
  | delayEnds hphase => exact absurd hphase hdelay

/-! ### Scenes -/

theorem onWay_mono {l : Logout} (hphase : s'.phase? = s.phase?)
    (halive : ∀ k, s.alive k = true → s'.alive k = true) (h : s.onWay l = true) :
    s'.onWay l = true := by
  cases l with
  | waiting j =>
    unfold onWay at h ⊢
    dsimp only at h ⊢
    obtain ⟨phase, hj, hawaits⟩ := (Option.any_eq_true _ _).mp h
    refine (Option.any_eq_true _ _).mpr ⟨phase, (congrFun hphase j).trans hj, ?_⟩
    cases phase with
    | connecting | credentials k | login k => rfl
    | done k => exact halive k hawaits
    | failing | delay | failed => cases hawaits
  | disconnecting k => exact halive k h

theorem leaving_scenes (hs : Leaving s) (scenes : List SceneState) (authTask : Option Nat)
    (state : GameConnectionState)
    (hready : ∀ l ∈ s.logouts, onWay { s with scenes := scenes } l = true ∨
      state = .disconnected)
    (hrest : s.completions ≠ [] → state = .disconnected ∨ state = .disconnecting) :
    Leaving { s with scenes := scenes, authTask := authTask, connectionState := state } where
  off := hs.off
  noDelay := hs.noDelay
  able := hs.able
  ready := by
    intro l hl
    refine (hready l hl).imp_left fun hway => ?_
    exact onWay_mono (s := { s with scenes := scenes }) rfl (fun _ h => h) hway
  final := ⟨hs.final.completed, hrest, hs.final.relogins⟩

theorem leaving_makeScene (hs : Leaving s) :
    Leaving { s with scenes := s.scenes ++ [.connected] } := by
  refine leaving_scenes hs _ s.authTask s.connectionState (fun l hl => ?_) hs.final.rest
  refine (hs.ready l hl).imp_left (onWay_mono (s := s) rfl fun k hk => ?_)
  refine decide_eq_true fun hdisconnected => ?_
  rcases Heap.of_make hdisconnected with hold | ⟨-, hnew⟩
  · exact of_decide_eq_true hk hold
  · cases hnew

theorem leaving_reports (hs : Leaving s) (hout : ¬ s.NoLogout) {k : Nat} {state : SceneState}
    {reason : String} (hmay : s.scenes[k]?.any (fun st => st.mayReport state) = true)
    (hguard : s.EndsLogout (.sceneReports k state reason)) :
    Leaving ({ s with scenes := s.scenes.set k state }.onSceneState state reason) := by
  unfold onSceneState
  cases state with
  | connected =>
    obtain ⟨st, -, hst⟩ := (Option.any_eq_true _ _).mp hmay
    cases st <;> cases hst
  | disconnecting =>
    dsimp only
    rw [setConnectionState_of_ne _ .disconnecting (by decide) (by decide)]
    refine leaving_scenes hs _ s.authTask _ (fun l hl => .inl ?_) fun _ => .inr rfl
    refine onWay_mono (s := s) rfl (fun j hj => ?_) (List.all_eq_true.mp hguard l hl)
    refine decide_eq_true fun hdisconnected => ?_
    rcases Heap.of_set hdisconnected with ⟨-, hold⟩ | ⟨-, hnew⟩
    · exact of_decide_eq_true hj hold
    · cases hnew
  | disconnected =>
    obtain ⟨authTask, hset⟩ := setConnectionState_disconnected_off
      (s := { s with scenes := s.scenes.set k .disconnected }) (hs.off.resolve_left hout) reason
    dsimp only
    rw [hset]
    exact leaving_scenes hs _ authTask _ (fun _ _ => .inr rfl) fun _ => .inl rfl

/-! ### The calls of `logout` -/

/-- A logout completes whose scene reports nothing more. -/
theorem leaving_complete (hs : Leaving s) {j : Nat} {l : Logout} (hj : s.logouts[j]? = some l)
    (hnot : s.onWay l = false) :
    Leaving ({ s with logouts := s.logouts.eraseIdx j }.completeLogout) := by
  have hl := List.mem_of_getElem? hj
  have hout := not_noLogout_of_mem hl
  have hstate : s.connectionState = .disconnected :=
    (hs.ready l hl).resolve_left (Bool.eq_false_iff.mp hnot)
  constructor
  case off => exact .inr (hs.off.resolve_left hout)
  case noDelay => exact .inr (hs.noDelay.resolve_left hout)
  case able =>
    intro i phase hphase hmay
    obtain rfl := (hs.able i phase hphase hmay).2 l hl
    unfold onWay at hnot
    dsimp only at hnot
    have hphase' : s.phase? i = some phase := hphase
    rw [hphase'] at hnot
    cases phase with
    | credentials k | login k => cases hnot
    | delay => exact absurd hphase' (hs.noDelay.resolve_left hout i)
    | connecting | failing | done k | failed => cases hmay
  case ready => exact fun l' _ => .inr hstate
  case final =>
    constructor
    case completed =>
      intro state hmem
      rcases List.mem_append.mp hmem with hold | hnew
      · exact hs.final.completed state hold
      · exact (List.mem_singleton.mp hnew).trans hstate
    case rest => exact fun _ => .inl hstate
    case relogins => exact hs.final.relogins

/-- A logout goes on with the scene of its attempt. -/
theorem leaving_scene (hs : Leaving s) {j k : Nat} (hj : s.logouts[j]? = some (.waiting i))
    (hphase : s.phase? i = some (.done k)) :
    Leaving { s with logouts := s.logouts.set j (.disconnecting k) } := by
  have hl := List.mem_of_getElem? hj
  have hout := not_noLogout_of_mem hl
  constructor
  case off => exact .inr (hs.off.resolve_left hout)
  case noDelay => exact .inr (hs.noDelay.resolve_left hout)
  case able =>
    intro i' phase hphase' hmay
    cases (hs.able i' phase hphase' hmay).2 _ hl
    cases hphase.symm.trans hphase'
    cases hmay
  case ready =>
    intro l' hl'
    rcases List.mem_or_eq_of_mem_set hl' with hold | rfl
    · exact hs.ready l' hold
    · have hway := hs.ready _ hl
      unfold onWay at hway
      dsimp only at hway
      rw [hphase] at hway
      exact hway
  case final => exact ⟨hs.final.completed, hs.final.rest, hs.final.relogins⟩

theorem logout_guard_disconnected (hstate : s.connectionState = .disconnected)
    (hguard : s.EndsLogout .logout) {phase : Phase} (hphase : s.phase? i = some phase) :
    phase.mayLogIn = false := by
  unfold EndsLogout endsLogout at hguard
  dsimp only at hguard
  rw [hstate] at hguard
  dsimp only at hguard
  obtain ⟨a, ha, rfl⟩ := Option.map_eq_some_iff.mp hphase
  exact (Bool.not_eq_true' _).mp (List.all_eq_true.mp hguard a (List.mem_of_getElem? ha))

/-- A logout in another state waits for an attempt that is on its way, and no other can log in. -/
theorem logout_guard (hne : s.connectionState ≠ .disconnected) (hguard : s.EndsLogout .logout) :
    s.connectionState ≠ .disconnecting ∧ ∃ i, s.authTask = some i ∧
      s.onWay (.waiting i) = true ∧
      ∀ j phase, s.phase? j = some phase → phase.mayLogIn = true → j = i := by
  unfold EndsLogout endsLogout at hguard
  dsimp only at hguard
  split at hguard
  · next hstate => exact absurd hstate hne
  · cases hguard
  · cases hguard
  · next i htask hnot hstate =>
    obtain ⟨hway, hall⟩ := (Bool.and_eq_true _ _).mp hguard
    refine ⟨hstate, i, htask, hway, fun j phase hphase hmay => ?_⟩
    obtain ⟨a, ha, rfl⟩ := Option.map_eq_some_iff.mp hphase
    have hj := List.all_eq_true.mp hall (a, j) (List.mk_mem_zipIdx_iff_getElem?.mpr ha)
    dsimp only at hj
    rw [hmay, Bool.not_true, Bool.or_false] at hj
    exact of_decide_eq_true hj

theorem leaving_logout (hs : Leaving s) (hguard : s.EndsLogout .logout) : Leaving s.logout := by
  rcases eq_or_ne s.connectionState .disconnected with hstate | hne
  · have hlogout : s.logout = { s with
        autoReconnect := false
        completions := s.completions ++ [s.connectionState] } := by
      rcases logout_cases s with ⟨-, h⟩ | ⟨hne, -⟩
      · exact h
      · exact absurd hstate hne
    have hunable : ∀ i phase, s.phase? i = some phase → phase.mayLogIn = false :=
      fun i phase hphase => logout_guard_disconnected hstate hguard hphase
    rw [hlogout]
    constructor
    case off => exact .inr rfl
    case noDelay =>
      refine .inr fun i hphase => ?_
      cases hunable i .delay hphase
    case able =>
      intro i phase hphase hmay
      cases (hunable i phase hphase).symm.trans hmay
    case ready => exact fun l _ => .inr hstate
    case final =>
      refine ⟨fun state hmem => ?_, fun _ => .inl hstate, hs.final.relogins⟩
      rcases List.mem_append.mp hmem with hold | hnew
      · exact hs.final.completed state hold
      · exact (List.mem_singleton.mp hnew).trans hstate
  · obtain ⟨hne', i, htask, hway, honly⟩ := logout_guard hne hguard
    obtain ⟨waiters, hlogout⟩ : ∃ waiters, s.logout = { s with
        autoReconnect := false
        connectionState := .disconnecting
        waiters := waiters
        logouts := s.logouts ++ [.waiting i] } := by
      rcases logout_cases s with ⟨hstate, -⟩ | ⟨-, -, waiters, ⟨i', htask', h⟩ | ⟨htask', -⟩⟩
      · exact absurd hstate (not_or.mpr ⟨hne, hne'⟩)
      · cases htask.symm.trans htask'
        exact ⟨waiters, h⟩
      · cases htask.symm.trans htask'
    rw [hlogout]
    constructor
    case off => exact .inr rfl
    case noDelay =>
      refine .inr fun j hphase => ?_
      obtain rfl := honly j .delay hphase rfl
      have hdelay : s.phase? j = some .delay := hphase
      unfold onWay at hway
      dsimp only at hway
      rw [hdelay] at hway
      cases hway
    case able =>
      intro j phase hphase hmay
      obtain rfl := honly j phase hphase hmay
      obtain ⟨hnone, hall⟩ := hs.able j phase hphase hmay
      refine ⟨hnone, fun l hl => ?_⟩
      rcases List.mem_append.mp hl with hold | hnew
      · exact hall l hold
      · exact List.mem_singleton.mp hnew
    case ready =>
      intro l hl
      rcases List.mem_append.mp hl with hold | hnew
      · exact .inl ((hs.ready l hold).resolve_right hne)
      · cases List.mem_singleton.mp hnew
        exact .inl hway
    case final => exact ⟨hs.final.completed, fun _ => .inr rfl, hs.final.relogins⟩

/-! ### Steps -/

theorem leaving_login (hs : Leaving s) : Leaving s.login := by
  have hget := before_getAuthenticationScene
    { s with autoReconnect := true, logouts := [], completions := [] }
  exact leaving_of_noLogout ⟨hget.logouts, hget.completions⟩
    ((hget.relogins rfl).trans hs.final.relogins)

theorem leaving_of_before (hs : Leaving s) (h : s.NoLogout) (hbefore : Before s s') :
    Leaving s' :=
  leaving_of_noLogout ⟨hbefore.logouts.trans h.1, hbefore.completions.trans h.2⟩
    ((hbefore.relogins h.2).trans hs.final.relogins)

theorem before_onSceneState (s : UsersApi) (state : SceneState) (reason : String) :
    Before s (s.onSceneState state reason) := by
  unfold onSceneState
  cases state with
  | connected => exact ⟨rfl, rfl, fun _ => rfl⟩
  | disconnecting => exact before_setConnectionState s .disconnecting ""
  | disconnected => exact before_setConnectionState s .disconnected reason

theorem leaving_step (hs : Leaving s) {act : Action} (hguard : s.EndsLogout act)
    (hstep : s.step act = some s') : Leaving s' := by
  cases of_step hstep with
  | login => exact leaving_login hs
  | logout => exact leaving_logout hs hguard
  | use =>
    rcases hs.off with hnone | hoff
    · exact leaving_of_before hs hnone (before_getAuthenticationScene s)
    · obtain ⟨waiters, hwaiters⟩ := getAuthenticationScene_off hoff
      rw [hwaiters]
      exact leaving_frame hs rfl rfl rfl rfl rfl rfl rfl
  | setCredentialsCallback | waiterFails | waiter =>
    exact leaving_frame hs rfl rfl rfl rfl rfl rfl rfl
  | @assign i a ha =>
    refine leaving_frame hs (funext fun j => ?_) rfl rfl rfl rfl rfl rfl
    rw [phase_set ha (rfl : _ = s.attempts.set i { a with assigned := true })]
    split
    · next heq => rw [heq, phase_of_get ha]
    · rfl
  | makeScene => exact leaving_makeScene hs
  | attempt ha hcontinues =>
    rcases Classical.em s.NoLogout with hnone | hout
    · have hbefore := before_continue hcontinues
      exact leaving_of_before hs hnone ⟨hbefore.logouts, hbefore.completions, hbefore.relogins⟩
    · exact leaving_continue hs hout ha hguard hcontinues
  | @sceneReports k state reason hmay =>
    rcases Classical.em s.NoLogout with hnone | hout
    · have hbefore := before_onSceneState { s with scenes := s.scenes.set k state } state reason
      exact leaving_of_before hs hnone ⟨hbefore.logouts, hbefore.completions, hbefore.relogins⟩
    · exact leaving_reports hs hout hmay hguard
  | logoutScene hj hphase => exact leaving_scene hs hj hphase
  | @logoutFails j i hj hphase =>
    refine leaving_complete hs hj ?_
    unfold onWay phase?
    dsimp only
    rw [hphase]
    rfl
  | @logoutEnds j k hj =>
    refine leaving_complete hs hj ?_
    unfold EndsLogout endsLogout at hguard
    dsimp only at hguard
    rw [hj, Option.all_some] at hguard
    exact (Bool.not_eq_true' _).mp hguard

end LogoutLemmas

open LogoutLemmas

/-! ## Results -/

/-- As long as each step meets the condition, a logout completes in `Disconnected`, and no login
and no reconnection follows before the next `login`. -/
theorem logout_final {hasHandlers : Bool} {s : UsersApi}
    (h : Lts.Reachable step EndsLogout (init hasHandlers) s) : s.LogoutFinal :=
  (h.invariant (leaving_of_noLogout ⟨rfl, rfl⟩ rfl) fun _ _ _ hs hguard hstep =>
    leaving_step hs hguard hstep).final

/-- A logout during the request of the login, and another one after it. -/
theorem logout_final_duringLogin : ∃ s : UsersApi,
    s.completions = [.disconnected, .disconnected] ∧ s.attempts.map Attempt.phase = [.done 0] ∧
      s.LogoutFinal := by
  obtain ⟨s, hreach, htest⟩ := Lts.Reachable.of_exec step EndsLogout (init true)
    [.login, .assign 0, .makeScene, .attempt 0 (.connectEnds (some 0)),
      .attempt 0 (.credentialsEnd true), .logout, .attempt 0 (.loginEnds .success),
      .logoutScene 0, .sceneReports 0 .disconnecting "", .sceneReports 0 .disconnected "",
      .logoutEnds 0, .use, .logout]
    (fun s => decide (s.completions = [.disconnected, .disconnected] ∧
      s.attempts.map Attempt.phase = [.done 0]))
    (by decide +kernel)
  obtain ⟨hcompletions, hphases⟩ := of_decide_eq_true htest
  exact ⟨s, hcompletions, hphases, logout_final hreach⟩

/-- A logout during the connection: the attempt fails because automatic reconnection is off, and
the logout completes in the state `Disconnecting`. -/
theorem logout_while_connecting :
    ¬ ∀ s, Lts.Reachable step Lts.anyStep (init true) s → s.LogoutFinal := by
  intro hall
  obtain ⟨s, hreach, htest⟩ := Lts.Reachable.of_exec step Lts.anyStep (init true)
    [.login, .assign 0, .logout, .makeScene, .attempt 0 (.connectEnds (some 0)),
      .attempt 0 .failure, .logoutScene 0]
    (fun s => decide (s.completions = [.disconnecting])) (by decide +kernel)
  have hcompletions : s.completions = [.disconnecting] := of_decide_eq_true htest
  have hmem : .disconnecting ∈ s.completions := by
    rw [hcompletions]
    exact List.mem_singleton_self _
  cases (hall s hreach).completed _ hmem

-- A logout while a retry waits, after the user connected elsewhere: it completes at once, and the
-- retry calls `loginImpl`.
example : (Lts.exec step Lts.anyStep (init true)
    [.login, .assign 0, .makeScene, .attempt 0 (.connectEnds (some 0)),
      .attempt 0 (.credentialsEnd true), .attempt 0 (.loginEnds .error), .attempt 0 .failure,
      .sceneReports 0 .disconnected "User connected elsewhere", .logout,
      .attempt 0 .delayEnds]).map
    (fun s => (s.completions, s.connectionState, s.relogins)) =
      some ([.disconnected], .connecting, 1) := by
  decide +kernel

end UsersApi

end Stormancer.Users
