import Stormancer.GameFinder.Service
import Stormancer.Lib.Chronicle
import Stormancer.Lib.Heap
import Stormancer.Lib.Run
import Stormancer.Lib.Slots

/-!
# The requests of `GameFinder_Impl`

`findGame` enters a cancellation source for the game finder, waits for the container of the game
finder, calls its service, and erases the source when the call has ended. `cancel` cancels the
source that it finds. The containers are tasks: they become ready or fail later, and the map that
holds them loses them when they fail, when their scenes disconnect or when the application
disconnects from the game finder.

The continuations run at any time and in any order. The first one of a request looks at the token,
calls the service and registers the callback in three steps, and `cancel` may run between them. The
state of a service may change at any time, as its messages do it. What is sent in a request is left
out.

Results:
1. `requests_explained`: over every run, one request at most runs for a game finder; a call of
   `cancel` hits the request of its game finder that runs, and no other one; a request that is
   canceled while it waits for its container never reaches the service; `gamefinder.cancel` is sent
   for canceled requests only that have reached the service and have not ended, and once; a request
   ends once.
-/

namespace Stormancer.GameFinder.Requests

/-! ## Data -/

inductive ContainerTask
  | connecting
  | failed
  | ready
deriving DecidableEq

structure GameFinderContainer where
  gameFinder : Str
  task : ContainerTask
  /-- The state of the service. -/
  currentState : GameFinderStatus
deriving DecidableEq

inductive Stage
  /-- Until the container is there. -/
  | waiting
  /-- The token was not canceled. -/
  | calling
  /-- The service was called. -/
  | registering (finds : Bool)
  /-- Until the call of `gamefinder.find` has ended. -/
  | finding
  /-- Until the last continuation runs. -/
  | done
  | ended
deriving DecidableEq

/-- A call of `findGame` that was not refused. -/
structure Request where
  gameFinder : Str
  container : Nat
  canceled : Bool
  /-- The callback of its token is registered. -/
  registered : Bool
  stage : Stage
deriving DecidableEq

inductive Event
  /-- The connection to a container begins. -/
  | opened (container : Nat) (gameFinder : Str)
  | accepted (request : Nat) (gameFinder : Str) (container : Nat)
  | refused (gameFinder : Str)
  /-- `cancel` was called, and canceled the source of the request, if it was not canceled yet. -/
  | canceled (gameFinder : Str) (request : Option Nat)
  /-- The token of the request was not canceled when the container was there. -/
  | checked (request : Nat)
  /-- The service was called, and has called `gamefinder.find` or refused to. -/
  | called (request : Nat) (container : Nat) (finds : Bool)
  /-- `gamefinder.cancel` was sent. -/
  | cancelSent (request : Nat) (container : Nat)
  | ended (request : Nat)
deriving DecidableEq

structure GameFinderImpl where
  gameFinders : Slots.Table Str Nat
  pendingFindGameRequests : Slots.Table Str Nat
  containers : List GameFinderContainer
  requests : List Request
  /-- Oldest first. -/
  log : List Event

inductive Action
  /-- `connects`: the users API is there, and does not fail at once. -/
  | findGame (gameFinder : Str) (connects : Bool)
  | connectToGameFinder (gameFinder : Str) (connects : Bool)
  | disconnectFromGameFinder (gameFinder : Str)
  | cancel (gameFinder : Str)
  | containerReady (container : Nat) (currentState : GameFinderStatus)
  | containerFails (container : Nat)
  | sceneDisconnecting (container : Nat)
  | stateChanges (container : Nat) (currentState : GameFinderStatus)
  /-- The first continuation of a request looks at the token. -/
  | resume (request : Nat)
  /-- It calls the service, whose call of `gamefinder.find` may throw. -/
  | call (request : Nat) (throws : Bool)
  /-- It registers the callback. -/
  | register (request : Nat)
  /-- The call of `gamefinder.find` ends. -/
  | findEnds (request : Nat)
  /-- The last continuation of a request. -/
  | finish (request : Nat)
deriving DecidableEq

namespace GameFinderImpl

/-! ## The code -/

def init : GameFinderImpl := ⟨∅, ∅, [], [], []⟩

/-- `getGameFinderContainer`. -/
def getGameFinderContainer (s : GameFinderImpl) (id : Str) (connects : Bool) :
    Nat × GameFinderImpl :=
  match s.gameFinders.lookup id with
  | some container => (container, s)
  | none =>
    (s.containers.length,
      { s with
        gameFinders := s.gameFinders.insert id s.containers.length
        containers := s.containers ++ [⟨id, if connects then .connecting else .failed, .idle⟩]
        log := s.log ++ [.opened s.containers.length id] })

def findGame (s : GameFinderImpl) (gameFinder : Str) (connects : Bool) : GameFinderImpl :=
  if gameFinder ∈ s.pendingFindGameRequests then { s with log := s.log ++ [.refused gameFinder] }
  else
    let r := s.getGameFinderContainer gameFinder connects
    { r.2 with
      pendingFindGameRequests := r.2.pendingFindGameRequests.insert gameFinder r.2.requests.length
      requests := r.2.requests ++ [⟨gameFinder, r.1, false, false, .waiting⟩]
      log := r.2.log ++ [.accepted r.2.requests.length gameFinder r.1] }

/-- What the callback of the token of a request does. -/
def callback (s : GameFinderImpl) (request : Nat) (r : Request) : List Event :=
  match s.containers[r.container]? with
  | some container =>
    if container.currentState ≠ .idle then [.cancelSent request r.container] else []
  | none => []

def cancel (s : GameFinderImpl) (gameFinder : Str) : GameFinderImpl :=
  match s.pendingFindGameRequests.lookup gameFinder with
  | none => { s with log := s.log ++ [.canceled gameFinder none] }
  | some request =>
    match s.requests[request]? with
    | none => s
    | some r =>
      if r.canceled then { s with log := s.log ++ [.canceled gameFinder none] }
      else
        { s with
          requests := s.requests.set request { r with canceled := true }
          log := s.log ++ .canceled gameFinder (some request) ::
            if r.registered then s.callback request r else [] }

/-- The first continuation of a request, when the task of the container is done. -/
def resume (s : GameFinderImpl) (request : Nat) (r : Request) (container : GameFinderContainer) :
    Option GameFinderImpl :=
  match container.task with
  | .connecting => none
  -- The continuation takes the value of the task, and is skipped.
  | .failed => some { s with requests := s.requests.set request { r with stage := .done } }
  | .ready =>
    if r.canceled then
      some { s with requests := s.requests.set request { r with stage := .done } }
    else
      some { s with
        requests := s.requests.set request { r with stage := .calling }
        log := s.log ++ [.checked request] }

/-- `GameFinderService::findGame` in the continuation. -/
def call (s : GameFinderImpl) (request : Nat) (r : Request) (container : GameFinderContainer)
    (throws : Bool) : GameFinderImpl :=
  if container.currentState ≠ .idle then
    { s with
      requests := s.requests.set request { r with stage := .registering false }
      log := s.log ++ [.called request r.container false] }
  else
    -- The state was set before `rpc` is called, and an exception does not set it back.
    { s with
      containers := s.containers.set r.container { container with currentState := .searching }
      requests := s.requests.set request
        { r with stage := if throws then .done else .registering true }
      log := s.log ++ [.called request r.container true] }

/-- The callback runs at once when the token is canceled already. -/
def register (s : GameFinderImpl) (request : Nat) (r : Request) (finds : Bool) : GameFinderImpl :=
  { s with
    requests := s.requests.set request
      { r with registered := true, stage := if finds then .finding else .done }
    log := s.log ++ if r.canceled then s.callback request r else [] }

/-- The last continuation of a request. -/
def finish (s : GameFinderImpl) (request : Nat) (r : Request) : GameFinderImpl :=
  { s with
    pendingFindGameRequests := s.pendingFindGameRequests.erase r.gameFinder
    requests := s.requests.set request { r with stage := .ended }
    log := s.log ++ [.ended request] }

def step (s : GameFinderImpl) : Action → Option GameFinderImpl
  | .findGame gameFinder connects => some (s.findGame gameFinder connects)
  | .connectToGameFinder gameFinder connects =>
    some (s.getGameFinderContainer gameFinder connects).2
  | .disconnectFromGameFinder gameFinder =>
    some { s with gameFinders := s.gameFinders.erase gameFinder }
  | .cancel gameFinder => some (s.cancel gameFinder)
  | .containerReady i currentState =>
    match s.containers[i]? with
    | some ⟨gameFinder, .connecting, _⟩ =>
      some { s with containers := s.containers.set i ⟨gameFinder, .ready, currentState⟩ }
    | _ => none
  | .containerFails i =>
    match s.containers[i]? with
    | some ⟨gameFinder, .connecting, state⟩ =>
      some { s with
        containers := s.containers.set i ⟨gameFinder, .failed, state⟩
        gameFinders := s.gameFinders.erase gameFinder }
    | _ => none
  | .sceneDisconnecting i =>
    s.containers[i]?.map fun container =>
      { s with gameFinders := s.gameFinders.erase container.gameFinder }
  | .stateChanges i currentState =>
    s.containers[i]?.map fun container =>
      { s with containers := s.containers.set i { container with currentState := currentState } }
  | .resume request =>
    match s.requests[request]? with
    | some r =>
      if r.stage = .waiting then s.containers[r.container]?.bind (s.resume request r) else none
    | none => none
  | .call request throws =>
    match s.requests[request]? with
    | some r =>
      if r.stage = .calling then
        s.containers[r.container]?.map fun container => s.call request r container throws
      else none
    | none => none
  | .register request =>
    match s.requests[request]? with
    | some r =>
      match r.stage with
      | .registering finds => some (s.register request r finds)
      | _ => none
    | none => none
  | .findEnds request =>
    match s.requests[request]? with
    | some r =>
      if r.stage = .finding then
        some { s with requests := s.requests.set request { r with stage := .done } }
      else none
    | none => none
  | .finish request =>
    match s.requests[request]? with
    | some r => if r.stage = .done then some (s.finish request r) else none
    | none => none

end GameFinderImpl

/-! ## The property -/

/-- The request that the event is about. -/
def Event.request : Event → Option Nat
  | .accepted request _ _ | .checked request | .called request _ _ | .cancelSent request _
  | .ended request => some request
  | .canceled _ request => request
  | .opened _ _ | .refused _ => none

/-- What has happened before an event. -/
def Explained (before : List Event) : Event → Prop
  | .opened _ _ => True
  | .accepted request gameFinder container =>
    .opened container gameFinder ∈ before ∧ (∀ e ∈ before, e.request ≠ some request) ∧
      ∀ request' container', .accepted request' gameFinder container' ∈ before →
        .ended request' ∈ before
  | .refused gameFinder =>
    ∃ request container, .accepted request gameFinder container ∈ before ∧ .ended request ∉ before
  | .canceled gameFinder none =>
    ∀ request container, .accepted request gameFinder container ∈ before →
      .ended request ∈ before ∨ .canceled gameFinder (some request) ∈ before
  | .canceled gameFinder (some request) =>
    (∃ container, .accepted request gameFinder container ∈ before) ∧ .ended request ∉ before ∧
      .canceled gameFinder (some request) ∉ before
  | .checked request =>
    (∃ gameFinder container, .accepted request gameFinder container ∈ before ∧
      .canceled gameFinder (some request) ∉ before) ∧
      .checked request ∉ before ∧ .ended request ∉ before
  | .called request container _ =>
    (∃ gameFinder, .accepted request gameFinder container ∈ before) ∧ .checked request ∈ before ∧
      .ended request ∉ before ∧ ∀ container' finds, .called request container' finds ∉ before
  | .cancelSent request container =>
    (∃ gameFinder, .canceled gameFinder (some request) ∈ before) ∧
      (∃ finds, .called request container finds ∈ before) ∧ .ended request ∉ before ∧
      ∀ container', .cancelSent request container' ∉ before
  | .ended request =>
    (∃ gameFinder container, .accepted request gameFinder container ∈ before) ∧
      .ended request ∉ before

/-! ## The invariant -/

/-- What has happened to a request. -/
structure RequestOk (log : List Event) (request : Nat) (r : Request) : Prop where
  accepted : ∀ gameFinder container, .accepted request gameFinder container ∈ log ↔
    gameFinder = r.gameFinder ∧ container = r.container
  canceled : ∀ gameFinder, .canceled gameFinder (some request) ∈ log ↔
    gameFinder = r.gameFinder ∧ r.canceled = true
  checked : .checked request ∈ log → r.stage ≠ .waiting
  calling : r.stage = .calling → .checked request ∈ log
  called : ∀ container finds, .called request container finds ∈ log →
    r.stage ≠ .waiting ∧ r.stage ≠ .calling
  registering : r.registered = true ∨ (∃ finds, r.stage = .registering finds) →
    ∃ finds, .called request r.container finds ∈ log
  registered : r.registered = true →
    r.stage ≠ .waiting ∧ r.stage ≠ .calling ∧ ∀ finds, r.stage ≠ .registering finds
  cancelSent : ∀ container, .cancelSent request container ∈ log →
    r.canceled = true ∧ r.registered = true
  ended : .ended request ∈ log ↔ r.stage = .ended

structure Inv (s : GameFinderImpl) : Prop where
  pending : ∀ gameFinder request, s.pendingFindGameRequests.lookup gameFinder = some request ↔
    ∃ r, s.requests[request]? = some r ∧ r.gameFinder = gameFinder ∧ r.stage ≠ .ended
  requests : ∀ request r, s.requests[request]? = some r → RequestOk s.log request r
  bounded : ∀ e ∈ s.log, ∀ request ∈ e.request, request < s.requests.length
  gameFinders : ∀ gameFinder container, s.gameFinders.lookup gameFinder = some container →
    .opened container gameFinder ∈ s.log
  log : Chronicle Explained s.log

namespace RequestsLemmas

open GameFinderImpl

variable {s s' : GameFinderImpl} {log new : List Event} {x : Event} {request : Nat} {r q : Request}

/-! ## Frames -/

theorem mem_old (hnew : ∀ e ∈ new, e ≠ x) : x ∈ log ++ new ↔ x ∈ log := by
  rw [List.mem_append]
  exact or_iff_left fun hmem => hnew x hmem rfl

theorem mem_frame (hnew : ∀ e ∈ new, e.request ≠ some request) {e : Event}
    (he : e.request = some request) : e ∈ log ++ new ↔ e ∈ log :=
  mem_old fun e' hmem heq => hnew e' hmem (heq ▸ he)

/-- Events about other requests. -/
theorem requestOk_frame (h : RequestOk log request r) (hnew : ∀ e ∈ new, e.request ≠ some request) :
    RequestOk (log ++ new) request r where
  accepted gameFinder container := (mem_frame hnew rfl).trans (h.accepted gameFinder container)
  canceled gameFinder := (mem_frame hnew rfl).trans (h.canceled gameFinder)
  checked hmem := h.checked ((mem_frame hnew rfl).mp hmem)
  calling hstage := (mem_frame hnew rfl).mpr (h.calling hstage)
  called container finds hmem := h.called container finds ((mem_frame hnew rfl).mp hmem)
  registering hstage :=
    (h.registering hstage).imp fun _ hmem => (mem_frame hnew rfl).mpr hmem
  registered := h.registered
  cancelSent container hmem := h.cancelSent container ((mem_frame hnew rfl).mp hmem)
  ended := (mem_frame hnew rfl).trans h.ended

/-- An event that is about no request. -/
theorem inv_quiet (hi : Inv s) {e : Event} (hrequest : e.request = none)
    (he : Explained s.log e) : Inv { s with log := s.log ++ [e] } where
  pending := hi.pending
  requests request r hr := by
    refine requestOk_frame (hi.requests request r hr) fun e' he' => ?_
    rw [List.mem_singleton.mp he', hrequest]
    nofun
  bounded e' he' request hmem := by
    rcases List.mem_append.mp he' with hold | hnew
    · exact hi.bounded e' hold request hmem
    · rw [List.mem_singleton.mp hnew, hrequest] at hmem
      nomatch hmem
  gameFinders gameFinder container h := List.mem_append_left _ (hi.gameFinders _ _ h)
  log := hi.log.snoc he

/-- The containers change, and what the map finds. -/
theorem inv_containers (hi : Inv s) (containers : List GameFinderContainer)
    {gameFinders : Slots.Table Str Nat}
    (h : ∀ gameFinder container, gameFinders.lookup gameFinder = some container →
      .opened container gameFinder ∈ s.log) :
    Inv { s with containers := containers, gameFinders := gameFinders } :=
  ⟨hi.pending, hi.requests, hi.bounded, h, hi.log⟩

theorem inv_erase (hi : Inv s) (containers : List GameFinderContainer) (gameFinder : Str) :
    Inv { s with containers := containers, gameFinders := s.gameFinders.erase gameFinder } := by
  refine inv_containers hi containers fun gameFinder' container h => ?_
  rw [Slots.Table.lookup_erase_eq] at h
  split at h
  · nomatch h
  · exact hi.gameFinders gameFinder' container h

/-- A request changes, and all new events are about it. -/
theorem inv_change (hi : Inv s) (hr : s.requests[request]? = some r)
    {pending : Slots.Table Str Nat}
    (hpending : ∀ gameFinder request', pending.lookup gameFinder = some request' ↔
      ∃ x, (s.requests.set request q)[request']? = some x ∧ x.gameFinder = gameFinder ∧
        x.stage ≠ .ended)
    (hok : RequestOk (s.log ++ new) request q) (hnew : ∀ e ∈ new, e.request = some request)
    (hlog : Chronicle Explained (s.log ++ new)) (containers : List GameFinderContainer) :
    Inv { s with
      pendingFindGameRequests := pending
      containers := containers
      requests := s.requests.set request q
      log := s.log ++ new } where
  pending := hpending
  requests request' x hx := by
    rcases Heap.of_set hx with ⟨hne, hold⟩ | ⟨rfl, rfl⟩
    · refine requestOk_frame (hi.requests request' x hold) fun e he => ?_
      rw [hnew e he]
      exact fun h => hne (Option.some.inj h).symm
    · exact hok
  bounded e he request' hmem := by
    rw [List.length_set]
    rcases List.mem_append.mp he with hold | hmem'
    · exact hi.bounded e hold request' hmem
    · rw [hnew e hmem', Option.mem_some] at hmem
      exact hmem ▸ (List.getElem?_eq_some_iff.mp hr).1
  gameFinders gameFinder container h := List.mem_append_left _ (hi.gameFinders _ _ h)
  log := hlog

/-- A request changes that has not ended, and does not end. -/
theorem inv_set (hi : Inv s) (hr : s.requests[request]? = some r)
    (hname : q.gameFinder = r.gameFinder) (hstage : r.stage ≠ .ended) (hstage' : q.stage ≠ .ended)
    (hok : RequestOk (s.log ++ new) request q) (hnew : ∀ e ∈ new, e.request = some request)
    (hlog : Chronicle Explained (s.log ++ new)) (containers : List GameFinderContainer) :
    Inv { s with
      containers := containers
      requests := s.requests.set request q
      log := s.log ++ new } := by
  refine inv_change hi hr (fun gameFinder request' => ?_) hok hnew hlog containers
  rw [hi.pending]
  by_cases heq : request = request'
  · subst heq
    have hlt := (List.getElem?_eq_some_iff.mp hr).1
    simp only [hr, List.getElem?_set_self hlt, Option.some.injEq, exists_eq_left', hname, hstage,
      hstage', ne_eq, not_false_eq_true, and_true]
  · simp only [List.getElem?_set_ne heq]

/-! ## A request and its events -/

theorem requestOk_accepted {gameFinder : Str} {container : Nat}
    (hnone : ∀ e ∈ log, e.request ≠ some request) :
    RequestOk (log ++ [.accepted request gameFinder container]) request
      ⟨gameFinder, container, false, false, .waiting⟩ := by
  have hmem : ∀ e, e.request = some request →
      (e ∈ log ++ [.accepted request gameFinder container] ↔
        e = .accepted request gameFinder container) := by
    intro e he
    rw [List.mem_append, List.mem_singleton]
    exact or_iff_right fun hold => hnone e hold he
  constructor
  case accepted =>
    intro gameFinder' container'
    rw [hmem _ rfl, Event.accepted.injEq]
    exact and_iff_right rfl
  case canceled =>
    intro gameFinder'
    rw [hmem _ rfl]
    exact ⟨nofun, nofun⟩
  case checked => exact fun h => nomatch (hmem _ rfl).mp h
  case calling => nofun
  case called => exact fun _ _ h => nomatch (hmem _ rfl).mp h
  case registering =>
    rintro (h | ⟨finds, h⟩)
    · nomatch h
    · nomatch h
  case registered => nofun
  case cancelSent => exact fun _ h => nomatch (hmem _ rfl).mp h
  case ended =>
    rw [hmem _ rfl]
    exact ⟨nofun, nofun⟩

theorem requestOk_done (h : RequestOk log request r) (hstage : r.stage ≠ .ended) :
    RequestOk log request { r with stage := .done } where
  accepted := h.accepted
  canceled := h.canceled
  checked _ := nofun
  calling := nofun
  called _ _ _ := ⟨nofun, nofun⟩
  registering := by
    rintro (hregistered | ⟨finds, hfinds⟩)
    · exact h.registering (.inl hregistered)
    · nomatch hfinds
  registered _ := ⟨nofun, nofun, nofun⟩
  cancelSent := h.cancelSent
  ended := iff_of_false (mt h.ended.mp hstage) nofun

theorem requestOk_checked (h : RequestOk log request r) (hstage : r.stage = .waiting) :
    RequestOk (log ++ [.checked request]) request { r with stage := .calling } where
  accepted gameFinder container := (mem_old (by simp)).trans (h.accepted gameFinder container)
  canceled gameFinder := (mem_old (by simp)).trans (h.canceled gameFinder)
  checked _ := nofun
  calling _ := List.mem_append_right _ (List.mem_singleton_self _)
  called container finds hmem :=
    absurd hstage (h.called container finds ((mem_old (by simp)).mp hmem)).1
  registering := by
    rintro (hregistered | ⟨finds, hfinds⟩)
    · exact absurd hstage (h.registered hregistered).1
    · nomatch hfinds
  registered hregistered := absurd hstage (h.registered hregistered).1
  cancelSent container hmem := h.cancelSent container ((mem_old (by simp)).mp hmem)
  ended := by
    rw [mem_old (by simp), h.ended, hstage]
    exact iff_of_false nofun nofun

theorem requestOk_called (h : RequestOk log request r) (hstage : r.stage = .calling) (finds : Bool)
    {stage : Stage} (hwaiting : stage ≠ .waiting) (hcalling : stage ≠ .calling)
    (hended : stage ≠ .ended) :
    RequestOk (log ++ [.called request r.container finds]) request { r with stage := stage } where
  accepted gameFinder container := (mem_old (by simp)).trans (h.accepted gameFinder container)
  canceled gameFinder := (mem_old (by simp)).trans (h.canceled gameFinder)
  checked _ := hwaiting
  calling hnow := absurd hnow hcalling
  called _ _ _ := ⟨hwaiting, hcalling⟩
  registering _ := ⟨finds, List.mem_append_right _ (List.mem_singleton_self _)⟩
  registered hregistered := absurd hstage (h.registered hregistered).2.1
  cancelSent container hmem := h.cancelSent container ((mem_old (by simp)).mp hmem)
  ended := by
    rw [mem_old (by simp), h.ended, hstage]
    exact iff_of_false nofun hended

theorem requestOk_registered (h : RequestOk log request r) {finds : Bool}
    (hstage : r.stage = .registering finds) {stage : Stage}
    (hnew : stage = .finding ∨ stage = .done) :
    RequestOk log request { r with registered := true, stage := stage } := by
  have hafter : stage ≠ .waiting ∧ stage ≠ .calling ∧ (∀ finds, stage ≠ .registering finds) ∧
      stage ≠ .ended := by
    rcases hnew with rfl | rfl
    · exact ⟨nofun, nofun, nofun, nofun⟩
    · exact ⟨nofun, nofun, nofun, nofun⟩
  obtain ⟨hwaiting, hcalling, hregistering, hended⟩ := hafter
  exact {
    accepted := h.accepted
    canceled := h.canceled
    checked := fun _ => hwaiting
    calling := fun hnow => absurd hnow hcalling
    called := fun _ _ _ => ⟨hwaiting, hcalling⟩
    registering := fun _ => h.registering (.inr ⟨finds, hstage⟩)
    registered := fun _ => ⟨hwaiting, hcalling, hregistering⟩
    cancelSent := fun container hmem => ⟨(h.cancelSent container hmem).1, rfl⟩
    ended := by
      rw [h.ended, hstage]
      exact iff_of_false nofun hended }

theorem requestOk_canceled (h : RequestOk log request r) :
    RequestOk (log ++ [.canceled r.gameFinder (some request)]) request { r with canceled := true }
    where
  accepted gameFinder container := (mem_old (by simp)).trans (h.accepted gameFinder container)
  canceled gameFinder := by
    rw [List.mem_append, h.canceled, List.mem_singleton, Event.canceled.injEq, and_iff_left rfl,
      and_iff_left rfl]
    exact or_iff_right_of_imp And.left
  checked hmem := h.checked ((mem_old (by simp)).mp hmem)
  calling hstage := List.mem_append_left _ (h.calling hstage)
  called container finds hmem := h.called container finds ((mem_old (by simp)).mp hmem)
  registering hstage := (h.registering hstage).imp fun _ hmem => List.mem_append_left _ hmem
  registered := h.registered
  cancelSent container hmem :=
    ⟨rfl, (h.cancelSent container ((mem_old (by simp)).mp hmem)).2⟩
  ended := (mem_old (by simp)).trans h.ended

theorem requestOk_cancelSent (h : RequestOk log request r) (hcanceled : r.canceled = true)
    (hregistered : r.registered = true) (container : Nat) :
    RequestOk (log ++ [.cancelSent request container]) request r where
  accepted gameFinder container := (mem_old (by simp)).trans (h.accepted gameFinder container)
  canceled gameFinder := (mem_old (by simp)).trans (h.canceled gameFinder)
  checked hmem := h.checked ((mem_old (by simp)).mp hmem)
  calling hstage := List.mem_append_left _ (h.calling hstage)
  called container finds hmem := h.called container finds ((mem_old (by simp)).mp hmem)
  registering hstage := (h.registering hstage).imp fun _ hmem => List.mem_append_left _ hmem
  registered := h.registered
  cancelSent _ _ := ⟨hcanceled, hregistered⟩
  ended := (mem_old (by simp)).trans h.ended

theorem requestOk_ended (h : RequestOk log request r) :
    RequestOk (log ++ [.ended request]) request { r with stage := .ended } where
  accepted gameFinder container := (mem_old (by simp)).trans (h.accepted gameFinder container)
  canceled gameFinder := (mem_old (by simp)).trans (h.canceled gameFinder)
  checked _ := nofun
  calling := nofun
  called _ _ _ := ⟨nofun, nofun⟩
  registering := by
    rintro (hregistered | ⟨finds, hfinds⟩)
    · exact (h.registering (.inl hregistered)).imp fun _ hmem => List.mem_append_left _ hmem
    · nomatch hfinds
  registered _ := ⟨nofun, nofun, nofun⟩
  cancelSent container hmem := h.cancelSent container ((mem_old (by simp)).mp hmem)
  ended := iff_of_true (List.mem_append_right _ (List.mem_singleton_self _)) rfl

/-! ## The map of the sources -/

theorem running (hi : Inv s) {gameFinder : Str}
    (h : s.pendingFindGameRequests.lookup gameFinder = some request) :
    ∃ r, s.requests[request]? = some r ∧ r.gameFinder = gameFinder ∧ r.stage ≠ .ended ∧
      RequestOk s.log request r := by
  obtain ⟨r, hr, hname, hstage⟩ := (hi.pending gameFinder request).mp h
  exact ⟨r, hr, hname, hstage, hi.requests request r hr⟩

/-- Of the requests for a game finder, all have ended but the one that the map finds. -/
theorem ended_or_running (hi : Inv s) {gameFinder : Str} {container : Nat}
    (h : .accepted request gameFinder container ∈ s.log) :
    .ended request ∈ s.log ∨ s.pendingFindGameRequests.lookup gameFinder = some request := by
  obtain ⟨r, hr⟩ : ∃ r, s.requests[request]? = some r :=
    ⟨_, List.getElem?_eq_getElem (hi.bounded _ h request rfl)⟩
  have hok := hi.requests request r hr
  by_cases hstage : r.stage = .ended
  · exact .inl (hok.ended.mpr hstage)
  · exact .inr ((hi.pending gameFinder request).mpr
      ⟨r, hr, ((hok.accepted gameFinder container).mp h).1.symm, hstage⟩)

/-! ## The operations -/

theorem inv_init : Inv init where
  pending gameFinder request := by
    refine ⟨fun h => ?_, fun ⟨r, hr, _⟩ => ?_⟩
    · nomatch h
    · nomatch hr
  requests request r hr := nomatch hr
  bounded e he := nomatch he
  gameFinders gameFinder container h := nomatch h
  log := .nil

theorem inv_getGameFinderContainer (hi : Inv s) (id : Str) (connects : Bool) :
    Inv (s.getGameFinderContainer id connects).2 ∧
      .opened (s.getGameFinderContainer id connects).1 id ∈
        (s.getGameFinderContainer id connects).2.log ∧
      (s.getGameFinderContainer id connects).2.pendingFindGameRequests =
        s.pendingFindGameRequests := by
  unfold getGameFinderContainer
  cases h : s.gameFinders.lookup id with
  | some container => exact ⟨hi, hi.gameFinders id container h, rfl⟩
  | none =>
    have hopened : Event.opened s.containers.length id ∈
        s.log ++ [.opened s.containers.length id] :=
      List.mem_append_right _ (List.mem_singleton_self _)
    refine ⟨?_, hopened, rfl⟩
    refine inv_containers (inv_quiet (e := .opened _ id) hi rfl trivial) _ ?_
    intro gameFinder container hlookup
    rw [Slots.Table.lookup_insert_eq] at hlookup
    split at hlookup
    · rename_i heq
      rw [heq, ← Option.some.inj hlookup]
      exact hopened
    · exact List.mem_append_left _ (hi.gameFinders gameFinder container hlookup)

/-- A call of `findGame` that finds no source. -/
theorem inv_accepted (hi : Inv s) {gameFinder : Str} {container : Nat}
    (hopened : .opened container gameFinder ∈ s.log)
    (hfree : s.pendingFindGameRequests.lookup gameFinder = none) :
    Inv { s with
      pendingFindGameRequests := s.pendingFindGameRequests.insert gameFinder s.requests.length
      requests := s.requests ++ [⟨gameFinder, container, false, false, .waiting⟩]
      log := s.log ++ [.accepted s.requests.length gameFinder container] } := by
  have hnone : ∀ e ∈ s.log, e.request ≠ some s.requests.length := fun e he heq =>
    Nat.lt_irrefl _ (hi.bounded e he _ heq)
  constructor
  case pending =>
    intro gameFinder' request
    rw [Slots.Table.lookup_insert_eq]
    rw [Heap.get_make]
    by_cases hnew : request = s.requests.length
    · rw [if_pos hnew, hnew]
      split
      · rename_i heq
        exact iff_of_true rfl ⟨_, rfl, heq.symm, nofun⟩
      · rename_i hne
        refine iff_of_false (fun h => ?_) (fun ⟨r, hr, hname, _⟩ => ?_)
        · obtain ⟨r, hr, -, -⟩ := (hi.pending gameFinder' _).mp h
          exact Nat.lt_irrefl _ (List.getElem?_eq_some_iff.mp hr).1
        · cases hr
          exact hne hname.symm
    · rw [if_neg hnew, ← hi.pending]
      split
      · rename_i heq
        rw [heq, hfree]
        exact ⟨fun h => absurd (Option.some.inj h).symm hnew, nofun⟩
      · rfl
  case requests =>
    intro request r hr
    rcases Heap.of_make hr with hold | ⟨rfl, rfl⟩
    · refine requestOk_frame (hi.requests request r hold) fun e he => ?_
      rw [List.mem_singleton.mp he]
      exact fun h => (List.getElem?_eq_some_iff.mp hold).1.ne (Option.some.inj h).symm
    -- No event tells of the new request yet.
    · exact requestOk_accepted hnone
  case bounded =>
    intro e he request hmem
    rw [List.length_append, List.length_singleton]
    rcases List.mem_append.mp he with hold | hnew
    · exact Nat.lt_succ_of_lt (hi.bounded e hold request hmem)
    · rw [List.mem_singleton.mp hnew] at hmem
      cases hmem
      exact Nat.lt_succ_self _
  case gameFinders =>
    exact fun gameFinder container h => List.mem_append_left _ (hi.gameFinders _ _ h)
  case log =>
    refine hi.log.snoc ⟨hopened, hnone, fun request container' h => ?_⟩
    refine (ended_or_running hi h).resolve_right ?_
    rw [hfree]
    nofun

theorem inv_findGame (hi : Inv s) (gameFinder : Str) (connects : Bool) :
    Inv (s.findGame gameFinder connects) := by
  unfold findGame
  split
  · rename_i hmem
    obtain ⟨request, hrequest⟩ := Option.isSome_iff_exists.mp (AList.lookup_isSome.mpr hmem)
    obtain ⟨r, hr, rfl, hstage, hok⟩ := running hi hrequest
    exact inv_quiet (e := .refused r.gameFinder) hi rfl
      ⟨request, r.container, (hok.accepted _ _).mpr ⟨rfl, rfl⟩, mt hok.ended.mp hstage⟩
  · rename_i hmem
    obtain ⟨hinv, hopened, hpending⟩ := inv_getGameFinderContainer hi gameFinder connects
    exact inv_accepted hinv hopened (hpending ▸ AList.lookup_eq_none.mpr hmem)

/-- The request changes, and no event tells of it. -/
theorem inv_stage (hi : Inv s) (hr : s.requests[request]? = some r)
    (hname : q.gameFinder = r.gameFinder) (hstage : r.stage ≠ .ended) (hstage' : q.stage ≠ .ended)
    (hok : RequestOk s.log request q) : Inv { s with requests := s.requests.set request q } := by
  have hok' : RequestOk (s.log ++ []) request q := by rwa [List.append_nil]
  have hlog : Chronicle Explained (s.log ++ []) := by
    rw [List.append_nil]
    exact hi.log
  have hinv := inv_set hi hr hname hstage hstage' hok' nofun hlog s.containers
  rwa [List.append_nil] at hinv

theorem callback_cases (s : GameFinderImpl) (request : Nat) (r : Request) :
    s.callback request r = [] ∨ s.callback request r = [.cancelSent request r.container] := by
  unfold callback
  split
  · split
    · exact .inr rfl
    · exact .inl rfl
  · exact .inl rfl

/-- The callback of a canceled request runs, for the first time. -/
theorem inv_callback (hi : Inv s) (hr : s.requests[request]? = some r)
    (hcanceled : r.canceled = true) (hregistered : r.registered = true) (hstage : r.stage ≠ .ended)
    (hnone : ∀ container, .cancelSent request container ∉ s.log)
    (hnew : new = [] ∨ new = [.cancelSent request r.container]) :
    Inv { s with log := s.log ++ new } := by
  have hok := hi.requests request r hr
  rcases hnew with rfl | rfl
  · rwa [List.append_nil]
  · have hinv := inv_set hi hr rfl hstage hstage
      (requestOk_cancelSent hok hcanceled hregistered r.container)
      (by simp [Event.request]) (hi.log.snoc ?_) s.containers
    · obtain ⟨hlt, rfl⟩ := List.getElem?_eq_some_iff.mp hr
      rwa [List.set_getElem_self] at hinv
    · exact ⟨⟨r.gameFinder, (hok.canceled _).mpr ⟨rfl, hcanceled⟩⟩,
        hok.registering (.inl hregistered), mt hok.ended.mp hstage, hnone⟩

theorem inv_cancel (hi : Inv s) (gameFinder : Str) : Inv (s.cancel gameFinder) := by
  unfold cancel
  cases hrequest : s.pendingFindGameRequests.lookup gameFinder with
  | none =>
    refine inv_quiet (e := .canceled gameFinder none) hi rfl fun request container hmem => ?_
    refine .inl ((ended_or_running hi hmem).resolve_right ?_)
    rw [hrequest]
    nofun
  | some request =>
    obtain ⟨r, hr, rfl, hstage, hok⟩ := running hi hrequest
    simp only [hr]
    split
    · rename_i hcanceled
      refine inv_quiet (e := .canceled r.gameFinder none) hi rfl fun request' container hmem => ?_
      refine (ended_or_running hi hmem).imp id fun h => ?_
      rw [hrequest] at h
      cases h
      exact (hok.canceled _).mpr ⟨rfl, hcanceled⟩
    · rename_i hcanceled
      have hnone : ∀ container, .cancelSent request container ∉ s.log := fun container hmem =>
        hcanceled (hok.cancelSent container hmem).1
      have hinv := inv_set (q := { r with canceled := true }) hi hr rfl hstage hstage
        (requestOk_canceled hok) (by simp [Event.request])
        (hi.log.snoc ⟨⟨r.container, (hok.accepted _ _).mpr ⟨rfl, rfl⟩⟩, mt hok.ended.mp hstage,
          fun hmem => hcanceled ((hok.canceled _).mp hmem).2⟩) s.containers
      rw [List.append_cons]
      split
      · rename_i hregistered
        refine inv_callback hinv
          (List.getElem?_set_self (List.getElem?_eq_some_iff.mp hr).1) rfl hregistered hstage
          (fun container hmem => ?_) (callback_cases s request r)
        exact hnone container ((mem_old (by simp)).mp hmem)
      -- The callback is not registered yet, and runs when it is.
      · rwa [List.append_nil]

theorem inv_resume (hi : Inv s) (hr : s.requests[request]? = some r) (hstage : r.stage = .waiting)
    {container : GameFinderContainer} (h : s.resume request r container = some s') : Inv s' := by
  have hok := hi.requests request r hr
  have hrunning : r.stage ≠ .ended := by
    rw [hstage]
    nofun
  have hdone := inv_stage (q := { r with stage := .done }) hi hr rfl hrunning nofun
    (requestOk_done hok hrunning)
  unfold resume at h
  split at h
  · nomatch h
  · cases h
    exact hdone
  · split at h
    · cases h
      exact hdone
    · rename_i hcanceled
      cases h
      refine inv_set (q := { r with stage := .calling }) hi hr rfl hrunning nofun
        (requestOk_checked hok hstage) (by simp [Event.request]) (hi.log.snoc ?_) s.containers
      exact ⟨⟨r.gameFinder, r.container, (hok.accepted _ _).mpr ⟨rfl, rfl⟩,
        fun hmem => hcanceled ((hok.canceled _).mp hmem).2⟩,
        fun hmem => hok.checked hmem hstage, mt hok.ended.mp hrunning⟩

theorem inv_call (hi : Inv s) (hr : s.requests[request]? = some r) (hstage : r.stage = .calling)
    (container : GameFinderContainer) (throws : Bool) :
    Inv (s.call request r container throws) := by
  have hok := hi.requests request r hr
  have hrunning : r.stage ≠ .ended := by
    rw [hstage]
    nofun
  have hexplained (finds : Bool) : Explained s.log (.called request r.container finds) :=
    ⟨⟨r.gameFinder, (hok.accepted _ _).mpr ⟨rfl, rfl⟩⟩, hok.calling hstage,
      mt hok.ended.mp hrunning,
      fun container finds hmem => (hok.called container finds hmem).2 hstage⟩
  unfold call
  split
  · exact inv_set (q := { r with stage := .registering false }) hi hr rfl hrunning nofun
      (requestOk_called hok hstage false nofun nofun nofun)
      (by simp [Event.request]) (hi.log.snoc (hexplained false)) s.containers
  · have hafter : (if throws then .done else .registering true) ≠ Stage.waiting ∧
        (if throws then .done else .registering true) ≠ Stage.calling ∧
        (if throws then .done else .registering true) ≠ Stage.ended := by
      cases throws
      · exact ⟨nofun, nofun, nofun⟩
      · exact ⟨nofun, nofun, nofun⟩
    obtain ⟨hwaiting, hcalling, hended⟩ := hafter
    exact inv_set (q := { r with stage := if throws then .done else .registering true }) hi hr rfl
      hrunning hended (requestOk_called hok hstage true hwaiting hcalling hended)
      (by simp [Event.request]) (hi.log.snoc (hexplained true)) _

theorem inv_register (hi : Inv s) (hr : s.requests[request]? = some r) {finds : Bool}
    (hstage : r.stage = .registering finds) : Inv (s.register request r finds) := by
  have hok := hi.requests request r hr
  have hrunning : r.stage ≠ .ended := by
    rw [hstage]
    nofun
  have hnew : (if finds then .finding else .done) = Stage.finding ∨
      (if finds then .finding else .done) = Stage.done := by
    cases finds
    · exact .inr rfl
    · exact .inl rfl
  have hstage' : (if finds then .finding else .done) ≠ Stage.ended := by
    rcases hnew with h | h
    · rw [h]
      nofun
    · rw [h]
      nofun
  have hinv := inv_stage
    (q := { r with registered := true, stage := if finds then .finding else .done }) hi hr rfl
    hrunning hstage' (requestOk_registered hok hstage hnew)
  unfold register
  by_cases hcanceled : r.canceled = true
  · rw [if_pos hcanceled]
    refine inv_callback hinv (List.getElem?_set_self (List.getElem?_eq_some_iff.mp hr).1) hcanceled
      rfl hstage' (fun container hmem => ?_) (callback_cases s request r)
    exact (hok.registered (hok.cancelSent container hmem).2).2.2 finds hstage
  · rwa [if_neg hcanceled, List.append_nil]

theorem inv_finish (hi : Inv s) (hr : s.requests[request]? = some r) (hstage : r.stage = .done) :
    Inv (s.finish request r) := by
  have hok := hi.requests request r hr
  have hrunning : r.stage ≠ .ended := by
    rw [hstage]
    nofun
  refine inv_change hi hr (fun gameFinder request' => ?_) (requestOk_ended hok)
    (by simp [Event.request])
    (hi.log.snoc ⟨⟨r.gameFinder, r.container, (hok.accepted _ _).mpr ⟨rfl, rfl⟩⟩,
      mt hok.ended.mp hrunning⟩) s.containers
  have hfinds := (hi.pending r.gameFinder request).mpr ⟨r, hr, rfl, hrunning⟩
  rw [Slots.Table.lookup_erase_eq]
  split
  · rename_i heq
    refine ⟨nofun, fun ⟨x, hx, hname, hstage'⟩ => ?_⟩
    rcases Heap.of_set hx with ⟨hne, hold⟩ | ⟨-, rfl⟩
    -- The map has found this request, so no other one for the game finder is left.
    · have hfinds' := (hi.pending gameFinder request').mpr ⟨x, hold, hname, hstage'⟩
      rw [heq, hfinds] at hfinds'
      exact absurd (Option.some.inj hfinds').symm hne
    · exact absurd rfl hstage'
  · rename_i hname
    rw [hi.pending]
    by_cases heq : request = request'
    · subst heq
      have hlt := (List.getElem?_eq_some_iff.mp hr).1
      refine iff_of_false (fun ⟨x, hx, hname', _⟩ => ?_) (fun ⟨x, hx, hname', _⟩ => ?_)
      · rw [hr] at hx
        cases hx
        exact hname hname'.symm
      · rw [List.getElem?_set_self hlt] at hx
        cases hx
        exact hname hname'.symm
    · rw [List.getElem?_set_ne heq]

theorem inv_step (hi : Inv s) {a : Action} (h : s.step a = some s') : Inv s' := by
  cases a with
  | findGame gameFinder connects =>
    cases h
    exact inv_findGame hi gameFinder connects
  | connectToGameFinder gameFinder connects =>
    cases h
    exact (inv_getGameFinderContainer hi gameFinder connects).1
  | disconnectFromGameFinder gameFinder =>
    cases h
    exact inv_erase hi s.containers gameFinder
  | cancel gameFinder =>
    cases h
    exact inv_cancel hi gameFinder
  | containerReady i currentState =>
    simp only [step] at h
    split at h
    · cases h
      exact inv_containers hi _ hi.gameFinders
    · nomatch h
  | containerFails i =>
    simp only [step] at h
    split at h
    · cases h
      exact inv_erase hi _ _
    · nomatch h
  | sceneDisconnecting i =>
    obtain ⟨container, -, rfl⟩ := Option.map_eq_some_iff.mp h
    exact inv_erase hi s.containers container.gameFinder
  | stateChanges i currentState =>
    obtain ⟨container, -, rfl⟩ := Option.map_eq_some_iff.mp h
    exact inv_containers hi _ hi.gameFinders
  | resume request =>
    simp only [step] at h
    split at h
    · rename_i r hr
      split at h
      · rename_i hstage
        obtain ⟨container, -, hresume⟩ := Option.bind_eq_some_iff.mp h
        exact inv_resume hi hr hstage hresume
      · nomatch h
    · nomatch h
  | call request throws =>
    simp only [step] at h
    split at h
    · rename_i r hr
      split at h
      · rename_i hstage
        obtain ⟨container, -, rfl⟩ := Option.map_eq_some_iff.mp h
        exact inv_call hi hr hstage container throws
      · nomatch h
    · nomatch h
  | register request =>
    simp only [step] at h
    split at h
    · rename_i r hr
      split at h
      · rename_i finds hstage
        cases h
        exact inv_register hi hr hstage
      · nomatch h
    · nomatch h
  | findEnds request =>
    simp only [step] at h
    split at h
    · rename_i r hr
      split at h
      · rename_i hstage
        cases h
        have hrunning : r.stage ≠ .ended := by
          rw [hstage]
          nofun
        exact inv_stage (q := { r with stage := .done }) hi hr rfl hrunning nofun
          (requestOk_done (hi.requests request r hr) hrunning)
      · nomatch h
    · nomatch h
  | finish request =>
    simp only [step] at h
    split at h
    · rename_i r hr
      split at h
      · rename_i hstage
        cases h
        exact inv_finish hi hr hstage
      · nomatch h
    · nomatch h

end RequestsLemmas

open GameFinderImpl RequestsLemmas

/-! ## Results -/

theorem requests_explained {s : GameFinderImpl} (h : Lts.Reachable step Lts.anyStep init s) :
    Chronicle Explained s.log ∧
      ∀ gameFinder request, s.pendingFindGameRequests.lookup gameFinder = some request ↔
        (∃ container, .accepted request gameFinder container ∈ s.log) ∧ .ended request ∉ s.log := by
  have hi : Inv s := h.invariant (I := Inv) inv_init fun _ _ _ hi _ hs => inv_step hi hs
  refine ⟨hi.log, fun gameFinder request => ⟨fun hlookup => ?_, ?_⟩⟩
  · obtain ⟨r, -, rfl, hstage, hok⟩ := running hi hlookup
    exact ⟨⟨r.container, (hok.accepted _ _).mpr ⟨rfl, rfl⟩⟩, mt hok.ended.mp hstage⟩
  · rintro ⟨⟨container, hmem⟩, hended⟩
    exact (ended_or_running hi hmem).resolve_left hended

/-- The request is canceled between the call of the service and the registration of the callback. -/
theorem requests_explained_canceled : ∃ s : GameFinderImpl,
    s.log = [.opened 0 ['g'], .accepted 0 ['g'] 0, .refused ['g'], .checked 0, .called 0 0 true,
      .canceled ['g'] (some 0), .cancelSent 0 0, .ended 0] ∧
    Chronicle Explained s.log := by
  obtain ⟨s, h, hs⟩ := Lts.Reachable.of_exec step Lts.anyStep init
    [.findGame ['g'] true, .findGame ['g'] true, .containerReady 0 .idle, .resume 0, .call 0 false,
      .cancel ['g'], .register 0, .findEnds 0, .finish 0]
    (fun s => s.log = [.opened 0 ['g'], .accepted 0 ['g'] 0, .refused ['g'], .checked 0,
      .called 0 0 true, .canceled ['g'] (some 0), .cancelSent 0 0, .ended 0]) (by decide)
  exact ⟨s, of_decide_eq_true hs, (requests_explained h).1⟩

end Stormancer.GameFinder.Requests
