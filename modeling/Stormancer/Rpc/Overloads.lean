import Stormancer.Rpc.CallerIds

/-!
# The overloads of `RpcService::rpc`

Two overloads take a route, a token and something to send: arguments to serialize, or a stream
writer. Both make the observable and hand it to `rpcImpl`, but only the first one hands the token
on, so `rpcInternal` registers no callback for the second one.

The task of a call is read off its observer. It is set or fails with a notification, and it is
cancelled when the request, and with it the last copy of the completion event, is destroyed before
that. The two calls are run side by side: from the same service, with the same actions.

Results:
1. `serialized_cancel`: what a cancellation does to a call that has the callback.
2. `overloads_agree`: the two calls behave the same, and a cancellation ends both, exactly as long
   as the token is not cancelled while their RPC is under way.
3. `writer_ignores_token`: a cancellation that the stream writer's call does not hear.
-/

namespace Stormancer.Rpc

/-! ## Definitions -/

/-- The result type of a call: `throws` is what `deserializeOne` throws for a packet. -/
inductive ResultType
  | packet
  | void
  | value (throws : Payload → Option String)

inductive TaskState
  | pending
  | completed
  | faulted
  | canceled
deriving DecidableEq

/-- A cancellation token. `none` cannot be cancelled. -/
inductive CancellationToken
  | none
  | live
  | canceled
deriving DecidableEq

/-- What a notification makes of the completion event of the task. -/
def ResultType.settles : ResultType → Rx.Notification Payload String → Option TaskState
  | _, .error _ => some .faulted
  | .packet, .next _ => some .completed
  | .value throws, .next p => if (throws p).isSome then none else some .completed
  | .void, .completed => some .completed
  | _, _ => none

/-- What the `onNext` of the call throws. -/
def ResultType.throws : ResultType → Payload → Option String
  | .value throws, p => throws p
  | _, _ => none

/-- The arguments that both overloads are given, but for the token. -/
structure RpcArguments where
  route : String
  payload : Payload
  sendFails : Option String
  resultType : ResultType

/-- A call of `rpc`, with the service that it was made on. -/
structure RpcCall where
  service : RpcService
  /-- `none`: the observable failed before it made a request. -/
  request : Option Ref
  resultType : ResultType
  /-- The token of the caller. -/
  token : CancellationToken
  /-- The callback of `rpcInternal` is registered on the token. -/
  registered : Bool

namespace RpcCall

/-- The request of the call. -/
def record (c : RpcCall) : Option RpcRequest := c.request.bind fun r => c.service.heap[r]?

/-- The subscription is subscribed. -/
def live (c : RpcCall) : Bool := c.record.any fun q => q.observer.isSubscribed

/-- The task that `rpcInternal` returned. -/
def task (c : RpcCall) : TaskState :=
  match c.request, c.record with
  | some r, some q =>
    (q.observer.received.findSome? c.resultType.settles).getD
      (if c.service.isHeld r then .pending else .canceled)
  | _, _ => .faulted

/-- The callback of `rpcInternal`. -/
def callback (c : RpcCall) : RpcService :=
  match c.request with
  | none => c.service
  | some r => (c.service.unsubscribe r).getD c.service

/-- `ct.register_callback`: on a token that is cancelled the callback runs at once. -/
def registerCallback (c : RpcCall) (ct : CancellationToken) : RpcCall :=
  match ct with
  | .none => c
  | .live => { c with registered := true }
  | .canceled => { c with service := c.callback }

end RpcCall

namespace RpcService

/-- `rpcInternal` on the observable of `rpcObservable`. -/
def rpcInternal (s : RpcService) (x : RpcArguments) (ct : CancellationToken) : RpcCall :=
  let subscribed := s.rpc x.route x.payload x.sendFails
  let c : RpcCall :=
    { service := subscribed
      request := if s.heap.length < subscribed.heap.length then some s.heap.length else none
      resultType := x.resultType
      token := ct
      registered := false }
  c.registerCallback ct

/-- `rpc(route, ct, args...)`. -/
def rpcSerialized (s : RpcService) (x : RpcArguments) (ct : CancellationToken) : RpcCall :=
  s.rpcInternal x ct

/-- `rpc(route, ct, streamWriter)`: `rpcImpl` gets the token of its default argument. -/
def rpcStreamWriter (s : RpcService) (x : RpcArguments) (ct : CancellationToken) : RpcCall :=
  { s.rpcInternal x .none with token := ct }

end RpcService

namespace RpcCall

inductive Action
  | service (a : RpcService.Action)
  | cancelToken
deriving DecidableEq

/-- The action as it is with the `onNext` of the call. -/
def withOnNext (c : RpcCall) : RpcService.Action → RpcService.Action
  | .next id packet thrown =>
    if c.request.isSome && c.service.pendingRequests.lookup id == c.request then
      .next id packet (c.resultType.throws packet)
    else .next id packet thrown
  | a => a

def step (c : RpcCall) : Action → Option RpcCall
  | .service a => (c.service.step (c.withOnNext a)).map fun s => { c with service := s }
  | .cancelToken =>
    if c.token = .live then
      some { c with
        token := .canceled
        registered := false
        service := if c.registered then c.callback else c.service }
    else none

/-- The call of each overload. -/
abbrev Pair := RpcCall × RpcCall

def start (s : RpcService) (x : RpcArguments) (ct : CancellationToken) : Pair :=
  (s.rpcSerialized x ct, s.rpcStreamWriter x ct)

def stepBoth (p : Pair) (a : Action) : Option Pair :=
  match p.1.step a, p.2.step a with
  | some c, some d => some (c, d)
  | _, _ => none

/-! ### The property -/

/-- The services did and hold the same, and so did the tasks. -/
structure Agree (p : Pair) : Prop where
  service : p.1.service = p.2.service
  token : p.1.token = p.2.token
  task : p.1.task = p.2.task

/-- A cancellation before the terminal message sends one cancel message, erases the entry and
cancels the task. -/
def CancelsOnce (c c' : RpcCall) : Prop :=
  ∀ q : RpcRequest, c.record = some q → q.observer.isSubscribed = true → q.hasCompleted = false →
    c'.service.sent = c.service.sent ++ [.cancellation q.id] ∧
    c'.service.pendingRequests.lookup q.id = none ∧ c'.task = .canceled

def Behaves (p : Pair) (a : Action) (p' : Pair) : Prop :=
  Agree p' ∧ (a = .cancelToken → CancelsOnce p.1 p'.1 ∧ CancelsOnce p.2 p'.2)

/-! ### The condition -/

/-- The token is not cancelled when it is passed, or the RPC fails at once. -/
def startsApart (s : RpcService) (x : RpcArguments) (ct : CancellationToken) : Bool :=
  ct != .canceled || !(s.rpcInternal x .none).live

/-- The token is not cancelled while the RPC is under way. -/
def cancelsLate (p : Pair) : Action → Bool
  | .cancelToken => !p.1.live
  | .service _ => true

abbrev CancelsLate (p : Pair) (a : Action) : Prop := cancelsLate p a = true

end RpcCall

namespace OverloadLemmas

open RpcCall
open RpcService (modify_get)
open CallerRecordLemmas CallerIdLemmas

/-! ## The callback -/

theorem live_iff {c : RpcCall} : c.live = true ↔ ∃ (r : Ref) (q : RpcRequest),
    c.request = some r ∧ c.service.heap[r]? = some q ∧ q.observer.isSubscribed = true := by
  unfold RpcCall.live RpcCall.record
  cases c.request with
  | none => simp
  | some r => simp [Option.any_eq_true]

/-- A subscription that has ended is not given up. -/
theorem callback_of_ended {c : RpcCall} (h : c.live = false) : c.callback = c.service := by
  unfold RpcCall.callback
  cases hr : c.request with
  | none => rfl
  | some r =>
    dsimp only
    unfold RpcService.unsubscribe
    cases hq : c.service.heap[r]? with
    | none => rfl
    | some q =>
      dsimp only
      rw [if_neg, Option.getD_none]
      intro hsub
      rw [live_iff.mpr ⟨r, q, hr, hq, hsub⟩] at h
      cases h

theorem notify_ended {s : RpcService} {r : Ref} {q : RpcRequest} {f : Observer → Observer}
    (hq : s.heap[r]? = some q) (he : (f q.observer).isSubscribed = false) :
    ∃ q' : RpcRequest, (s.notify r f).heap[r]? = some q' ∧ q'.observer = f q.observer := by
  have htold : (s.modify r fun q => { q with observer := f q.observer }).heap[r]? =
      some { q with observer := f q.observer } := by
    rw [modify_get, if_pos rfl, hq, Option.map_some]
  unfold RpcService.notify
  rw [hq]
  dsimp only
  split
  · obtain ⟨q', hq', -, ho⟩ := (keeps_teardown _ r).records r _ htold
    exact ⟨q', hq', ho he⟩
  · exact ⟨_, htold, rfl⟩

theorem callback_eq {c : RpcCall} {r : Ref} {q : RpcRequest} (hr : c.request = some r)
    (hq : c.service.heap[r]? = some q) (hsub : q.observer.isSubscribed = true) :
    c.callback = (c.service.modify r fun q => { q with unsubscribed := true }).notify r
      (·.unsubscribe) := by
  unfold RpcCall.callback
  rw [hr]
  dsimp only
  unfold RpcService.unsubscribe
  rw [hq]
  dsimp only
  rw [if_pos hsub, Option.getD_some]

/-- A subscription that is given up has ended. -/
theorem callback_ends {c : RpcCall} (h : c.live = true) :
    RpcCall.live { c with service := c.callback } = false := by
  obtain ⟨r, q, hr, hq, hsub⟩ := live_iff.mp h
  have hgiven : (c.service.modify r fun q => { q with unsubscribed := true }).heap[r]? =
      some { q with unsubscribed := true } := by
    rw [modify_get, if_pos rfl, hq, Option.map_some]
  obtain ⟨q', hq', ho⟩ := notify_ended (f := Rx.Subscriber.unsubscribe) hgiven rfl
  unfold RpcCall.live RpcCall.record
  dsimp only
  rw [hr, Option.bind_some, callback_eq hr hq hsub, hq', Option.any_some, ho]
  rfl

/-! ## Side by side -/

/-- The two calls differ in nothing but the callback. -/
structure Linked (p : Pair) : Prop where
  service : p.1.service = p.2.service
  request : p.1.request = p.2.request
  resultType : p.1.resultType = p.2.resultType
  token : p.1.token = p.2.token
  listens : p.1.token = .live → p.1.registered = true
  deaf : p.2.registered = false

theorem linked_start {s : RpcService} {x : RpcArguments} {ct : CancellationToken}
    (h : startsApart s x ct = true) : Linked (start s x ct) := by
  cases ct with
  | none => exact ⟨rfl, rfl, rfl, rfl, (fun hlive => by cases hlive), rfl⟩
  | live => exact ⟨rfl, rfl, rfl, rfl, fun _ => rfl, rfl⟩
  | canceled =>
    have hended : (s.rpcInternal x .none).live = false := by simpa [startsApart] using h
    refine ⟨?_, rfl, rfl, rfl, (fun hlive => by cases hlive), rfl⟩
    exact callback_of_ended hended

theorem agree_of_linked {p : Pair} (h : Linked p) : Agree p := by
  refine ⟨h.service, h.token, ?_⟩
  unfold RpcCall.task RpcCall.record
  rw [h.service, h.request, h.resultType]

theorem live_eq {p : Pair} (hservice : p.1.service = p.2.service)
    (hrequest : p.1.request = p.2.request) : p.1.live = p.2.live := by
  unfold RpcCall.live RpcCall.record
  rw [hservice, hrequest]

theorem stepBoth_eq_some {p p' : Pair} {a : RpcCall.Action} :
    stepBoth p a = some p' ↔ p.1.step a = some p'.1 ∧ p.2.step a = some p'.2 := by
  unfold stepBoth
  rcases p' with ⟨c', d'⟩
  cases p.1.step a <;> cases p.2.step a <;> simp

/-- A cancellation runs the callback, if there is one. -/
theorem step_cancel {c c' : RpcCall} (hs : c.step .cancelToken = some c') :
    c.token = .live ∧ c' = { c with
      token := .canceled
      registered := false
      service := if c.registered then c.callback else c.service } := by
  obtain ⟨hlive, hc⟩ := Option.ite_some_none_eq_some.mp hs
  exact ⟨hlive, hc.symm⟩

/-- What a cancellation does to the two calls. -/
theorem cancel_cases {p p' : Pair} (h : Linked p) (hs : stepBoth p .cancelToken = some p') :
    p'.1 = { p.1 with token := .canceled, registered := false, service := p.1.callback } ∧
      p'.2 = { p.2 with token := .canceled, registered := false } := by
  obtain ⟨h1, h2⟩ := stepBoth_eq_some.mp hs
  obtain ⟨hlive, h1⟩ := step_cancel h1
  obtain ⟨-, h2⟩ := step_cancel h2
  rw [h.listens hlive] at h1
  rw [h.deaf] at h2
  exact ⟨h1, h2⟩

theorem cancelsLate_iff {p : Pair} : CancelsLate p .cancelToken ↔ p.1.live = false := by
  show (!p.1.live) = true ↔ _
  rw [Bool.not_eq_true']

theorem linked_step {p p' : Pair} {a : RpcCall.Action} (h : Linked p) (hg : CancelsLate p a)
    (hs : stepBoth p a = some p') : Linked p' := by
  rcases p' with ⟨c', d'⟩
  cases a with
  | service a =>
    obtain ⟨h1, h2⟩ := stepBoth_eq_some.mp hs
    have hown : p.1.withOnNext a = p.2.withOnNext a := by
      unfold RpcCall.withOnNext
      rw [h.service, h.request, h.resultType]
    simp only [RpcCall.step, Option.map_eq_some_iff] at h1 h2
    obtain ⟨t, ht, hp1⟩ := h1
    obtain ⟨u, hu, hp2⟩ := h2
    rw [h.service, hown, hu] at ht
    cases ht
    cases hp1
    cases hp2
    exact ⟨rfl, h.request, h.resultType, h.token, h.listens, h.deaf⟩
  | cancelToken =>
    have hended := cancelsLate_iff.mp hg
    obtain ⟨h1, h2⟩ := cancel_cases h hs
    cases h1
    cases h2
    refine ⟨?_, h.request, h.resultType, rfl, (fun hlive => by cases hlive), rfl⟩
    exact (callback_of_ended hended).trans h.service

/-- Cancelled while its RPC is under way, only the call with the callback ends. -/
theorem not_agree_of_live {p p' : Pair} (h : Linked p) (hlive : p.1.live = true)
    (hs : stepBoth p .cancelToken = some p') : ¬ Agree p' := by
  obtain ⟨h1, h2⟩ := cancel_cases h hs
  intro hagree
  have hended : p'.1.live = false := by
    rw [h1]
    exact callback_ends hlive
  have hgoes : p'.2.live = true := by
    rw [h2, ← hlive, live_eq h.service h.request]
    rfl
  have hrequest : p'.1.request = p'.2.request := by
    rw [h1, h2]
    exact h.request
  rw [live_eq hagree.service hrequest, hgoes] at hended
  cases hended

/-- A call whose RPC is not under way has nothing to cancel. -/
theorem cancelsOnce_of_ended {c c' : RpcCall} (h : c.live = false) : CancelsOnce c c' := by
  intro q hq hsub _
  rw [RpcCall.live, hq, Option.any_some, hsub] at h
  cases h

theorem start_not_agree {s : RpcService} {x : RpcArguments} {ct : CancellationToken}
    (h : startsApart s x ct = false) : ¬ Agree (start s x ct) := by
  simp only [startsApart, Bool.or_eq_false_iff, bne_eq_false_iff_eq, Bool.not_eq_false'] at h
  obtain ⟨rfl, hlive⟩ := h
  intro hagree
  have hended : (s.rpcSerialized x .canceled).live = false := callback_ends hlive
  have heq : (s.rpcSerialized x .canceled).live = (s.rpcStreamWriter x .canceled).live :=
    live_eq (p := start s x .canceled) hagree.service rfl
  have hgoes : (s.rpcStreamWriter x .canceled).live = true := hlive
  rw [heq, hgoes] at hended
  cases hended

/-! ## A request that is given up -/

/-- The entry of a request is erased, and no copy of the table holds the request. -/
theorem eraseRequest_last {s : RpcService} {r : Ref} {q : RpcRequest} (hkeyed : TableKeyed s)
    (hq : s.heap[r]? = some q) (hentry : s.pendingRequests.lookup q.id = some r)
    (hcopies : ∀ k ∈ s.cancelAlls, r ∉ k.pendingRequestsCopy) :
    (s.eraseRequest q.id).pendingRequests = s.pendingRequests.erase q.id ∧
      (s.eraseRequest q.id).sent = s.sent ∧
      (s.eraseRequest q.id).heap[r]? = some q.destroy ∧
      (s.eraseRequest q.id).isHeld r = false := by
  let t : RpcService := { s with pendingRequests := s.pendingRequests.erase q.id }
  have hfree : t.isHeld r = false := by
    refine RpcService.isHeld_false_iff.mpr ⟨fun id hl => ?_, hcopies⟩
    replace hl : (s.pendingRequests.erase q.id).lookup id = some r := hl
    rw [Slots.Table.lookup_erase_eq] at hl
    split at hl
    · cases hl
    · next hne =>
      obtain ⟨q', hq', hid⟩ := hkeyed id r hl
      rw [hq] at hq'
      cases hq'
      exact hne hid.symm
  have herase : s.eraseRequest q.id = t.modify r RpcRequest.destroy := by
    unfold RpcService.eraseRequest
    rw [hentry]
    dsimp only
    unfold RpcService.release
    rw [if_neg (by rw [hfree]; exact Bool.false_ne_true)]
  rw [herase]
  refine ⟨rfl, rfl, ?_, hfree⟩
  rw [modify_get, if_pos rfl]
  show Option.map RpcRequest.destroy s.heap[r]? = _
  rw [hq, Option.map_some]

/-- The teardown of a request that is under way. -/
theorem teardown_of_pending {s : RpcService} {r : Ref} {q : RpcRequest}
    (hq : s.heap[r]? = some q) (htears : q.tearsDown = true) (hdone : q.hasCompleted = false)
    (hentry : s.pendingRequests.lookup q.id = some r) (hconnected : s.connected = true) :
    s.teardown r =
      RpcService.eraseRequest { s with sent := s.sent ++ [.cancellation q.id] } q.id := by
  have hheld : s.isHeld r = true := RpcService.isHeld_iff.mpr (.inl ⟨q.id, hentry⟩)
  unfold RpcService.teardown
  rw [hq]
  dsimp only
  rw [htears, hheld, hdone, if_pos (by rfl), if_pos (by rw [hconnected]; rfl)]

/-- The request of a call that is given up, before its teardown. -/
def givenUp (q : RpcRequest) : RpcRequest :=
  { q with unsubscribed := true, observer := q.observer.unsubscribe }

/-- The callback of a call that is under way: the subscription ends, then the teardown runs. -/
theorem callback_eq_teardown {c : RpcCall} {r : Ref} {q : RpcRequest} (hr : c.request = some r)
    (hq : c.service.heap[r]? = some q) (hsub : q.observer.isSubscribed = true) :
    ∃ s : RpcService, c.callback = s.teardown r ∧ Keeps c.service s ∧
      s.heap[r]? = some (givenUp q) ∧ s.pendingRequests = c.service.pendingRequests ∧
      s.cancelAlls = c.service.cancelAlls ∧ s.connected = c.service.connected ∧
      s.sent = c.service.sent := by
  have hflag : (c.service.modify r fun q => { q with unsubscribed := true }).heap[r]? =
      some { q with unsubscribed := true } := by
    rw [modify_get, if_pos rfl, hq, Option.map_some]
  have hflagged : Keeps c.service (c.service.modify r fun q => { q with unsubscribed := true }) :=
    keeps_modify c.service r (fun _ => rfl) fun _ _ => rfl
  refine ⟨(c.service.modify r fun q => { q with unsubscribed := true }).modify r fun q =>
    { q with observer := q.observer.unsubscribe }, ?_, ?_, ?_, rfl, rfl, rfl, rfl⟩
  · rw [callback_eq hr hq hsub]
    unfold RpcService.notify
    rw [hflag]
    dsimp only
    rw [hsub]
    rfl
  · refine hflagged.trans (keeps_modify _ r (fun _ => rfl) fun _ he => ?_)
    exact Rx.Subscriber.unsubscribe_of_ended he
  · rw [modify_get, if_pos rfl, hflag, Option.map_some]
    rfl

end OverloadLemmas

open OverloadLemmas
open RpcCall

/-- With the callback, a cancellation before the terminal message and before the task was set
sends one cancel message, erases the entry and cancels the task. -/
theorem serialized_cancel {c c' : RpcCall} {r : Ref} {q : RpcRequest} (hreg : c.registered = true)
    (hr : c.request = some r) (hq : c.service.heap[r]? = some q)
    (hsub : q.observer.isSubscribed = true) (htears : q.tearsDown = true)
    (hdone : q.hasCompleted = false) (hkeyed : TableKeyed c.service)
    (hentry : c.service.pendingRequests.lookup q.id = some r)
    (hcopies : ∀ k ∈ c.service.cancelAlls, r ∉ k.pendingRequestsCopy)
    (hconnected : c.service.connected = true)
    (hunset : q.observer.received.findSome? c.resultType.settles = none)
    (hs : c.step .cancelToken = some c') :
    c'.service.sent = c.service.sent ++ [.cancellation q.id] ∧
      c'.service.pendingRequests.lookup q.id = none ∧ c'.task = .canceled := by
  obtain ⟨s, hcallback, hkeeps, hrecord, htable, hcopied, hconn, hsent⟩ :=
    callback_eq_teardown hr hq hsub
  have hteardown := teardown_of_pending hrecord htears hdone (by rw [htable]; exact hentry)
    (hconn.trans hconnected)
  let t : RpcService := { s with sent := s.sent ++ [.cancellation (givenUp q).id] }
  have hkeyed' : TableKeyed t := CallerRecordLemmas.tableKeyed_keeps hkeyed
    (hkeeps.trans (CallerRecordLemmas.keeps_of_eq rfl fun _ _ hl => hl))
  have hentry' : t.pendingRequests.lookup (givenUp q).id = some r := by
    show s.pendingRequests.lookup _ = _
    rw [htable]
    exact hentry
  have hcopies' : ∀ k ∈ t.cancelAlls, r ∉ k.pendingRequestsCopy := by
    show ∀ k ∈ s.cancelAlls, _
    rw [hcopied]
    exact hcopies
  obtain ⟨herased, hmessages, hdestroyed, hfree⟩ :=
    eraseRequest_last hkeyed' hrecord hentry' hcopies'
  have hended := (CallerRecordLemmas.destroy_keeps (givenUp q)).2 rfl
  obtain ⟨-, rfl⟩ := step_cancel hs
  rw [hreg, if_pos rfl, hcallback, hteardown]
  refine ⟨?_, ?_, ?_⟩
  · show (RpcService.eraseRequest _ _).sent = _
    rw [hmessages, ← hsent]
    rfl
  · show (RpcService.eraseRequest _ _).pendingRequests.lookup _ = _
    rw [herased]
    exact (Slots.Table.lookup_erase_eq _ _ _).trans (if_pos rfl)
  · unfold RpcCall.task RpcCall.record
    dsimp only
    rw [hr, Option.bind_some, hdestroyed]
    dsimp only
    rw [hended, hfree]
    show (q.observer.received.findSome? c.resultType.settles).getD _ = _
    rw [hunset]
    rfl

/-- In every run in which the token is not cancelled while the RPC is under way, the two overloads
behave the same. Both parts of the condition are exact. -/
theorem overloads_agree (s : RpcService) (x : RpcArguments) (ct : CancellationToken) :
    (Agree (start s x ct) ↔ startsApart s x ct = true) ∧
    (startsApart s x ct = true → ∀ p : Pair,
      Lts.Reachable stepBoth CancelsLate (start s x ct) p →
        Agree p ∧ ∀ (a : RpcCall.Action) (p' : Pair), stepBoth p a = some p' →
          (Behaves p a p' ↔ CancelsLate p a)) := by
  constructor
  · constructor
    · intro hagree
      cases h : startsApart s x ct with
      | true => rfl
      | false => exact absurd hagree (start_not_agree h)
    · exact fun h => agree_of_linked (linked_start h)
  · intro hstart p hp
    have hlinked : Linked p :=
      hp.invariant (linked_start hstart) fun _ _ _ hl hg hs => linked_step hl hg hs
    refine ⟨agree_of_linked hlinked, fun a p' hs => ⟨fun hb => ?_, fun hg => ?_⟩⟩
    · cases a with
      | service a => rfl
      | cancelToken =>
        cases hlive : p.1.live with
        | true => exact absurd hb.1 (not_agree_of_live hlinked hlive hs)
        | false => exact cancelsLate_iff.mpr hlive
    · refine ⟨agree_of_linked (linked_step hlinked hg hs), ?_⟩
      rintro rfl
      have hended := cancelsLate_iff.mp hg
      refine ⟨cancelsOnce_of_ended hended, cancelsOnce_of_ended ?_⟩
      rw [← live_eq hlinked.service hlinked.request, hended]

/-! ## Examples -/

/-- A call that waits for its packet. -/
def echoCall : RpcArguments := ⟨"echo", [7], none, .packet⟩

/-- The token is cancelled after the answer has completed the task. -/
theorem overloads_agree_after_answer :
    ∃ p : Pair, p.1.token = .canceled ∧ p.1.task = .completed ∧ Agree p := by
  obtain ⟨p, hp, htest⟩ := Lts.Reachable.of_exec stepBoth CancelsLate
    (start (RpcService.init [echo]) echoCall .live)
    [.service (.next 1 [8] none), .service (.complete true 1), .service (.continuation 0),
      .cancelToken]
    (fun p => p.1.token == .canceled && p.1.task == .completed) (by decide)
  rw [Bool.and_eq_true, beq_iff_eq, beq_iff_eq] at htest
  have hstart : startsApart (RpcService.init [echo]) echoCall .live = true := by decide
  exact ⟨p, htest.1, htest.2, ((overloads_agree _ _ _).2 hstart p hp).1⟩

/-- The token is cancelled while both calls wait. -/
theorem writer_ignores_token : ¬ ∀ (s : RpcService) (x : RpcArguments) (ct : CancellationToken)
    (p : Pair), Lts.Reachable stepBoth Lts.anyStep (start s x ct) p →
      ∀ (a : RpcCall.Action) (p' : Pair), stepBoth p a = some p' → Behaves p a p' := by
  intro hall
  obtain ⟨p', hs, hdiffers⟩ := (Option.any_eq_true (fun p' : Pair =>
    p'.1.service.sent != p'.2.service.sent)
    (stepBoth (start (RpcService.init [echo]) echoCall .live) .cancelToken)).mp (by decide)
  have hagree := (hall _ _ _ _ Lts.Reachable.start _ p' hs).1
  rw [hagree.service] at hdiffers
  simp at hdiffers

end Stormancer.Rpc
