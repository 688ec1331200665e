import Stormancer.Rpc.CallerIds

/-!
# An RPC whose request cannot be sent

`rpcObservable` inserts the request before it sends it. When `Scene::send` throws, because the
scene is not connected, in the payload writer or in the connection below, the observer receives
the error and the handler returns before it adds the teardown, which is what erases an entry.

Results:
1. `rpc_of_send_failure`: what the call leaves, for every table.
2. `send_failure_not_atomic`: the table is never what it was before the call.
3. `entry_stays`: the entry stays, and with it the id is taken, until `cancelAll` is called.
-/

namespace Stormancer.Rpc

/-! ## Definitions -/

/-- The call gets as far as its `send`, with the id, and `send` throws. -/
structure SendThrows (s : RpcService) (route : String) (payload : Payload)
    (sendFails : Option String) (id : UInt16) (what : String) : Prop where
  route_ok : s.checkRoute route = .ok ()
  reserved : s.reserveId = some id
  thrown : (s.withRequest route id).sceneSend (.request route id payload) sendFails = .error what

/-- The observer of the call received the error, and the table is as it was. -/
structure SendFailureAtomic (s s' : RpcService) (what : String) : Prop where
  reported : ∃ q : RpcRequest, s'.heap[s.heap.length]? = some q ∧
    q.observer.received = [.error what]
  unchanged : ∀ id : UInt16, s'.pendingRequests.lookup id = s.pendingRequests.lookup id

/-- All the RPCs are given up. -/
def isCancelAll : RpcService.Action → Bool
  | .cancelAllBegin _ => true
  | _ => false

/-- No `cancelAll` call begins. -/
abbrev NoCancelAll (_ : RpcService) (a : RpcService.Action) : Prop := isCancelAll a = false

/-- The entry of a request whose observer has ended, with no `cancelAll` call at work. -/
structure Stuck (id : UInt16) (r : Ref) (s : RpcService) : Prop where
  keyed : TableKeyed s
  idle : s.cancelAlls = []
  entry : s.pendingRequests.lookup id = some r
  ended : ∃ q : RpcRequest, s.heap[r]? = some q ∧ q.observer.isSubscribed = false

/-! ## The call -/

namespace SendFailureLemmas

open RpcService (modify_get reserveId_free)
open CallerRecordLemmas CallerIdLemmas

theorem rpc_eq_notify {s : RpcService} {route : String} {payload : Payload}
    {sendFails : Option String} {id : UInt16} {what : String}
    (h : SendThrows s route payload sendFails id what) :
    s.rpc route payload sendFails =
      (s.withRequest route id).modify s.heap.length fun q =>
        { q with observer := q.observer.onError what } := by
  unfold RpcService.rpc
  rw [h.route_ok, h.reserved]
  dsimp only
  rw [h.thrown]
  exact notify_without_teardown (withRequest_get_new s route id) rfl _

end SendFailureLemmas

open SendFailureLemmas CallerRecordLemmas CallerIdLemmas
open RpcService (modify_get reserveId_free of_continuation of_unsubscribe)

/-- The request stays under its id, and its observer has ended with the error. -/
theorem rpc_of_send_failure {s : RpcService} {route : String} {payload : Payload}
    {sendFails : Option String} {id : UInt16} {what : String}
    (h : SendThrows s route payload sendFails id what) :
    (∃ q : RpcRequest, (s.rpc route payload sendFails).heap[s.heap.length]? = some q ∧
      q.observer.received = [.error what] ∧ q.observer.isSubscribed = false) ∧
    ∀ id' : UInt16, (s.rpc route payload sendFails).pendingRequests.lookup id' =
      if id' = id then some s.heap.length else s.pendingRequests.lookup id' := by
  rw [rpc_eq_notify h]
  constructor
  · refine ⟨{ RpcRequest.create route id with
      observer := (RpcRequest.create route id).observer.onError what }, ?_, rfl, rfl⟩
    rw [modify_get, if_pos rfl, withRequest_get_new, Option.map_some]
  · intro id'
    show (s.pendingRequests.insert id s.heap.length).lookup id' = _
    exact Slots.Table.lookup_insert_eq _ _ _ _

/-- The id that the request took was free, so the table has an entry more. -/
theorem send_failure_not_atomic {s : RpcService} {route : String} {payload : Payload}
    {sendFails : Option String} {id : UInt16} {what : String}
    (h : SendThrows s route payload sendFails id what) :
    ¬ SendFailureAtomic s (s.rpc route payload sendFails) what := by
  intro hatomic
  have hfree : s.pendingRequests.lookup id = none := reserveId_free h.reserved
  have hentry := (rpc_of_send_failure h).2 id
  rw [if_pos rfl, hatomic.unchanged id, hfree] at hentry
  cases hentry

/-! ## The entry afterwards -/

namespace SendFailureLemmas

/-- An observer that has ended is told something. -/
theorem notify_of_ended {s : RpcService} {r : Ref} {q : RpcRequest} (hq : s.heap[r]? = some q)
    (he : q.observer.isSubscribed = false) (f : Observer → Observer) :
    (s.notify r f).pendingRequests = s.pendingRequests ∧
      (s.notify r f).cancelAlls = s.cancelAlls := by
  unfold RpcService.notify
  rw [hq]
  dsimp only
  rw [he, Bool.false_and, if_neg Bool.false_ne_true]
  exact ⟨rfl, rfl⟩

/-- Flags of such a request change, then its observer is told something. -/
theorem flags_notify_of_ended {s : RpcService} {r : Ref} {q : RpcRequest}
    (hq : s.heap[r]? = some q) (he : q.observer.isSubscribed = false)
    {f : RpcRequest → RpcRequest} (hf : ∀ q, (f q).observer = q.observer)
    (g : Observer → Observer) :
    ((s.modify r f).notify r g).pendingRequests = s.pendingRequests ∧
      ((s.modify r f).notify r g).cancelAlls = s.cancelAlls := by
  have hq' : (s.modify r f).heap[r]? = some (f q) := by
    rw [modify_get, if_pos rfl, hq, Option.map_some]
  exact notify_of_ended hq' (by rw [hf, he]) g

/-- A step about the request itself leaves the table. -/
theorem own_step {id : UInt16} {r : Ref} {s s' : RpcService} {a : RpcService.Action}
    (h : Stuck id r s) (ha : ¬ Elsewhere r id a) (hc : NoCancelAll s a)
    (hs : s.step a = some s') :
    s'.pendingRequests = s.pendingRequests ∧ s'.cancelAlls = s.cancelAlls := by
  obtain ⟨q, hq, he⟩ := h.ended
  cases a with
  | next id' packet thrown =>
    have hid : id' = id := not_not.mp ha
    cases hs
    unfold RpcService.next
    rw [hid, h.entry]
    exact notify_of_ended hq he _
  | error id' text =>
    have hid : id' = id := not_not.mp ha
    cases hs
    unfold RpcService.error
    rw [hid, h.entry]
    cases text with
    | none => exact ⟨rfl, rfl⟩
    | some msg =>
      refine flags_notify_of_ended hq he ?_ _
      exact fun _ => rfl
  | complete messageSent id' =>
    cases hs
    unfold RpcService.complete
    split <;> exact ⟨rfl, rfl⟩
  | continuation r' =>
    have hr : r' = r := not_not.mp ha
    obtain ⟨-, -, -, rfl⟩ := of_continuation hs
    rw [hr]
    dsimp only
    split
    · refine flags_notify_of_ended hq he ?_ _
      exact fun _ => rfl
    · exact ⟨rfl, rfl⟩
  | unsubscribe r' =>
    have hr : r' = r := not_not.mp ha
    obtain ⟨q', hq', hsub, -⟩ := of_unsubscribe hs
    rw [hr, hq] at hq'
    cases hq'
    rw [he] at hsub
    cases hsub
  | cancelAllBegin reason => cases hc
  | _ => exact absurd trivial ha

theorem stuck_step {id : UInt16} {r : Ref} {s s' : RpcService} {a : RpcService.Action}
    (h : Stuck id r s) (hc : NoCancelAll s a) (hs : s.step a = some s') : Stuck id r s' := by
  obtain ⟨q, hq, he⟩ := h.ended
  obtain ⟨q', hq', ho⟩ := step_ended hs hq he
  have hended : ∃ q : RpcRequest, s'.heap[r]? = some q ∧ q.observer.isSubscribed = false :=
    ⟨q', hq', by rw [ho, he]⟩
  by_cases ha : Elsewhere r id a
  · have hapart := apart_step h.keyed h.idle h.entry ha hs
    exact ⟨tableKeyed_step h.keyed hs, hapart.idle h.idle, hapart.entry id h.entry, hended⟩
  · obtain ⟨htable, hidle⟩ := own_step h ha hc hs
    refine ⟨tableKeyed_step h.keyed hs, hidle.trans h.idle, ?_, hended⟩
    rw [htable]
    exact h.entry

end SendFailureLemmas

/-- Whatever is called and received, the entry keeps its id until all RPCs are cancelled. -/
theorem entry_stays {s s' : RpcService} {route : String} {payload : Payload}
    {sendFails : Option String} {id : UInt16} {what : String} (hkeyed : TableKeyed s)
    (hidle : s.cancelAlls = []) (h : SendThrows s route payload sendFails id what)
    (hrun : Lts.Reachable RpcService.step NoCancelAll (s.rpc route payload sendFails) s') :
    s'.pendingRequests.lookup id = some s.heap.length ∧ s'.reserveId ≠ some id := by
  obtain ⟨⟨q, hq, -, he⟩, hlookup⟩ := rpc_of_send_failure h
  have hcall : s.step (.rpc route payload sendFails) = some (s.rpc route payload sendFails) := rfl
  have hstuck : Stuck id s.heap.length (s.rpc route payload sendFails) := by
    refine ⟨tableKeyed_step hkeyed hcall, ?_, ?_, q, hq, he⟩
    · rw [rpc_eq_notify h]
      exact hidle
    · rw [hlookup, if_pos rfl]
  have hend := hrun.invariant hstuck fun _ _ _ hst hg hs => stuck_step hst hg hs
  refine ⟨hend.entry, fun hid => ?_⟩
  have hfree := reserveId_free hid
  rw [hend.entry] at hfree
  cases hfree

/-! ## Examples -/

/-- A service that has lost the connection of its scene. -/
def disconnected : RpcService := { RpcService.init [echo] with connected := false }

theorem send_failure_disconnected :
    ¬ SendFailureAtomic disconnected (disconnected.rpc "echo" [] none)
      "The scene is not connected" := by
  have hthrows : SendThrows disconnected "echo" [] none 1 "The scene is not connected" :=
    ⟨by decide, by decide, rfl⟩
  exact send_failure_not_atomic hthrows

/-- The payload writer throws. -/
theorem send_failure_keeps_entry : ¬ ∀ (s : RpcService) (route : String) (payload : Payload)
    (sendFails : Option String) (id : UInt16) (what : String),
    SendThrows s route payload sendFails id what →
      SendFailureAtomic s (s.rpc route payload sendFails) what := by
  intro hall
  let s : RpcService := RpcService.init [echo]
  have hthrows : SendThrows s "echo" [7] (some "bad payload") 1 "bad payload" :=
    ⟨by decide, by decide, rfl⟩
  have hentry : (s.rpc "echo" [7] (some "bad payload")).pendingRequests.lookup 1 = some 0 := by
    decide
  rw [(hall _ _ _ _ _ _ hthrows).unchanged 1] at hentry
  cases hentry

end Stormancer.Rpc
