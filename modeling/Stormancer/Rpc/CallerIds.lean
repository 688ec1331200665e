import Stormancer.Rpc.CallerRecords

/-!
# The ids of concurrent RPCs

`rpcObservable` takes the lock twice: `reserveId` looks for an id that no entry has, and later the
request is inserted under it. Between the two, other threads do the same, RPCs end, and the other
services of the process move the counter. An id that is reserved has no entry yet, so `reserveId`
can give it away a second time. The second insertion is then dropped.

Results:
1. `rpc_eq`: the two steps, one right after the other, are the `rpc` step of `RpcService`.
2. `inv_step`: what every step keeps as long as no reservation meets a reserved id.
3. `caller_ids_unique`: in such runs the ids are unique and every RPC has its entry; the condition
   is exact.
4. `reserved_twice`: a run in which an id is given away twice.
-/

namespace Stormancer.Rpc

/-! ## Definitions -/

/-- A call of `rpcObservable` between its two locked parts. -/
structure ReservedCall where
  route : String
  id : UInt16
  payload : Payload
deriving DecidableEq

/-- A service with the calls that have reserved an id and not yet inserted their request. -/
structure ConcurrentCalls where
  service : RpcService
  reserved : List ReservedCall

/-- `_pendingRequests.emplace`, for a new request. -/
def RpcService.withCall (s : RpcService) (c : ReservedCall) : RpcService :=
  { s with
    heap := s.heap ++ [RpcRequest.create c.route c.id]
    pendingRequests := s.pendingRequests.emplace c.id s.heap.length }

/-- `rpcObservable` from the insertion on. -/
def RpcService.insertRequest (s : RpcService) (c : ReservedCall) (sendFails : Option String) :
    RpcService :=
  let r := s.heap.length
  let s := s.withCall c
  -- `request` goes out of scope at the end. A request that was not inserted dies there.
  match s.sceneSend (.request c.route c.id c.payload) sendFails with
  | .error what => (s.notify r (·.onError what)).release r
  | .ok s => (s.modify r fun q => { q with tearsDown := true }).release r

namespace ConcurrentCalls

def reject (s : ConcurrentCalls) (what : String) : ConcurrentCalls :=
  { s with service := { s.service with rejected := s.service.rejected ++ [what] } }

/-- `rpcObservable` up to the end of `reserveId`. -/
def reserve (s : ConcurrentCalls) (route : String) (payload : Payload) : ConcurrentCalls :=
  match s.service.checkRoute route with
  | .error what => s.reject what
  | .ok () =>
    match s.service.reserveId with
    | none => s.reject "Unable to create a new RPC request: Too many pending requests."
    | some id =>
      { service := { s.service with lastId := id }
        reserved := s.reserved ++ [⟨route, id, payload⟩] }

inductive Action
  | reserve (route : String) (payload : Payload)
  | insert (i : Nat) (sendFails : Option String)
  | service (a : RpcService.Action)
deriving DecidableEq

def step (s : ConcurrentCalls) : Action → Option ConcurrentCalls
  | .reserve route payload => some (s.reserve route payload)
  | .insert i sendFails =>
    match s.reserved[i]? with
    | none => none
    | some c => some
        { service := s.service.insertRequest c sendFails, reserved := s.reserved.eraseIdx i }
  -- A new RPC takes the two steps above.
  | .service (.rpc _ _ _) => none
  | .service a => (s.service.step a).map fun service => { s with service := service }

def init (remoteRoutes : List Route) : ConcurrentCalls where
  service := RpcService.init remoteRoutes
  reserved := []

/-- A call of `rpcObservable`, by its place among the reserved ones or by its request. -/
inductive Call
  | reserved (i : Nat)
  | made (r : Ref)
deriving DecidableEq

/-- The id of a call in flight: one that has reserved it, or whose observer has not ended. -/
def inFlight (s : ConcurrentCalls) : Call → Option UInt16
  | .reserved i => s.reserved[i]?.map ReservedCall.id
  | .made r => (s.service.heap[r]?.filter fun q => q.observer.isSubscribed).map RpcRequest.id

/-- `id` has no entry and no call has reserved it. -/
def IsFree (s : ConcurrentCalls) (id : UInt16) : Prop :=
  s.service.pendingRequests.lookup id = none ∧ ∀ c ∈ s.reserved, c.id ≠ id

instance (s : ConcurrentCalls) (id : UInt16) : Decidable (s.IsFree id) :=
  inferInstanceAs (Decidable (_ ∧ _))

/-- How many ids lie before `id`, going on from the counter. -/
def distance (s : ConcurrentCalls) (id : UInt16) : Nat := (id - s.service.lastId - 1).toNat

/-- Before an id is reserved, each id that has been reserved and not inserted has a free one before
it, going on from the counter; all the RPCs are given up only when those in the table are
finished. -/
def KeepsApart (s : ConcurrentCalls) : Action → Prop
  | .reserve route _ => s.service.checkRoute route = .ok () →
      ∀ c ∈ s.reserved, ∃ id, s.IsFree id ∧ s.distance id < s.distance c.id
  | .service (.cancelAllBegin _) => ∀ r ∈ s.service.pendingRequests.values,
      ∀ q : RpcRequest, s.service.heap[r]? = some q → q.observer.isSubscribed = false
  | _ => True

/-- No two calls in flight share an id. -/
def UniqueIds (s : ConcurrentCalls) : Prop :=
  ∀ (x y : Call) (id : UInt16), s.inFlight x = some id → s.inFlight y = some id → x = y

end ConcurrentCalls

/-- Every request that was made is in the table under its id until its observer has ended. -/
def Pending (s : RpcService) : Prop :=
  ∀ (r : Ref) (q : RpcRequest), s.heap[r]? = some q → q.observer.isSubscribed = true →
    s.pendingRequests.lookup q.id = some r

/-- No request is made, and entries only go away from requests whose observers have ended. -/
structure ErasesEnded (s s' : RpcService) : Prop where
  keeps : Keeps s s'
  size : s'.heap.length = s.heap.length
  erased : ∀ (id : UInt16) (r : Ref), s.pendingRequests.lookup id = some r →
    s'.pendingRequests.lookup id = some r ∨
      ∃ q : RpcRequest, s'.heap[r]? = some q ∧ q.observer.isSubscribed = false

theorem ErasesEnded.refl (s : RpcService) : ErasesEnded s s :=
  ⟨Keeps.refl s, rfl, fun _ _ hl => .inl hl⟩

theorem ErasesEnded.trans {s s' s'' : RpcService} (h : ErasesEnded s s')
    (h' : ErasesEnded s' s'') : ErasesEnded s s'' := by
  refine ⟨h.keeps.trans h'.keeps, h'.size.trans h.size, fun id r hl => ?_⟩
  rcases h.erased id r hl with hl' | ⟨q, hq, hended⟩
  · exact h'.erased id r hl'
  · obtain ⟨q', hq', -, ho⟩ := h'.keeps.records r q hq
    refine .inr ⟨q', hq', ?_⟩
    rw [ho hended]
    exact hended

namespace CallerIdLemmas

open RpcService (modify_get isHeld_iff reserveId_free of_continuation of_unsubscribe
  of_cancelAllEntry of_cancelAllReturn)
open CallerRecordLemmas

/-! ## Steps that start no RPC -/

theorem modify_length (s : RpcService) (r : Ref) (f : RpcRequest → RpcRequest) :
    (s.modify r f).heap.length = s.heap.length := List.length_modify f s.heap r

theorem release_table (s : RpcService) (r : Ref) :
    (s.release r).pendingRequests = s.pendingRequests ∧
      (s.release r).heap.length = s.heap.length := by
  unfold RpcService.release
  split
  · exact ⟨rfl, rfl⟩
  · exact ⟨rfl, modify_length s r _⟩

theorem releases_table (s : RpcService) (l : List Ref) :
    (l.foldl RpcService.release s).pendingRequests = s.pendingRequests ∧
      (l.foldl RpcService.release s).heap.length = s.heap.length := by
  induction l generalizing s with
  | nil => exact ⟨rfl, rfl⟩
  | cons r l ih =>
    obtain ⟨htable, hsize⟩ := ih (s.release r)
    exact ⟨htable.trans (release_table s r).1, hsize.trans (release_table s r).2⟩

theorem erases_of_table {s s' : RpcService} (hk : Keeps s s')
    (hsize : s'.heap.length = s.heap.length)
    (ht : s'.pendingRequests = s.pendingRequests) : ErasesEnded s s' := by
  refine ⟨hk, hsize, fun id r hl => .inl ?_⟩
  rw [ht]
  exact hl

theorem erases_flags (s : RpcService) (r : Ref) {f : RpcRequest → RpcRequest}
    (hid : ∀ q, (f q).id = q.id) (ho : ∀ q, (f q).observer = q.observer) :
    ErasesEnded s (s.modify r f) :=
  erases_of_table (keeps_modify s r hid fun q _ => ho q) (modify_length s r f) rfl

theorem erases_eraseRequest {s : RpcService} {id : UInt16}
    (h : ∀ r, s.pendingRequests.lookup id = some r →
      ∃ q : RpcRequest, s.heap[r]? = some q ∧ q.observer.isSubscribed = false) :
    ErasesEnded s (s.eraseRequest id) := by
  have hkeeps := keeps_eraseRequest s id
  refine ⟨hkeeps, ?_, fun id' r hl => ?_⟩
  · unfold RpcService.eraseRequest
    split
    · rfl
    · exact (release_table _ _).2
  · by_cases hid : id' = id
    · subst hid
      obtain ⟨q, hq, hended⟩ := h r hl
      obtain ⟨q', hq', -, ho⟩ := hkeeps.records r q hq
      refine .inr ⟨q', hq', ?_⟩
      rw [ho hended]
      exact hended
    · left
      unfold RpcService.eraseRequest
      split
      · exact hl
      · rw [(release_table _ _).1, Slots.Table.lookup_erase_eq, if_neg hid]
        exact hl

/-- The teardown of a request that still has its entry. -/
theorem erases_teardown {s : RpcService} {r : Ref}
    (h : ∀ q : RpcRequest, s.heap[r]? = some q →
      q.observer.isSubscribed = false ∧ s.pendingRequests.lookup q.id = some r) :
    ErasesEnded s (s.teardown r) := by
  unfold RpcService.teardown
  split
  · exact ErasesEnded.refl s
  · next q hq =>
    have hown : ∀ r', s.pendingRequests.lookup q.id = some r' →
        ∃ q' : RpcRequest, s.heap[r']? = some q' ∧ q'.observer.isSubscribed = false := by
      intro r' hl
      obtain ⟨hended, hentry⟩ := h q hq
      have hr : r' = r := Option.some.inj (hl.symm.trans hentry)
      subst hr
      exact ⟨q, hq, hended⟩
    split
    · split
      · have hsent : ErasesEnded s { s with sent := s.sent ++ [.cancellation q.id] } :=
          erases_of_table (keeps_of_eq rfl fun _ _ hl => hl) rfl rfl
        refine hsent.trans (erases_eraseRequest ?_)
        exact hown
      · exact erases_eraseRequest hown
    · exact ErasesEnded.refl s

theorem erases_notify {s : RpcService} {r : Ref} {f : Observer → Observer}
    (hf : ∀ o : Observer, o.isSubscribed = false → f o = o)
    (h : ∀ q : RpcRequest, s.heap[r]? = some q → q.observer.isSubscribed = true →
      s.pendingRequests.lookup q.id = some r) : ErasesEnded s (s.notify r f) := by
  unfold RpcService.notify
  split
  · exact ErasesEnded.refl s
  · next q hq =>
    have htold : ErasesEnded s (s.modify r fun q => { q with observer := f q.observer }) :=
      erases_of_table (keeps_modify s r (fun _ => rfl) fun q he => hf q.observer he)
        (modify_length s r _) rfl
    dsimp only
    split
    · next hends =>
      simp only [Bool.and_eq_true, Bool.not_eq_true'] at hends
      refine htold.trans (erases_teardown fun q' hq' => ?_)
      rw [modify_get, if_pos rfl, hq, Option.map_some] at hq'
      cases hq'
      exact ⟨hends.2, h q hq hends.1⟩
    · exact htold

/-- Flags of a request change, then its observer is told something. -/
theorem erases_flags_notify {s : RpcService} (hp : Pending s) (r : Ref)
    {f : RpcRequest → RpcRequest} (hf : ∀ q, (f q).id = q.id ∧ (f q).observer = q.observer)
    {g : Observer → Observer} (hg : ∀ o : Observer, o.isSubscribed = false → g o = o) :
    ErasesEnded s ((s.modify r f).notify r g) := by
  have hflags := erases_flags s r (fun q => (hf q).1) fun q => (hf q).2
  refine hflags.trans (erases_notify hg fun q' hq' hsub => ?_)
  rw [modify_get, if_pos rfl, Option.map_eq_some_iff] at hq'
  obtain ⟨q, hq, rfl⟩ := hq'
  rw [(hf q).1]
  rw [(hf q).2] at hsub
  exact hp r q hq hsub

/-- A step of the service that starts no RPC and gives up no RPC that is not finished. -/
theorem erases_step {s s' : RpcService} {a : RpcService.Action} (hp : Pending s)
    (ha : ∀ (route : String) (payload : Payload) (sendFails : Option String),
      a ≠ .rpc route payload sendFails)
    (hc : ∀ reason, a = .cancelAllBegin reason → ∀ r ∈ s.pendingRequests.values,
      ∀ q : RpcRequest, s.heap[r]? = some q → q.observer.isSubscribed = false)
    (hk : TableKeyed s) (hs : s.step a = some s') : ErasesEnded s s' := by
  cases a with
  | rpc route payload sendFails => exact absurd rfl (ha route payload sendFails)
  | next id packet thrown =>
    cases hs
    unfold RpcService.next
    split
    · exact ErasesEnded.refl s
    · next r _ =>
      have htold : ErasesEnded s (s.notify r (·.onNext packet thrown)) :=
        erases_notify (Rx.Subscriber.reports_onNext packet thrown).stays_ended (hp r)
      exact htold.trans (erases_flags _ r (fun _ => rfl) fun _ => rfl)
  | error id text =>
    cases hs
    unfold RpcService.error
    split
    · exact ErasesEnded.refl s
    · next r _ =>
      cases text with
      | none => exact erases_flags s r (fun _ => rfl) fun _ => rfl
      | some msg =>
        refine erases_flags_notify hp r ?_ (Rx.Subscriber.reports_onError _).stays_ended
        exact fun _ => ⟨rfl, rfl⟩
  | complete messageSent id =>
    cases hs
    unfold RpcService.complete
    split
    · exact ErasesEnded.refl s
    · exact erases_flags s _ (fun _ => rfl) fun _ => rfl
  | continuation r =>
    obtain ⟨-, -, -, rfl⟩ := of_continuation hs
    dsimp only
    split
    · refine erases_flags_notify hp r ?_ Rx.Subscriber.reports_onCompleted.stays_ended
      exact fun _ => ⟨rfl, rfl⟩
    · exact erases_flags s r (fun _ => rfl) fun _ => rfl
  | unsubscribe r =>
    obtain ⟨-, -, -, rfl⟩ := of_unsubscribe hs
    refine erases_flags_notify hp r ?_ fun _ he => Rx.Subscriber.unsubscribe_of_ended he
    exact fun _ => ⟨rfl, rfl⟩
  | cancelAllBegin reason =>
    have hkeeps := keeps_step ha hs
    cases hs
    refine ⟨hkeeps, rfl, fun id r hl => .inr ?_⟩
    obtain ⟨q, hq, -⟩ := hk id r hl
    exact ⟨q, hq, hc reason rfl r (Slots.Table.mem_values.mpr ⟨id, hl⟩) q hq⟩
  | cancelAllEntry i r =>
    obtain ⟨c, q, -, -, -, rfl⟩ := of_cancelAllEntry hs
    have htodo : ErasesEnded s { s with
        cancelAlls := s.cancelAlls.set i { c with todo := c.todo.erase r } } :=
      erases_of_table (keeps_of_eq rfl fun _ _ hl => hl) rfl rfl
    have hp' : Pending { s with
        cancelAlls := s.cancelAlls.set i { c with todo := c.todo.erase r } } := hp
    dsimp only
    split
    · exact htodo
    · refine htodo.trans
        (erases_flags_notify hp' r ?_ (Rx.Subscriber.reports_onError _).stays_ended)
      exact fun _ => ⟨rfl, rfl⟩
  | cancelAllReturn i =>
    have hkeeps := keeps_step ha hs
    obtain ⟨c, -, -, rfl⟩ := of_cancelAllReturn hs
    exact erases_of_table hkeeps (releases_table _ _).2 (releases_table _ _).1
  | sceneState connected =>
    cases hs
    exact erases_of_table (keeps_of_eq rfl fun _ _ hl => hl) rfl rfl
  | otherService lastId =>
    cases hs
    exact erases_of_table (keeps_of_eq rfl fun _ _ hl => hl) rfl rfl

theorem pending_erases {s s' : RpcService} (h : Pending s) (he : ErasesEnded s s') :
    Pending s' := by
  intro r q' hq' hsub
  have hlt : r < s.heap.length := he.size ▸ (List.getElem?_eq_some_iff.mp hq').1
  obtain ⟨q'', hq'', hid, ho⟩ := he.keeps.records r _ (List.getElem?_eq_getElem hlt)
  rw [hq'] at hq''
  cases hq''
  have hwas : (s.heap[r]).observer.isSubscribed = true := by
    by_contra hended
    rw [ho (by simpa using hended)] at hsub
    exact hended hsub
  rw [hid]
  rcases he.erased _ r (h r _ (List.getElem?_eq_getElem hlt) hwas) with hl | ⟨q, hq, hended⟩
  · exact hl
  · rw [hq'] at hq
    cases hq
    rw [hsub] at hended
    cases hended

/-! ## The insertion of a request -/

theorem withCall_get (s : RpcService) (c : ReservedCall) (r : Ref) :
    (s.withCall c).heap[r]? =
      if r = s.heap.length then some (RpcRequest.create c.route c.id) else s.heap[r]? := by
  unfold RpcService.withCall
  exact Heap.get_make _ _ _

theorem release_of_entry {s : RpcService} {id : UInt16} {r : Ref}
    (h : s.pendingRequests.lookup id = some r) : s.release r = s := by
  unfold RpcService.release
  rw [if_pos (isHeld_iff.mpr (.inl ⟨id, h⟩))]

/-- An observer without a teardown. -/
theorem notify_without_teardown {s : RpcService} {r : Ref} {q : RpcRequest}
    (hq : s.heap[r]? = some q) (ht : q.tearsDown = false) (f : Observer → Observer) :
    s.notify r f = s.modify r fun q => { q with observer := f q.observer } := by
  unfold RpcService.notify
  rw [hq]
  dsimp only
  split
  · unfold RpcService.teardown
    rw [modify_get, if_pos rfl, hq, Option.map_some]
    dsimp only
    rw [ht, Bool.false_and, if_neg Bool.false_ne_true]
  · rfl

theorem lookup_withCall {s : RpcService} {c : ReservedCall}
    (hfree : s.pendingRequests.lookup c.id = none) (id : UInt16) :
    (s.withCall c).pendingRequests.lookup id =
      if id = c.id then some s.heap.length else s.pendingRequests.lookup id := by
  show (s.pendingRequests.emplace c.id s.heap.length).lookup id = _
  rw [Slots.Table.lookup_emplace, hfree, Option.getD_none]

theorem sceneSend_ok {s s' : RpcService} {m : Outgoing} {fails : Option String}
    (h : s.sceneSend m fails = .ok s') : s' = { s with sent := s.sent ++ [m] } := by
  unfold RpcService.sceneSend at h
  split at h
  · cases h
  · cases fails with
    | some what => cases h
    | none =>
      cases h
      rfl

/-- A request that is inserted stays in the table when its call returns. -/
theorem insertRequest_eq {s : RpcService} {c : ReservedCall}
    (hfree : s.pendingRequests.lookup c.id = none) (sendFails : Option String) :
    s.insertRequest c sendFails =
      match (s.withCall c).sceneSend (.request c.route c.id c.payload) sendFails with
      | .error what => (s.withCall c).notify s.heap.length (·.onError what)
      | .ok t => t.modify s.heap.length fun q => { q with tearsDown := true } := by
  have hentry : (s.withCall c).pendingRequests.lookup c.id = some s.heap.length := by
    rw [lookup_withCall hfree, if_pos rfl]
  have hnew : (s.withCall c).heap[s.heap.length]? = some (RpcRequest.create c.route c.id) := by
    rw [withCall_get, if_pos rfl]
  unfold RpcService.insertRequest
  dsimp only
  split
  · rw [notify_without_teardown hnew rfl]
    exact release_of_entry hentry
  · next hsend =>
    rw [sceneSend_ok hsend]
    exact release_of_entry hentry

/-- What an insertion leaves: the older requests, the new one, and its entry. -/
theorem insertRequest_spec {s : RpcService} {c : ReservedCall}
    (hfree : s.pendingRequests.lookup c.id = none) (sendFails : Option String) :
    (∀ r < s.heap.length, (s.insertRequest c sendFails).heap[r]? = s.heap[r]?) ∧
    (∃ q : RpcRequest, (s.insertRequest c sendFails).heap[s.heap.length]? = some q ∧
      q.id = c.id) ∧
    (s.insertRequest c sendFails).heap.length = s.heap.length + 1 ∧
    ∀ id, (s.insertRequest c sendFails).pendingRequests.lookup id =
      if id = c.id then some s.heap.length else s.pendingRequests.lookup id := by
  have hmodify : ∀ (t : RpcService) (f : RpcRequest → RpcRequest), (∀ q, (f q).id = q.id) →
      t.heap = (s.withCall c).heap → t.pendingRequests = (s.withCall c).pendingRequests →
      (∀ r < s.heap.length, (t.modify s.heap.length f).heap[r]? = s.heap[r]?) ∧
      (∃ q : RpcRequest, (t.modify s.heap.length f).heap[s.heap.length]? = some q ∧
        q.id = c.id) ∧
      (t.modify s.heap.length f).heap.length = s.heap.length + 1 ∧
      ∀ id, (t.modify s.heap.length f).pendingRequests.lookup id =
        if id = c.id then some s.heap.length else s.pendingRequests.lookup id := by
    intro t f hf hheap htable
    refine ⟨fun r hr => ?_, ⟨f (RpcRequest.create c.route c.id), ?_, hf _⟩, ?_, fun id => ?_⟩
    · rw [modify_get, if_neg (Nat.ne_of_gt hr), hheap, withCall_get, if_neg (Nat.ne_of_lt hr)]
    · rw [modify_get, if_pos rfl, hheap, withCall_get, if_pos rfl, Option.map_some]
    · rw [modify_length, hheap]
      simp [RpcService.withCall]
    · show t.pendingRequests.lookup id = _
      rw [htable, lookup_withCall hfree]
  rw [insertRequest_eq hfree]
  split
  · have hnew : (s.withCall c).heap[s.heap.length]? =
        some (RpcRequest.create c.route c.id) := by
      rw [withCall_get, if_pos rfl]
    rw [notify_without_teardown hnew rfl]
    exact hmodify _ _ (fun _ => rfl) rfl rfl
  · next hsend =>
    rw [sceneSend_ok hsend]
    exact hmodify _ _ (fun _ => rfl) rfl rfl

/-! ## The invariant -/

/-- The ids that are reserved have no entry and are different; the requests are in the table. -/
structure Inv (s : ConcurrentCalls) : Prop where
  keyed : TableKeyed s.service
  pending : Pending s.service
  free : ∀ c ∈ s.reserved, s.service.pendingRequests.lookup c.id = none
  distinct : (s.reserved.map ReservedCall.id).Nodup

theorem inv_init (remoteRoutes : List Route) : Inv (ConcurrentCalls.init remoteRoutes) :=
  ⟨fun _ _ hl => (by cases hl), fun _ _ hq => (by cases hq), fun _ hc => (by cases hc),
    List.nodup_nil⟩

theorem id_inj {s : ConcurrentCalls} (h : Inv s) {i j : Nat} {c c' : ReservedCall}
    (hi : s.reserved[i]? = some c) (hj : s.reserved[j]? = some c') (hid : c.id = c'.id) :
    i = j := by
  have hlt : i < (s.reserved.map ReservedCall.id).length := by
    rw [List.length_map]
    exact (List.getElem?_eq_some_iff.mp hi).1
  refine (List.getElem?_inj hlt h.distinct).mp ?_
  rw [List.getElem?_map, List.getElem?_map, hi, hj, Option.map_some, Option.map_some, hid]

theorem uniqueIds_of_inv {s : ConcurrentCalls} (h : Inv s) : s.UniqueIds := by
  have hmade : ∀ {r : Ref} {id : UInt16}, s.inFlight (.made r) = some id →
      s.service.pendingRequests.lookup id = some r := by
    intro r id hr
    obtain ⟨q, hq, rfl⟩ := Option.map_eq_some_iff.mp hr
    obtain ⟨hq, hsub⟩ := Option.filter_eq_some_iff.mp hq
    exact h.pending r q hq hsub
  have hreserved : ∀ {i : Nat} {id : UInt16}, s.inFlight (.reserved i) = some id →
      ∃ c, s.reserved[i]? = some c ∧ c.id = id := fun hi => Option.map_eq_some_iff.mp hi
  have hapart : ∀ {i : Nat} {r : Ref} {id : UInt16}, s.inFlight (.reserved i) = some id →
      s.inFlight (.made r) = some id → False := by
    intro i r id hi hr
    obtain ⟨c, hc, rfl⟩ := hreserved hi
    have hfree := h.free c (List.mem_of_getElem? hc)
    rw [hmade hr] at hfree
    cases hfree
  intro x y id hx hy
  cases x with
  | reserved i =>
    cases y with
    | reserved j =>
      obtain ⟨c, hc, hid⟩ := hreserved hx
      obtain ⟨c', hc', hid'⟩ := hreserved hy
      rw [id_inj h hc hc' (hid.trans hid'.symm)]
    | made r => exact (hapart hx hy).elim
  | made r =>
    cases y with
    | reserved j => exact (hapart hy hx).elim
    | made r' =>
      have heq : some r = some r' := (hmade hx).symm.trans (hmade hy)
      cases heq
      rfl

/-! ## Reservations -/

theorem reserveId_isSome_iff (s : RpcService) :
    s.reserveId.isSome = true ↔ s.pendingRequests.keys.length < 0x10000 :=
  Slots.nextFree_isSome_iff s.pendingRequests s.lastId

theorem reserveId_of_free {s : RpcService} {id : UInt16}
    (h : s.pendingRequests.lookup id = none) : ∃ id', s.reserveId = some id' :=
  Option.isSome_iff_exists.mp ((reserveId_isSome_iff s).mpr
    ((Slots.exists_free_iff s.pendingRequests).mp ⟨id, h⟩))

/-- The id that is found comes first among those that have no entry. -/
theorem distance_le {s : ConcurrentCalls} {id id' : UInt16} (h : s.service.reserveId = some id)
    (hfree : s.service.pendingRequests.lookup id' = none) : s.distance id ≤ s.distance id' :=
  Slots.nextFree_le h (by rw [hfree]; rfl)

theorem distance_inj {s : ConcurrentCalls} {id id' : UInt16}
    (h : s.distance id = s.distance id') : id = id' := by
  have hdiff := UInt16.toNat_inj.mp h
  grind

/-- What a call does up to the end of `reserveId`. -/
theorem reserve_cases (s : ConcurrentCalls) (route : String) (payload : Payload) :
    (∃ what, s.reserve route payload = s.reject what) ∨
    ∃ id, s.service.checkRoute route = .ok () ∧ s.service.reserveId = some id ∧
      s.reserve route payload =
        { service := { s.service with lastId := id }
          reserved := s.reserved ++ [⟨route, id, payload⟩] } := by
  unfold ConcurrentCalls.reserve
  split
  · exact .inl ⟨_, rfl⟩
  · next hroute =>
    split
    · exact .inl ⟨_, rfl⟩
    · next id hid => exact .inr ⟨id, hroute, hid, rfl⟩

theorem inv_reserve {s : ConcurrentCalls} (h : Inv s) (route : String) (payload : Payload)
    (hg : s.KeepsApart (.reserve route payload)) : Inv (s.reserve route payload) := by
  rcases reserve_cases s route payload with ⟨what, he⟩ | ⟨id, hroute, hid, he⟩
  · rw [he]
    exact ⟨h.keyed, h.pending, h.free, h.distinct⟩
  · rw [he]
    refine ⟨h.keyed, h.pending, fun c hc => ?_, ?_⟩
    · rcases List.mem_append.mp hc with hold | hnew
      · exact h.free c hold
      · cases List.mem_singleton.mp hnew
        show s.service.pendingRequests.lookup id = none
        exact reserveId_free hid
    · rw [List.map_append, List.nodup_append]
      refine ⟨h.distinct, List.nodup_singleton _, ?_⟩
      intro id' hold id'' hnew heq
      obtain ⟨c, hc, rfl⟩ := List.mem_map.mp hold
      cases List.mem_singleton.mp hnew
      obtain ⟨before, ⟨hfree, -⟩, hlt⟩ := hg hroute c hc
      have hle : s.distance id ≤ s.distance before := distance_le hid hfree
      rw [heq] at hlt
      exact absurd hlt (Nat.not_lt.mpr hle)

/-! ## Steps -/

theorem inv_insert {s : ConcurrentCalls} (h : Inv s) {i : Nat} {c : ReservedCall}
    (hc : s.reserved[i]? = some c) (sendFails : Option String) :
    Inv { service := s.service.insertRequest c sendFails, reserved := s.reserved.eraseIdx i } := by
  have hfree := h.free c (List.mem_of_getElem? hc)
  obtain ⟨hold, ⟨q, hq, hid⟩, hsize, hlookup⟩ := insertRequest_spec hfree sendFails
  have hrecord : ∀ {r : Ref} {q' : RpcRequest},
      (s.service.insertRequest c sendFails).heap[r]? = some q' →
      r = s.service.heap.length ∧ q'.id = c.id ∨ s.service.heap[r]? = some q' := by
    intro r q' hq'
    have hlt := (List.getElem?_eq_some_iff.mp hq').1
    rw [hsize] at hlt
    rcases Nat.lt_or_eq_of_le (Nat.le_of_lt_succ hlt) with hlt | heq
    · rw [hold r hlt] at hq'
      exact .inr hq'
    · rw [heq, hq] at hq'
      cases hq'
      exact .inl ⟨heq, hid⟩
  refine ⟨fun id r hl => ?_, fun r q' hq' hsub => ?_, fun c' hc' => ?_, ?_⟩
  · replace hl : (s.service.insertRequest c sendFails).pendingRequests.lookup id = some r := hl
    rw [hlookup] at hl
    split at hl
    · next heq =>
      cases hl
      exact ⟨q, hq, hid.trans heq.symm⟩
    · obtain ⟨q', hq', hid'⟩ := h.keyed id r hl
      exact ⟨q', (hold r (List.getElem?_eq_some_iff.mp hq').1).trans hq', hid'⟩
  · show (s.service.insertRequest c sendFails).pendingRequests.lookup q'.id = some r
    rw [hlookup]
    rcases hrecord hq' with ⟨hr, hid'⟩ | hq'
    · rw [if_pos hid', hr]
    · have hl := h.pending r q' hq' hsub
      rw [if_neg]
      · exact hl
      · intro heq
        rw [heq, hfree] at hl
        cases hl
  · obtain ⟨j, hne, hj⟩ := List.mem_eraseIdx_iff_getElem?.mp hc'
    show (s.service.insertRequest c sendFails).pendingRequests.lookup c'.id = none
    rw [hlookup, if_neg]
    · exact h.free c' (List.mem_of_getElem? hj)
    · exact fun heq => hne (id_inj h hj hc heq)
  · exact h.distinct.sublist ((List.eraseIdx_sublist _ _).map _)

theorem inv_erases {s : ConcurrentCalls} (h : Inv s) {t : RpcService}
    (he : ErasesEnded s.service t) : Inv { s with service := t } := by
  refine ⟨tableKeyed_keeps h.keyed he.keeps, pending_erases h.pending he, fun c hc => ?_,
    h.distinct⟩
  rw [Option.eq_none_iff_forall_ne_some]
  intro r hl
  have hentry := he.keeps.entries c.id r hl
  rw [h.free c hc] at hentry
  cases hentry

/-- A step of the service, other than a new RPC. -/
theorem step_service {s s' : ConcurrentCalls} {a : RpcService.Action}
    (hs : s.step (.service a) = some s') :
    (∀ (route : String) (payload : Payload) (sendFails : Option String),
      a ≠ .rpc route payload sendFails) ∧
    ∃ t, s.service.step a = some t ∧ s' = { s with service := t } := by
  have ha : ∀ (route : String) (payload : Payload) (sendFails : Option String),
      a ≠ .rpc route payload sendFails := by
    rintro route payload sendFails rfl
    cases hs
  have hstep : s.step (.service a) =
      (s.service.step a).map fun service => { s with service := service } := by
    cases a with
    | rpc route payload sendFails => exact absurd rfl (ha route payload sendFails)
    | _ => rfl
  rw [hstep] at hs
  obtain ⟨t, ht, rfl⟩ := Option.map_eq_some_iff.mp hs
  exact ⟨ha, t, ht, rfl⟩

theorem inv_step {s s' : ConcurrentCalls} {a : ConcurrentCalls.Action} (h : Inv s)
    (hg : s.KeepsApart a) (hs : s.step a = some s') : Inv s' := by
  cases a with
  | reserve route payload =>
    cases hs
    exact inv_reserve h route payload hg
  | insert i sendFails =>
    simp only [ConcurrentCalls.step] at hs
    split at hs
    · cases hs
    · next c hc =>
      cases hs
      exact inv_insert h hc sendFails
  | service a =>
    obtain ⟨ha, t, ht, rfl⟩ := step_service hs
    refine inv_erases h (erases_step h.pending ha ?_ h.keyed ht)
    rintro reason rfl
    exact hg

/-- A step that does not keep the ids apart makes two calls share one, or takes a call's entry. -/
theorem not_unique_of_not_keepsApart {s s' : ConcurrentCalls} {a : ConcurrentCalls.Action}
    (h : Inv s) (hg : ¬ s.KeepsApart a) (hs : s.step a = some s') :
    ¬ (s'.UniqueIds ∧ Pending s'.service) := by
  rintro ⟨hunique, hpending⟩
  cases a with
  | reserve route payload =>
    cases hs
    refine hg fun hroute c hc => ?_
    by_contra hnone
    obtain ⟨id, hid⟩ := reserveId_of_free (h.free c hc)
    rcases reserve_cases s route payload with ⟨what, he⟩ | ⟨id', -, hid', he⟩
    · unfold ConcurrentCalls.reserve at he
      rw [hroute] at he
      simp only [hid] at he
      have hlength := congrArg (fun t => t.reserved.length) he
      simp [ConcurrentCalls.reject] at hlength
    · -- The id that is found has been reserved by a call.
      have htaken : ∃ c' ∈ s.reserved, c'.id = id' := by
        by_contra hfree
        push Not at hfree
        have hle : s.distance id' ≤ s.distance c.id := distance_le hid' (h.free c hc)
        have hge : s.distance c.id ≤ s.distance id' :=
          Nat.le_of_not_lt fun hlt => hnone ⟨id', ⟨reserveId_free hid', hfree⟩, hlt⟩
        exact hfree c hc (distance_inj (Nat.le_antisymm hge hle))
      obtain ⟨c', hc', rfl⟩ := htaken
      obtain ⟨i, hi⟩ := List.mem_iff_getElem?.mp hc'
      have hlt := (List.getElem?_eq_some_iff.mp hi).1
      rw [he] at hunique
      have hsame := hunique (.reserved i) (.reserved s.reserved.length) c'.id
        (by simp [ConcurrentCalls.inFlight, List.getElem?_append_left hlt, hi])
        (by simp [ConcurrentCalls.inFlight])
      cases hsame
      exact absurd hlt (Nat.lt_irrefl _)
  | insert i sendFails => exact hg trivial
  | service a =>
    obtain ⟨-, t, ht, rfl⟩ := step_service hs
    cases a with
    | cancelAllBegin reason =>
      cases ht
      refine hg fun r _ q hq => ?_
      by_contra hsub
      have hentry := hpending r q hq (by simpa using hsub)
      cases hentry
    | _ => exact hg trivial

end CallerIdLemmas

open CallerIdLemmas

/-- A call that is not interrupted is the `rpc` step of the service. -/
theorem rpc_eq (s : RpcService) (route : String) (payload : Payload) (sendFails : Option String) :
    (∃ t, ConcurrentCalls.reserve ⟨s, []⟩ route payload = ⟨t, []⟩ ∧
      s.rpc route payload sendFails = t) ∨
    ∃ t c, ConcurrentCalls.reserve ⟨s, []⟩ route payload = ⟨t, [c]⟩ ∧
      s.rpc route payload sendFails = t.insertRequest c sendFails := by
  unfold ConcurrentCalls.reserve RpcService.rpc
  cases s.checkRoute route with
  | error what => exact .inl ⟨_, rfl, rfl⟩
  | ok _ =>
    dsimp only
    cases hid : s.reserveId with
    | none => exact .inl ⟨_, rfl, rfl⟩
    | some id =>
      have hfree := RpcService.reserveId_free hid
      have hcall : RpcService.withCall { s with lastId := id } ⟨route, id, payload⟩ =
          s.withRequest route id := by
        unfold RpcService.withCall RpcService.withRequest
        dsimp only
        rw [Slots.Table.emplace, if_neg (AList.lookup_eq_none.mp hfree)]
      have hinsert := insertRequest_eq (s := { s with lastId := id })
        (c := ⟨route, id, payload⟩) hfree sendFails
      rw [hcall] at hinsert
      exact .inr ⟨_, _, rfl, hinsert.symm⟩

/-- As long as no reservation meets an id that is reserved, no two calls in flight share an id and
every RPC has its entry until it ends. A step that does not meet the condition breaks this. For
every table and counter, `reserveId` finds an id exactly when fewer than 65536 are pending. -/
theorem caller_ids_unique {remoteRoutes : List Route} {s : ConcurrentCalls}
    (h : Lts.Reachable ConcurrentCalls.step ConcurrentCalls.KeepsApart
      (ConcurrentCalls.init remoteRoutes) s) :
    s.UniqueIds ∧ Pending s.service ∧
    (∀ (a : ConcurrentCalls.Action) (s' : ConcurrentCalls), s.step a = some s' →
      (s'.UniqueIds ∧ Pending s'.service ↔ s.KeepsApart a)) ∧
    ∀ t : RpcService, t.reserveId.isSome = true ↔ t.pendingRequests.keys.length < 0x10000 := by
  have hinv : Inv s := h.invariant (inv_init remoteRoutes) fun _ _ _ hi hg hs => inv_step hi hg hs
  refine ⟨uniqueIds_of_inv hinv, hinv.pending, fun a s' hs => ⟨fun hgood => ?_, fun hg => ?_⟩,
    reserveId_isSome_iff⟩
  · by_contra hg
    exact not_unique_of_not_keepsApart hinv hg hs hgood
  · have hinv' := inv_step hinv hg hs
    exact ⟨uniqueIds_of_inv hinv', hinv'.pending⟩

/-- The remote route of the runs below. -/
def echo : Route := ⟨"echo", [(pluginName, version)]⟩

theorem caller_ids_unique_interleaved :
    ∃ s, Lts.Reachable ConcurrentCalls.step ConcurrentCalls.KeepsApart
        (ConcurrentCalls.init [echo]) s ∧
      s.inFlight (.reserved 0) = some 1 ∧ s.inFlight (.made 0) = some 2 ∧
      s.UniqueIds ∧ Pending s.service := by
  have hfirst : (ConcurrentCalls.init [echo]).KeepsApart (.reserve "echo" [7]) :=
    fun _ c hc => (by cases hc)
  have hsecond : ((ConcurrentCalls.init [echo]).reserve "echo" [7]).KeepsApart
      (.reserve "echo" [8]) := fun _ c hc => ⟨2, by
    revert c
    decide +kernel⟩
  have hreserved : Lts.Reachable ConcurrentCalls.step ConcurrentCalls.KeepsApart
      (ConcurrentCalls.init [echo])
      (((ConcurrentCalls.init [echo]).reserve "echo" [7]).reserve "echo" [8]) :=
    (Lts.Reachable.start.next hfirst rfl).next hsecond rfl
  have hreached := hreserved.next (a := .insert 1 none) (by exact trivial) rfl
  obtain ⟨hunique, hpending, -⟩ := caller_ids_unique hreached
  exact ⟨_, hreached, by decide +kernel, by decide +kernel, hunique, hpending⟩

/-- The counter comes round between a reservation and its insertion, and the id is given away
again. Both requests are sent, and the second one is dropped. -/
theorem reserved_twice :
    (∃ s, Lts.Reachable ConcurrentCalls.step Lts.anyStep (ConcurrentCalls.init [echo]) s ∧
      ¬ s.UniqueIds) ∧
    ∃ s, Lts.Reachable ConcurrentCalls.step Lts.anyStep (ConcurrentCalls.init [echo]) s ∧
      s.service.sent = [.request "echo" 1 [7], .request "echo" 1 [8]] ∧
      s.inFlight (.made 0) = some 1 ∧
      s.service.heap[1]?.map (fun q => q.observer.received) = some [.error "task canceled"] := by
  constructor
  · obtain ⟨s, hs, hp⟩ := Lts.Reachable.of_exec ConcurrentCalls.step Lts.anyStep
      (ConcurrentCalls.init [echo])
      [.reserve "echo" [7], .service (.otherService 0), .reserve "echo" [8]]
      (fun s => s.inFlight (.reserved 0) = some 1 ∧ s.inFlight (.reserved 1) = some 1)
      (by decide +kernel)
    simp only [decide_eq_true_eq] at hp
    exact ⟨s, hs, fun hunique => nomatch hunique _ _ 1 hp.1 hp.2⟩
  · obtain ⟨s, hs, hp⟩ := Lts.Reachable.of_exec ConcurrentCalls.step Lts.anyStep
      (ConcurrentCalls.init [echo])
      [.reserve "echo" [7], .service (.otherService 0), .reserve "echo" [8], .insert 0 none,
        .insert 0 none]
      (fun s => s.service.sent = [.request "echo" 1 [7], .request "echo" 1 [8]] ∧
        s.inFlight (.made 0) = some 1 ∧
        s.service.heap[1]?.map (fun q => q.observer.received) = some [.error "task canceled"])
      (by decide +kernel)
    simp only [decide_eq_true_eq] at hp
    exact ⟨s, hs, hp⟩

end Stormancer.Rpc
