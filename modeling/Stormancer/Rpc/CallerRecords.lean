import Stormancer.Lib.Run
import Stormancer.Rpc.Caller

/-!
# What the steps of the caller keep

No step removes a request from the heap, changes its id or wakes an observer that has ended, and
only a new RPC adds an entry to the table. While no `cancelAll` call is at work, a step about one
request does not touch another one that still has its entry.

Results:
1. `tableKeyed_reachable`: in every run the table is keyed by the requests' own ids.
2. `step_ended`: an observer that has ended stays as it is.
3. `apart_step`: steps about other requests leave a pending request alone.
-/

namespace Stormancer.Rpc

open RpcService (modify_get modify_isHeld isHeld_iff reserveId_free of_continuation of_unsubscribe
  of_cancelAllEntry of_cancelAllReturn)

/-! ## Definitions -/

/-- The table is keyed by the requests' own ids. -/
def TableKeyed (s : RpcService) : Prop :=
  ∀ (id : UInt16) (r : Ref), s.pendingRequests.lookup id = some r →
    ∃ q : RpcRequest, s.heap[r]? = some q ∧ q.id = id

/-- Requests stay in the heap with their ids, and observers that have ended stay as they are. -/
def KeepsRecords (s s' : RpcService) : Prop :=
  ∀ (r : Ref) (q : RpcRequest), s.heap[r]? = some q →
    ∃ q' : RpcRequest, s'.heap[r]? = some q' ∧ q'.id = q.id ∧
      (q.observer.isSubscribed = false → q'.observer = q.observer)

/-- Besides, the table gets no new entry. -/
structure Keeps (s s' : RpcService) : Prop where
  records : KeepsRecords s s'
  entries : ∀ (id : UInt16) (r : Ref), s'.pendingRequests.lookup id = some r →
    s.pendingRequests.lookup id = some r

/-- The request `r` and its entry are not touched, and no `cancelAll` call begins. -/
structure Apart (r : Ref) (s s' : RpcService) : Prop where
  record : s'.heap[r]? = s.heap[r]?
  entry : ∀ id : UInt16, s.pendingRequests.lookup id = some r →
    s'.pendingRequests.lookup id = some r
  idle : s.cancelAlls = [] → s'.cancelAlls = []

theorem KeepsRecords.trans {s s' s'' : RpcService} (h : KeepsRecords s s')
    (h' : KeepsRecords s' s'') : KeepsRecords s s'' := by
  intro r q hq
  obtain ⟨q', hq', hid, ho⟩ := h r q hq
  obtain ⟨q'', hq'', hid', ho'⟩ := h' r q' hq'
  refine ⟨q'', hq'', hid'.trans hid, fun he => ?_⟩
  have he' := ho he
  rw [← he'] at he ⊢
  exact ho' he

theorem Keeps.refl (s : RpcService) : Keeps s s :=
  ⟨fun _ q hq => ⟨q, hq, rfl, fun _ => rfl⟩, fun _ _ h => h⟩

theorem Keeps.trans {s s' s'' : RpcService} (h : Keeps s s') (h' : Keeps s' s'') :
    Keeps s s'' :=
  ⟨h.records.trans h'.records, fun id r hl => h.entries id r (h'.entries id r hl)⟩

theorem Apart.refl (r : Ref) (s : RpcService) : Apart r s s := ⟨rfl, fun _ h => h, fun h => h⟩

theorem Apart.trans {r : Ref} {s s' s'' : RpcService} (h : Apart r s s') (h' : Apart r s' s'') :
    Apart r s s'' :=
  ⟨h'.record.trans h.record, fun id hl => h'.entry id (h.entry id hl),
    fun hi => h'.idle (h.idle hi)⟩

namespace CallerRecordLemmas

/-! ## What every operation keeps -/

theorem keeps_of_eq {s s' : RpcService} (hh : s'.heap = s.heap)
    (ht : ∀ (id : UInt16) (r : Ref), s'.pendingRequests.lookup id = some r →
      s.pendingRequests.lookup id = some r) : Keeps s s' := by
  refine ⟨fun r q hq => ⟨q, ?_, rfl, fun _ => rfl⟩, ht⟩
  rw [hh]
  exact hq

theorem keeps_modify (s : RpcService) (r : Ref) {f : RpcRequest → RpcRequest}
    (hid : ∀ q, (f q).id = q.id)
    (ho : ∀ q : RpcRequest, q.observer.isSubscribed = false → (f q).observer = q.observer) :
    Keeps s (s.modify r f) := by
  refine ⟨fun r' q hq => ?_, fun _ _ hl => hl⟩
  rw [modify_get]
  split
  · rw [hq]
    exact ⟨f q, rfl, hid q, ho q⟩
  · exact ⟨q, hq, rfl, fun _ => rfl⟩

theorem destroy_keeps (q : RpcRequest) : q.destroy.id = q.id ∧
    (q.observer.isSubscribed = false → q.destroy.observer = q.observer) := by
  unfold RpcRequest.destroy
  split
  · exact ⟨rfl, fun _ => rfl⟩
  · exact ⟨rfl, fun he => Rx.Subscriber.terminate_of_ended he _⟩

theorem keeps_release (s : RpcService) (r : Ref) : Keeps s (s.release r) := by
  unfold RpcService.release
  split
  · exact Keeps.refl s
  · exact keeps_modify s r (fun q => (destroy_keeps q).1) fun q => (destroy_keeps q).2

theorem keeps_eraseRequest (s : RpcService) (id : UInt16) : Keeps s (s.eraseRequest id) := by
  unfold RpcService.eraseRequest
  split
  · exact Keeps.refl s
  · have h1 : Keeps s { s with pendingRequests := s.pendingRequests.erase id } := by
      refine keeps_of_eq rfl fun id' r hl => ?_
      rw [Slots.Table.lookup_erase_eq] at hl
      split at hl
      · cases hl
      · exact hl
    exact h1.trans (keeps_release _ _)

theorem keeps_teardown (s : RpcService) (r : Ref) : Keeps s (s.teardown r) := by
  unfold RpcService.teardown
  split
  · exact Keeps.refl s
  · split
    · refine Keeps.trans ?_ (keeps_eraseRequest _ _)
      split
      · exact keeps_of_eq rfl fun _ _ hl => hl
      · exact Keeps.refl s
    · exact Keeps.refl s

theorem keeps_notify (s : RpcService) (r : Ref) {f : Observer → Observer}
    (hf : ∀ o : Observer, o.isSubscribed = false → f o = o) : Keeps s (s.notify r f) := by
  unfold RpcService.notify
  split
  · exact Keeps.refl s
  · have h1 : Keeps s (s.modify r fun q => { q with observer := f q.observer }) :=
      keeps_modify s r (fun _ => rfl) fun q he => hf q.observer he
    dsimp only
    split
    · exact h1.trans (keeps_teardown _ r)
    · exact h1

/-- A step that is not a new RPC. -/
theorem keeps_step {s s' : RpcService} {a : RpcService.Action}
    (ha : ∀ (route : String) (payload : Payload) (sendFails : Option String),
      a ≠ .rpc route payload sendFails) (hs : s.step a = some s') : Keeps s s' := by
  have flags : ∀ (t : RpcService) (r : Ref) {f : RpcRequest → RpcRequest},
      (∀ q, (f q).id = q.id) → (∀ q, (f q).observer = q.observer) → Keeps t (t.modify r f) := by
    intro t r f hid ho
    exact keeps_modify t r hid fun q _ => ho q
  cases a with
  | rpc route payload sendFails => exact absurd rfl (ha route payload sendFails)
  | next id packet thrown =>
    cases hs
    unfold RpcService.next
    split
    · exact Keeps.refl s
    · exact (keeps_notify s _ (Rx.Subscriber.reports_onNext packet thrown).stays_ended).trans
        (flags _ _ (fun _ => rfl) fun _ => rfl)
  | error id text =>
    cases hs
    unfold RpcService.error
    split
    · exact Keeps.refl s
    · cases text with
      | none => exact flags s _ (fun _ => rfl) fun _ => rfl
      | some msg =>
        refine Keeps.trans ?_ (keeps_notify _ _ (Rx.Subscriber.reports_onError _).stays_ended)
        exact flags s _ (fun _ => rfl) fun _ => rfl
  | complete messageSent id =>
    cases hs
    unfold RpcService.complete
    split
    · exact Keeps.refl s
    · exact flags s _ (fun _ => rfl) fun _ => rfl
  | continuation r =>
    obtain ⟨-, -, -, rfl⟩ := of_continuation hs
    have h1 : Keeps s (s.modify r fun q => { q with continuations := q.continuations - 1 }) :=
      flags s r (fun _ => rfl) fun _ => rfl
    dsimp only
    split
    · exact h1.trans (keeps_notify _ _ Rx.Subscriber.reports_onCompleted.stays_ended)
    · exact h1
  | unsubscribe r =>
    obtain ⟨-, -, -, rfl⟩ := of_unsubscribe hs
    refine Keeps.trans ?_ (keeps_notify _ _ fun _ he => Rx.Subscriber.unsubscribe_of_ended he)
    exact flags s r (fun _ => rfl) fun _ => rfl
  | cancelAllBegin reason =>
    cases hs
    exact keeps_of_eq rfl fun _ _ hl => by cases hl
  | cancelAllEntry i r =>
    obtain ⟨c, q, -, -, -, rfl⟩ := of_cancelAllEntry hs
    have h1 : Keeps s { s with
        cancelAlls := s.cancelAlls.set i { c with todo := c.todo.erase r } } :=
      keeps_of_eq rfl fun _ _ hl => hl
    dsimp only
    split
    · exact h1
    · refine Keeps.trans ?_ (keeps_notify _ _ (Rx.Subscriber.reports_onError _).stays_ended)
      exact h1.trans (flags _ r (fun _ => rfl) fun _ => rfl)
  | cancelAllReturn i =>
    obtain ⟨c, -, -, rfl⟩ := of_cancelAllReturn hs
    have all : ∀ (l : List Ref) (t : RpcService), Keeps t (l.foldl RpcService.release t) := by
      intro l
      induction l with
      | nil => exact Keeps.refl
      | cons r l ih => exact fun t => (keeps_release t r).trans (ih (t.release r))
    have h1 : Keeps s { s with cancelAlls := s.cancelAlls.eraseIdx i } :=
      keeps_of_eq rfl fun _ _ hl => hl
    exact h1.trans (all _ _)
  | sceneState connected =>
    cases hs
    exact keeps_of_eq rfl fun _ _ hl => hl
  | otherService lastId =>
    cases hs
    exact keeps_of_eq rfl fun _ _ hl => hl

/-! ## The table in every run -/

theorem tableKeyed_keeps {s s' : RpcService} (h : TableKeyed s) (hk : Keeps s s') :
    TableKeyed s' := by
  intro id r hl
  obtain ⟨q, hq, hid⟩ := h id r (hk.entries id r hl)
  obtain ⟨q', hq', hid', _⟩ := hk.records r q hq
  exact ⟨q', hq', hid'.trans hid⟩

theorem withRequest_get_new (s : RpcService) (route : String) (id : UInt16) :
    (s.withRequest route id).heap[s.heap.length]? = some (RpcRequest.create route id) := by
  simp [RpcService.withRequest]

theorem withRequest_get_old {s : RpcService} {r : Ref} {q : RpcRequest}
    (hq : s.heap[r]? = some q) (route : String) (id : UInt16) :
    (s.withRequest route id).heap[r]? = some q := by
  unfold RpcService.withRequest
  dsimp only
  rw [List.getElem?_append_left (List.getElem?_eq_some_iff.mp hq).1, hq]

theorem tableKeyed_withRequest {s : RpcService} (h : TableKeyed s) (route : String)
    (id : UInt16) : TableKeyed (s.withRequest route id) := by
  intro id' r hl
  replace hl : (s.pendingRequests.insert id s.heap.length).lookup id' = some r := hl
  rw [Slots.Table.lookup_insert_eq] at hl
  split at hl
  · next he =>
    cases hl
    exact ⟨_, withRequest_get_new s route id, he.symm⟩
  · obtain ⟨q, hq, hid⟩ := h id' r hl
    exact ⟨q, withRequest_get_old hq route id, hid⟩

/-- What a new RPC does: nothing but a rejection, or a request and then its send. -/
theorem rpc_cases (s : RpcService) (route : String) (payload : Payload)
    (sendFails : Option String) :
    (∃ what, s.rpc route payload sendFails = { s with rejected := s.rejected ++ [what] }) ∨
    ∃ id, s.reserveId = some id ∧
      ((∃ what, s.rpc route payload sendFails =
          (s.withRequest route id).notify s.heap.length (·.onError what)) ∨
        s.rpc route payload sendFails =
          { s.withRequest route id with
              sent := s.sent ++ [Outgoing.request route id payload] }.modify s.heap.length
            fun q => { q with tearsDown := true }) := by
  unfold RpcService.rpc
  split
  · next what _ => exact Or.inl ⟨what, rfl⟩
  · split
    · exact Or.inl ⟨_, rfl⟩
    · next id hid =>
      refine Or.inr ⟨id, hid, ?_⟩
      dsimp only
      unfold RpcService.sceneSend
      have hconn' : (s.withRequest route id).connected = s.connected := rfl
      rw [hconn']
      by_cases hconn : s.connected = true
      · rw [if_neg (by simp [hconn])]
        cases sendFails with
        | some what => exact Or.inl ⟨what, rfl⟩
        | none => exact Or.inr rfl
      · rw [if_pos (by simp [hconn])]
        exact Or.inl ⟨_, rfl⟩

/-- The request went out and gets its teardown. -/
theorem keeps_sent (t : RpcService) (sent : List Outgoing) (r : Ref) :
    Keeps t ({ t with sent := sent }.modify r fun q => { q with tearsDown := true }) := by
  have h1 : Keeps t { t with sent := sent } := keeps_of_eq rfl fun _ _ hl => hl
  refine h1.trans ?_
  exact keeps_modify _ r (fun _ => rfl) fun _ _ => rfl

theorem tableKeyed_step {s s' : RpcService} {a : RpcService.Action} (h : TableKeyed s)
    (hs : s.step a = some s') : TableKeyed s' := by
  cases a with
  | rpc route payload sendFails =>
    cases hs
    rcases rpc_cases s route payload sendFails with ⟨what, he⟩ | ⟨id, _, ⟨what, he⟩ | he⟩
    · rw [he]
      exact h
    · rw [he]
      exact tableKeyed_keeps (tableKeyed_withRequest h route id)
        (keeps_notify _ _ (Rx.Subscriber.reports_onError what).stays_ended)
    · rw [he]
      exact tableKeyed_keeps (tableKeyed_withRequest h route id) (keeps_sent _ _ _)
  | _ => exact tableKeyed_keeps h (keeps_step (by intros; nofun) hs)

theorem tableKeyed_reachable {G : RpcService → RpcService.Action → Prop} {routes : List Route}
    {s : RpcService} (h : Lts.Reachable RpcService.step G (RpcService.init routes) s) :
    TableKeyed s :=
  h.invariant (fun _ _ hl => by cases hl) fun _ _ _ hk _ hs => tableKeyed_step hk hs

/-- A new RPC keeps the older requests as they are. -/
theorem records_rpc (s : RpcService) (route : String) (payload : Payload)
    (sendFails : Option String) : KeepsRecords s (s.rpc route payload sendFails) := by
  have made : ∀ id, KeepsRecords s (s.withRequest route id) :=
    fun id r q hq => ⟨q, withRequest_get_old hq route id, rfl, fun _ => rfl⟩
  rcases rpc_cases s route payload sendFails with ⟨what, he⟩ | ⟨id, _, ⟨what, he⟩ | he⟩
  · rw [he]
    exact fun r q hq => ⟨q, hq, rfl, fun _ => rfl⟩
  · rw [he]
    exact (made id).trans
      (keeps_notify _ _ (Rx.Subscriber.reports_onError what).stays_ended).records
  · rw [he]
    exact (made id).trans (keeps_sent _ _ _).records

/-- An observer that has ended stays as it is. -/
theorem step_ended {s s' : RpcService} {a : RpcService.Action} (hs : s.step a = some s')
    {r : Ref} {q : RpcRequest} (hq : s.heap[r]? = some q)
    (he : q.observer.isSubscribed = false) :
    ∃ q' : RpcRequest, s'.heap[r]? = some q' ∧ q'.observer = q.observer := by
  have hk : KeepsRecords s s' := by
    cases a with
    | rpc route payload sendFails =>
      cases hs
      exact records_rpc s route payload sendFails
    | _ => exact (keeps_step (by intros; nofun) hs).records
  obtain ⟨q', hq', _, ho⟩ := hk r q hq
  exact ⟨q', hq', ho he⟩

/-! ## Steps about other requests -/

theorem apart_modify {r r' : Ref} (hne : r' ≠ r) (s : RpcService)
    (f : RpcRequest → RpcRequest) : Apart r s (s.modify r' f) := by
  refine ⟨?_, fun _ h => h, fun h => h⟩
  rw [modify_get, if_neg hne]

theorem apart_eraseRequest {r r' : Ref} {s : RpcService} {id : UInt16}
    (hl : s.pendingRequests.lookup id = some r') (hne : r' ≠ r) :
    Apart r s (s.eraseRequest id) := by
  unfold RpcService.eraseRequest
  rw [hl]
  dsimp only
  have h1 : Apart r s { s with pendingRequests := s.pendingRequests.erase id } := by
    refine ⟨rfl, fun id' hl' => ?_, fun h => h⟩
    rw [Slots.Table.lookup_erase_eq, if_neg]
    · exact hl'
    · rintro rfl
      rw [hl] at hl'
      cases hl'
      exact hne rfl
  refine h1.trans ?_
  unfold RpcService.release
  split
  · exact Apart.refl r _
  · exact apart_modify hne _ _

/-- With no `cancelAll` at work the teardown of a request finds its own entry. -/
theorem apart_teardown {r r' : Ref} {s : RpcService} (hk : TableKeyed s)
    (hi : s.cancelAlls = []) (hne : r' ≠ r) : Apart r s (s.teardown r') := by
  unfold RpcService.teardown
  split
  · exact Apart.refl r s
  · next q hq =>
    split
    · next hheld =>
      rw [Bool.and_eq_true] at hheld
      have hentry : s.pendingRequests.lookup q.id = some r' := by
        rcases isHeld_iff.mp hheld.2 with ⟨id, hl⟩ | ⟨c, hc, _⟩
        · obtain ⟨q', hq', hid⟩ := hk id r' hl
          rw [hq] at hq'
          cases hq'
          rw [hid]
          exact hl
        · rw [hi] at hc
          cases hc
      split
      · have h1 : Apart r s { s with sent := s.sent ++ [.cancellation q.id] } :=
          ⟨rfl, fun _ h => h, fun h => h⟩
        exact h1.trans (apart_eraseRequest hentry hne)
      · exact apart_eraseRequest hentry hne
    · exact Apart.refl r s

theorem apart_notify {r r' : Ref} {s : RpcService} (hk : TableKeyed s)
    (hi : s.cancelAlls = []) (hne : r' ≠ r) (f : Observer → Observer) :
    Apart r s (s.notify r' f) := by
  unfold RpcService.notify
  split
  · exact Apart.refl r s
  · have h1 : Apart r s (s.modify r' fun q => { q with observer := f q.observer }) :=
      apart_modify hne s _
    have hk1 : TableKeyed (s.modify r' fun q => { q with observer := f q.observer }) := by
      intro id r'' hl
      obtain ⟨q, hq, hid⟩ := hk id r'' hl
      rw [modify_get, hq]
      split
      · exact ⟨_, rfl, hid⟩
      · exact ⟨q, rfl, hid⟩
    dsimp only
    split
    · exact h1.trans (apart_teardown hk1 hi hne)
    · exact h1

/-- Flags of another request change, then its observer is told something. -/
theorem apart_flags_notify {r r' : Ref} {s : RpcService} {f : RpcRequest → RpcRequest}
    (hk : TableKeyed s) (hi : s.cancelAlls = []) (hne : r' ≠ r) (hid : ∀ q, (f q).id = q.id)
    (ho : ∀ q, (f q).observer = q.observer) (g : Observer → Observer) :
    Apart r s ((s.modify r' f).notify r' g) := by
  have hk1 : TableKeyed (s.modify r' f) :=
    tableKeyed_keeps hk (keeps_modify s r' hid fun q _ => ho q)
  have hi1 : (s.modify r' f).cancelAlls = [] := hi
  exact (apart_modify hne s f).trans (apart_notify hk1 hi1 hne g)

/-- The action is not about the request `r`, whose id is `id`, and no `cancelAll` begins. -/
def Elsewhere (r : Ref) (id : UInt16) : RpcService.Action → Prop
  | .next id' _ _ => id' ≠ id
  | .error id' _ => id' ≠ id
  | .complete _ id' => id' ≠ id
  | .continuation r' => r' ≠ r
  | .unsubscribe r' => r' ≠ r
  | .cancelAllBegin _ => False
  | _ => True

/-- A new call is a new record, and takes an id that is not in the table. -/
theorem apart_withRequest {r : Ref} {s : RpcService} {q : RpcRequest} (hq : s.heap[r]? = some q)
    (route : String) {id' : UInt16} (hfree : s.reserveId = some id') :
    Apart r s (s.withRequest route id') := by
  refine ⟨?_, fun id'' hl'' => ?_, fun h => h⟩
  · rw [withRequest_get_old hq, hq]
  · show (s.pendingRequests.insert id' s.heap.length).lookup id'' = some r
    rw [Slots.Table.lookup_insert_eq, if_neg]
    · exact hl''
    · rintro rfl
      rw [reserveId_free hfree] at hl''
      cases hl''

theorem apart_rpc {r : Ref} {s : RpcService} {q : RpcRequest} (hk : TableKeyed s)
    (hi : s.cancelAlls = []) (hq : s.heap[r]? = some q) (route : String) (payload : Payload)
    (sendFails : Option String) : Apart r s (s.rpc route payload sendFails) := by
  have hlt : r < s.heap.length := (List.getElem?_eq_some_iff.mp hq).1
  have hne : s.heap.length ≠ r := Nat.ne_of_gt hlt
  rcases rpc_cases s route payload sendFails with ⟨what, he⟩ | ⟨id', hid', ⟨what, he⟩ | he⟩
  · rw [he]
    exact ⟨rfl, fun _ h => h, fun h => h⟩
  · rw [he]
    exact (apart_withRequest hq route hid').trans
      (apart_notify (tableKeyed_withRequest hk route id') hi hne _)
  · rw [he]
    have h1 : Apart r (s.withRequest route id') { s.withRequest route id' with
        sent := s.sent ++ [Outgoing.request route id' payload] } :=
      ⟨rfl, fun _ h => h, fun h => h⟩
    exact ((apart_withRequest hq route hid').trans h1).trans (apart_modify hne _ _)

/-- A step elsewhere leaves a pending request alone. -/
theorem apart_step {r : Ref} {id : UInt16} {s s' : RpcService} {a : RpcService.Action}
    (hk : TableKeyed s) (hi : s.cancelAlls = []) (hl : s.pendingRequests.lookup id = some r)
    (ha : Elsewhere r id a) (hs : s.step a = some s') : Apart r s s' := by
  obtain ⟨q, hq, hid⟩ := hk id r hl
  have other : ∀ {id' : UInt16} {r' : Ref}, s.pendingRequests.lookup id' = some r' → id' ≠ id →
      r' ≠ r := by
    rintro id' r' hl' hne rfl
    obtain ⟨q', hq', hid'⟩ := hk id' r' hl'
    rw [hq] at hq'
    cases hq'
    exact hne (hid'.symm.trans hid)
  cases a with
  | rpc route payload sendFails =>
    cases hs
    exact apart_rpc hk hi hq route payload sendFails
  | next id' packet thrown =>
    cases hs
    unfold RpcService.next
    split
    · exact Apart.refl r s
    · next r' hl' =>
      have hne := other hl' ha
      exact (apart_notify hk hi hne _).trans (apart_modify hne _ _)
  | error id' text =>
    cases hs
    unfold RpcService.error
    split
    · exact Apart.refl r s
    · next r' hl' =>
      have hne := other hl' ha
      cases text with
      | none => exact apart_modify hne _ _
      | some msg =>
        refine apart_flags_notify hk hi hne ?_ ?_ _
        · exact fun _ => rfl
        · exact fun _ => rfl
  | complete messageSent id' =>
    cases hs
    unfold RpcService.complete
    split
    · exact Apart.refl r s
    · next r' hl' => exact apart_modify (other hl' ha) _ _
  | continuation r' =>
    obtain ⟨-, -, -, rfl⟩ := of_continuation hs
    dsimp only
    split
    · refine apart_flags_notify hk hi ha ?_ ?_ _
      · exact fun _ => rfl
      · exact fun _ => rfl
    · exact apart_modify ha s _
  | unsubscribe r' =>
    obtain ⟨-, -, -, rfl⟩ := of_unsubscribe hs
    refine apart_flags_notify hk hi ha ?_ ?_ _
    · exact fun _ => rfl
    · exact fun _ => rfl
  | cancelAllBegin reason => exact ha.elim
  | cancelAllEntry i r' =>
    obtain ⟨c, -, hc, -⟩ := of_cancelAllEntry hs
    rw [hi] at hc
    cases hc
  | cancelAllReturn i =>
    obtain ⟨c, hc, -⟩ := of_cancelAllReturn hs
    rw [hi] at hc
    cases hc
  | sceneState connected =>
    cases hs
    exact ⟨rfl, fun _ h => h, fun h => h⟩
  | otherService lastId =>
    cases hs
    exact ⟨rfl, fun _ h => h, fun h => h⟩

end CallerRecordLemmas

end Stormancer.Rpc
