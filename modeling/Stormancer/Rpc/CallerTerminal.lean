import Stormancer.Lib.Run
import Stormancer.Rpc.Caller

/-!
# Every RPC observer receives exactly one terminal

The observer of a request is told how its RPC ended by an answer, by `cancelAll`, or by the
destructor of the request. The destructor and `cancelAll` keep silent when `hasCompleted` is
set, but `error` and `complete` set that flag before the observer hears of it: `complete` waits
for data and for its continuation, and `error` may fail to decode its text. A request that
loses its last owner in between is `Droppable` no more.

Results:
1. `caller_one_terminal`: in every run in which no request is dropped in that condition, every
   observer whose request has left the table, and that its owner did not unsubscribe, received
   exactly one terminal; in every run nothing follows a terminal.
2. `caller_terminal_lost`: a completion that announces data, then a disconnection, and the
   observer never hears anything.
-/

namespace Stormancer.Rpc

open RpcService (modify_get modify_isHeld isHeld_iff isHeld_false_iff reserveId_free of_continuation
  of_unsubscribe of_cancelAllEntry of_cancelAllReturn)

/-! ## Definitions -/

/-- The request can lose its last owner: its destructor still reports, or its observer has
ended already. -/
def RpcRequest.Droppable (q : RpcRequest) : Prop :=
  q.hasCompleted = true → q.observer.isSubscribed = false

/-- The teardown of `r` erases by id. When `cancelAll` has taken `r` out of the table and the
id was reused, the entry it erases belongs to another request, which must be droppable. -/
def NoStaleVictim (s : RpcService) (r : Ref) : Prop :=
  ∀ q ∈ s.heap[r]?, ∀ r' ∈ s.pendingRequests.lookup q.id, r' ≠ r → ∀ q' ∈ s.heap[r']?, q'.Droppable

/-- The teardown of `r` runs and erases an entry, if the observer of `r` is ended. -/
def TearsDown (s : RpcService) (r : Ref) : Prop :=
  ∃ q ∈ s.heap[r]?, q.observer.isSubscribed = true ∧ q.tearsDown = true ∧ s.isHeld r = true

/-- No step drops a request whose `hasCompleted` flag is set while its observer waits. The loop of
`cancelAll` ends the observers of the requests that have not completed. -/
def DropsReported (s : RpcService) : RpcService.Action → Prop
  | .continuation r | .unsubscribe r => TearsDown s r → NoStaleVictim s r
  | .cancelAllEntry _ r =>
    (∃ q ∈ s.heap[r]?, q.hasCompleted = false) → TearsDown s r → NoStaleVictim s r
  | .cancelAllReturn i =>
    ∀ c ∈ s.cancelAlls[i]?, ∀ r ∈ c.pendingRequestsCopy, ∀ q ∈ s.heap[r]?, q.Droppable
  | _ => True

/-- The request has left the table, and no `cancelAll` call still works on it. -/
def Left (s : RpcService) (r : Ref) : Prop := s.isHeld r = false

/-- The invariant, for all requests but those in `X`: the table is keyed by the requests' own
ids, an unowned request has an ended observer, and an observer that has ended without its
owner's doing received one terminal. -/
structure CallerInv (X : Ref → Prop) (s : RpcService) : Prop where
  table : ∀ id r, s.pendingRequests.lookup id = some r →
    ∃ q : RpcRequest, s.heap[r]? = some q ∧ q.id = id
  ended : ∀ (r : Ref) (q : RpcRequest), s.heap[r]? = some q → s.isHeld r = false → ¬ X r →
    q.observer.isSubscribed = false
  reported : ∀ (r : Ref) (q : RpcRequest), s.heap[r]? = some q → q.observer.isSubscribed = false →
    q.unsubscribed = false → Rx.terminals q.observer.received = 1

namespace CallerLemmas

/-! ## The invariant under updates -/

/-- The invariant looks only at the requests, the table and the copies. -/
theorem inv_congr {X : Ref → Prop} {s s' : RpcService} (h : CallerInv X s)
    (hh : s'.heap = s.heap) (hp : s'.pendingRequests = s.pendingRequests)
    (hc : s'.cancelAlls = s.cancelAlls) : CallerInv X s' := by
  have held : ∀ r, s'.isHeld r = s.isHeld r := fun r => by simp [RpcService.isHeld, hp, hc]
  constructor
  · intro id r hid
    rw [hp] at hid
    rw [hh]
    exact h.table id r hid
  · intro r q hq hr
    rw [hh] at hq
    rw [held] at hr
    exact h.ended r q hq hr
  · intro r q hq
    rw [hh] at hq
    exact h.reported r q hq

/-- A request may be updated as long as its id stays, its observer is not revived, and it
reports the end of its observer. -/
theorem inv_modify {X : Ref → Prop} {s : RpcService} {r : Ref} {f : RpcRequest → RpcRequest}
    (h : CallerInv X s) (hid : ∀ q, (f q).id = q.id)
    (hs : ∀ q, s.heap[r]? = some q → q.observer.isSubscribed = false →
      (f q).observer.isSubscribed = false)
    (hr : ∀ q, s.heap[r]? = some q → (f q).observer.isSubscribed = false →
      (f q).unsubscribed = false → Rx.terminals (f q).observer.received = 1) :
    CallerInv X (s.modify r f) := by
  constructor
  · intro id r' hl
    obtain ⟨q, hq, hqid⟩ := h.table id r' hl
    rw [modify_get]
    split
    · exact ⟨f q, by simp [hq], by rw [hid, hqid]⟩
    · exact ⟨q, hq, hqid⟩
  · intro r' q hq hheld hX
    rw [modify_isHeld] at hheld
    rw [modify_get] at hq
    split at hq
    · next he =>
      subst he
      obtain ⟨q0, hq0, rfl⟩ := Option.map_eq_some_iff.mp hq
      exact hs q0 hq0 (h.ended r q0 hq0 hheld hX)
    · exact h.ended r' q hq hheld hX
  · intro r' q hq hsub hun
    rw [modify_get] at hq
    split at hq
    · next he =>
      subst he
      obtain ⟨q0, hq0, rfl⟩ := Option.map_eq_some_iff.mp hq
      exact hr q0 hq0 hsub hun
    · exact h.reported r' q hq hsub hun

/-- An update that leaves the observer and the id alone. -/
theorem inv_modify_flags {X : Ref → Prop} {s : RpcService} {r : Ref}
    {f : RpcRequest → RpcRequest} (h : CallerInv X s) (hid : ∀ q, (f q).id = q.id)
    (ho : ∀ q, (f q).observer = q.observer) (hu : ∀ q, (f q).unsubscribed = q.unsubscribed) :
    CallerInv X (s.modify r f) := by
  refine inv_modify h hid ?_ ?_
  · intro q _ hs
    rw [ho]
    exact hs
  · intro q hq hs hun
    rw [ho] at hs ⊢
    rw [hu] at hun
    exact h.reported r q hq hs hun

/-! ## Dropping a request -/

theorem destroy_id (q : RpcRequest) : q.destroy.id = q.id := by
  unfold RpcRequest.destroy
  split <;> rfl

theorem destroy_ended {q : RpcRequest} (h : q.Droppable) :
    q.destroy.observer.isSubscribed = false := by
  unfold RpcRequest.destroy
  split
  · next hc => exact h hc
  · exact Rx.Subscriber.terminate_isSubscribed _ _

theorem destroy_reported {q : RpcRequest}
    (h : q.observer.isSubscribed = false → q.unsubscribed = false →
      Rx.terminals q.observer.received = 1)
    (he : q.destroy.observer.isSubscribed = false) (hu : q.destroy.unsubscribed = false) :
    Rx.terminals q.destroy.observer.received = 1 := by
  unfold RpcRequest.destroy at he hu ⊢
  split
  · next hc =>
    simp only [hc, if_true] at he hu
    exact h he hu
  · next hc =>
    simp only [hc] at he hu
    cases hs : q.observer.isSubscribed with
    | true => exact (Rx.Subscriber.reports_onError _).reports _ hs he
    | false =>
      have hkeep : q.observer.onError "task canceled" = q.observer :=
        (Rx.Subscriber.reports_onError _).stays_ended _ hs
      show Rx.terminals (q.observer.onError "task canceled").received = 1
      rw [hkeep]
      exact h hs hu

/-- Releasing a droppable request restores the invariant for it. -/
theorem inv_release {X : Ref → Prop} {s : RpcService} {r : Ref}
    (h : CallerInv X s) (hd : ∀ q, s.heap[r]? = some q → q.Droppable) :
    CallerInv (fun x => X x ∧ x ≠ r) (s.release r) := by
  unfold RpcService.release
  split
  · next hheld =>
    refine ⟨h.table, ?_, h.reported⟩
    intro r' q hq hf hX
    by_cases he : r' = r
    · subst he
      rw [hheld] at hf
      cases hf
    · exact h.ended r' q hq hf fun hx => hX ⟨hx, he⟩
  · have h' : CallerInv X (s.modify r RpcRequest.destroy) := by
      refine inv_modify h destroy_id ?_ ?_
      · intro q hq _
        exact destroy_ended (hd q hq)
      · intro q hq
        exact destroy_reported (h.reported r q hq)
    refine ⟨h'.table, ?_, h'.reported⟩
    intro r' q hq hf hX
    by_cases he : r' = r
    · subst he
      rw [modify_get, if_pos rfl] at hq
      obtain ⟨q0, hq0, rfl⟩ := Option.map_eq_some_iff.mp hq
      exact destroy_ended (hd q0 hq0)
    · exact h'.ended r' q hq hf fun hx => hX ⟨hx, he⟩

theorem release_get {s : RpcService} {r r' : Ref} {q : RpcRequest}
    (hq : (s.release r).heap[r']? = some q) :
    s.heap[r']? = some q ∨ ∃ q0, s.heap[r']? = some q0 ∧ q = q0.destroy := by
  unfold RpcService.release at hq
  split at hq
  · exact Or.inl hq
  · rw [modify_get] at hq
    split at hq
    · obtain ⟨q0, hq0, rfl⟩ := Option.map_eq_some_iff.mp hq
      exact Or.inr ⟨q0, hq0, rfl⟩
    · exact Or.inl hq

/-- Releasing the requests of a list, all droppable, restores the invariant for all of them. -/
theorem inv_releaseAll {l : List Ref} {s : RpcService} (h : CallerInv (· ∈ l) s)
    (hd : ∀ r q, r ∈ l → s.heap[r]? = some q → q.Droppable) :
    CallerInv (fun _ => False) (l.foldl RpcService.release s) := by
  induction l generalizing s with
  | nil => exact ⟨h.table, fun r q hq hf _ => h.ended r q hq hf List.not_mem_nil, h.reported⟩
  | cons r l ih =>
    rw [List.foldl_cons]
    have h1 := inv_release h fun q hq => hd r q List.mem_cons_self hq
    apply ih
    · refine ⟨h1.table, fun r' q hq hf hX => h1.ended r' q hq hf ?_, h1.reported⟩
      rintro ⟨hmem, hne⟩
      cases hmem with
      | head => exact hne rfl
      | tail _ hm => exact hX hm
    · intro r' q hr' hq
      rcases release_get hq with hq | ⟨q0, hq0, rfl⟩
      · exact hd r' q (List.mem_cons_of_mem _ hr') hq
      · intro _
        exact destroy_ended (hd r' q0 (List.mem_cons_of_mem _ hr') hq0)

/-! ## The teardown -/

theorem inv_erase {X : Ref → Prop} {s : RpcService} {id : UInt16} {r : Ref}
    (h : CallerInv X s) (hl : s.pendingRequests.lookup id = some r) :
    CallerInv (fun x => X x ∨ x = r)
      { s with pendingRequests := s.pendingRequests.erase id } := by
  constructor
  · intro id' r' hl'
    rw [Slots.Table.lookup_erase_eq] at hl'
    split at hl'
    · cases hl'
    · exact h.table id' r' hl'
  · intro r' q hq hf hX
    refine h.ended r' q hq ?_ fun hx => hX (Or.inl hx)
    rw [isHeld_false_iff] at hf ⊢
    refine ⟨fun id' hid' => hf.1 id' ?_, hf.2⟩
    rw [Slots.Table.lookup_erase_eq]
    split
    · next he =>
      subst he
      rw [hl] at hid'
      exact absurd (Or.inr (Option.some.inj hid').symm) hX
    · exact hid'
  · exact h.reported

theorem inv_eraseRequest {X : Ref → Prop} {s : RpcService} {id : UInt16} (h : CallerInv X s)
    (hd : ∀ r q, s.pendingRequests.lookup id = some r → s.heap[r]? = some q → q.Droppable) :
    CallerInv X (s.eraseRequest id) := by
  unfold RpcService.eraseRequest
  split
  · exact h
  · next r hl =>
    have h1 := inv_release (inv_erase h hl) fun q hq => hd r q hl hq
    refine ⟨h1.table, fun r' q hq hf hX => h1.ended r' q hq hf ?_, h1.reported⟩
    rintro ⟨hx | hx, hne⟩
    · exact hX hx
    · exact hne hx

/-- An update of `r` itself does not change which entry its teardown erases. -/
theorem noStaleVictim_modify {s : RpcService} {r : Ref} {f : RpcRequest → RpcRequest}
    (hid : ∀ q, (f q).id = q.id) (h : NoStaleVictim s r) : NoStaleVictim (s.modify r f) r := by
  intro q hq r' hl hne q' hq'
  rw [Option.mem_def, modify_get, if_pos rfl] at hq
  obtain ⟨q0, hq0, rfl⟩ := Option.map_eq_some_iff.mp hq
  rw [hid] at hl
  rw [Option.mem_def, modify_get, if_neg (Ne.symm hne)] at hq'
  exact h q0 hq0 r' hl hne q' hq'

/-- Setting flags of `r` does not change whether its teardown runs. -/
theorem tearsDown_of_modify {s : RpcService} {r : Ref} {f : RpcRequest → RpcRequest}
    (ho : ∀ q, (f q).observer = q.observer) (ht : ∀ q, (f q).tearsDown = q.tearsDown)
    (h : TearsDown (s.modify r f) r) : TearsDown s r := by
  obtain ⟨q, hq, hsub, htears, hheld⟩ := h
  rw [Option.mem_def, modify_get, if_pos rfl] at hq
  obtain ⟨q0, hq0, rfl⟩ := Option.map_eq_some_iff.mp hq
  rw [ho] at hsub
  rw [ht] at htears
  exact ⟨q0, hq0, hsub, htears, hheld⟩

/-- The guard of a step that sets flags of `r` and then ends its observer. -/
theorem guard_modify {s : RpcService} {r : Ref} {f : RpcRequest → RpcRequest}
    (hid : ∀ q, (f q).id = q.id) (ho : ∀ q, (f q).observer = q.observer)
    (ht : ∀ q, (f q).tearsDown = q.tearsDown) (hv : TearsDown s r → NoStaleVictim s r)
    (h : TearsDown (s.modify r f) r) : NoStaleVictim (s.modify r f) r :=
  noStaleVictim_modify hid (hv (tearsDown_of_modify ho ht h))

/-- The teardown of `r` erases the entry under its id: `r` itself, whose observer has ended,
or a request that reuses the id. -/
theorem inv_teardown {X : Ref → Prop} {s : RpcService} {r : Ref} (h : CallerInv X s)
    (he : ∀ q, s.heap[r]? = some q → q.observer.isSubscribed = false)
    (hv : (∃ q ∈ s.heap[r]?, q.tearsDown = true ∧ s.isHeld r = true) → NoStaleVictim s r) :
    CallerInv X (s.teardown r) := by
  unfold RpcService.teardown
  split
  · exact h
  · next q hq =>
    split
    · next hruns =>
      have hstale := hv ⟨q, hq, Bool.and_eq_true_iff.mp hruns⟩
      have hd : ∀ r' q', s.pendingRequests.lookup q.id = some r' → s.heap[r']? = some q' →
          q'.Droppable := by
        intro r' q' hl hq' hc
        by_cases hr : r' = r
        · subst hr
          exact he q' hq'
        · exact hstale q hq r' hl hr q' hq' hc
      dsimp only
      split
      · exact inv_eraseRequest (inv_congr h rfl rfl rfl) hd
      · exact inv_eraseRequest h hd
    · exact h

/-- Notifying an observer keeps the invariant when what it is sent reports an end. -/
theorem inv_notify {X : Ref → Prop} {s : RpcService} {r : Ref} {f : Observer → Observer}
    (h : CallerInv X s) (hf : ∀ o : Observer, o.isSubscribed = false → (f o).isSubscribed = false)
    (hr : ∀ q, s.heap[r]? = some q → (f q.observer).isSubscribed = false →
      q.unsubscribed = false → Rx.terminals (f q.observer).received = 1)
    (hv : TearsDown s r → NoStaleVictim s r) : CallerInv X (s.notify r f) := by
  unfold RpcService.notify
  split
  · exact h
  · next q hq =>
    have h1 : CallerInv X (s.modify r fun q => { q with observer := f q.observer }) :=
      inv_modify h (fun _ => rfl) (fun q _ => hf q.observer) hr
    dsimp only
    split
    · next hend =>
      have hget : (s.modify r fun q => { q with observer := f q.observer }).heap[r]? =
          some { q with observer := f q.observer } := by
        rw [modify_get, if_pos rfl, hq]
        rfl
      refine inv_teardown h1 ?_ ?_
      · intro q' hq'
        rw [hget] at hq'
        cases hq'
        simpa using (Bool.and_eq_true_iff.mp hend).2
      · rintro ⟨q', hq', htears, hheld⟩
        rw [Option.mem_def, hget] at hq'
        cases hq'
        exact noStaleVictim_modify (fun _ => rfl)
          (hv ⟨q, hq, (Bool.and_eq_true_iff.mp hend).1, htears, hheld⟩)
    · exact h1

/-- Notifications that end an observer only by a terminal. -/
theorem inv_notify_reports {X : Ref → Prop} {s : RpcService} {r : Ref} {f : Observer → Observer}
    (h : CallerInv X s) (hf : Rx.Subscriber.Reports f) (hv : TearsDown s r → NoStaleVictim s r) :
    CallerInv X (s.notify r f) := by
  refine inv_notify h ?_ ?_ hv
  · intro o ho
    rw [hf.stays_ended o ho]
    exact ho
  · intro q hq he hu
    cases hs : q.observer.isSubscribed with
    | true => exact hf.reports _ hs he
    | false =>
      rw [hf.stays_ended _ hs]
      exact h.reported r q hq hs hu

/-- A request found in the table is the entry under its own id. -/
theorem noStaleVictim_of_lookup {X : Ref → Prop} {s : RpcService} {id : UInt16} {r : Ref}
    (h : CallerInv X s) (hl : s.pendingRequests.lookup id = some r) : NoStaleVictim s r := by
  obtain ⟨q, hq, hid⟩ := h.table id r hl
  intro q1 hq1 r' hl' hne _ _
  rw [Option.mem_def, hq] at hq1
  cases hq1
  rw [Option.mem_def, hid, hl] at hl'
  cases hl'
  exact absurd rfl hne

/-! ## One step -/

/-- The request that `rpcObservable` makes and stores under a free id. -/
theorem inv_create {X : Ref → Prop} {s : RpcService} {route : String} {id : UInt16}
    (h : CallerInv X s) (hid : s.pendingRequests.lookup id = none) :
    CallerInv X (s.withRequest route id) := by
  unfold RpcService.withRequest
  constructor
  · intro id' r hl
    rw [Slots.Table.lookup_insert_eq] at hl
    split at hl
    · next he =>
      cases hl
      exact ⟨RpcRequest.create route id, by simp, he.symm⟩
    · obtain ⟨q, hq, hqid⟩ := h.table id' r hl
      exact ⟨q, by rw [List.getElem?_append_left (List.getElem?_eq_some_iff.mp hq).1, hq], hqid⟩
  · intro r q hq hf hX
    rw [isHeld_false_iff] at hf
    rcases Heap.of_make hq with hq' | ⟨rfl, rfl⟩
    · refine h.ended r q hq' (isHeld_false_iff.mpr ⟨fun id' hl => hf.1 id' ?_, hf.2⟩) hX
      rw [Slots.Table.lookup_insert_eq]
      split
      · next he =>
        subst he
        rw [hid] at hl
        cases hl
      · exact hl
    · exact absurd (AList.lookup_insert _) (hf.1 id)
  · intro r q hq hs hu
    rcases Heap.of_make hq with hq' | ⟨rfl, rfl⟩
    · exact h.reported r q hq' hs hu
    · cases hs

theorem inv_rpc {X : Ref → Prop} {s : RpcService} (h : CallerInv X s) (route : String)
    (payload : Payload) (sendFails : Option String) :
    CallerInv X (s.rpc route payload sendFails) := by
  unfold RpcService.rpc
  split
  · exact inv_congr h rfl rfl rfl
  · split
    · exact inv_congr h rfl rfl rfl
    · next id hid =>
      have h1 : CallerInv X (s.withRequest route id) := inv_create h (reserveId_free hid)
      dsimp only
      split
      · refine inv_notify_reports h1 (Rx.Subscriber.reports_onError _) fun _ => ?_
        exact noStaleVictim_of_lookup h1 (AList.lookup_insert _)
      · next s2 hs2 =>
        refine inv_modify_flags ?_ (fun _ => rfl) (fun _ => rfl) (fun _ => rfl)
        unfold RpcService.sceneSend at hs2
        split at hs2
        · cases hs2
        · cases sendFails with
          | some what => cases hs2
          | none =>
            cases hs2
            exact inv_congr h1 rfl rfl rfl

theorem inv_next {X : Ref → Prop} {s : RpcService} (h : CallerInv X s) (id : UInt16)
    (packet : Payload) (thrown : Option String) : CallerInv X (s.next id packet thrown) := by
  unfold RpcService.next
  split
  · exact h
  · next r hl =>
    refine inv_modify_flags ?_ (fun _ => rfl) (fun _ => rfl) (fun _ => rfl)
    exact inv_notify_reports h (Rx.Subscriber.reports_onNext _ _) fun _ =>
      noStaleVictim_of_lookup h hl

theorem inv_error {X : Ref → Prop} {s : RpcService} (h : CallerInv X s) (id : UInt16)
    (text : Option String) : CallerInv X (s.error id text) := by
  unfold RpcService.error
  split
  · exact h
  · next r hl =>
    have h1 : CallerInv X (s.modify r fun q => { q with hasCompleted := true }) :=
      inv_modify_flags h (fun _ => rfl) (fun _ => rfl) (fun _ => rfl)
    cases text with
    | none => exact h1
    | some msg =>
      exact inv_notify_reports h1 (Rx.Subscriber.reports_onError _) fun _ =>
        noStaleVictim_modify (fun _ => rfl) (noStaleVictim_of_lookup h hl)

theorem inv_complete {X : Ref → Prop} {s : RpcService} (h : CallerInv X s) (messageSent : Bool)
    (id : UInt16) : CallerInv X (s.complete messageSent id) := by
  unfold RpcService.complete
  split
  · exact h
  · exact inv_modify_flags h (fun _ => rfl) (fun _ => rfl) (fun _ => rfl)

theorem inv_continuation {X : Ref → Prop} {s s' : RpcService} {r : Ref} (h : CallerInv X s)
    (hv : TearsDown s r → NoStaleVictim s r) (hs : s.continuation r = some s') : CallerInv X s' := by
  obtain ⟨q, -, -, rfl⟩ := of_continuation hs
  have h1 : CallerInv X (s.modify r fun q => { q with continuations := q.continuations - 1 }) :=
    inv_modify_flags h (fun _ => rfl) (fun _ => rfl) (fun _ => rfl)
  dsimp only
  split
  · exact inv_notify_reports h1 Rx.Subscriber.reports_onCompleted
      (guard_modify (fun _ => rfl) (fun _ => rfl) (fun _ => rfl) hv)
  · exact h1

theorem inv_unsubscribe {X : Ref → Prop} {s s' : RpcService} {r : Ref} (h : CallerInv X s)
    (hv : TearsDown s r → NoStaleVictim s r) (hs : s.unsubscribe r = some s') : CallerInv X s' := by
  obtain ⟨-, -, -, rfl⟩ := of_unsubscribe hs
  have h1 : CallerInv X (s.modify r fun q => { q with unsubscribed := true }) :=
    inv_modify h (fun _ => rfl) (fun _ _ he => he) (fun _ _ _ hu => by cases hu)
  refine inv_notify h1 (fun _ _ => rfl) ?_
    (guard_modify (fun _ => rfl) (fun _ => rfl) (fun _ => rfl) hv)
  -- The owner gave it up, so no terminal is due.
  intro q hq _ hu
  rw [modify_get, if_pos rfl] at hq
  obtain ⟨_, _, rfl⟩ := Option.map_eq_some_iff.mp hq
  cases hu

theorem inv_cancelAllBegin {X : Ref → Prop} {s : RpcService} (h : CallerInv X s)
    (reason : String) : CallerInv X (s.cancelAllBegin reason) := by
  refine ⟨fun id r hl => ?_, fun r q hq hf hX => ?_, h.reported⟩
  · cases hl
  · refine h.ended r q hq ?_ hX
    rw [isHeld_false_iff] at hf ⊢
    constructor
    · -- An entry of the table has moved to the new copy.
      intro id hl
      refine hf.2 _ (List.mem_append_right _ (List.mem_singleton_self _)) ?_
      exact Slots.Table.mem_values.mpr ⟨id, hl⟩
    · intro c hc
      exact hf.2 c (List.mem_append_left _ hc)

/-- The loop of `cancelAll` keeps the requests of its copy. -/
theorem isHeld_reached {s : RpcService} {i : Nat} {c : CancelAll} {todo : List Ref}
    (hc : s.cancelAlls[i]? = some c) (r : Ref) :
    ({ s with cancelAlls := s.cancelAlls.set i { c with todo := todo } } : RpcService).isHeld r =
      s.isHeld r := by
  have hcopies : (s.cancelAlls.set i { c with todo := todo }).map CancelAll.pendingRequestsCopy =
      s.cancelAlls.map CancelAll.pendingRequestsCopy := by
    refine List.ext_getElem? fun j => ?_
    rw [List.getElem?_map, List.getElem?_map, List.getElem?_set]
    split
    · next hij =>
      subst hij
      rw [if_pos (List.getElem?_eq_some_iff.mp hc).1, hc]
      rfl
    · rfl
  have hany : ∀ l : List CancelAll, (l.any fun c => c.pendingRequestsCopy.contains r) =
      (l.map CancelAll.pendingRequestsCopy).any fun copy => copy.contains r :=
    fun l => List.any_map.symm
  unfold RpcService.isHeld
  rw [hany, hany, hcopies]

theorem inv_cancelAllEntry {X : Ref → Prop} {s s' : RpcService} {i : Nat} {r : Ref}
    (h : CallerInv X s) (hg : DropsReported s (.cancelAllEntry i r))
    (hs : s.cancelAllEntry i r = some s') : CallerInv X s' := by
  obtain ⟨c, q, hc, hq, -, rfl⟩ := of_cancelAllEntry hs
  have h1 : CallerInv X { s with
      cancelAlls := s.cancelAlls.set i { c with todo := c.todo.erase r } } := by
    refine ⟨h.table, fun r' q hq hf hX => h.ended r' q hq ?_ hX, h.reported⟩
    rwa [isHeld_reached hc] at hf
  dsimp only
  split
  · exact h1
  · next hopen =>
    have hv : TearsDown { s with
        cancelAlls := s.cancelAlls.set i { c with todo := c.todo.erase r } } r →
        NoStaleVictim s r := by
      rintro ⟨q', hq', hsub, htears, hheld⟩
      rw [isHeld_reached hc] at hheld
      exact hg ⟨q, hq, eq_false_of_ne_true hopen⟩ ⟨q', hq', hsub, htears, hheld⟩
    refine inv_notify_reports ?_ (Rx.Subscriber.reports_onError _)
      (guard_modify (fun _ => rfl) (fun _ => rfl) (fun _ => rfl) hv)
    exact inv_modify_flags h1 (fun _ => rfl) (fun _ => rfl) (fun _ => rfl)

theorem inv_cancelAllReturn {s s' : RpcService} {i : Nat} (h : CallerInv (fun _ => False) s)
    (hd : DropsReported s (.cancelAllReturn i))
    (hs : s.cancelAllReturn i = some s') : CallerInv (fun _ => False) s' := by
  obtain ⟨c, hc, -, rfl⟩ := of_cancelAllReturn hs
  refine inv_releaseAll ⟨h.table, fun r q hq hf hX => h.ended r q hq ?_ id, h.reported⟩
    fun r q hr hq => hd c hc r hr q hq
  rw [isHeld_false_iff] at hf ⊢
  refine ⟨hf.1, fun d hd' hr => ?_⟩
  -- A copy that held the request is the one that goes away, or is still there.
  obtain ⟨j, hj, rfl⟩ := List.mem_iff_getElem.mp hd'
  by_cases hij : j = i
  · subst hij
    rw [List.getElem?_eq_getElem hj] at hc
    cases hc
    exact hX hr
  · refine hf.2 s.cancelAlls[j] ?_ hr
    exact (List.mem_eraseIdx_iff_getElem).mpr ⟨j, hj, hij, rfl⟩

theorem inv_step {s s' : RpcService} {a : RpcService.Action} (h : CallerInv (fun _ => False) s)
    (hg : DropsReported s a) (hs : RpcService.step s a = some s') :
    CallerInv (fun _ => False) s' := by
  cases a with
  | rpc route payload sendFails => cases hs; exact inv_rpc h route payload sendFails
  | next id packet thrown => cases hs; exact inv_next h id packet thrown
  | error id text => cases hs; exact inv_error h id text
  | complete messageSent id => cases hs; exact inv_complete h messageSent id
  | continuation r => exact inv_continuation h hg hs
  | unsubscribe r => exact inv_unsubscribe h hg hs
  | cancelAllBegin reason => cases hs; exact inv_cancelAllBegin h reason
  | cancelAllEntry i r => exact inv_cancelAllEntry h hg hs
  | cancelAllReturn i => exact inv_cancelAllReturn h hg hs
  | sceneState connected => cases hs; exact inv_congr h rfl rfl rfl
  | otherService lastId => cases hs; exact inv_congr h rfl rfl rfl

theorem inv_init (remoteRoutes : List Route) :
    CallerInv (fun _ => False) (RpcService.init remoteRoutes) := by
  constructor
  · intro id r hl
    cases hl
  · intro r q hq
    cases hq
  · intro r q hq
    cases hq

theorem inv_reachable {routes : List Route} {s : RpcService}
    (h : Lts.Reachable RpcService.step DropsReported (RpcService.init routes) s) :
    CallerInv (fun _ => False) s :=
  h.invariant (inv_init routes) fun _ _ _ hi hg hs => inv_step hi hg hs

end CallerLemmas

open CallerLemmas

/-! ## Main results -/

/-- Every observer received nothing after a terminal, and if its request has left the table
without its owner's doing, exactly one terminal. -/
def OneTerminal (s : RpcService) : Prop :=
  ∀ (r : Ref) (q : RpcRequest), s.heap[r]? = some q →
    Rx.Grammar q.observer.received ∧
      (Left s r → q.unsubscribed = false → Rx.terminals q.observer.received = 1)

/-- In every run that drops no request while `hasCompleted` hides an observer that still waits,
every observer whose request has left the table received exactly one terminal. -/
theorem caller_one_terminal {routes : List Route} {s : RpcService}
    (h : Lts.Reachable RpcService.step DropsReported (RpcService.init routes) s) :
    OneTerminal s := by
  have hi := inv_reachable h
  intro r q hq
  refine ⟨q.observer.grammar, fun hl hu => ?_⟩
  exact hi.reported r q hq (hi.ended r q hq hl id) hu

instance (q : RpcRequest) : Decidable q.Droppable :=
  inferInstanceAs (Decidable (_ → _))

instance (s : RpcService) (r : Ref) : Decidable (NoStaleVictim s r) :=
  inferInstanceAs (Decidable (∀ q ∈ s.heap[r]?, ∀ r' ∈ s.pendingRequests.lookup q.id, r' ≠ r →
    ∀ q' ∈ s.heap[r']?, q'.Droppable))

instance (s : RpcService) (r : Ref) : Decidable (TearsDown s r) :=
  inferInstanceAs (Decidable (∃ q ∈ s.heap[r]?,
    q.observer.isSubscribed = true ∧ q.tearsDown = true ∧ s.isHeld r = true))

instance : ∀ (s : RpcService) (a : RpcService.Action), Decidable (DropsReported s a)
  | s, .continuation r | s, .unsubscribe r =>
    inferInstanceAs (Decidable (TearsDown s r → NoStaleVictim s r))
  | s, .cancelAllEntry _ r => inferInstanceAs (Decidable ((∃ q ∈ s.heap[r]?,
      q.hasCompleted = false) → TearsDown s r → NoStaleVictim s r))
  | s, .cancelAllReturn i => inferInstanceAs (Decidable (∀ c ∈ s.cancelAlls[i]?,
      ∀ r ∈ c.pendingRequestsCopy, ∀ q ∈ s.heap[r]?, q.Droppable))
  | _, .rpc .. | _, .next .. | _, .error .. | _, .complete .. | _, .cancelAllBegin _
  | _, .sceneState _ | _, .otherService _ => inferInstanceAs (Decidable True)

/-- A host with one RPC route. -/
def exRoutes : List Route := [⟨"echo", [(pluginName, version)]⟩]

/-- One RPC gets a value and completes, then a disconnection cancels another one. -/
def exReported : List RpcService.Action :=
  [.rpc "echo" [] none, .rpc "echo" [] none, .next 1 [7] none, .complete true 1, .continuation 0,
    .cancelAllBegin "Scene disconnected", .cancelAllEntry 0 1, .cancelAllReturn 0]

theorem caller_one_terminal_reported :
    ∃ s, (s.isHeld 0 || s.isHeld 1) = false ∧ OneTerminal s := by
  obtain ⟨s, hs, hleft⟩ := Lts.Reachable.of_exec RpcService.step DropsReported
    (RpcService.init exRoutes) exReported (fun s => !(s.isHeld 0 || s.isHeld 1)) (by decide)
  exact ⟨s, by simpa using hleft, caller_one_terminal hs⟩

/-- A completion that announces data comes before the data, then the scene disconnects. -/
def exDeferred : List RpcService.Action :=
  [.rpc "echo" [] none, .complete true 1, .cancelAllBegin "Scene disconnected",
    .cancelAllEntry 0 0, .cancelAllReturn 0]

/-- Without the condition an observer may never hear how its RPC ended. -/
theorem caller_terminal_lost : ¬ ∀ (routes : List Route) (s : RpcService),
    Lts.Reachable RpcService.step Lts.anyStep (RpcService.init routes) s → OneTerminal s := by
  intro hall
  obtain ⟨s, hs, hp⟩ := Lts.Reachable.of_exec RpcService.step Lts.anyStep
    (RpcService.init exRoutes) exDeferred
    (fun s => s.heap[0]?.any fun q =>
      !s.isHeld 0 && !q.unsubscribed && Rx.terminals q.observer.received == 0) (by decide)
  obtain ⟨q, hq, hp⟩ := (Option.any_eq_true _ _).mp hp
  simp only [Bool.and_eq_true, Bool.not_eq_true', beq_iff_eq] at hp
  have h1 := (hall exRoutes s hs 0 q hq).2 hp.1.1 hp.1.2
  omega

end Stormancer.Rpc
