import Stormancer.Requests.Cancellation

/-!
# The slots of the requests

Every slot holds the request that took its id, whatever is sent, answered and cancelled, and a new
request finds an id as long as there is one that is free, wherever the counter is.

Results:
1. `sendSystemRequest_reserve`: sending begins with the reservation of a slot.
2. `ownIds_step`: the slots keep holding the requests of their ids.
3. `slot_table`: the slots in every run, and what a reservation does to every table.
-/

namespace Stormancer.Requests

/-! ## Definitions -/

/-- `reserveRequestSlot`, with the state that it leaves. When it throws, the counter has gone once
around. -/
def RequestProcessor.reserve (s : RequestProcessor) (msgId : UInt8) (ct : Token) :
    Except String Ref × RequestProcessor :=
  match s.nextId with
  | none => (.error "Unable to create a new request: Too many pending requests.", s)
  | some id => (.ok s.heap.length, s.reserveRequestSlot msgId ct id)

/-- The state with another value of the counter. -/
def RequestProcessor.withCounter (s : RequestProcessor) (counter : UInt16) : RequestProcessor :=
  { s with requestIdCounter := counter }

/-- Every slot holds a request of its id. -/
def OwnIds (s : RequestProcessor) : Prop :=
  ∀ (id : UInt16) (r : Ref), s.pendingRequests.lookup id = some r →
    ∃ q : SystemRequest, s.heap[r]? = some q ∧ q.id = id

/-- The reservation returns a request whose id had no slot, and adds only its slot. -/
def TakesFreeSlot (s : RequestProcessor) (msgId : UInt8) (ct : Token) : Prop :=
  ∃ (r : Ref) (id : UInt16) (s' : RequestProcessor), s.reserve msgId ct = (.ok r, s') ∧
    s.pendingRequests.lookup id = none ∧
    s'.heap[r]? = some (SystemRequest.create msgId id ct) ∧
    ∀ id' : UInt16, s'.pendingRequests.lookup id' =
      if id' = id then some r else s.pendingRequests.lookup id'

/-- The reservation throws, and the state stays as it is. -/
def Throws (s : RequestProcessor) (msgId : UInt8) (ct : Token) : Prop :=
  ∃ text, s.reserve msgId ct = (.error text, s)

/-- Sending begins with the reservation of a slot. -/
theorem sendSystemRequest_reserve (s : RequestProcessor) (msgId : UInt8) (payload : Payload)
    (ct : Token) (sendFails : Bool) :
    (∃ text, s.reserve msgId ct = (.error text, s) ∧
      s.sendSystemRequest true msgId payload ct sendFails =
        { s with rejected := s.rejected ++ [text] }) ∨
    ∃ r id s', s.nextId = some id ∧ s.reserve msgId ct = (.ok r, s') ∧
      s.sendSystemRequest true msgId payload ct sendFails =
        (let t := s'.registerCallback ct id
         let t :=
          if sendFails then t.modify r SystemRequest.trySetException
          else { t with sent := t.sent ++ [⟨msgId, id, payload, msgId == idSetMetadata⟩] }
         if t.isCanceled ct then t.modify r (·.settle .canceled) else t) := by
  unfold RequestProcessor.sendSystemRequest RequestProcessor.reserve
  cases s.nextId with
  | none => exact .inl ⟨_, rfl, rfl⟩
  | some id => exact .inr ⟨_, id, _, rfl, rfl, rfl⟩

namespace SlotTableLemmas

open CancellationLemmas

/-! ## The ids of the requests -/

/-- The ids of all requests, in order. -/
def ids (s : RequestProcessor) : List UInt16 := s.heap.map SystemRequest.id

theorem ownIds_iff {s : RequestProcessor} :
    OwnIds s ↔ ∀ (id : UInt16) (r : Ref), s.pendingRequests.lookup id = some r →
      (ids s)[r]? = some id := by
  unfold OwnIds ids
  simp only [List.getElem?_map, Option.map_eq_some_iff]

theorem ids_modify {f : SystemRequest → SystemRequest} (hf : ∀ q, (f q).id = q.id)
    (s : RequestProcessor) (r : Ref) : ids (s.modify r f) = ids s := by
  unfold ids RequestProcessor.modify
  refine List.ext_getElem? fun i => ?_
  rw [List.getElem?_map, List.getElem?_map, List.getElem?_modify]
  cases s.heap[i]? with
  | none => rfl
  | some q =>
    dsimp only [Option.map_some]
    split
    · exact congrArg some (hf q)
    · rfl

theorem settle_id (q : SystemRequest) (task : TaskState) : (q.settle task).id = q.id := by
  unfold SystemRequest.settle
  split <;> rfl

theorem trySet_id (q : SystemRequest) (packet : Option Payload) : (q.trySet packet).id = q.id := by
  unfold SystemRequest.trySet
  split
  · rfl
  · exact settle_id q _

theorem trySetException_id (q : SystemRequest) : q.trySetException.id = q.id := by
  unfold SystemRequest.trySetException
  split
  · rfl
  · exact settle_id q _

theorem destroy_id (q : SystemRequest) : q.destroy.id = q.id := by
  unfold SystemRequest.destroy
  split
  · rfl
  · exact settle_id q _

theorem ids_free (s : RequestProcessor) (id : UInt16) : ids (s.freeRequestSlot id).1 = ids s := by
  unfold RequestProcessor.freeRequestSlot
  split <;> rfl

theorem ids_freeAndDestroy (s : RequestProcessor) (id : UInt16) :
    ids (s.freeAndDestroy id) = ids s := by
  have hfree := ids_free s id
  unfold RequestProcessor.freeAndDestroy
  split
  · next heq =>
    rw [heq] at hfree
    exact hfree
  · next heq =>
    rw [heq] at hfree
    rw [ids_modify destroy_id]
    exact hfree

theorem ids_respond {f : SystemRequest → SystemRequest} (hf : ∀ q, (f q).id = q.id)
    (s : RequestProcessor) (id : UInt16) : ids (s.respond id f) = ids s := by
  have hfree := ids_free s id
  unfold RequestProcessor.respond
  split
  · next heq =>
    rw [heq] at hfree
    exact hfree
  · next heq =>
    rw [heq] at hfree
    rw [ids_modify destroy_id, ids_modify hf]
    exact hfree

theorem ids_cancelToken (s : RequestProcessor) (t : Nat) : ids (s.cancelToken t) = ids s := by
  have hall : ∀ (l : List UInt16) (s : RequestProcessor),
      ids (l.foldl RequestProcessor.freeAndDestroy s) = ids s := by
    intro l
    induction l with
    | nil => exact fun _ => rfl
    | cons id l ih => exact fun s => (ih _).trans (ids_freeAndDestroy s id)
  unfold RequestProcessor.cancelToken
  split
  · rfl
  · dsimp only
    refine Eq.trans ?_ (hall (s.capturedIds t) { s with
      canceledTokens := s.canceledTokens ++ [t]
      callbacks := s.callbacks.filter fun c => c.token != t })
    unfold ids
    rw [List.map_map]
    refine List.map_congr_left fun q _ => ?_
    rw [Function.comp_apply]
    split
    · exact settle_id q _
    · rfl

theorem ids_register (s : RequestProcessor) (ct : Token) (id : UInt16) :
    ids (s.registerCallback ct id) = ids s := by
  unfold RequestProcessor.registerCallback
  split
  · rfl
  · split
    · exact ids_free s id
    · rfl

/-! ## The slots -/

/-- Slots may be freed, and the ids of the requests stay. -/
theorem ownIds_of_shrinks {s s' : RequestProcessor} (h : OwnIds s) (hs : Shrinks s s')
    (hids : ids s' = ids s) : OwnIds s' := by
  rw [ownIds_iff] at h ⊢
  intro id r hl
  rw [hids]
  exact h id r (hs.slots id r hl)

theorem ownIds_reserve {s : RequestProcessor} (h : OwnIds s) (msgId : UInt8) (ct : Token)
    (id : UInt16) : OwnIds (s.reserveRequestSlot msgId ct id) := by
  intro id' r hl
  replace hl : (s.pendingRequests.insert id s.heap.length).lookup id' = some r := hl
  show ∃ q, (s.heap ++ [SystemRequest.create msgId id ct])[r]? = some q ∧ q.id = id'
  rw [Slots.Table.lookup_insert_eq] at hl
  split at hl
  · next heq =>
    cases hl
    exact ⟨SystemRequest.create msgId id ct, by simp, heq.symm⟩
  · obtain ⟨q, hq, hid⟩ := h id' r hl
    exact ⟨q, by rw [List.getElem?_append_left (List.getElem?_eq_some_iff.mp hq).1, hq], hid⟩

theorem ownIds_send {s : RequestProcessor} (h : OwnIds s) (peer : Bool) (msgId : UInt8)
    (payload : Payload) (ct : Token) (sendFails : Bool) :
    OwnIds (s.sendSystemRequest peer msgId payload ct sendFails) := by
  unfold RequestProcessor.sendSystemRequest
  split
  · exact h
  · split
    · exact h
    · next id _ =>
      have hreserved := ownIds_reserve h msgId ct id
      have hregistered : OwnIds ((s.reserveRequestSlot msgId ct id).registerCallback ct id) :=
        ownIds_of_shrinks hreserved (shrinks_register _ ct id) (ids_register _ ct id)
      have hcanceled : ∀ t : RequestProcessor, OwnIds t →
          OwnIds (t.modify s.heap.length (·.settle .canceled)) := by
        intro t ht
        exact ownIds_of_shrinks ht (shrinks_modify _ _ _)
          (ids_modify (fun q => settle_id q .canceled) _ _)
      dsimp only
      split
      · have hfailed := ownIds_of_shrinks hregistered
          (shrinks_modify _ s.heap.length SystemRequest.trySetException)
          (ids_modify trySetException_id _ _)
        split
        · exact hcanceled _ hfailed
        · exact hfailed
      · split
        · exact hcanceled _ hregistered
        · exact hregistered

theorem ownIds_step {s s' : RequestProcessor} {a : RequestProcessor.Action} (h : OwnIds s)
    (hs : s.step a = some s') : OwnIds s' := by
  have hrespond : ∀ {f : SystemRequest → SystemRequest}, (∀ q, (f q).id = q.id) → ∀ id,
      OwnIds (s.respond id f) := fun hf id =>
    ownIds_of_shrinks h (shrinks_respond s id _) (ids_respond hf s id)
  cases a with
  | sendSystemRequest peer msgId payload ct sendFails =>
    cases hs
    exact ownIds_send h peer msgId payload ct sendFails
  | responseMsg id packet =>
    cases hs
    exact hrespond (fun q => trySet_id q _) id
  | responseComplete id hasValues =>
    cases hs
    unfold RequestProcessor.responseComplete
    split
    · exact h
    · exact hrespond (fun q => trySet_id q _) id
  | responseError id decoded =>
    cases hs
    refine hrespond (fun q => ?_) id
    split
    · exact trySetException_id q
    · rfl
  | cancelToken t =>
    cases hs
    exact ownIds_of_shrinks h (shrinks_cancelToken s t) (ids_cancelToken s t)

/-! ## Reservations -/

theorem nextId_isSome_iff (s : RequestProcessor) (counter : UInt16) :
    (s.withCounter counter).nextId.isSome = true ↔ s.pendingRequests.keys.length < 0x10000 :=
  Slots.nextFree_isSome_iff s.pendingRequests counter

theorem takesFreeSlot_of_nextId {s : RequestProcessor} {id : UInt16} (h : s.nextId = some id)
    (msgId : UInt8) (ct : Token) : TakesFreeSlot s msgId ct := by
  have hfree := Slots.nextFree_free h
  refine ⟨s.heap.length, id, s.reserveRequestSlot msgId ct id, ?_, ?_, ?_, fun id' => ?_⟩
  · unfold RequestProcessor.reserve
    rw [h]
  · simpa using hfree
  · simp [RequestProcessor.reserveRequestSlot]
  · exact Slots.Table.lookup_insert_eq s.pendingRequests id id' s.heap.length

theorem throws_of_nextId {s : RequestProcessor} (h : s.nextId = none) (msgId : UInt8)
    (ct : Token) : Throws s msgId ct := by
  unfold Throws RequestProcessor.reserve
  rw [h]
  exact ⟨_, rfl⟩

theorem not_throws_of_takes {s : RequestProcessor} {msgId : UInt8} {ct : Token}
    (h : TakesFreeSlot s msgId ct) : ¬ Throws s msgId ct := by
  rintro ⟨text, hthrows⟩
  obtain ⟨r, id, s', htakes, -⟩ := h
  rw [hthrows] at htakes
  cases htakes

end SlotTableLemmas

open SlotTableLemmas

/-- In every run the slots hold the requests of their ids. For every table and every value of the
counter, a reservation takes a free slot exactly when fewer than 65536 are taken, and throws
otherwise. -/
theorem slot_table :
    (∀ (canceledTokens : List Nat) (s : RequestProcessor),
      Lts.Reachable RequestProcessor.step Lts.anyStep (RequestProcessor.init canceledTokens) s →
        OwnIds s) ∧
    ∀ (s : RequestProcessor) (counter : UInt16) (msgId : UInt8) (ct : Token),
      (TakesFreeSlot (s.withCounter counter) msgId ct ↔
        s.pendingRequests.keys.length < 0x10000) ∧
      (Throws (s.withCounter counter) msgId ct ↔ 0x10000 ≤ s.pendingRequests.keys.length) := by
  refine ⟨fun canceledTokens s hs => hs.invariant nofun fun _ _ _ h _ => ownIds_step h, ?_⟩
  intro s counter msgId ct
  rw [← Nat.not_lt, ← nextId_isSome_iff s counter]
  cases hid : (s.withCounter counter).nextId with
  | none =>
    have hthrows := throws_of_nextId hid msgId ct
    exact ⟨⟨fun htakes => absurd hthrows (not_throws_of_takes htakes), nofun⟩,
      ⟨fun _ => nofun, fun _ => hthrows⟩⟩
  | some id =>
    have htakes := takesFreeSlot_of_nextId hid msgId ct
    exact ⟨⟨fun _ => rfl, fun _ => htakes⟩,
      ⟨fun hthrows => absurd hthrows (not_throws_of_takes htakes), fun hnot => absurd rfl hnot⟩⟩

theorem slot_table_after_wrap :
    ∃ s, Lts.Reachable RequestProcessor.step Lts.anyStep (RequestProcessor.init []) s ∧
      OwnIds s ∧ TakesFreeSlot (s.withCounter 0) 7 none := by
  obtain ⟨s, hs, hp⟩ := Lts.Reachable.of_exec RequestProcessor.step Lts.anyStep
    (RequestProcessor.init []) [.sendSystemRequest true 7 [1] none false]
    (fun s => s.pendingRequests.keys.length = 1) (by decide +kernel)
  simp only [decide_eq_true_eq] at hp
  obtain ⟨hown, htable⟩ := slot_table
  exact ⟨s, hs, hown [] s hs, (htable s 0 7 none).1.mpr (by omega)⟩

end Stormancer.Requests
