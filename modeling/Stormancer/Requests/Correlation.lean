import Stormancer.Lib.Heap
import Stormancer.Requests.SlotTable

/-!
# The answer of a request

Which task a request ends with is decided by the first message that answers it: a value, a
completion without values, or an error. A message takes the request out of its slot, so those that
come later find nothing there, or the request that has the id then.

Results:
1. `answer_step`: what one step does to the task of every request.
2. `answer_run`: the task of a request after any messages and sends.
3. `first_message_answers`: the same with the task that a request starts with, and the order of a
   value and a completion with values.
-/

namespace Stormancer.Requests

open RequestProcessor (Action)

/-! ## Definitions -/

/-- The steps of messages and sends. -/
def NoCancellation (_ : RequestProcessor) : Action → Prop
  | .cancelToken _ => False
  | _ => True

instance (s : RequestProcessor) : (a : Action) → Decidable (NoCancellation s a)
  | .cancelToken _ => inferInstanceAs (Decidable False)
  | .sendSystemRequest .. | .responseMsg .. | .responseComplete .. | .responseError .. =>
    inferInstanceAs (Decidable True)

/-- The task that a message gives to a pending request of the id. An error whose text cannot be
decoded cancels it. -/
def answer (id : UInt16) : Action → Option TaskState
  | .responseMsg id' packet => if id' = id then some (.value (some packet)) else none
  | .responseComplete id' hasValues =>
    if id' = id ∧ hasValues = false then some (.value none) else none
  | .responseError id' decoded =>
    if id' = id then some (if decoded then .exception else .canceled) else none
  | .sendSystemRequest .. | .cancelToken _ => none

/-- The task after the steps: the first answer to a pending request stays. -/
def answered (id : UInt16) (task : TaskState) (as : List Action) : TaskState :=
  if task = .pending then (as.findSome? (answer id)).getD .pending else task

/-- The task that a request starts with: its send may throw, and its token may be cancelled. -/
def startTask (canceled sendFails : Bool) : TaskState :=
  if sendFails then .exception else if canceled then .canceled else .pending

/-- Pending requests are in the slots of their ids. -/
structure Correlated (s : RequestProcessor) : Prop where
  own : OwnIds s
  held : ∀ (r : Ref) (q : SystemRequest), s.heap[r]? = some q → q.task = .pending →
    s.pendingRequests.lookup q.id = some r ∧ q.complete = false

namespace CorrelationLemmas

open CancellationLemmas SlotTableLemmas

variable {s s' : RequestProcessor}

/-! ## Sends -/

theorem modify_last {α : Type} (l : List α) (x : α) (f : α → α) :
    (l ++ [x]).modify l.length f = l ++ [f x] := by
  induction l with
  | nil => rfl
  | cons y l ih =>
    rw [List.cons_append, List.length_cons, List.modify_succ_cons, ih]
    rfl

theorem free_lookup (s : RequestProcessor) (id id' : UInt16) :
    (s.freeRequestSlot id).1.pendingRequests.lookup id' =
      if id' = id then none else s.pendingRequests.lookup id' := by
  unfold RequestProcessor.freeRequestSlot
  split
  · next hnone =>
    split
    · next heq => rw [heq, hnone]
    · rfl
  · exact Slots.Table.lookup_erase_eq s.pendingRequests id id'

theorem free_heap (s : RequestProcessor) (id : UInt16) : (s.freeRequestSlot id).1.heap = s.heap := by
  unfold RequestProcessor.freeRequestSlot
  split <;> rfl

theorem free_isCanceled (s : RequestProcessor) (id : UInt16) (ct : Token) :
    (s.freeRequestSlot id).1.isCanceled ct = s.isCanceled ct := by
  unfold RequestProcessor.freeRequestSlot
  split <;> rfl

theorem register_spec (s : RequestProcessor) (ct : Token) (id : UInt16) :
    (s.registerCallback ct id).heap = s.heap ∧
      (s.registerCallback ct id).isCanceled ct = s.isCanceled ct ∧
      ∀ id' : UInt16, (s.registerCallback ct id).pendingRequests.lookup id' =
        if s.isCanceled ct = true ∧ id' = id then none else s.pendingRequests.lookup id' := by
  unfold RequestProcessor.registerCallback
  cases ct with
  | none => exact ⟨rfl, rfl, fun _ => (if_neg (fun h => nomatch h.1)).symm⟩
  | some t =>
    dsimp only
    split
    · next hcanceled =>
      refine ⟨free_heap s id, free_isCanceled s id _, fun id' => ?_⟩
      rw [free_lookup, hcanceled]
      simp
    · next hnot =>
      exact ⟨rfl, rfl, fun _ => (if_neg (fun h => hnot h.1)).symm⟩

theorem settle_complete (q : SystemRequest) (task : TaskState) :
    (q.settle task).complete = q.complete := by
  unfold SystemRequest.settle
  split <;> rfl

/-- A token that is cancelled already ends the task, unless the send has. -/
theorem settle_startTask {q : SystemRequest} {sendFails : Bool}
    (h : q.task = startTask false sendFails) :
    (q.settle .canceled).task = startTask true sendFails := by
  unfold SystemRequest.settle
  rw [h]
  cases sendFails
  · rfl
  · exact h

/-- What a send leaves: the new request at the end, and its slot. -/
theorem send_spec {id : UInt16} (h : s.nextId = some id) (msgId : UInt8) (payload : Payload)
    (ct : Token) (sendFails : Bool) :
    ∃ q : SystemRequest, q.id = id ∧ q.task = startTask (s.isCanceled ct) sendFails ∧
      q.complete = sendFails ∧
      (s.sendSystemRequest true msgId payload ct sendFails).heap = s.heap ++ [q] ∧
      ∀ id' : UInt16, (s.sendSystemRequest true msgId payload ct sendFails).pendingRequests.lookup
        id' = if id' = id then (if s.isCanceled ct then none else some s.heap.length)
          else s.pendingRequests.lookup id' := by
  rcases sendSystemRequest_reserve s msgId payload ct sendFails with
    ⟨text, hthrows, -⟩ | ⟨r, id', s', hid, hreserve, hsend⟩
  · unfold RequestProcessor.reserve at hthrows
    rw [h] at hthrows
    cases hthrows
  rw [h] at hid
  cases hid
  unfold RequestProcessor.reserve at hreserve
  rw [h] at hreserve
  cases hreserve
  obtain ⟨hheap, hcanceled, hlookup⟩ := register_spec (s.reserveRequestSlot msgId ct id) ct id
  have hslots : ∀ id' : UInt16, ((s.reserveRequestSlot msgId ct id).registerCallback ct
      id).pendingRequests.lookup id' =
        if id' = id then (if s.isCanceled ct then none else some s.heap.length)
          else s.pendingRequests.lookup id' := by
    intro id'
    rw [hlookup]
    change (if s.isCanceled ct = true ∧ id' = id then none
      else (s.pendingRequests.insert id s.heap.length).lookup id') = _
    rw [Slots.Table.lookup_insert_eq]
    by_cases heq : id' = id <;> simp [heq]
  rw [hsend]
  dsimp only
  generalize (s.reserveRequestSlot msgId ct id).registerCallback ct id = t at *
  change t.isCanceled ct = s.isCanceled ct at hcanceled
  change t.heap = s.heap ++ [SystemRequest.create msgId id ct] at hheap
  have hmodify : ∀ (u : RequestProcessor) (x : SystemRequest) (f : SystemRequest → SystemRequest),
      u.heap = s.heap ++ [x] → (u.modify s.heap.length f).heap = s.heap ++ [f x] := by
    intro u x f hu
    unfold RequestProcessor.modify
    dsimp only
    rw [hu, modify_last]
  -- `getTask` on the state after the send.
  have hend : ∀ (u : RequestProcessor) (x : SystemRequest), u.heap = s.heap ++ [x] →
      u.isCanceled ct = s.isCanceled ct → u.pendingRequests = t.pendingRequests → x.id = id →
      x.task = startTask false sendFails → x.complete = sendFails →
      ∃ q : SystemRequest, q.id = id ∧ q.task = startTask (s.isCanceled ct) sendFails ∧
        q.complete = sendFails ∧
        (if u.isCanceled ct then u.modify s.heap.length (·.settle .canceled) else u).heap =
          s.heap ++ [q] ∧
        ∀ id' : UInt16, (if u.isCanceled ct then u.modify s.heap.length (·.settle .canceled)
          else u).pendingRequests.lookup id' =
            if id' = id then (if s.isCanceled ct then none else some s.heap.length)
            else s.pendingRequests.lookup id' := by
    intro u x hu huc hup hxid hxtask hxcomplete
    rw [← hup] at hslots
    rw [huc]
    cases hct : s.isCanceled ct with
    | true =>
      rw [hct] at hslots
      refine ⟨x.settle .canceled, (settle_id x _).trans hxid, ?_, ?_, hmodify u x _ hu, hslots⟩
      · exact settle_startTask hxtask
      · exact (settle_complete x _).trans hxcomplete
    | false =>
      rw [hct] at hslots
      exact ⟨x, hxid, hxtask, hxcomplete, hu, hslots⟩
  cases sendFails with
  | true =>
    exact hend _ _ (hmodify t _ SystemRequest.trySetException hheap) hcanceled rfl rfl rfl rfl
  | false => exact hend _ _ hheap hcanceled rfl rfl rfl rfl

/-- A send that is rejected leaves the requests and the slots. -/
theorem send_rejected {peer : Bool} (h : peer = false ∨ s.nextId = none) (msgId : UInt8)
    (payload : Payload) (ct : Token) (sendFails : Bool) :
    ∃ rejected, s.sendSystemRequest peer msgId payload ct sendFails =
      { s with rejected := rejected } := by
  unfold RequestProcessor.sendSystemRequest
  cases peer with
  | false => exact ⟨_, rfl⟩
  | true =>
    rw [h.resolve_left nofun]
    exact ⟨_, rfl⟩

/-! ## Messages -/

/-- A message changes the request in the slot of its id, and frees the slot. -/
theorem respond_spec (s : RequestProcessor) (id : UInt16) (f : SystemRequest → SystemRequest) :
    (∀ (r : Ref) (q : SystemRequest), s.heap[r]? = some q →
      (s.respond id f).heap[r]? =
        some (if s.pendingRequests.lookup id = some r then (f q).destroy else q)) ∧
    (∀ r : Ref, s.heap[r]? = none → (s.respond id f).heap[r]? = none) ∧
    ∀ id' : UInt16, (s.respond id f).pendingRequests.lookup id' =
      if id' = id then none else s.pendingRequests.lookup id' := by
  have hfree := free_lookup s id
  have hheap := free_heap s id
  unfold RequestProcessor.respond
  cases hslot : s.pendingRequests.lookup id with
  | none =>
    have hnone : s.freeRequestSlot id = (s, none) := by
      unfold RequestProcessor.freeRequestSlot
      rw [hslot]
    rw [hnone] at hfree ⊢
    exact ⟨fun r q hq => by rw [if_neg nofun]; exact hq, fun r hr => hr, hfree⟩
  | some r₀ =>
    have hsome : s.freeRequestSlot id =
        ({ s with pendingRequests := s.pendingRequests.erase id }, some r₀) := by
      unfold RequestProcessor.freeRequestSlot
      rw [hslot]
    rw [hsome] at hfree ⊢
    refine ⟨fun r q hq => ?_, fun r hr => ?_, hfree⟩
    · rw [modify_get, modify_get]
      by_cases heq : r₀ = r
      · rw [if_pos heq, if_pos heq, hq, heq, if_pos rfl]
        rfl
      · rw [if_neg heq, if_neg heq, hq, if_neg (fun h => heq (Option.some.inj h))]
    · rw [modify_get, modify_get, hr]
      split <;> rfl

/-- What a message does to the task of a pending request that it reaches, and that it leaves a
task that has ended. -/
structure Answers (f : SystemRequest → SystemRequest) (task : TaskState) : Prop where
  id : ∀ q, ((f q).destroy).id = q.id
  pending : ∀ q : SystemRequest, q.task = .pending → q.complete = false →
    ((f q).destroy).task = task
  ended : ∀ q : SystemRequest, q.task ≠ .pending → ((f q).destroy).task = q.task

theorem settle_of_pending {q : SystemRequest} (h : q.task = .pending) (task : TaskState) :
    q.settle task = { q with task := task } := if_pos h

theorem settle_of_ended {q : SystemRequest} (h : q.task ≠ .pending) (task : TaskState) :
    q.settle task = q := if_neg h

theorem destroy_of_complete {q : SystemRequest} (h : q.complete = true) : q.destroy = q :=
  if_pos h

theorem destroy_task_of_ended {q : SystemRequest} (h : q.task ≠ .pending) :
    q.destroy.task = q.task := by
  unfold SystemRequest.destroy
  split
  · rfl
  · rw [settle_of_ended h]

theorem answers_trySet (packet : Option Payload) : Answers (·.trySet packet) (.value packet) := by
  refine ⟨fun q => (destroy_id _).trans (trySet_id q packet), fun q hp hc => ?_, fun q he => ?_⟩
  · unfold SystemRequest.trySet
    rw [hc, if_neg Bool.false_ne_true, destroy_of_complete rfl, settle_of_pending hp]
  · have hkept : (q.trySet packet).task = q.task := by
      unfold SystemRequest.trySet
      split
      · rfl
      · rw [settle_of_ended he]
    rw [destroy_task_of_ended (by rw [hkept]; exact he), hkept]

theorem answers_trySetException : Answers (·.trySetException) .exception := by
  refine ⟨fun q => (destroy_id _).trans (trySetException_id q), fun q hp hc => ?_, fun q he => ?_⟩
  · unfold SystemRequest.trySetException
    rw [hc, if_neg Bool.false_ne_true, destroy_of_complete rfl, settle_of_pending hp]
  · have hkept : q.trySetException.task = q.task := by
      unfold SystemRequest.trySetException
      split
      · rfl
      · rw [settle_of_ended he]
    rw [destroy_task_of_ended (by rw [hkept]; exact he), hkept]

theorem answers_destroy : Answers (fun q => q) .canceled := by
  refine ⟨destroy_id, fun q hp hc => ?_, fun q he => destroy_task_of_ended he⟩
  unfold SystemRequest.destroy
  rw [hc, if_neg Bool.false_ne_true, settle_of_pending hp]

/-! ## Steps -/

/-- A message answers the pending request of its id and leaves the others. -/
theorem respond_task (h : Correlated s) {f : SystemRequest → SystemRequest} {task : TaskState}
    (hf : Answers f task) (id : UInt16) {r : Ref} {q : SystemRequest} (hq : s.heap[r]? = some q) :
    ∃ q', (s.respond id f).heap[r]? = some q' ∧ q'.id = q.id ∧
      q'.task = if q.task = .pending ∧ id = q.id then task else q.task := by
  refine ⟨_, (respond_spec s id f).1 r q hq, ?_, ?_⟩
  · split
    · exact hf.id q
    · rfl
  · split
    · next hslot =>
      obtain ⟨q₁, hq₁, hid⟩ := h.own id r hslot
      rw [hq] at hq₁
      cases hq₁
      split
      · next hp => exact hf.pending q hp.1 (h.held r q hq hp.1).2
      · next hp => exact hf.ended q fun hpending => hp ⟨hpending, hid.symm⟩
    · next hslot =>
      rw [if_neg]
      rintro ⟨hp, rfl⟩
      exact hslot (h.held r q hq hp).1

theorem held_respond (h : Correlated s) {f : SystemRequest → SystemRequest} {task : TaskState}
    (hf : Answers f task) (hne : task ≠ .pending) (id : UInt16) {r : Ref} {q' : SystemRequest}
    (hq' : (s.respond id f).heap[r]? = some q') (hp : q'.task = .pending) :
    (s.respond id f).pendingRequests.lookup q'.id = some r ∧ q'.complete = false := by
  obtain ⟨hsome, hnone, hlookup⟩ := respond_spec s id f
  cases hq : s.heap[r]? with
  | none =>
    rw [hnone r hq] at hq'
    cases hq'
  | some q =>
    rw [hsome r q hq] at hq'
    by_cases hslot : s.pendingRequests.lookup id = some r
    · rw [if_pos hslot] at hq'
      cases hq'
      by_cases hpending : q.task = .pending
      · exact absurd ((hf.pending q hpending (h.held r q hq hpending).2).symm.trans hp) hne
      · exact absurd ((hf.ended q hpending).symm.trans hp) hpending
    · rw [if_neg hslot] at hq'
      have heq : q = q' := Option.some.inj hq'
      subst heq
      obtain ⟨hown, hopen⟩ := h.held r q hq hp
      refine ⟨?_, hopen⟩
      rw [hlookup, if_neg, hown]
      intro hid
      rw [hid] at hown
      exact hslot hown

theorem held_send (h : Correlated s) (peer : Bool) (msgId : UInt8) (payload : Payload) (ct : Token)
    (sendFails : Bool) (r : Ref) (q' : SystemRequest)
    (hq' : (s.sendSystemRequest peer msgId payload ct sendFails).heap[r]? = some q')
    (hp : q'.task = .pending) :
    (s.sendSystemRequest peer msgId payload ct sendFails).pendingRequests.lookup q'.id = some r ∧
      q'.complete = false := by
  by_cases hrejected : peer = false ∨ s.nextId = none
  · obtain ⟨rejected, hsame⟩ := send_rejected hrejected msgId payload ct sendFails
    rw [hsame] at hq' ⊢
    exact h.held r q' hq' hp
  · obtain ⟨hpeer, hid⟩ := not_or.mp hrejected
    obtain ⟨id, hid⟩ := Option.ne_none_iff_exists'.mp hid
    obtain rfl := Bool.eq_true_of_not_eq_false hpeer
    obtain ⟨q, hqid, hqtask, hqcomplete, hheap, hlookup⟩ :=
      send_spec hid msgId payload ct sendFails
    have hfree := Slots.nextFree_free hid
    rw [hheap] at hq'
    rw [hlookup]
    rcases Heap.of_make hq' with hq' | ⟨hr, rfl⟩
    · obtain ⟨hown, hopen⟩ := h.held r q' hq' hp
      refine ⟨?_, hopen⟩
      rw [if_neg, hown]
      intro heq
      rw [← heq, hown] at hfree
      cases hfree
    · rw [hqtask] at hp
      unfold startTask at hp
      rw [if_pos hqid, hqcomplete, hr]
      cases hct : s.isCanceled ct <;> rw [hct] at hp
      · cases sendFails
        · exact ⟨rfl, rfl⟩
        · cases hp
      · cases sendFails <;> cases hp

/-- Pending requests stay in the slots of their ids. -/
theorem correlated_step {a : Action} (h : Correlated s) (hg : NoCancellation s a)
    (hs : s.step a = some s') : Correlated s' := by
  refine ⟨ownIds_step h.own hs, fun r q' hq' hp => ?_⟩
  cases a with
  | sendSystemRequest peer msgId payload ct sendFails =>
    cases hs
    exact held_send h peer msgId payload ct sendFails r q' hq' hp
  | responseMsg id packet =>
    cases hs
    exact held_respond h (answers_trySet (some packet)) nofun id hq' hp
  | responseComplete id hasValues =>
    cases hs
    cases hasValues with
    | true => exact h.held r q' hq' hp
    | false => exact held_respond h (answers_trySet none) nofun id hq' hp
  | responseError id decoded =>
    cases hs
    cases decoded with
    | true => exact held_respond h answers_trySetException nofun id hq' hp
    | false => exact held_respond h answers_destroy nofun id hq' hp
  | cancelToken t => cases hg

theorem get_send {r : Ref} {q : SystemRequest} (hq : s.heap[r]? = some q) (peer : Bool)
    (msgId : UInt8) (payload : Payload) (ct : Token) (sendFails : Bool) :
    (s.sendSystemRequest peer msgId payload ct sendFails).heap[r]? = some q := by
  by_cases hrejected : peer = false ∨ s.nextId = none
  · obtain ⟨rejected, hsame⟩ := send_rejected hrejected msgId payload ct sendFails
    rw [hsame]
    exact hq
  · obtain ⟨hpeer, hid⟩ := not_or.mp hrejected
    obtain ⟨id, hid⟩ := Option.ne_none_iff_exists'.mp hid
    obtain rfl := Bool.eq_true_of_not_eq_false hpeer
    obtain ⟨q', -, -, -, hheap, -⟩ := send_spec hid msgId payload ct sendFails
    rw [hheap, List.getElem?_append_left (List.getElem?_eq_some_iff.mp hq).1, hq]

/-- One step changes the task of a request only when it is pending and the step answers its id. -/
theorem answer_step {a : Action} (h : Correlated s) (hg : NoCancellation s a)
    (hs : s.step a = some s') {r : Ref} {q : SystemRequest} (hq : s.heap[r]? = some q) :
    ∃ q', s'.heap[r]? = some q' ∧ q'.id = q.id ∧
      q'.task = if q.task = .pending then (answer q.id a).getD .pending else q.task := by
  have hnothing : (if q.task = .pending then (none : Option TaskState).getD .pending else q.task) =
      q.task := by
    split
    · next hp => exact hp.symm
    · rfl
  have hanswer : ∀ (task : TaskState) (id : UInt16),
      (if q.task = .pending ∧ id = q.id then task else q.task) =
        if q.task = .pending then (if id = q.id then some task else none).getD .pending
        else q.task := by
    intro task id
    by_cases hp : q.task = .pending
    · by_cases hid : id = q.id <;> simp [hp, hid]
    · simp [hp]
  cases a with
  | sendSystemRequest peer msgId payload ct sendFails =>
    cases hs
    exact ⟨q, get_send hq peer msgId payload ct sendFails, rfl, hnothing.symm⟩
  | responseMsg id packet =>
    cases hs
    obtain ⟨q', hq', hid, htask⟩ := respond_task h (answers_trySet (some packet)) id hq
    exact ⟨q', hq', hid, htask.trans (hanswer _ id)⟩
  | responseComplete id hasValues =>
    cases hs
    cases hasValues with
    | true => exact ⟨q, hq, rfl, by simp [answer]⟩
    | false =>
      obtain ⟨q', hq', hid, htask⟩ := respond_task h (answers_trySet none) id hq
      exact ⟨q', hq', hid, (htask.trans (hanswer _ id)).trans (by simp [answer])⟩
  | responseError id decoded =>
    cases hs
    cases decoded with
    | true =>
      obtain ⟨q', hq', hid, htask⟩ := respond_task h answers_trySetException id hq
      exact ⟨q', hq', hid, htask.trans (hanswer _ id)⟩
    | false =>
      obtain ⟨q', hq', hid, htask⟩ := respond_task h answers_destroy id hq
      exact ⟨q', hq', hid, htask.trans (hanswer _ id)⟩
  | cancelToken t => cases hg

/-! ## Runs -/

theorem answer_ne_pending {id : UInt16} {a : Action} {task : TaskState}
    (h : answer id a = some task) : task ≠ .pending := by
  cases a with
  | sendSystemRequest peer msgId payload ct sendFails => cases h
  | cancelToken t => cases h
  | responseMsg id' packet =>
    rw [answer, Option.ite_none_right_eq_some] at h
    cases h.2
    nofun
  | responseComplete id' hasValues =>
    rw [answer, Option.ite_none_right_eq_some] at h
    cases h.2
    nofun
  | responseError id' decoded =>
    rw [answer, Option.ite_none_right_eq_some] at h
    cases h.2
    cases decoded <;> nofun

theorem answered_snoc (id : UInt16) (task : TaskState) (as : List Action) (a : Action) :
    answered id task (as ++ [a]) =
      if answered id task as = .pending then (answer id a).getD .pending
      else answered id task as := by
  unfold answered
  by_cases hp : task = .pending
  · rw [if_pos hp, if_pos hp, List.findSome?_append]
    cases has : as.findSome? (answer id) with
    | none => simp
    | some task' =>
      obtain ⟨b, -, hb⟩ := List.exists_of_findSome?_eq_some has
      have hne := answer_ne_pending hb
      simp [hne]
  · rw [if_neg hp, if_neg hp, if_neg hp]

/-- The task of a request after a run is that of the first answer to its id. -/
theorem answer_run {as : List Action} (h : Correlated s)
    (hr : Lts.Run RequestProcessor.step NoCancellation s as s') {r : Ref} {q : SystemRequest}
    (hq : s.heap[r]? = some q) :
    Correlated s' ∧ ∃ q', s'.heap[r]? = some q' ∧ q'.id = q.id ∧
      q'.task = answered q.id q.task as := by
  induction hr with
  | nil =>
    refine ⟨h, q, hq, rfl, ?_⟩
    unfold answered
    split
    · next hp => exact hp
    · rfl
  | @snoc as a s₁ s₂ _ hg hs ih =>
    obtain ⟨h₁, q₁, hq₁, hid₁, htask₁⟩ := ih
    obtain ⟨q₂, hq₂, hid₂, htask₂⟩ := answer_step h₁ hg hs hq₁
    refine ⟨correlated_step h₁ hg hs, q₂, hq₂, hid₂.trans hid₁, ?_⟩
    rw [htask₂, answered_snoc, htask₁, hid₁]

theorem correlated_init (canceledTokens : List Nat) :
    Correlated (RequestProcessor.init canceledTokens) := by
  refine ⟨nofun, fun r q hq => ?_⟩
  cases hq

end CorrelationLemmas

open CorrelationLemmas

/-- Every request ends at most once: with the first message that answers its id while it is
pending, unless its own send has ended it. A new request takes a free id, and a value and a
completion with values may come in either order. -/
theorem first_message_answers {canceledTokens : List Nat} {as : List Action} {s : RequestProcessor}
    (h : Lts.Run RequestProcessor.step NoCancellation (RequestProcessor.init canceledTokens) as s) :
    (∀ (r : Ref) (q : SystemRequest), s.heap[r]? = some q → ∀ (bs : List Action)
      (s' : RequestProcessor), Lts.Run RequestProcessor.step NoCancellation s bs s' →
        ∃ q', s'.heap[r]? = some q' ∧ q'.id = q.id ∧ q'.task = answered q.id q.task bs) ∧
    (∀ (msgId : UInt8) (payload : Payload) (ct : Token) (sendFails : Bool) (id : UInt16),
      s.nextId = some id → ∃ q : SystemRequest,
        (s.sendSystemRequest true msgId payload ct sendFails).heap = s.heap ++ [q] ∧
        q.id = id ∧ q.task = startTask (s.isCanceled ct) sendFails) ∧
    ∀ (id id' : UInt16) (packet : Payload),
      Lts.exec RequestProcessor.step NoCancellation s
          [.responseMsg id packet, .responseComplete id' true] =
        Lts.exec RequestProcessor.step NoCancellation s
          [.responseComplete id' true, .responseMsg id packet] := by
  have hs : Correlated s := h.invariant (correlated_init canceledTokens)
    fun _ _ _ h hg hs => correlated_step h hg hs
  refine ⟨fun r q hq bs s' hr => (answer_run hs hr hq).2, ?_, fun _ _ _ => rfl⟩
  intro msgId payload ct sendFails id hid
  obtain ⟨q, hqid, hqtask, -, hheap, -⟩ := send_spec hid msgId payload ct sendFails
  exact ⟨q, hheap, hqid, hqtask⟩

theorem second_message_changes_nothing :
    ∃ s s' q', Lts.Run RequestProcessor.step NoCancellation (RequestProcessor.init [])
        [.sendSystemRequest true 7 [1] none false] s ∧
      Lts.Run RequestProcessor.step NoCancellation s
        [.responseComplete 1 true, .responseMsg 2 [5], .responseMsg 1 [6], .responseError 1 true] s' ∧
      s'.heap[0]? = some q' ∧ q'.task = .value (some [6]) := by
  have hrun : Lts.Run RequestProcessor.step NoCancellation (RequestProcessor.init [])
      [.sendSystemRequest true 7 [1] none false]
      ((RequestProcessor.init []).sendSystemRequest true 7 [1] none false) :=
    .single trivial rfl
  obtain ⟨s', hrun'⟩ : ∃ s', Lts.Run RequestProcessor.step NoCancellation
      ((RequestProcessor.init []).sendSystemRequest true 7 [1] none false)
      [.responseComplete 1 true, .responseMsg 2 [5], .responseMsg 1 [6], .responseError 1 true]
      s' := ⟨_, .of_exec rfl⟩
  obtain ⟨q', hq', -, htask⟩ := (first_message_answers hrun).1 0 (SystemRequest.create 7 1 none)
    (by decide +kernel) _ _ hrun'
  exact ⟨_, s', q', hrun, hrun', hq', htask⟩

/-- A send that throws completes the task of its request, without any message. -/
theorem failed_send_completes :
    ∃ s q, Lts.Run RequestProcessor.step Lts.anyStep (RequestProcessor.init [])
        [.sendSystemRequest true 7 [1] none true] s ∧
      s.heap[0]? = some q ∧ q.task = .exception := by
  refine ⟨_, _, .single trivial rfl, rfl, ?_⟩
  decide +kernel

end Stormancer.Requests
