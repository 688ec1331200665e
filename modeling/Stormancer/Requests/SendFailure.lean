import Stormancer.Requests.Correlation

/-!
# A system request that cannot be sent

`sendSystemRequest` reserves the slot before it sends, and the handler of an exception only sets
the exception on the request. The slot is given back by a response, which the peer has no reason
to send, or by the callback of the token, which runs at once when the token is cancelled already.

Results:
1. `send_failure_iff`: when a send that throws leaves the table as it was, for every table.
2. `failures_fill`, `failures_exhaust`: the failed sends add up, until no request gets an id.
-/

namespace Stormancer.Requests

/-! ## Definitions -/

/-- What `peer->send` or the payload writer throws: a `std::exception`, or something that the
handler in `sendSystemRequest` does not catch. -/
inductive Thrown
  | exception
  | other
deriving DecidableEq

/-- A call of `sendSystemRequest` whose `send` throws. -/
structure FailedSend where
  msgId : UInt8
  payload : Payload
  ct : Token
  thrown : Thrown
deriving DecidableEq

/-- `sendSystemRequest` on a peer when `send` throws, with the request whose task it returns. -/
def RequestProcessor.sendFails (s : RequestProcessor) (x : FailedSend) :
    Option Ref × RequestProcessor :=
  match x.thrown with
  | .exception => (some s.heap.length, s.sendSystemRequest true x.msgId x.payload x.ct true)
  | .other =>
    match s.nextId with
    | none => (none, s.sendSystemRequest true x.msgId x.payload x.ct true)
    | some id => (none, (s.reserveRequestSlot x.msgId x.ct id).registerCallback x.ct id)

/-- The task that was returned has failed, and the table is as it was. -/
structure SendFailureAtomic (s : RequestProcessor) (result : Option Ref × RequestProcessor) :
    Prop where
  faulted : ∃ (r : Ref) (q : SystemRequest), result.1 = some r ∧ result.2.heap[r]? = some q ∧
    q.task = .exception
  unchanged : ∀ id : UInt16, result.2.pendingRequests.lookup id = s.pendingRequests.lookup id

/-- The sends fail one after the other. -/
def RequestProcessor.failAll (s : RequestProcessor) (sends : List FailedSend) :
    RequestProcessor :=
  sends.foldl (fun s x => (s.sendFails x).2) s

namespace SendFailureLemmas

open CorrelationLemmas

variable {s : RequestProcessor} {id : UInt16}

/-- What a send that throws leaves in the table. -/
theorem sendFails_lookup (h : s.nextId = some id) (x : FailedSend) (id' : UInt16) :
    (s.sendFails x).2.pendingRequests.lookup id' =
      if id' = id then (if s.isCanceled x.ct then none else some s.heap.length)
      else s.pendingRequests.lookup id' := by
  unfold RequestProcessor.sendFails
  cases x.thrown with
  | exception =>
    obtain ⟨-, -, -, -, -, hlookup⟩ := send_spec h x.msgId x.payload x.ct true
    exact hlookup id'
  | other =>
    obtain ⟨-, -, hlookup⟩ := register_spec (s.reserveRequestSlot x.msgId x.ct id) x.ct id
    rw [h]
    refine (hlookup id').trans ?_
    have hcanceled : (s.reserveRequestSlot x.msgId x.ct id).isCanceled x.ct =
        s.isCanceled x.ct := by
      cases x.ct <;> rfl
    have hinsert : (s.reserveRequestSlot x.msgId x.ct id).pendingRequests.lookup id' =
        if id' = id then some s.heap.length else s.pendingRequests.lookup id' :=
      Slots.Table.lookup_insert_eq _ _ _ _
    rw [hcanceled, hinsert]
    rcases eq_or_ne id' id with rfl | hne
    · simp
    · simp [hne]

theorem register_canceledTokens (s : RequestProcessor) (ct : Token) (id : UInt16) :
    (s.registerCallback ct id).canceledTokens = s.canceledTokens := by
  unfold RequestProcessor.registerCallback
  split
  · rfl
  · split
    · unfold RequestProcessor.freeRequestSlot
      split <;> rfl
    · rfl

theorem sendFails_canceledTokens (s : RequestProcessor) (x : FailedSend) :
    (s.sendFails x).2.canceledTokens = s.canceledTokens := by
  have hsent : (s.sendSystemRequest true x.msgId x.payload x.ct true).canceledTokens =
      s.canceledTokens := by
    unfold RequestProcessor.sendSystemRequest
    cases s.nextId with
    | none => rfl
    | some id =>
      have hregistered := register_canceledTokens (s.reserveRequestSlot x.msgId x.ct id) x.ct id
      dsimp only
      rw [if_neg (by decide), if_pos rfl]
      split <;> exact hregistered
  unfold RequestProcessor.sendFails
  cases x.thrown with
  | exception => exact hsent
  | other =>
    cases hid : s.nextId with
    | none => exact hsent
    | some id => exact register_canceledTokens (s.reserveRequestSlot x.msgId x.ct id) x.ct id

theorem sendFails_isCanceled (s : RequestProcessor) (x : FailedSend) (ct : Token) :
    (s.sendFails x).2.isCanceled ct = s.isCanceled ct := by
  cases ct with
  | none => rfl
  | some t =>
    show (s.sendFails x).2.canceledTokens.contains t = s.canceledTokens.contains t
    rw [sendFails_canceledTokens]

/-- With a token that is not cancelled, the request that could not be sent takes a slot. -/
theorem sendFails_size (h : s.nextId = some id) {x : FailedSend}
    (hlive : s.isCanceled x.ct = false) :
    (s.sendFails x).2.pendingRequests.keys.length = s.pendingRequests.keys.length + 1 := by
  have hfree : s.pendingRequests.lookup id = none := by
    simpa using Slots.nextFree_free h
  refine Slots.Table.length_keys_add (x := s.heap.length) hfree fun id' => ?_
  rw [sendFails_lookup h, hlive, if_neg Bool.false_ne_true]

end SendFailureLemmas

open SendFailureLemmas CorrelationLemmas

/-- For every table and every send that throws: the returned task has failed and the table is as
it was, exactly when a `std::exception` was thrown and the token is cancelled already. -/
theorem send_failure_iff {s : RequestProcessor} {id : UInt16} (h : s.nextId = some id)
    (x : FailedSend) : SendFailureAtomic s (s.sendFails x) ↔
      x.thrown = .exception ∧ s.isCanceled x.ct = true := by
  have hfree : s.pendingRequests.lookup id = none := by
    simpa using Slots.nextFree_free h
  constructor
  · rintro ⟨⟨r, q, hr, -, -⟩, hunchanged⟩
    constructor
    · cases hx : x.thrown with
      | exception => rfl
      | other =>
        unfold RequestProcessor.sendFails at hr
        rw [hx, h] at hr
        cases hr
    · have hentry := hunchanged id
      rw [sendFails_lookup h, if_pos rfl, hfree] at hentry
      cases hct : s.isCanceled x.ct with
      | true => rfl
      | false =>
        rw [hct] at hentry
        cases hentry
  · rintro ⟨hx, hct⟩
    refine ⟨?_, fun id' => ?_⟩
    · obtain ⟨q, -, htask, -, hheap, -⟩ := send_spec h x.msgId x.payload x.ct true
      have hresult : s.sendFails x =
          (some s.heap.length, s.sendSystemRequest true x.msgId x.payload x.ct true) := by
        unfold RequestProcessor.sendFails
        rw [hx]
      refine ⟨s.heap.length, q, ?_, ?_, htask⟩
      · rw [hresult]
      · rw [hresult, hheap, List.getElem?_concat_length]
    · rw [sendFails_lookup h, hct, if_pos rfl]
      split
      · next heq => rw [heq, hfree]
      · rfl

/-! ## Many failures -/

/-- Every failed send with a token that is not cancelled keeps its slot. -/
theorem failures_fill {s : RequestProcessor} {sends : List FailedSend}
    (hlive : ∀ x ∈ sends, s.isCanceled x.ct = false)
    (hsize : s.pendingRequests.keys.length + sends.length ≤ 0x10000) :
    (s.failAll sends).pendingRequests.keys.length =
      s.pendingRequests.keys.length + sends.length := by
  induction sends generalizing s with
  | nil => rfl
  | cons x sends ih =>
    rw [List.length_cons] at hsize ⊢
    have hfree := Slots.nextFree_isSome_iff s.pendingRequests s.requestIdCounter
    obtain ⟨id, hid⟩ := Option.isSome_iff_exists.mp (hfree.mpr (by omega))
    have hone := sendFails_size hid (hlive x List.mem_cons_self)
    have hrest : ∀ y ∈ sends, (s.sendFails x).2.isCanceled y.ct = false := by
      intro y hy
      rw [sendFails_isCanceled]
      exact hlive y (List.mem_cons_of_mem x hy)
    show ((s.sendFails x).2.failAll sends).pendingRequests.keys.length = _
    rw [ih hrest (by omega), hone]
    omega

/-- When the slots are full, no request gets an id. -/
theorem failures_exhaust {s : RequestProcessor} {sends : List FailedSend}
    (hlive : ∀ x ∈ sends, s.isCanceled x.ct = false)
    (hsize : s.pendingRequests.keys.length + sends.length = 0x10000) :
    (s.failAll sends).nextId = none := by
  have hfree := Slots.nextFree_isSome_iff (s.failAll sends).pendingRequests
    (s.failAll sends).requestIdCounter
  rw [failures_fill hlive hsize.le, hsize] at hfree
  exact Option.not_isSome_iff_eq_none.mp fun h => Nat.lt_irrefl _ (hfree.mp h)

/-! ## Examples -/

/-- The token 5 is cancelled before the request is sent. -/
theorem send_failure_canceled_token :
    SendFailureAtomic (RequestProcessor.init [5])
      ((RequestProcessor.init [5]).sendFails ⟨7, [1], some 5, .exception⟩) := by
  have hid : (RequestProcessor.init [5]).nextId = some 1 := by decide
  exact (send_failure_iff hid ⟨7, [1], some 5, .exception⟩).mpr (by decide)

/-- The first request is sent without a token, and `send` throws. -/
theorem send_failure_keeps_slot : ¬ ∀ (s : RequestProcessor) (id : UInt16) (x : FailedSend),
    s.nextId = some id → SendFailureAtomic s (s.sendFails x) := by
  intro hall
  have hid : (RequestProcessor.init []).nextId = some 1 := by decide
  have hentry := (hall _ 1 ⟨7, [1], none, .exception⟩ hid).unchanged 1
  revert hentry
  decide

end Stormancer.Requests
