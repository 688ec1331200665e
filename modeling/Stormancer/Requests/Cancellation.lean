import Stormancer.Lib.Run
import Stormancer.Requests.Processor

/-!
# What the cancellation of a token cancels

The callback that `sendSystemRequest` registers captures the id of the request, not the request,
and it stays registered when the request is answered. Ids are used again, so when the token is
cancelled the slot may hold another request.

Results:
1. `filled_step`: the slots lead to requests.
2. `cancellation_isolated_iff`: in a run every cancellation leaves all requests alone that were
   not sent with its token, exactly when each time the slots that its callbacks captured are
   free or hold requests that were sent with it.
3. `cancellation_hits_another`: a token that is cancelled after its request was answered and the
   counter has wrapped around.
-/

namespace Stormancer.Requests

/-! ## Definitions -/

/-- A slot that is not kept held a request that was sent with the token, and the requests that
were not sent with it stay as they are. -/
def CancelsOwn (t : Nat) (s s' : RequestProcessor) : Prop :=
  (∀ (id : UInt16) (r : Ref), s.pendingRequests.lookup id = some r →
    s'.pendingRequests.lookup id = some r ∨
      ∃ q : SystemRequest, s.heap[r]? = some q ∧ q.ct = some t) ∧
  ∀ (r : Ref) (q : SystemRequest), s.heap[r]? = some q → q.ct ≠ some t →
    s'.heap[r]? = some q

/-- If the step is a cancellation, it cancels only requests that were sent with the token. -/
def Isolates (s : RequestProcessor) : RequestProcessor.Action → Prop
  | .cancelToken t => CancelsOwn t s (s.cancelToken t)
  | _ => True

/-- The slots that the callbacks of the token captured are free, or hold requests that were
sent with it. -/
def OwnSlots (s : RequestProcessor) : RequestProcessor.Action → Prop
  | .cancelToken t => s.isCanceled (some t) = false → ∀ id ∈ s.capturedIds t,
      ∀ r ∈ s.pendingRequests.lookup id, ∀ q ∈ s.heap[r]?, q.ct = some t
  | _ => True

/-- The slots lead to requests. -/
def SlotsFilled (s : RequestProcessor) : Prop :=
  ∀ (id : UInt16) (r : Ref), s.pendingRequests.lookup id = some r →
    ∃ q : SystemRequest, s.heap[r]? = some q

namespace CancellationLemmas

/-! ## The slots in every run -/

theorem modify_get {s : RequestProcessor} {r r' : Ref} {f : SystemRequest → SystemRequest} :
    (s.modify r f).heap[r']? = if r = r' then (s.heap[r']?).map f else s.heap[r']? := by
  unfold RequestProcessor.modify
  rw [List.getElem?_modify]
  split <;> simp

/-- Slots are only freed, and no request leaves the heap. -/
structure Shrinks (s s' : RequestProcessor) : Prop where
  slots : ∀ (id : UInt16) (r : Ref), s'.pendingRequests.lookup id = some r →
    s.pendingRequests.lookup id = some r
  heap : ∀ r : Ref, s.heap[r]?.isSome = true → s'.heap[r]?.isSome = true

theorem Shrinks.refl (s : RequestProcessor) : Shrinks s s := ⟨fun _ _ h => h, fun _ h => h⟩

theorem Shrinks.trans {s s' s'' : RequestProcessor} (h : Shrinks s s') (h' : Shrinks s' s'') :
    Shrinks s s'' :=
  ⟨fun id r hl => h.slots id r (h'.slots id r hl), fun r hr => h'.heap r (h.heap r hr)⟩

theorem shrinks_modify (s : RequestProcessor) (r : Ref) (f : SystemRequest → SystemRequest) :
    Shrinks s (s.modify r f) := by
  refine ⟨fun _ _ h => h, fun r' hr => ?_⟩
  rw [modify_get]
  split
  · rw [Option.isSome_map]
    exact hr
  · exact hr

theorem shrinks_free (s : RequestProcessor) (id : UInt16) : Shrinks s (s.freeRequestSlot id).1 := by
  unfold RequestProcessor.freeRequestSlot
  split
  · exact Shrinks.refl s
  · refine ⟨fun id' r hl => ?_, fun _ h => h⟩
    rw [Slots.Table.lookup_erase_eq] at hl
    split at hl
    · cases hl
    · exact hl

theorem shrinks_freeAndDestroy (s : RequestProcessor) (id : UInt16) :
    Shrinks s (s.freeAndDestroy id) := by
  have h1 := shrinks_free s id
  unfold RequestProcessor.freeAndDestroy
  split
  · next hfree =>
    rw [hfree] at h1
    exact h1
  · next hfree =>
    rw [hfree] at h1
    exact h1.trans (shrinks_modify _ _ _)

theorem shrinks_respond (s : RequestProcessor) (id : UInt16)
    (f : SystemRequest → SystemRequest) : Shrinks s (s.respond id f) := by
  have h1 := shrinks_free s id
  unfold RequestProcessor.respond
  split
  · next hfree =>
    rw [hfree] at h1
    exact h1
  · next hfree =>
    rw [hfree] at h1
    exact (h1.trans (shrinks_modify _ _ _)).trans (shrinks_modify _ _ _)

theorem shrinks_cancelToken (s : RequestProcessor) (t : Nat) : Shrinks s (s.cancelToken t) := by
  have all : ∀ (ids : List UInt16) (s : RequestProcessor),
      Shrinks s (ids.foldl RequestProcessor.freeAndDestroy s) := by
    intro ids
    induction ids with
    | nil => exact Shrinks.refl
    | cons id ids ih => exact fun s => (shrinks_freeAndDestroy s id).trans (ih _)
  unfold RequestProcessor.cancelToken
  split
  · exact Shrinks.refl s
  · dsimp only
    let s1 : RequestProcessor := { s with
      canceledTokens := s.canceledTokens ++ [t]
      callbacks := s.callbacks.filter fun c => c.token != t }
    have h1 : Shrinks s s1 := ⟨fun _ _ h => h, fun _ h => h⟩
    have h2 := h1.trans (all (s.capturedIds t) s1)
    refine ⟨h2.slots, fun r hr => ?_⟩
    rw [List.getElem?_map, Option.isSome_map]
    exact h2.heap r hr

theorem filled_shrinks {s s' : RequestProcessor} (h : SlotsFilled s) (hs : Shrinks s s') :
    SlotsFilled s' := by
  intro id r hl
  obtain ⟨q, hq⟩ := h id r (hs.slots id r hl)
  exact Option.isSome_iff_exists.mp (hs.heap r (by rw [hq]; rfl))

theorem filled_reserve {s : RequestProcessor} (h : SlotsFilled s) (msgId : UInt8) (ct : Token)
    (id : UInt16) : SlotsFilled (s.reserveRequestSlot msgId ct id) := by
  intro id' r hl
  replace hl : (s.pendingRequests.insert id s.heap.length).lookup id' = some r := hl
  show ∃ q, (s.heap ++ [SystemRequest.create msgId id ct])[r]? = some q
  rw [Slots.Table.lookup_insert_eq] at hl
  split at hl
  · cases hl
    exact ⟨SystemRequest.create msgId id ct, by simp⟩
  · obtain ⟨q, hq⟩ := h id' r hl
    exact ⟨q, by rw [List.getElem?_append_left (List.getElem?_eq_some_iff.mp hq).1, hq]⟩

theorem shrinks_register (s : RequestProcessor) (ct : Token) (id : UInt16) :
    Shrinks s (s.registerCallback ct id) := by
  unfold RequestProcessor.registerCallback
  split
  · exact Shrinks.refl s
  · split
    · exact shrinks_free s id
    · exact ⟨fun _ _ h => h, fun _ h => h⟩

theorem filled_send {s : RequestProcessor} (h : SlotsFilled s) (peer : Bool) (msgId : UInt8)
    (payload : Payload) (ct : Token) (sendFails : Bool) :
    SlotsFilled (s.sendSystemRequest peer msgId payload ct sendFails) := by
  unfold RequestProcessor.sendSystemRequest
  split
  · exact h
  · split
    · exact h
    · next id _ =>
      refine filled_shrinks (filled_reserve h msgId ct id) ?_
      have h1 := shrinks_register (s.reserveRequestSlot msgId ct id) ct id
      refine h1.trans ?_
      have sent : ∀ (t : RequestProcessor) (l : List Outgoing), Shrinks t { t with sent := l } :=
        fun _ _ => ⟨fun _ _ hl => hl, fun _ hr => hr⟩
      dsimp only
      split
      · split
        · exact (shrinks_modify _ _ _).trans (shrinks_modify _ _ _)
        · exact shrinks_modify _ _ _
      · split
        · exact (sent _ _).trans (shrinks_modify _ _ _)
        · exact sent _ _

theorem filled_step {s s' : RequestProcessor} {a : RequestProcessor.Action} (h : SlotsFilled s)
    (hs : s.step a = some s') : SlotsFilled s' := by
  cases a with
  | sendSystemRequest peer msgId payload ct sendFails =>
    cases hs
    exact filled_send h peer msgId payload ct sendFails
  | responseMsg id packet =>
    cases hs
    exact filled_shrinks h (shrinks_respond s id _)
  | responseComplete id hasValues =>
    cases hs
    unfold RequestProcessor.responseComplete
    split
    · exact h
    · exact filled_shrinks h (shrinks_respond s id _)
  | responseError id decoded =>
    cases hs
    exact filled_shrinks h (shrinks_respond s id _)
  | cancelToken t =>
    cases hs
    exact filled_shrinks h (shrinks_cancelToken s t)

/-! ## One cancellation -/

theorem freeAndDestroy_free {s : RequestProcessor} {id : UInt16}
    (h : s.pendingRequests.lookup id = none) : s.freeAndDestroy id = s := by
  simp [RequestProcessor.freeAndDestroy, RequestProcessor.freeRequestSlot, h]

theorem freeAndDestroy_held {s : RequestProcessor} {id : UInt16} {r : Ref}
    (h : s.pendingRequests.lookup id = some r) : s.freeAndDestroy id =
      { s with pendingRequests := s.pendingRequests.erase id }.modify r SystemRequest.destroy := by
  simp [RequestProcessor.freeAndDestroy, RequestProcessor.freeRequestSlot, h]

theorem freeAndDestroy_lookup (s : RequestProcessor) (id id' : UInt16) :
    (s.freeAndDestroy id).pendingRequests.lookup id' =
      if id' = id then none else s.pendingRequests.lookup id' := by
  cases hl : s.pendingRequests.lookup id with
  | none =>
    rw [freeAndDestroy_free hl]
    split
    · next he => rw [he, hl]
    · rfl
  | some r =>
    rw [freeAndDestroy_held hl]
    exact Slots.Table.lookup_erase_eq s.pendingRequests id id'

theorem freeAndDestroy_get {s : RequestProcessor} {id : UInt16} {r : Ref}
    (h : s.pendingRequests.lookup id ≠ some r) : (s.freeAndDestroy id).heap[r]? = s.heap[r]? := by
  cases hl : s.pendingRequests.lookup id with
  | none => rw [freeAndDestroy_free hl]
  | some r' =>
    rw [freeAndDestroy_held hl, modify_get, if_neg]
    rintro rfl
    exact h hl

/-- What the callbacks of a token do together. -/
theorem freeAll_spec (ids : List UInt16) (s : RequestProcessor) :
    (∀ id' : UInt16, (ids.foldl RequestProcessor.freeAndDestroy s).pendingRequests.lookup id' =
      if id' ∈ ids then none else s.pendingRequests.lookup id') ∧
    ∀ r : Ref, (∀ id ∈ ids, s.pendingRequests.lookup id ≠ some r) →
      (ids.foldl RequestProcessor.freeAndDestroy s).heap[r]? = s.heap[r]? := by
  induction ids generalizing s with
  | nil => simp
  | cons id ids ih =>
    obtain ⟨hl, hh⟩ := ih (s.freeAndDestroy id)
    constructor
    · intro id'
      rw [List.foldl_cons, hl, freeAndDestroy_lookup]
      by_cases hmem : id' ∈ ids
      · simp [hmem]
      · by_cases hid : id' = id
        · simp [hid]
        · simp [hmem, hid]
    · intro r hr
      rw [List.foldl_cons, hh r, freeAndDestroy_get (hr id List.mem_cons_self)]
      intro id' hid'
      rw [freeAndDestroy_lookup]
      split
      · nofun
      · exact hr id' (List.mem_cons_of_mem id hid')

/-- The requests and the slots after a cancellation. -/
theorem cancelToken_spec {s : RequestProcessor} {t : Nat} (ht : s.isCanceled (some t) = false) :
    (∀ id : UInt16, (s.cancelToken t).pendingRequests.lookup id =
      if id ∈ s.capturedIds t then none else s.pendingRequests.lookup id) ∧
    ∀ (r : Ref) (q : SystemRequest), s.heap[r]? = some q → q.ct ≠ some t →
      (∀ id ∈ s.capturedIds t, s.pendingRequests.lookup id ≠ some r) →
      (s.cancelToken t).heap[r]? = some q := by
  unfold RequestProcessor.cancelToken
  rw [if_neg (show ¬ s.canceledTokens.contains t = true from ne_true_of_eq_false ht)]
  dsimp only
  obtain ⟨hl, hh⟩ := freeAll_spec (s.capturedIds t) { s with
    canceledTokens := s.canceledTokens ++ [t]
    callbacks := s.callbacks.filter fun c => c.token != t }
  refine ⟨hl, fun r q hq hct hr => ?_⟩
  rw [List.getElem?_map, hh r hr, hq, Option.map_some, if_neg hct]

theorem isolates_iff {s : RequestProcessor} (h : SlotsFilled s) (a : RequestProcessor.Action) :
    Isolates s a ↔ OwnSlots s a := by
  cases a with
  | cancelToken t =>
    constructor
    · rintro ⟨hslots, _⟩ ht id hid r hl q hq
      -- The captured slots are free afterwards.
      rcases hslots id r hl with hkept | ⟨q', hq', hct⟩
      · rw [(cancelToken_spec ht).1, if_pos hid] at hkept
        cases hkept
      · rw [Option.mem_def, hq'] at hq
        cases hq
        exact hct
    · intro hown
      cases ht : s.isCanceled (some t) with
      | true =>
        have hsame : s.cancelToken t = s := by
          unfold RequestProcessor.cancelToken
          exact if_pos ht
        show CancelsOwn t s (s.cancelToken t)
        rw [hsame]
        exact ⟨fun _ _ hl => Or.inl hl, fun _ _ hq _ => hq⟩
      | false =>
        obtain ⟨hlookup, hget⟩ := cancelToken_spec ht
        constructor
        · intro id r hl
          by_cases hid : id ∈ s.capturedIds t
          · obtain ⟨q, hq⟩ := h id r hl
            exact Or.inr ⟨q, hq, hown ht id hid r hl q hq⟩
          · refine Or.inl ?_
            rw [hlookup, if_neg hid, hl]
        · intro r q hq hct
          refine hget r q hq hct fun id hid hl => ?_
          exact hct (hown ht id hid r hl q hq)
  | _ => exact Iff.rfl

/-! ## A run in which the counter wraps around -/

/-- No slot is taken. -/
def AllFree (s : RequestProcessor) : Prop := ∀ id : UInt16, s.pendingRequests.lookup id = none

theorem nextId_of_free {s : RequestProcessor} (h : AllFree s) :
    s.nextId = some (s.requestIdCounter + 1) := by
  unfold RequestProcessor.nextId
  refine Slots.nextFree_of_free (by decide) ?_
  rw [h]
  rfl

/-- A request is sent while no slot is taken. -/
theorem send_of_free {s : RequestProcessor} (h : AllFree s) (ct : Token)
    (hct : s.isCanceled ct = false) :
    s.sendSystemRequest true 2 [] ct false =
      { s with
        heap := s.heap ++ [SystemRequest.create 2 (s.requestIdCounter + 1) ct]
        pendingRequests := s.pendingRequests.insert (s.requestIdCounter + 1) s.heap.length
        requestIdCounter := s.requestIdCounter + 1
        callbacks := s.callbacks ++ ct.toList.map (⟨·, s.requestIdCounter + 1⟩)
        sent := s.sent ++ [⟨2, s.requestIdCounter + 1, [], false⟩] } := by
  unfold RequestProcessor.sendSystemRequest
  rw [if_neg (by nofun), nextId_of_free h]
  cases ct with
  | none => simp [RequestProcessor.registerCallback, RequestProcessor.reserveRequestSlot,
      RequestProcessor.isCanceled, idSetMetadata]
  | some t =>
    have hno : t ∉ s.canceledTokens := by simpa [RequestProcessor.isCanceled] using hct
    simp [RequestProcessor.registerCallback, RequestProcessor.reserveRequestSlot,
      RequestProcessor.isCanceled, idSetMetadata, hno]

/-- A request is sent while no slot is taken, and answered. -/
theorem run_exchange {s : RequestProcessor} (h : AllFree s) (ct : Token)
    (hct : s.isCanceled ct = false) :
    ∃ as s', Lts.Run RequestProcessor.step Lts.anyStep s as s' ∧ AllFree s' ∧
      s'.requestIdCounter = s.requestIdCounter + 1 ∧
      s'.callbacks = s.callbacks ++ ct.toList.map (⟨·, s.requestIdCounter + 1⟩) ∧
      s'.canceledTokens = s.canceledTokens := by
  let id := s.requestIdCounter + 1
  let s1 := s.sendSystemRequest true 2 [] ct false
  have h1 := send_of_free h ct hct
  have hl : s1.pendingRequests.lookup id = some s.heap.length := by
    show (s.sendSystemRequest true 2 [] ct false).pendingRequests.lookup id = _
    rw [h1]
    exact AList.lookup_insert _
  have h2 : s1.responseComplete id false =
      ({ s1 with pendingRequests := s1.pendingRequests.erase id }.modify s.heap.length
        (·.trySet none)).modify s.heap.length SystemRequest.destroy := by
    simp [RequestProcessor.responseComplete, RequestProcessor.respond,
      RequestProcessor.freeRequestSlot, hl]
  have hrun : Lts.Run RequestProcessor.step Lts.anyStep s
      ([.sendSystemRequest true 2 [] ct false] ++ [.responseComplete id false])
      (s1.responseComplete id false) :=
    (Lts.Run.single trivial rfl).snoc trivial rfl
  rw [h2] at hrun
  refine ⟨_, _, hrun, fun id' => ?_, ?_, ?_, ?_⟩
  · show (s1.pendingRequests.erase id).lookup id' = none
    rw [Slots.Table.lookup_erase_eq]
    split
    · rfl
    · next hne =>
      show (s.sendSystemRequest true 2 [] ct false).pendingRequests.lookup id' = none
      rw [h1]
      exact (AList.lookup_insert_ne hne).trans (h id')
  · show (s.sendSystemRequest true 2 [] ct false).requestIdCounter = _
    rw [h1]
  · show (s.sendSystemRequest true 2 [] ct false).callbacks = _
    rw [h1]
  · show (s.sendSystemRequest true 2 [] ct false).canceledTokens = _
    rw [h1]

/-- Requests without a token move the counter as far as wanted. -/
theorem run_exchanges (n : Nat) {s : RequestProcessor} (h : AllFree s) :
    ∃ as s', Lts.Run RequestProcessor.step Lts.anyStep s as s' ∧ AllFree s' ∧
      s'.requestIdCounter = s.requestIdCounter + UInt16.ofNat n ∧ s'.callbacks = s.callbacks ∧
      s'.canceledTokens = s.canceledTokens := by
  induction n with
  | zero => exact ⟨[], s, Lts.Run.nil, h, by simp, rfl, rfl⟩
  | succ n ih =>
    obtain ⟨as, s', hrun, hfree, hcounter, hcall, hcan⟩ := ih
    obtain ⟨as', s'', hrun', hfree', hcounter', hcall', hcan'⟩ :=
      run_exchange hfree none rfl
    refine ⟨as ++ as', s'', hrun.append hrun', hfree', ?_, ?_, hcan'.trans hcan⟩
    · rw [hcounter', hcounter, UInt16.ofNat_add, ← UInt16.add_assoc]
      rfl
    · rw [hcall', hcall]
      simp

end CancellationLemmas

open CancellationLemmas

/-! ## Main results -/

/-- In a run every cancellation cancels only requests that were sent with its token, exactly
when each time the slots its callbacks captured are free or hold such requests. -/
theorem cancellation_isolated_iff (canceledTokens : List Nat)
    (as : List RequestProcessor.Action) (s : RequestProcessor) :
    Lts.Run RequestProcessor.step Isolates (RequestProcessor.init canceledTokens) as s ↔
      Lts.Run RequestProcessor.step OwnSlots (RequestProcessor.init canceledTokens) as s := by
  have start : SlotsFilled (RequestProcessor.init canceledTokens) := by
    intro id r hl
    cases hl
  constructor
  · intro h
    exact h.mono_of_invariant start (fun _ _ _ hi hs => filled_step hi hs)
      fun s a hi hg => (isolates_iff hi a).mp hg
  · intro h
    exact h.mono_of_invariant start (fun _ _ _ hi hs => filled_step hi hs)
      fun s a hi hg => (isolates_iff hi a).mpr hg

/-- Without the condition a cancellation may hit a request that was sent without its token: the
token's own request was answered long ago, and its id is in use again. -/
theorem cancellation_hits_another : ¬ ∀ (canceledTokens : List Nat)
    (as : List RequestProcessor.Action) (s : RequestProcessor),
    Lts.Run RequestProcessor.step Lts.anyStep (RequestProcessor.init canceledTokens) as s →
    Lts.Run RequestProcessor.step Isolates (RequestProcessor.init canceledTokens) as s := by
  intro hall
  have hfree0 : AllFree (RequestProcessor.init []) := fun _ => rfl
  obtain ⟨as1, s1, hrun1, hfree1, hcounter1, hcall1, hcan1⟩ :=
    run_exchange hfree0 (some 5) rfl
  obtain ⟨as2, s2, hrun2, hfree2, hcounter2, hcall2, hcan2⟩ := run_exchanges 65535 hfree1
  have hcounter : s2.requestIdCounter + 1 = 1 := by
    rw [hcounter2, hcounter1]
    decide
  let s3 := s2.sendSystemRequest true 2 [] none false
  have hrun3 : Lts.Run RequestProcessor.step Lts.anyStep (RequestProcessor.init [])
      (as1 ++ as2 ++ [.sendSystemRequest true 2 [] none false]) s3 :=
    (hrun1.append hrun2).snoc trivial rfl
  have hrun4 : Lts.Run RequestProcessor.step Lts.anyStep (RequestProcessor.init [])
      (as1 ++ as2 ++ [.sendSystemRequest true 2 [] none false] ++ [.cancelToken 5])
      (s3.cancelToken 5) :=
    hrun3.snoc trivial rfl
  obtain ⟨s3', hrun3', hiso, _⟩ := (hall [] _ _ hrun4).last
  cases hrun3.unique hrun3'
  have hfilled : SlotsFilled s3 :=
    hrun3.invariant (fun _ _ hl => by cases hl) fun _ _ _ hi _ hs => filled_step hi hs
  -- The callback of token 5 captured id 1, which the last request has now.
  have hs3 := send_of_free hfree2 none rfl
  rw [hcounter] at hs3
  have hcan : s3.isCanceled (some 5) = false := by
    show (s2.sendSystemRequest true 2 [] none false).canceledTokens.contains 5 = false
    rw [hs3]
    show s2.canceledTokens.contains 5 = false
    rw [hcan2, hcan1]
    rfl
  have hcaptured : 1 ∈ s3.capturedIds 5 := by
    show 1 ∈ (s2.sendSystemRequest true 2 [] none false).capturedIds 5
    rw [hs3]
    unfold RequestProcessor.capturedIds
    simp only [hcall2, hcall1]
    decide
  have hlookup : s3.pendingRequests.lookup 1 = some s2.heap.length := by
    show (s2.sendSystemRequest true 2 [] none false).pendingRequests.lookup 1 = _
    rw [hs3]
    exact AList.lookup_insert _
  have hget : s3.heap[s2.heap.length]? = some (SystemRequest.create 2 1 none) := by
    show (s2.sendSystemRequest true 2 [] none false).heap[s2.heap.length]? = _
    rw [hs3]
    simp
  have hown := (isolates_iff hfilled _).mp hiso hcan 1 hcaptured _ hlookup _ hget
  cases hown

end Stormancer.Requests
