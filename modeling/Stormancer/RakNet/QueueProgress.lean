import Stormancer.Lib.Run
import Stormancer.RakNet.Transport

/-!
# Progress of the pending connections

The transport works on one request at a time, the front of `_pendingConnections`: it should
have a connection attempt in progress, and what ends the attempt should pop it and start the
next one.

Results:
1. `startNext_spec`: what one call of `startNextPendingConnections` does to the queue.
2. `queue_progresses`: the front is being connected in every state of a run in which each
   request that the transport comes to can be started, an attempt of the front does not end in
   a message that is only logged, and an accepted one was not cancelled.
3. `queue_stalls`: an endpoint without a port blocks the queue.
-/

namespace Stormancer.RakNet

/-! ## Definitions -/

section Platform

variable [CLibrary]

namespace RakNetTransport

/-- The request passes the tests of `startNextPendingConnections`, and `Connect` starts. -/
def startable (s : RakNetTransport) (results : Ref → ConnectionAttemptResult) (r : Ref) : Bool :=
  match s.requests[r]? with
  | none => false
  | some rq => validEndpoint rq.endpoint && s.peerActive &&
      decide (results r = .connectionAttemptStarted)

end RakNetTransport

/-- The front of the queue is being connected. -/
def FrontInProgress (s : RakNetTransport) : Prop :=
  ∀ r ∈ s.pendingConnections.head?, r ∈ s.attempts

/-- From `s` to `s'` a call of `Connect` has started an attempt of `r`. -/
def StartsAttempt (s s' : RakNetTransport) (r : Ref) : Prop :=
  ∃ call ∈ s'.connects.drop s.connects.length,
    call.request = r ∧ call.result = .connectionAttemptStarted

/-- The queue is down to the first request of `rest` that was not cancelled, and an attempt of
that one was started. -/
def StartsNext (s : RakNetTransport) (rest : List Ref) (s' : RakNetTransport) : Prop :=
  s'.pendingConnections = rest.dropWhile s.isCanceled ∧
  ∀ next ∈ s'.pendingConnections.head?, next ∈ s'.attempts ∧ StartsAttempt s s' next

/-- A message that ends the attempt of the front pops it and starts the next. -/
def Advances (s : RakNetTransport) (a : RakNetTransport.Action) (s' : RakNetTransport) : Prop :=
  match a with
  | .receive peer m _ => ∀ rest, s.pendingConnections = peer :: rest → m.isTerminal = true →
      StartsNext s rest s'
  | _ => True

/-- The first request of the list that was not cancelled can be started. -/
def NextStartable (s : RakNetTransport) (results : Ref → ConnectionAttemptResult)
    (rest : List Ref) : Prop :=
  ∀ next ∈ (rest.dropWhile s.isCanceled).head?, s.startable results next = true

instance (s : RakNetTransport) (results : Ref → ConnectionAttemptResult) (rest : List Ref) :
    Decidable (NextStartable s results rest) :=
  inferInstanceAs (Decidable (∀ next ∈ (rest.dropWhile s.isCanceled).head?,
    s.startable results next = true))

/-- What a message may do when `r` is the front of the queue and `rest` follows it. -/
def MessageProgresses (s : RakNetTransport) (results : Ref → ConnectionAttemptResult)
    (peer r : Ref) (rest : List Ref) : Message → Prop
  | .connectionRequestAccepted _ => s.isCanceled r = true → peer ≠ r
  | .failed _ => NextStartable s results rest
  | .logged _ => peer ≠ r
  | .connectionResult _ throws => if throws then rest = [] else NextStartable s results rest
  | .advertisePeerIdResponse _ throws =>
    if throws && !s.isCanceled r then rest = [] else NextStartable s results rest

instance (s : RakNetTransport) (results : Ref → ConnectionAttemptResult) (peer r : Ref)
    (rest : List Ref) : ∀ m, Decidable (MessageProgresses s results peer r rest m)
  | .connectionRequestAccepted _ =>
    inferInstanceAs (Decidable (s.isCanceled r = true → peer ≠ r))
  | .failed _ => inferInstanceAs (Decidable (NextStartable s results rest))
  | .logged _ => inferInstanceAs (Decidable (peer ≠ r))
  | .connectionResult _ throws =>
    inferInstanceAs (Decidable (if throws then rest = [] else NextStartable s results rest))
  | .advertisePeerIdResponse _ throws =>
    inferInstanceAs (Decidable (if throws && !s.isCanceled r then rest = []
      else NextStartable s results rest))

/-- The condition under which a step keeps the queue going. -/
def Progresses (s : RakNetTransport) : RakNetTransport.Action → Prop
  | .stop => s.isRunning = true → s.pendingConnections = []
  | .connect endpoint _ _ ct results =>
    s.pendingConnections = [] → s.isCanceledToken ct = false →
      validEndpoint endpoint = true ∧ s.peerActive = true ∧
        results s.requests.length = .connectionAttemptStarted
  | .receive peer m results =>
    match s.pendingConnections with
    | [] => True
    | r :: rest => MessageProgresses s results peer r rest m
  | _ => True

instance (s : RakNetTransport) : ∀ a, Decidable (Progresses s a)
  | .stop => inferInstanceAs (Decidable (s.isRunning = true → s.pendingConnections = []))
  | .connect endpoint _ _ ct results =>
    inferInstanceAs (Decidable (s.pendingConnections = [] → s.isCanceledToken ct = false →
      validEndpoint endpoint = true ∧ s.peerActive = true ∧
        results s.requests.length = .connectionAttemptStarted))
  | .receive peer m results =>
    match h : s.pendingConnections with
    | [] => .isTrue (by simp only [Progresses, h])
    | r :: rest => decidable_of_iff (MessageProgresses s results peer r rest m)
        (by simp only [Progresses, h])
  | .start _ => .isTrue trivial
  | .cancelToken _ => .isTrue trivial

namespace ProgressLemmas

open RakNetTransport

/-! ## What the handlers do not change -/

/-- The requests are as cancelled and as startable as before, and calls of `Connect` may have
been added. -/
structure SameRequests (s s' : RakNetTransport) : Prop where
  canceled : s'.isCanceled = s.isCanceled
  startable : s'.startable = s.startable
  connects : s.connects <+: s'.connects

theorem SameRequests.refl (s : RakNetTransport) : SameRequests s s :=
  ⟨rfl, rfl, List.prefix_refl _⟩

theorem SameRequests.trans {s s' s'' : RakNetTransport} (h : SameRequests s s')
    (h' : SameRequests s' s'') : SameRequests s s'' :=
  ⟨h'.canceled.trans h.canceled, h'.startable.trans h.startable, h.connects.trans h'.connects⟩

theorem startsAttempt_mono {s t u v : RakNetTransport} {r : Ref} (h : StartsAttempt t u r)
    (hst : SameRequests s t) (huv : SameRequests u v) : StartsAttempt s v r := by
  obtain ⟨call, hcall, hr⟩ := h
  refine ⟨call, ?_, hr⟩
  have hlen : s.connects.length ≤ t.connects.length := hst.connects.length_le
  exact List.drop_subset_drop_left _ hlen ((huv.connects.drop _).subset hcall)

theorem sameRequests_complete (s : RakNetTransport) (r : Ref) (tce : CompletionEvent) :
    SameRequests s (s.complete r tce) := by
  have hget : ∀ r', (s.complete r tce).requests[r']? =
      if r = r' then s.requests[r']?.map (·.complete tce) else s.requests[r']? := by
    intro r'
    unfold complete
    rw [List.getElem?_modify]
    split <;> simp
  have hfields : ∀ rq : ConnectionRequest, (rq.complete tce).endpoint = rq.endpoint ∧
      (rq.complete tce).cancellationToken = rq.cancellationToken := by
    intro rq
    unfold ConnectionRequest.complete
    split <;> exact ⟨rfl, rfl⟩
  refine ⟨?_, ?_, List.prefix_refl _⟩
  · funext r'
    unfold isCanceled
    rw [hget]
    by_cases hr : r = r'
    · rw [if_pos hr]
      cases s.requests[r']? with
      | none => rfl
      | some rq => exact congrArg s.isCanceledToken (hfields rq).2
    · rw [if_neg hr]
      rfl
  · funext results r'
    unfold RakNetTransport.startable
    rw [hget]
    by_cases hr : r = r'
    · rw [if_pos hr]
      cases s.requests[r']? with
      | none => rfl
      | some rq =>
        show (validEndpoint (rq.complete tce).endpoint && _ && _) = _
        rw [(hfields rq).1]
        rfl
    · rw [if_neg hr]
      rfl

/-! ## One attempt to connect -/

/-- An attempt of a startable request begins; any other request gets an exception and stays
where it is. -/
theorem tryConnect_cases (s : RakNetTransport) (results : Ref → ConnectionAttemptResult)
    (r : Ref) :
    (s.startable results r = true ∧ ∃ host port, s.tryConnect results r = { s with
      port := port
      connects := s.connects ++ [⟨r, host, port, .connectionAttemptStarted⟩]
      attempts := s.attempts ++ [r] }) ∨
    (s.startable results r = false ∧ ∃ port calls text, s.tryConnect results r =
      { s with port := port, connects := s.connects ++ calls }.setException r text) := by
  unfold RakNetTransport.startable tryConnect
  cases hrq : s.requests[r]? with
  | none =>
    refine .inr ⟨rfl, s.port, [], [], ?_⟩
    unfold setException complete
    simp [List.modify_eq_self, List.getElem?_eq_none_iff.mp hrq]
  | some rq =>
    simp only [validEndpoint]
    split
    · next hostStr portString _ _ =>
      by_cases hhost : rq.endpoint.length - 1 ≤ portString.length
      · exact .inr ⟨by simp [hhost], s.port, [], _, by rw [if_pos hhost, List.append_nil]⟩
      · rw [if_neg hhost]
        by_cases hport : portOf portString = 0
        · exact .inr ⟨by simp [hport], portOf portString, [], _, by
            rw [if_pos hport, List.append_nil]⟩
        · rw [if_neg hport]
          cases hactive : s.peerActive with
          | false => exact .inr ⟨by simp, portOf portString, [], _, by simp; rfl⟩
          | true =>
            by_cases hresult : results r = .connectionAttemptStarted
            · refine .inl ⟨by simp [hhost, hport, hresult], hostStr, portOf portString, ?_⟩
              simp [connectPeer, hresult]
            · exact .inr ⟨by simp [hresult], portOf portString,
                [⟨r, hostStr, portOf portString, results r⟩], _, by
                  simp [connectPeer, hresult]
                  rfl⟩
    · exact .inr ⟨by simp, s.port, [], _, by rw [List.append_nil]⟩

theorem tryConnect_pending (s : RakNetTransport) (results : Ref → ConnectionAttemptResult)
    (r : Ref) : (s.tryConnect results r).pendingConnections = s.pendingConnections := by
  rcases tryConnect_cases s results r with ⟨_, host, port, h⟩ | ⟨_, port, calls, text, h⟩
  · rw [h]
  · rw [h]
    rfl

theorem tryConnect_attempts (s : RakNetTransport) (results : Ref → ConnectionAttemptResult)
    (r : Ref) {r' : Ref} (hr : r' ∈ s.attempts) : r' ∈ (s.tryConnect results r).attempts := by
  rcases tryConnect_cases s results r with ⟨_, host, port, h⟩ | ⟨_, port, calls, text, h⟩
  · rw [h]
    exact List.mem_append_left _ hr
  · rw [h]
    exact hr

theorem sameRequests_tryConnect (s : RakNetTransport)
    (results : Ref → ConnectionAttemptResult) (r : Ref) :
    SameRequests s (s.tryConnect results r) := by
  rcases tryConnect_cases s results r with ⟨_, host, port, h⟩ | ⟨_, port, calls, text, h⟩
  · rw [h]
    exact ⟨rfl, rfl, List.prefix_append _ _⟩
  · rw [h]
    have hmid : SameRequests s { s with port := port, connects := s.connects ++ calls } :=
      ⟨rfl, rfl, List.prefix_append _ _⟩
    exact hmid.trans (sameRequests_complete _ r _)

theorem tryConnect_starts {s : RakNetTransport} {results : Ref → ConnectionAttemptResult}
    {r : Ref} (hr : s.startable results r = true) :
    r ∈ (s.tryConnect results r).attempts ∧ StartsAttempt s (s.tryConnect results r) r := by
  rcases tryConnect_cases s results r with ⟨_, host, port, h⟩ | ⟨hnot, _⟩
  · rw [h]
    refine ⟨by simp, ⟨r, host, port, .connectionAttemptStarted⟩, ?_, rfl, rfl⟩
    simp
  · rw [hr] at hnot
    cases hnot

/-! ## `startNextPendingConnections` -/

/-- What `startNextPendingConnections` does from a queue: it drops the cancelled requests at
the front, and starts an attempt of the one behind them if that is possible. -/
structure Restarts (s : RakNetTransport) (results : Ref → ConnectionAttemptResult)
    (queue : List Ref) (s' : RakNetTransport) : Prop where
  same : SameRequests s s'
  pending : s'.pendingConnections = queue.dropWhile s.isCanceled
  started : ∀ next ∈ s'.pendingConnections.head?, s.startable results next = true →
    next ∈ s'.attempts ∧ StartsAttempt s s' next

/-- By induction on the queue. The request that was popped is tried after the recursive call
has put the state in order, and this neither moves the queue nor ends an attempt. -/
theorem startFrom_spec {results : Ref → ConnectionAttemptResult} {queue : List Ref}
    {s : RakNetTransport} (hs : s.pendingConnections = queue) :
    Restarts s results queue (startFrom results queue s) := by
  induction queue generalizing s with
  | nil =>
    refine ⟨SameRequests.refl s, hs, ?_⟩
    intro next hnext
    rw [startFrom, hs] at hnext
    cases hnext
  | cons r rest ih =>
    unfold startFrom
    by_cases hcan : s.isCanceled r = true
    · rw [if_pos hcan]
      have hpop : s.pop.pendingConnections = rest := by
        rw [pop, hs]
        rfl
      have hinner := ih hpop
      have htry := sameRequests_tryConnect (startFrom results rest s.pop) results r
      have hs_pop : SameRequests s s.pop := ⟨rfl, rfl, List.prefix_refl _⟩
      refine ⟨(hs_pop.trans hinner.same).trans htry, ?_, ?_⟩
      · rw [tryConnect_pending, hinner.pending, List.dropWhile_cons_of_pos hcan]
        rfl
      · intro next hnext hstart
        rw [tryConnect_pending] at hnext
        obtain ⟨hmem, hcall⟩ := hinner.started next hnext hstart
        exact ⟨tryConnect_attempts _ results r hmem, startsAttempt_mono hcall hs_pop htry⟩
    · rw [if_neg hcan]
      refine ⟨sameRequests_tryConnect s results r, ?_, ?_⟩
      · rw [tryConnect_pending, hs, List.dropWhile_cons_of_neg hcan]
      · intro next hnext hstart
        rw [tryConnect_pending, hs] at hnext
        cases hnext
        exact tryConnect_starts hstart

theorem startNext_spec (s : RakNetTransport) (results : Ref → ConnectionAttemptResult) :
    Restarts s results s.pendingConnections (s.startNextPendingConnections results) :=
  startFrom_spec rfl

/-- A handler that has popped the front, and changed no request otherwise, starts the next. -/
theorem startNext_of_popped {s t : RakNetTransport} {results : Ref → ConnectionAttemptResult}
    {rest : List Ref} (hsame : SameRequests s t) (hpending : t.pendingConnections = rest)
    (hnext : NextStartable s results rest) :
    StartsNext s rest (t.startNextPendingConnections results) := by
  have hspec := startNext_spec t results
  rw [hpending] at hspec
  have hqueue := hspec.pending
  rw [hsame.canceled] at hqueue
  refine ⟨hqueue, ?_⟩
  intro next hmem
  have hstart : t.startable results next = true := by
    rw [hsame.startable]
    exact hnext next (hqueue ▸ hmem)
  obtain ⟨hattempt, hcall⟩ := hspec.started next hmem hstart
  exact ⟨hattempt, startsAttempt_mono hcall hsame (SameRequests.refl _)⟩

omit [CLibrary] in
theorem frontInProgress_of_startsNext {s s' : RakNetTransport} {rest : List Ref}
    (h : StartsNext s rest s') : FrontInProgress s' :=
  fun next hnext => (h.2 next hnext).1

/-! ## Steps -/

theorem connect_progress {s : RakNetTransport} {endpoint id parentId : Str} {ct : Token}
    {results : Ref → ConnectionAttemptResult} (hfront : FrontInProgress s)
    (hg : Progresses s (.connect endpoint id parentId ct results)) :
    FrontInProgress (s.connect endpoint id parentId ct results) := by
  unfold RakNetTransport.connect
  cases hpending : s.pendingConnections with
  | cons r rest =>
    intro r' hr'
    have hhead : (s.push endpoint id parentId ct).pendingConnections.head? =
        s.pendingConnections.head? := by
      simp [push, hpending]
    exact hfront r' (hhead ▸ hr')
  | nil =>
    have hqueue : (s.push endpoint id parentId ct).pendingConnections = [s.requests.length] := by
      simp [push, hpending]
    have hnew : (s.push endpoint id parentId ct).requests[s.requests.length]? =
        some ⟨.unset, endpoint, ct, id, parentId⟩ := by
      simp [push]
    have hcan : (s.push endpoint id parentId ct).isCanceled s.requests.length =
        s.isCanceledToken ct := by
      unfold isCanceled
      rw [hnew]
      rfl
    rw [List.isEmpty_nil, if_pos rfl]
    refine frontInProgress_of_startsNext (startNext_of_popped (SameRequests.refl _) hqueue ?_)
    intro next hnext
    cases hct : s.isCanceledToken ct with
    | true =>
      rw [List.dropWhile_cons_of_pos (hcan.trans hct)] at hnext
      cases hnext
    | false =>
      rw [List.dropWhile_cons_of_neg (by rw [hcan, hct]; exact Bool.false_ne_true)] at hnext
      cases hnext
      obtain ⟨hvalid, hactive, hresult⟩ := hg hpending hct
      have hpeer : (s.push endpoint id parentId ct).peerActive = true := hactive
      simp [RakNetTransport.startable, hnew, hvalid, hpeer, hresult]

omit [CLibrary] in
/-- An attempt that is not the one of the front may end without a change of the queue. -/
theorem frontInProgress_endAttempt {s : RakNetTransport} {peer : Ref}
    (hfront : FrontInProgress s) (hpeer : ∀ r ∈ s.pendingConnections.head?, peer ≠ r) :
    FrontInProgress (s.endAttempt peer) := by
  intro r hr
  exact (List.mem_erase_of_ne (hpeer r hr).symm).mpr (hfront r hr)

omit [CLibrary] in
theorem startsNext_of_empty {s s' : RakNetTransport} (h : s'.pendingConnections = []) :
    StartsNext s [] s' := by
  refine ⟨h, ?_⟩
  intro next hnext
  rw [h] at hnext
  cases hnext

theorem sameRequests_popped (s : RakNetTransport) (peer : Ref) :
    SameRequests s (s.endAttempt peer).pop :=
  ⟨rfl, rfl, List.prefix_refl _⟩

/-- The handlers that pop the front and then call `onConnection`. -/
theorem onConnection_progress {s : RakNetTransport} {peer r : Ref} {rest : List Ref}
    {peerId : UInt64} {throws : Bool} {results : Ref → ConnectionAttemptResult}
    (hpending : s.pendingConnections = r :: rest)
    (hg : if throws then rest = [] else NextStartable s results rest) :
    StartsNext s rest ((s.endAttempt peer).pop.onConnection r peerId throws results) := by
  have hpop : (s.endAttempt peer).pop.pendingConnections = rest := by
    show s.pendingConnections.tail = rest
    rw [hpending]
    rfl
  unfold onConnection
  cases throws with
  | true =>
    cases hg
    exact startsNext_of_empty hpop
  | false =>
    have hsame := (sameRequests_popped s peer).trans
      (sameRequests_complete (s.endAttempt peer).pop r (.connection peerId))
    exact startNext_of_popped hsame hpop hg

/-- One case for each message. The messages that pop the front start the next request whichever
attempt they are about. -/
theorem receive_progress {s s' : RakNetTransport} {peer : Ref} {m : Message}
    {results : Ref → ConnectionAttemptResult} (hfront : FrontInProgress s)
    (hg : Progresses s (.receive peer m results)) (hs : s.receive peer m results = some s') :
    FrontInProgress s' ∧ Advances s (.receive peer m results) s' := by
  cases hpending : s.pendingConnections with
  | nil =>
    have hadv : Advances s (.receive peer m results) s' := by
      intro rest hrest
      rw [hpending] at hrest
      cases hrest
    refine ⟨?_, hadv⟩
    have hnil : s'.pendingConnections = [] := by
      unfold receive at hs
      rw [hpending] at hs
      cases m with
      | advertisePeerIdResponse => cases hs
      | connectionRequestAccepted | failed | logged | connectionResult =>
        cases hs
        exact hpending
    exact frontInProgress_of_startsNext (startsNext_of_empty (s := s) hnil)
  | cons r rest =>
    have hpeer : ∀ {b : Ref}, r ≠ b → ∀ r' ∈ s.pendingConnections.head?, b ≠ r' := by
      intro b hb r' hr'
      rw [hpending] at hr'
      cases hr'
      exact hb.symm
    -- What is left to show of a handler that pops the front.
    have popped : StartsNext s rest s' →
        FrontInProgress s' ∧ Advances s (.receive peer m results) s' := by
      intro h
      refine ⟨frontInProgress_of_startsNext h, ?_⟩
      intro rest' hrest' _
      rw [hpending] at hrest'
      cases hrest'
      exact h
    have hpop : (s.endAttempt peer).pop.pendingConnections = rest := by
      show s.pendingConnections.tail = rest
      rw [hpending]
      rfl
    unfold Progresses at hg
    unfold receive at hs
    simp only [hpending] at hg hs
    cases m with
    | connectionRequestAccepted parent =>
      refine ⟨?_, fun _ _ hm => by cases hm⟩
      simp only at hs
      by_cases hcan : s.isCanceled r = true
      · rw [if_pos hcan] at hs
        cases hs
        exact frontInProgress_endAttempt hfront (hpeer (hg hcan).symm)
      · rw [if_neg hcan] at hs
        split at hs
        · obtain ⟨c, _, rfl⟩ := Option.map_eq_some_iff.mp hs
          exact fun r' hr' => hfront r' (by rw [hpending]; exact hr')
        · cases hs
          exact hfront
    | failed id =>
      cases hs
      apply popped
      split
      · exact startNext_of_popped (sameRequests_popped s peer) hpop hg
      · exact startNext_of_popped
          ((sameRequests_popped s peer).trans (sameRequests_complete _ r _)) hpop hg
    | logged id =>
      cases hs
      refine ⟨frontInProgress_endAttempt hfront (hpeer (Ne.symm hg)), ?_⟩
      intro rest' hrest'
      rw [hpending] at hrest'
      cases hrest'
      exact absurd rfl hg
    | connectionResult sid throws =>
      cases hs
      exact popped (onConnection_progress hpending hg)
    | advertisePeerIdResponse parentConnectionId throws =>
      apply popped
      have hcan : (s.endAttempt peer).pop.isCanceled r = s.isCanceled r := rfl
      unfold MessageProgresses at hg
      simp only [hcan] at hs
      cases hcanceled : s.isCanceled r with
      | true =>
        simp only [hcanceled, Bool.not_true, Bool.and_false] at hg
        rw [if_pos hcanceled] at hs
        cases hs
        exact startNext_of_popped (sameRequests_popped s peer) hpop hg
      | false =>
        simp only [hcanceled, Bool.not_false, Bool.and_true] at hg
        rw [hcanceled] at hs
        cases hs
        exact onConnection_progress hpending hg

theorem step_progress {s s' : RakNetTransport} {a : Action} (hfront : FrontInProgress s)
    (hg : Progresses s a) (hs : step s a = some s') :
    FrontInProgress s' ∧ Advances s a s' := by
  cases a with
  | start active =>
    cases hs
    refine ⟨?_, trivial⟩
    unfold start
    split <;> exact hfront
  | stop =>
    cases hs
    refine ⟨?_, trivial⟩
    unfold stop
    cases hrun : s.isRunning with
    | false => exact hfront
    | true => exact frontInProgress_of_startsNext (startsNext_of_empty (s := s) (hg hrun))
  | connect endpoint id parentId ct results =>
    cases hs
    exact ⟨connect_progress hfront hg, trivial⟩
  | cancelToken t =>
    cases hs
    exact ⟨hfront, trivial⟩
  | receive peer m results => exact receive_progress hfront hg hs

end ProgressLemmas

open ProgressLemmas

/-! ## Main results -/

/-- In every state of a run whose steps meet the condition the front of the queue is being
connected, and each message that ends the attempt of the front pops it and starts the next
request. -/
theorem queue_progresses {s : RakNetTransport}
    (h : Lts.Reachable RakNetTransport.step Progresses RakNetTransport.init s) :
    FrontInProgress s ∧ ∀ a s', Progresses s a → RakNetTransport.step s a = some s' →
      Advances s a s' := by
  have hfront : FrontInProgress s :=
    h.invariant (fun _ hr => by cases hr) fun _ _ _ hi hg hs => (step_progress hi hg hs).1
  exact ⟨hfront, fun _ _ hg hs => (step_progress hfront hg hs).2⟩

end Platform

section Examples

attribute [local instance] CLibrary.long64

/-- Two requests. The first one is connected, and the second one follows it. -/
theorem queue_progresses_second : ∃ s : RakNetTransport,
    Lts.Reachable RakNetTransport.step Progresses RakNetTransport.init s ∧
      s.pendingConnections = [1] ∧ FrontInProgress s ∧
      ∀ a s', Progresses s a → RakNetTransport.step s a = some s' → Advances s a s' := by
  obtain ⟨s, hreach, hs⟩ := Lts.Reachable.of_exec RakNetTransport.step Progresses
    RakNetTransport.init
    [.start true,
      .connect ['h', ':', '1'] [] [] none fun _ => .connectionAttemptStarted,
      .connect ['h', ':', '2'] [] [] none fun _ => .connectionAttemptStarted,
      .receive 0 (.connectionResult 7 false) fun _ => .connectionAttemptStarted]
    (fun s => s.pendingConnections = [1]) (by decide)
  exact ⟨s, hreach, of_decide_eq_true hs, queue_progresses hreach⟩

/-- Without the condition the queue may stall: a request whose endpoint has no port gets its
exception and stays at the front. -/
theorem queue_stalls : ¬ ∀ s : RakNetTransport,
    Lts.Reachable RakNetTransport.step Lts.anyStep RakNetTransport.init s →
      FrontInProgress s ∧ ∀ a s', RakNetTransport.step s a = some s' → Advances s a s' := by
  intro hall
  obtain ⟨s, hreach, hs⟩ := Lts.Reachable.of_exec RakNetTransport.step Lts.anyStep
    RakNetTransport.init
    [.start true, .connect ['h'] [] [] none fun _ => .connectionAttemptStarted]
    (fun s => s.pendingConnections = [0] ∧ s.attempts = []) (by decide)
  obtain ⟨hpending, hattempts⟩ := of_decide_eq_true hs
  have hmem := (hall s hreach).1 0 (by rw [hpending]; rfl)
  rw [hattempts] at hmem
  cases hmem

end Examples

end Stormancer.RakNet
