import Mathlib.Data.List.TakeWhile
import Stormancer.RakNet.QueueProgress

/-!
# The attempts of one call of `startNextPendingConnections`

A call should pop the cancelled requests at the front of the queue and come to `Connect` for
the first request behind them. The function calls itself after it has popped a cancelled
request, and goes on with that request when the inner call has returned.

Results:
1. `attemptedFrom`, `connects_startFrom`: the requests that one call comes to `Connect` with.
2. `attemptsFirst_iff`: a call attempts only the first request that is not cancelled exactly
   when no cancelled request before it gets as far as `Connect`.
3. `canceled_request_attempted`: a cancelled request with a good endpoint is attempted, after
   the one behind it.
-/

namespace Stormancer.RakNet

/-! ## Definitions -/

section Platform

variable [CLibrary]

namespace RakNetTransport

/-- `startNextPendingConnections` comes to `Connect` with the request. -/
def connectable (s : RakNetTransport) (r : Ref) : Bool :=
  match s.requests[r]? with
  | none => false
  | some rq => validEndpoint rq.endpoint && s.peerActive

end RakNetTransport

/-- From `s` to `s'` the cancelled requests at the front were popped, and `Connect` was called
at most once: for the request that is now the front, which is not cancelled. -/
structure AttemptsFirst (s s' : RakNetTransport) : Prop where
  queue : s'.pendingConnections = s.pendingConnections.dropWhile s.isCanceled
  connects : s'.connects = s.connects ∨ ∃ call, s'.connects = s.connects ++ [call] ∧
    s'.pendingConnections.head? = some call.request ∧ s.isCanceled call.request = false

/-- The requests that `startFrom` comes to `Connect` with, in order. -/
def attemptedFrom (s : RakNetTransport) : List Ref → List Ref
  | [] => []
  | r :: rest =>
    if s.isCanceled r then attemptedFrom s rest ++ [r].filter s.connectable
    else [r].filter s.connectable

namespace AttemptsLemmas

open RakNetTransport ProgressLemmas

/-! ## The calls of `Connect` -/

omit [CLibrary] in
theorem connects_setException (s : RakNetTransport) (r : Ref) (text : Str) :
    (s.setException r text).connects = s.connects := rfl

theorem connects_tryConnect (s : RakNetTransport) (results : Ref → ConnectionAttemptResult)
    (r : Ref) : ∃ calls, (s.tryConnect results r).connects = s.connects ++ calls ∧
      calls.map ConnectCall.request = [r].filter s.connectable := by
  unfold tryConnect
  cases hrq : s.requests[r]? with
  | none =>
    refine ⟨[], (List.append_nil _).symm, ?_⟩
    simp [connectable, hrq]
  | some rq =>
    have hconnectable : s.connectable r = (validEndpoint rq.endpoint && s.peerActive) := by
      rw [connectable, hrq]
    simp only [List.filter_cons, hconnectable, validEndpoint]
    split
    · next hostStr portString _ _ =>
      by_cases hhost : rq.endpoint.length - 1 ≤ portString.length
      · rw [if_pos hhost]
        exact ⟨[], (List.append_nil _).symm, by simp [hhost]⟩
      · rw [if_neg hhost]
        by_cases hport : portOf portString = 0
        · rw [if_pos hport]
          exact ⟨[], (List.append_nil _).symm, by simp [hport]⟩
        · rw [if_neg hport]
          cases hactive : s.peerActive with
          | false => exact ⟨[], by simp [connects_setException], by simp⟩
          | true =>
            refine ⟨[⟨r, hostStr, portOf portString, results r⟩], ?_, by simp [hhost, hport]⟩
            by_cases hresult : results r = .connectionAttemptStarted
            · simp [connectPeer, hresult]
            · simp [connectPeer, hresult, connects_setException]
    · exact ⟨[], (List.append_nil _).symm, by simp⟩

/-- A startable request is one that `Connect` is called for and starts. -/
theorem startable_eq (s : RakNetTransport) (results : Ref → ConnectionAttemptResult) (r : Ref) :
    s.startable results r =
      (s.connectable r && decide (results r = .connectionAttemptStarted)) := by
  unfold RakNetTransport.startable connectable
  cases s.requests[r]? with
  | none => rfl
  | some rq => rfl

theorem connectable_of_same {s s' : RakNetTransport} (h : SameRequests s s') :
    s'.connectable = s.connectable := by
  funext r
  have hstart := congrFun (congrFun h.startable fun _ => .connectionAttemptStarted) r
  simpa [startable_eq] using hstart

theorem attemptedFrom_congr {s s' : RakNetTransport} (h : SameRequests s s')
    (queue : List Ref) : attemptedFrom s' queue = attemptedFrom s queue := by
  induction queue with
  | nil => rfl
  | cons r rest ih =>
    unfold attemptedFrom
    rw [ih, h.canceled, connectable_of_same h]

/-- By induction on the queue. The inner call does not change what the outer one tests. -/
theorem connects_startFrom {results : Ref → ConnectionAttemptResult} {queue : List Ref}
    {s : RakNetTransport} (hs : s.pendingConnections = queue) :
    ∃ calls, (startFrom results queue s).connects = s.connects ++ calls ∧
      calls.map ConnectCall.request = attemptedFrom s queue := by
  induction queue generalizing s with
  | nil => exact ⟨[], (List.append_nil _).symm, rfl⟩
  | cons r rest ih =>
    unfold startFrom attemptedFrom
    by_cases hcan : s.isCanceled r = true
    · rw [if_pos hcan, if_pos hcan]
      have hpop : s.pop.pendingConnections = rest := by
        rw [pop, hs]
        rfl
      have hs_pop : SameRequests s s.pop := ⟨rfl, rfl, List.prefix_refl _⟩
      have hinner : SameRequests s (startFrom results rest s.pop) :=
        hs_pop.trans (startFrom_spec hpop).same
      obtain ⟨calls, hcalls, hmap⟩ := ih hpop
      obtain ⟨last, hlast, hlastmap⟩ :=
        connects_tryConnect (startFrom results rest s.pop) results r
      refine ⟨calls ++ last, ?_, ?_⟩
      · rw [hlast, hcalls, List.append_assoc]
        rfl
      · rw [List.map_append, hmap, hlastmap, connectable_of_same hinner,
          attemptedFrom_congr hs_pop]
    · rw [if_neg hcan, if_neg hcan]
      exact connects_tryConnect s results r

/-! ## When only the first request is attempted -/

theorem attemptedFrom_eq (s : RakNetTransport) (queue : List Ref) :
    attemptedFrom s queue = (queue.dropWhile s.isCanceled).head?.toList.filter s.connectable ++
      (queue.takeWhile s.isCanceled).reverse.filter s.connectable := by
  induction queue with
  | nil => rfl
  | cons r rest ih =>
    unfold attemptedFrom
    by_cases hcan : s.isCanceled r = true
    · rw [if_pos hcan, ih, List.dropWhile_cons_of_pos hcan, List.takeWhile_cons_of_pos hcan,
        List.reverse_cons, List.filter_append, List.append_assoc]
    · rw [if_neg hcan, List.dropWhile_cons_of_neg hcan, List.takeWhile_cons_of_neg hcan]
      exact (List.append_nil _).symm

omit [CLibrary] in
theorem front_not_canceled {s : RakNetTransport} {queue : List Ref} {r : Ref}
    (h : (queue.dropWhile s.isCanceled).head? = some r) : s.isCanceled r = false := by
  have hnot := List.head?_dropWhile_not s.isCanceled queue
  rw [h] at hnot
  simpa using hnot

end AttemptsLemmas

open AttemptsLemmas ProgressLemmas in
/-- A cancelled request that is popped is attempted after all when it can be, so the call
attempts only the front when none of them can. -/
theorem attemptsFirst_iff (s : RakNetTransport) (results : Ref → ConnectionAttemptResult) :
    AttemptsFirst s (s.startNextPendingConnections results) ↔
      ∀ r ∈ s.pendingConnections.takeWhile s.isCanceled, s.connectable r = false := by
  have hqueue := (startNext_spec s results).pending
  obtain ⟨calls, hcalls, hmap⟩ : ∃ calls,
      (s.startNextPendingConnections results).connects = s.connects ++ calls ∧
        calls.map ConnectCall.request = attemptedFrom s s.pendingConnections :=
    connects_startFrom rfl
  rw [attemptedFrom_eq] at hmap
  constructor
  · -- A call for a cancelled request is one of the calls.
    intro h r hr
    cases hconn : s.connectable r with
    | false => rfl
    | true =>
      have hmem : r ∈ calls.map ConnectCall.request := by
        rw [hmap]
        exact List.mem_append_right _ (List.mem_filter.mpr ⟨List.mem_reverse.mpr hr, hconn⟩)
      have hcan : s.isCanceled r = true := List.mem_takeWhile_imp hr
      rcases h.connects with hnone | ⟨call, hone, -, hlive⟩
      · rw [hnone] at hcalls
        rw [List.append_right_eq_self.mp hcalls.symm] at hmem
        cases hmem
      · rw [hone] at hcalls
        cases List.append_cancel_left hcalls
        rw [List.map_singleton, List.mem_singleton] at hmem
        rw [← hmem, hcan] at hlive
        cases hlive
  · intro h
    have hnone : (s.pendingConnections.takeWhile s.isCanceled).reverse.filter s.connectable = [] :=
      List.filter_eq_nil_iff.mpr fun r hr =>
        ne_true_of_eq_false (h r (List.mem_reverse.mp hr))
    rw [hnone, List.append_nil] at hmap
    refine ⟨hqueue, ?_⟩
    cases hfront : (s.pendingConnections.dropWhile s.isCanceled).head? with
    | none =>
      rw [hfront, Option.toList_none, List.filter_nil, List.map_eq_nil_iff] at hmap
      exact .inl (by rw [hcalls, hmap, List.append_nil])
    | some r =>
      rw [hfront, Option.toList_some] at hmap
      cases hconn : s.connectable r with
      | false =>
        rw [List.filter_cons_of_neg (ne_true_of_eq_false hconn), List.filter_nil,
          List.map_eq_nil_iff] at hmap
        exact .inl (by rw [hcalls, hmap, List.append_nil])
      | true =>
        rw [List.filter_cons_of_pos hconn, List.filter_nil] at hmap
        obtain ⟨call, rfl, hcall⟩ := List.map_eq_singleton_iff.mp hmap
        refine .inr ⟨call, hcalls, ?_, ?_⟩
        · rw [hqueue, hfront, hcall]
        · rw [hcall]
          exact front_not_canceled hfront

end Platform

section Example

attribute [local instance] CLibrary.long64

/-- The request of a cancelled token is attempted after the live one behind it. -/
theorem canceled_request_attempted : ¬ ∀ (s : RakNetTransport)
    (results : Ref → ConnectionAttemptResult),
    AttemptsFirst s (s.startNextPendingConnections results) := by
  intro hall
  let request (host : Char) (ct : Token) : ConnectionRequest :=
    ⟨.unset, [host, ':', '1'], ct, [], []⟩
  let s : RakNetTransport := { RakNetTransport.init with
    requests := [request 'a' (some 0), request 'b' none]
    pendingConnections := [0, 1]
    canceledTokens := [0]
    isRunning := true
    peerActive := true }
  have htwo : (s.startNextPendingConnections fun _ => .connectionAttemptStarted).connects.map
      ConnectCall.request = [1, 0] := by decide
  rcases (hall s fun _ => .connectionAttemptStarted).connects with hnone | ⟨call, hone, -⟩
  · rw [hnone] at htwo
    cases htwo
  · rw [hone] at htwo
    cases congrArg List.length htwo

end Example

end Stormancer.RakNet
