import Mathlib.Data.List.Basic
import Stormancer.Utilities.StringSplit

/-!
# The session token

`requestSessionToken` joins the session of the client on a connection, with the session token that
the client has stored. A request that fails makes it forget the token and try again, a number of
times.

The outcomes of the requests are a parameter, and so is what calls for other connections do to the
stored token while a request is under way. The client is alive, and the log and the cancellation
token are left out. A negative number of retries is like zero.

Results:
1. `retries_single`, `retries_cons`: a call that sends one request, and one that goes on after it.
2. `session_token_retry`: how many requests there are, which of them has the token, and when a call
   succeeds.
-/

namespace Stormancer.Client

/-! ## Definitions -/

/-- How the task of a request ends: with a token from the server, or with an exception. -/
abbrev JoinOutcome := Except String Str

/-- What a call does. A request is the token that it is sent with, if any. -/
structure JoinReport where
  result : Except String Unit
  requests : List (Option Str)
  sessionToken : Str
deriving DecidableEq

/-- The body of an `ID_JOIN_SESSION` request. -/
def joinRequest (sessionToken : Str) : Option Str :=
  if sessionToken = [] then none else some sessionToken

/-- What is left of an exception that is thrown again as a `std::exception`. -/
def sliced : String := "std::exception"

/-- The requests from the number `i` on, with the retries that are left. `others i` is what other
calls make of the stored token while the request `i` is under way. -/
def joinSession (outcome : Nat → JoinOutcome) (others : Nat → Str → Str) :
    (numRetries i : Nat) → (sessionToken : Str) → JoinReport
  | numRetries, i, sessionToken =>
    match outcome i with
    | .ok serverToken =>
      let stored := others i sessionToken
      ⟨.ok (), [joinRequest sessionToken], if stored = [] then serverToken else stored⟩
    | .error _ =>
      match numRetries with
      | numRetries + 1 =>
        let rest := joinSession outcome others numRetries (i + 1) []
        { rest with requests := joinRequest sessionToken :: rest.requests }
      | 0 => ⟨.error sliced, [joinRequest sessionToken], []⟩

/-- `Client::requestSessionToken`. -/
def requestSessionToken (outcome : Nat → JoinOutcome) (others : Nat → Str → Str)
    (peer : Bool) (numRetries : Nat) (sessionToken : Str) : JoinReport :=
  if peer then joinSession outcome others numRetries 0 sessionToken
  else ⟨.error "Peer disconnected", [], sessionToken⟩

/-! ## The property -/

/-- At most one request more than retries; the first one alone has the stored token; only a failure
is followed by another request, and the call succeeds if one of them does. After a last failure the
client has no token. -/
structure Retries (outcome : Nat → JoinOutcome) (numRetries : Nat) (sessionToken : Str)
    (r : JoinReport) : Prop where
  count : r.requests.length ≤ numRetries + 1
  tokens : ∀ i request, r.requests[i]? = some request →
    request = if i = 0 then joinRequest sessionToken else none
  goesOn : ∀ i, i + 1 < r.requests.length → (outcome i).isOk = false
  succeeds : r.result.isOk = true ↔ ∃ i < r.requests.length, (outcome i).isOk = true
  forgets : r.requests ≠ [] → r.result.isOk = false → r.sessionToken = []

namespace SessionTokenLemmas

variable {outcome : Nat → JoinOutcome} {others : Nat → Str → Str} {i n : Nat}
  {sessionToken serverToken : Str} {what : String}

theorem joinSession_ok (h : outcome i = .ok serverToken) :
    ∃ stored, joinSession outcome others n i sessionToken =
      ⟨.ok (), [joinRequest sessionToken], stored⟩ := by
  unfold joinSession
  rw [h]
  exact ⟨_, rfl⟩

theorem joinSession_last (h : outcome i = .error what) :
    joinSession outcome others 0 i sessionToken =
      ⟨.error sliced, [joinRequest sessionToken], []⟩ := by
  unfold joinSession
  rw [h]

theorem joinSession_again (h : outcome i = .error what) :
    joinSession outcome others (n + 1) i sessionToken =
      { joinSession outcome others n (i + 1) [] with
        requests := joinRequest sessionToken ::
          (joinSession outcome others n (i + 1) []).requests } := by
  rw [joinSession.eq_def]
  dsimp only
  rw [h]

/-- A call that sends one request, and fails if there is none left. -/
theorem retries_single {result : Except String Unit} {stored : Str}
    (hresult : result.isOk = (outcome 0).isOk) (hstored : result.isOk = false → stored = []) :
    Retries outcome n sessionToken ⟨result, [joinRequest sessionToken], stored⟩ where
  count := Nat.le_add_left 1 n
  tokens := by
    intro j request hj
    cases j with
    | zero =>
      cases hj
      rfl
    | succ j => cases hj
  goesOn := by
    intro j hj
    exact absurd hj (Nat.not_lt.mpr (Nat.le_add_left 1 j))
  succeeds := by
    dsimp only
    rw [hresult]
    constructor
    · exact fun hok => ⟨0, Nat.zero_lt_one, hok⟩
    · rintro ⟨j, hj, hok⟩
      obtain rfl : j = 0 := Nat.lt_one_iff.mp hj
      exact hok
  forgets := fun _ => hstored

/-- A request that fails, before a call that has no token. -/
theorem retries_cons {r : JoinReport} (hfailed : (outcome 0).isOk = false)
    (h : Retries (fun j => outcome (j + 1)) n [] r) (hsent : r.requests ≠ []) :
    Retries outcome (n + 1) sessionToken
      { r with requests := joinRequest sessionToken :: r.requests } where
  count := Nat.succ_le_succ h.count
  tokens := by
    intro j request hj
    cases j with
    | zero =>
      cases hj
      rfl
    | succ j =>
      have hnone := h.tokens j request hj
      rw [joinRequest, if_pos rfl, ite_self] at hnone
      rw [hnone, if_neg (Nat.succ_ne_zero j)]
  goesOn := by
    intro j hj
    cases j with
    | zero => exact hfailed
    | succ j => exact h.goesOn j (Nat.lt_of_succ_lt_succ hj)
  succeeds := by
    rw [h.succeeds]
    constructor
    · rintro ⟨j, hj, hok⟩
      exact ⟨j + 1, Nat.succ_lt_succ hj, hok⟩
    · rintro ⟨j, hj, hok⟩
      cases j with
      | zero =>
        rw [hfailed] at hok
        cases hok
      | succ j => exact ⟨j, Nat.lt_of_succ_lt_succ hj, hok⟩
  forgets := fun _ => h.forgets hsent

theorem requests_ne_nil : (joinSession outcome others n i sessionToken).requests ≠ [] := by
  cases hi : outcome i with
  | ok serverToken =>
    have hok : ∃ stored, joinSession outcome others n i sessionToken = ⟨_, _, stored⟩ :=
      joinSession_ok hi
    obtain ⟨stored, heq⟩ := hok
    rw [heq]
    exact List.cons_ne_nil _ _
  | error what =>
    cases n with
    | zero =>
      rw [joinSession_last hi]
      exact List.cons_ne_nil _ _
    | succ n =>
      rw [joinSession_again hi]
      exact List.cons_ne_nil _ _

/-- The requests from the number `i` on. The induction is on the retries that are left. -/
theorem retries_joinSession (n i : Nat) (sessionToken : Str) :
    Retries (fun j => outcome (i + j)) n sessionToken
      (joinSession outcome others n i sessionToken) := by
  induction n generalizing i sessionToken with
  | zero =>
    cases hi : outcome i with
    | ok serverToken =>
      obtain ⟨stored, heq⟩ := joinSession_ok hi
      rw [heq]
      exact retries_single (by rw [Nat.add_zero, hi]; rfl) nofun
    | error what =>
      rw [joinSession_last hi]
      exact retries_single (by rw [Nat.add_zero, hi]; rfl) fun _ => rfl
  | succ n ih =>
    cases hi : outcome i with
    | ok serverToken =>
      obtain ⟨stored, heq⟩ := joinSession_ok hi
      rw [heq]
      exact retries_single (by rw [Nat.add_zero, hi]; rfl) nofun
    | error what =>
      rw [joinSession_again hi]
      refine retries_cons (by rw [Nat.add_zero, hi]; rfl) ?_ requests_ne_nil
      have hrest := ih (i + 1) []
      simp only [Nat.add_right_comm i 1] at hrest
      exact hrest

end SessionTokenLemmas

open SessionTokenLemmas

/-! ## Results -/

/-- For every number of retries, all outcomes of the requests and every stored token, with or
without a peer. -/
theorem session_token_retry (outcome : Nat → JoinOutcome) (others : Nat → Str → Str) (peer : Bool)
    (numRetries : Nat) (sessionToken : Str) :
    Retries outcome numRetries sessionToken
      (requestSessionToken outcome others peer numRetries sessionToken) := by
  unfold requestSessionToken
  cases peer with
  | true =>
    have hall : Retries (fun j => outcome (0 + j)) numRetries sessionToken
        (joinSession outcome others numRetries 0 sessionToken) :=
      retries_joinSession numRetries 0 sessionToken
    simp only [Nat.zero_add] at hall
    exact hall
  | false =>
    exact {
      count := Nat.zero_le _
      tokens := fun i request hi => by cases hi
      goesOn := fun i hi => by cases hi
      succeeds := iff_of_false Bool.false_ne_true fun ⟨i, hi, _⟩ => by cases hi
      forgets := fun h => absurd rfl h }

/-- The stored token is refused, and the server gives a new one. -/
example : requestSessionToken (fun i => if i = 0 then .error "refused" else .ok ['n'])
    (fun _ t => t) true 1 ['o'] = ⟨.ok (), [some ['o'], none], ['n']⟩ := by
  decide

end Stormancer.Client
