import Mathlib.Data.List.Perm.Basic
import Mathlib.Data.List.TakeWhile
import Mathlib.Data.UInt
import Stormancer.Utilities.StringSplit

/-!
# `ApiClient`

The requests that `getFederation` and `getSceneEndpoint` send to the server endpoints, one after the
other until one succeeds. Both are the same recursion over the endpoints that are left, with the
errors so far; they differ in the request, in the texts and in how a response is read.

The HTTP client is a parameter, and so are the values of `std::rand` and the functions that read the
body of a response. The client is not deleted while a request is under way, and no request is
cancelled. The log is left out.

Results:
1. `impl_eq`: what a recursion over the endpoints returns, which of them it has tried and the errors
   that it has gathered.
2. `shuffle_perm`: the order of a random selection.
3. `endpoints_fall_back`: both functions over every list of endpoints.
-/

namespace Stormancer.Client

/-! ## Requests -/

inductive Method
  | get
  | post
deriving DecidableEq

structure HttpRequest where
  method : Method
  baseUri : Str
  relativeUri : Str
deriving DecidableEq

/-- How a request ends. -/
inductive Reply
  /-- The task of the request threw. -/
  | unreachable (what : Str)
  | response (statusCode : UInt16) (xVersion responseText : Str)
deriving DecidableEq

/-- `ensureSuccessStatusCode`. -/
def ensureSuccessStatusCode (statusCode : UInt16) : Bool := 200 ≤ statusCode && statusCode < 300

/-- What the two functions differ in. -/
structure Query (α : Type) where
  method : Method
  relativeUri : Str
  /-- What follows the endpoint in the text about a status code. -/
  shownUri : Str
  /-- Reads a response, from `x-version` and the body. It may throw. -/
  read : Str → Str → Except Str α

/-- What is returned, with the endpoints that a request was sent to and the gathered errors. -/
structure Report (α : Type) where
  result : Except Str α
  tried : List Str
  errors : List Str

namespace ApiClient

variable {α : Type}

def request (q : Query α) (baseUri : Str) : HttpRequest := ⟨q.method, baseUri, q.relativeUri⟩

/-- `"[" + msgStr + ":" + ... + "]"`. -/
def errorText (q : Query α) (baseUri : Str) : Reply → Str
  | .unreachable what =>
    "[Can't reach the server endpoint. ".toList ++ baseUri ++ ":".toList ++ what ++ "]".toList
  | .response statusCode _ _ =>
    let status := (toString statusCode.toNat).toList
    "[HTTP request on '".toList ++ baseUri ++ q.shownUri ++ "' returned status code ".toList ++
      status ++ ":".toList ++ status ++ "]".toList

/-- `getFederationImpl` and `getSceneEndpointImpl`. -/
def impl (http : HttpRequest → Reply) (q : Query α) :
    List Str → (tried errors : List Str) → Report α
  | [], tried, errors =>
    ⟨.error ("Failed to connect to the configured server endpoints : ".toList ++ errors.flatten),
      tried, errors⟩
  | baseUri :: endpoints, tried, errors =>
    match http (request q baseUri) with
    | .unreachable what =>
      impl http q endpoints (tried ++ [baseUri])
        (errors ++ [errorText q baseUri (.unreachable what)])
    | .response statusCode xVersion responseText =>
      if ensureSuccessStatusCode statusCode then
        ⟨q.read xVersion responseText, tried ++ [baseUri], errors⟩
      else
        impl http q endpoints (tried ++ [baseUri])
          (errors ++ [errorText q baseUri (.response statusCode xVersion responseText)])

inductive EndpointSelectionMode
  | fallback
  | random
deriving DecidableEq

/-- The loop of a random selection, with the number of endpoints that are left. `rand` gives the
values of `std::rand`. -/
def shuffle (rand : Nat → Nat) : Nat → List Str → List Str
  | 0, _ => []
  | n + 1, endpoints =>
    let index := rand n % endpoints.length
    endpoints[index]?.toList ++ shuffle rand n (endpoints.eraseIdx index)

/-- The selection that both functions start with. -/
def select (http : HttpRequest → Reply) (rand : Nat → Nat) (mode : EndpointSelectionMode)
    (q : Query α) (endpoints : List Str) : Report α :=
  if endpoints.length = 0 then
    ⟨.error "No server endpoints found in configuration.".toList, [], []⟩
  else
    match mode with
    | .fallback => impl http q endpoints [] []
    | .random => impl http q (shuffle rand endpoints.length endpoints) [] []

/-- The request of `getFederation`; `readFederationFromJson` reads the body. -/
def federationQuery (readFederationFromJson : Str → Except Str α) : Query α where
  method := .get
  relativeUri := "/_federation".toList
  shownUri := "/_federation".toList
  read _ responseText := readFederationFromJson responseText

def getFederation (http : HttpRequest → Reply) (rand : Nat → Nat) (mode : EndpointSelectionMode)
    (readFederationFromJson : Str → Except Str α) (endpoints : List Str) : Report α :=
  select http rand mode (federationQuery readFederationFromJson) endpoints

/-- The functions of `ITokenHandler`. -/
structure TokenHandler (β : Type) where
  getSceneEndpointInfo : Str → Except Str β
  decodeToken : Str → Except Str β

/-- The request of `getSceneEndpoint`. -/
def sceneEndpointQuery {β : Type} (tokenHandler : TokenHandler β)
    (accountId applicationName sceneId : Str) : Query β where
  method := .post
  relativeUri := "/".toList ++ accountId ++ "/".toList ++ applicationName ++ "/scenes/".toList ++
    sceneId ++ "/token".toList
  shownUri := []
  read xVersion responseText :=
    if xVersion = "2".toList ∨ xVersion = "3".toList then
      tokenHandler.getSceneEndpointInfo responseText
    else tokenHandler.decodeToken responseText

def getSceneEndpoint {β : Type} (http : HttpRequest → Reply) (rand : Nat → Nat)
    (mode : EndpointSelectionMode) (tokenHandler : TokenHandler β)
    (accountId applicationName sceneId : Str) (baseUris : List Str) : Report β :=
  select http rand mode (sceneEndpointQuery tokenHandler accountId applicationName sceneId) baseUris

/-! ## The property -/

/-- What an endpoint answers with success. -/
def success (http : HttpRequest → Reply) (q : Query α) (baseUri : Str) : Option α :=
  match http (request q baseUri) with
  | .unreachable _ => none
  | .response statusCode xVersion responseText =>
    if ensureSuccessStatusCode statusCode then (q.read xVersion responseText).toOption else none

/-- A response with a success status has a body that can be read. -/
def WellFormed (http : HttpRequest → Reply) (q : Query α) (endpoints : List Str) : Prop :=
  ∀ baseUri ∈ endpoints, ∀ statusCode xVersion responseText,
    http (request q baseUri) = .response statusCode xVersion responseText →
      ensureSuccessStatusCode statusCode = true → ∃ a, q.read xVersion responseText = .ok a

/-- The endpoints are tried in an order up to the first success, whose result is returned; there is
an error for each that failed, and when all have failed, the text that is thrown has all errors. -/
structure FallsBack (http : HttpRequest → Reply) (mode : EndpointSelectionMode) (q : Query α)
    (endpoints order : List Str) (r : Report α) : Prop where
  perm : order.Perm endpoints
  listOrder : mode = .fallback → order = endpoints
  tried : r.tried = order.takeWhile (fun e => (success http q e).isNone) ++
    (order.find? fun e => (success http q e).isSome).toList
  triedOnce : r.tried <+: order
  result : r.result.toOption = order.findSome? (success http q)
  fails : (∃ text, r.result = .error text) ↔ ∀ e ∈ endpoints, success http q e = none
  errors : (∃ text, r.result = .error text) →
    r.errors = r.tried.map (fun e => errorText q e (http (request q e))) ∧
      (endpoints ≠ [] → r.result = .error
        ("Failed to connect to the configured server endpoints : ".toList ++ r.errors.flatten))

namespace ApiClientLemmas

variable {http : HttpRequest → Reply} {q : Query α}

/-- The error of an endpoint that failed. -/
def errorOf (http : HttpRequest → Reply) (q : Query α) (baseUri : Str) : Str :=
  errorText q baseUri (http (request q baseUri))

/-- One endpoint: the recursion goes on with its error, or ends with its result. -/
theorem impl_cons (baseUri : Str) (endpoints tried errors : List Str)
    (hwell : WellFormed http q [baseUri]) :
    impl http q (baseUri :: endpoints) tried errors =
      match success http q baseUri with
      | none =>
        impl http q endpoints (tried ++ [baseUri]) (errors ++ [errorOf http q baseUri])
      | some a => ⟨.ok a, tried ++ [baseUri], errors⟩ := by
  have hread := hwell baseUri (List.mem_singleton_self baseUri)
  unfold success errorOf
  rw [impl]
  cases hreply : http (request q baseUri) with
  | unreachable what => rfl
  | response statusCode xVersion responseText =>
    dsimp only
    cases hstatus : ensureSuccessStatusCode statusCode with
    | false => rfl
    | true =>
      obtain ⟨a, ha⟩ := hread _ _ _ hreply hstatus
      rw [if_pos rfl, if_pos rfl, ha]
      rfl

/-- By induction on the endpoints that are left. -/
theorem impl_eq (endpoints tried errors : List Str) (hwell : WellFormed http q endpoints) :
    impl http q endpoints tried errors =
      match endpoints.findSome? (success http q) with
      | none =>
        ⟨.error ("Failed to connect to the configured server endpoints : ".toList ++
            (errors ++ endpoints.map (errorOf http q)).flatten),
          tried ++ endpoints, errors ++ endpoints.map (errorOf http q)⟩
      | some a =>
        ⟨.ok a, tried ++ (endpoints.takeWhile (fun e => (success http q e).isNone) ++
            (endpoints.find? fun e => (success http q e).isSome).toList),
          errors ++ (endpoints.takeWhile fun e => (success http q e).isNone).map
            (errorOf http q)⟩ := by
  induction endpoints generalizing tried errors with
  | nil => simp [impl]
  | cons baseUri endpoints ih =>
    have hfirst : WellFormed http q [baseUri] := fun e he => hwell e (by simp_all)
    have hrest : WellFormed http q endpoints := fun e he => hwell e (List.mem_cons_of_mem _ he)
    rw [impl_cons baseUri endpoints tried errors hfirst]
    cases hsuccess : success http q baseUri with
    | none =>
      dsimp only
      rw [ih _ _ hrest]
      simp [hsuccess]
    | some a => simp [hsuccess]

/-- A random selection takes each endpoint once. -/
theorem shuffle_perm (rand : Nat → Nat) {n : Nat} {endpoints : List Str}
    (hn : endpoints.length = n) : (shuffle rand n endpoints).Perm endpoints := by
  induction n generalizing endpoints with
  | zero =>
    rw [List.length_eq_zero_iff] at hn
    rw [hn]
    exact .nil
  | succ n ih =>
    have hindex : rand n % endpoints.length < endpoints.length := Nat.mod_lt _ (by omega)
    have hlength : (endpoints.eraseIdx (rand n % endpoints.length)).length = n := by
      rw [List.length_eraseIdx_of_lt hindex, hn]
      rfl
    have hrest := ih hlength
    unfold shuffle
    dsimp only
    rw [List.getElem?_eq_getElem hindex]
    exact (hrest.cons _).trans (List.getElem_cons_eraseIdx_perm hindex)

/-- What is tried is the start of the order. -/
theorem tried_prefix (p : Str → Bool) (order : List Str) :
    order.takeWhile (fun e => !p e) ++ (order.find? p).toList <+: order := by
  induction order with
  | nil => exact List.prefix_rfl
  | cons e order ih =>
    cases h : p e with
    | false => simpa [h] using ih
    | true => simp [h]

theorem fallsBack_impl {mode : EndpointSelectionMode} {endpoints order : List Str}
    (hwell : WellFormed http q endpoints) (hperm : order.Perm endpoints)
    (hlist : mode = .fallback → order = endpoints) :
    FallsBack http mode q endpoints order (impl http q order [] []) := by
  have hwellOrder : WellFormed http q order := fun e he => hwell e (hperm.mem_iff.mp he)
  have hnone : (∀ e ∈ endpoints, success http q e = none) ↔
      order.findSome? (success http q) = none := by
    rw [List.findSome?_eq_none_iff]
    exact forall_congr' fun e => by rw [hperm.mem_iff]
  have hprefix := tried_prefix (fun e => (success http q e).isSome) order
  simp only [Option.not_isSome] at hprefix
  have heq := impl_eq order [] [] hwellOrder
  cases hfirst : order.findSome? (success http q) with
  | none =>
    rw [hfirst] at heq hnone
    have hall := List.findSome?_eq_none_iff.mp hfirst
    have htried : order.takeWhile (fun e => (success http q e).isNone) ++
        (order.find? fun e => (success http q e).isSome).toList = order := by
      have hfind : order.find? (fun e => (success http q e).isSome) = none := by
        simpa using hall
      have htake : order.takeWhile (fun e => (success http q e).isNone) = order := by
        rw [List.takeWhile_eq_self_iff]
        intro e he
        rw [hall e he]
        rfl
      rw [hfind, htake]
      exact List.append_nil order
    rw [heq]
    exact {
      perm := hperm
      listOrder := hlist
      tried := htried.symm
      triedOnce := List.prefix_rfl
      result := hfirst.symm
      fails := iff_of_true ⟨_, rfl⟩ (hnone.mpr rfl)
      errors := fun _ => ⟨rfl, fun _ => rfl⟩ }
  | some a =>
    rw [hfirst] at heq hnone
    rw [heq]
    exact {
      perm := hperm
      listOrder := hlist
      tried := rfl
      triedOnce := hprefix
      result := hfirst.symm
      fails := iff_of_false (fun ⟨_, h⟩ => by cases h) (fun h => by cases hnone.mp h)
      errors := fun ⟨_, h⟩ => by cases h }

/-- The selection, in the order that it takes the endpoints in. -/
theorem fallsBack_select (rand : Nat → Nat) (mode : EndpointSelectionMode) {endpoints : List Str}
    (hwell : WellFormed http q endpoints) :
    ∃ order, FallsBack http mode q endpoints order (select http rand mode q endpoints) := by
  unfold select
  by_cases hnil : endpoints = []
  · subst hnil
    refine ⟨[], ?_⟩
    exact {
      perm := .nil
      listOrder := fun _ => rfl
      tried := rfl
      triedOnce := List.prefix_rfl
      result := rfl
      fails := by simp
      errors := fun _ => ⟨rfl, fun h => absurd rfl h⟩ }
  · have hlength : endpoints.length ≠ 0 := by simpa using hnil
    rw [if_neg hlength]
    cases mode with
    | fallback => exact ⟨endpoints, fallsBack_impl hwell (.refl _) fun _ => rfl⟩
    | random =>
      have hperm : (shuffle rand endpoints.length endpoints).Perm endpoints := shuffle_perm rand rfl
      exact ⟨_, fallsBack_impl hwell hperm fun h => by cases h⟩

end ApiClientLemmas

open ApiClientLemmas

/-! ## Results -/

/-- For every list of endpoints, every outcome of the requests to them and every random order. -/
theorem endpoints_fall_back {β : Type} (http : HttpRequest → Reply) (rand : Nat → Nat)
    (mode : EndpointSelectionMode) (endpoints : List Str)
    (readFederationFromJson : Str → Except Str α) (tokenHandler : TokenHandler β)
    (accountId applicationName sceneId : Str)
    (hfederation : WellFormed http (federationQuery readFederationFromJson) endpoints)
    (hendpoint : WellFormed http
      (sceneEndpointQuery tokenHandler accountId applicationName sceneId) endpoints) :
    (∃ order, FallsBack http mode (federationQuery readFederationFromJson) endpoints order
      (getFederation http rand mode readFederationFromJson endpoints)) ∧
    ∃ order, FallsBack http mode
      (sceneEndpointQuery tokenHandler accountId applicationName sceneId) endpoints order
      (getSceneEndpoint http rand mode tokenHandler accountId applicationName sceneId
        endpoints) :=
  ⟨fallsBack_select rand mode hfederation, fallsBack_select rand mode hendpoint⟩

/-- The endpoint `a` is unreachable, and `b` answers. -/
def secondAnswers : HttpRequest → Reply := fun r =>
  if r.baseUri = ['b'] then .response 200 ['3'] ['x'] else .unreachable ['t', 'i', 'm', 'e', 'd']

theorem second_answers :
    (∃ order, FallsBack secondAnswers .fallback (federationQuery Except.ok) [['a'], ['b']] order
      (getFederation secondAnswers (fun _ => 0) .fallback Except.ok [['a'], ['b']])) ∧
    ∃ order, FallsBack secondAnswers .fallback (sceneEndpointQuery ⟨.ok, .ok⟩ ['i'] ['n'] ['s'])
      [['a'], ['b']] order
      (getSceneEndpoint secondAnswers (fun _ => 0) .fallback ⟨.ok, .ok⟩ ['i'] ['n'] ['s']
        [['a'], ['b']]) := by
  refine endpoints_fall_back secondAnswers (fun _ => 0) .fallback [['a'], ['b']] Except.ok
    ⟨.ok, .ok⟩ ['i'] ['n'] ['s'] ?_ ?_
  · exact fun _ _ _ _ responseText _ _ => ⟨responseText, rfl⟩
  · intro _ _ _ xVersion responseText _ _
    refine ⟨responseText, ?_⟩
    simp [sceneEndpointQuery]

example : (getFederation secondAnswers (fun _ => 0) .fallback Except.ok [['a'], ['b']]).tried =
    [['a'], ['b']] := by
  decide

end ApiClient

end Stormancer.Client
