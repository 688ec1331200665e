import Mathlib.Data.List.Induction
import Mathlib.Logic.Basic
import Stormancer.Lib.Heap
import Stormancer.Lib.Run
import Stormancer.Party.Service

/-!
# The resynchronisation of the party

`syncPartyState` sets `_isPendingStateSync` and calls `party.getpartystate`. The server answers with
a message of its own, `party.getPartyStateResponse`, before or after the call ends. The flag is
reset when the call fails and when a response is handled.

The state is the service with the calls it made and the responses on their way. The server may also
send the state by itself, as when the party is joined.

Results:
1. `resync_pending`: as long as each message that is handled meets `leavesAnswer`, a flag that is set
   has a call or a response that is outstanding.
2. `requests_end`: a call that has not ended may end in either way.
3. `resync_stuck`: a response that cannot be decoded leaves the flag set with nothing outstanding.
-/

namespace Stormancer.Party

/-! ## Definitions -/

/-- A call of `party.getpartystate`. -/
structure StateRequest where
  /-- The server sent the response. -/
  answered : Bool
  /-- How the call ended, `true` for a success. -/
  ended : Option Bool
deriving DecidableEq

/-- The server has not answered the call, and the call did not fail. -/
def StateRequest.owed (r : StateRequest) : Bool := !r.answered && decide (r.ended ≠ some false)

structure PartySync where
  service : PartyService
  requests : List StateRequest
  /-- The responses that were sent and not handled: `none` for one that cannot be decoded. -/
  responses : List (Option PartyState)
deriving DecidableEq

namespace PartySync

def init : PartySync := ⟨PartyService.init, [], []⟩

inductive Action
  | update (versionNumber : Option Int) (payload : PartyService.Payload)
  /-- The server sends the response to a call. -/
  | answer (i : Nat) (response : Option PartyState)
  /-- The server sends the state by itself. -/
  | push (response : Option PartyState)
  /-- A response arrives and is handled. -/
  | deliver (i : Nat)
  | requestEnded (i : Nat) (success : Bool)
deriving DecidableEq

/-- An update is handled. The calls that it makes are new ones. -/
def update (s : PartySync) (versionNumber : Option Int) (payload : PartyService.Payload) :
    PartySync :=
  let service := s.service.receiveUpdate versionNumber payload
  let calls := service.stateRequests - s.service.stateRequests
  { s with service := service, requests := s.requests ++ List.replicate calls ⟨false, none⟩ }

def answer (s : PartySync) (i : Nat) (response : Option PartyState) : Option PartySync :=
  match s.requests[i]? with
  | some ⟨false, ended⟩ =>
    some { s with
      requests := s.requests.set i ⟨true, ended⟩
      responses := s.responses ++ [response] }
  | _ => none

def deliver (s : PartySync) (i : Nat) : Option PartySync :=
  match s.responses[i]? with
  | some response =>
    some { s with
      service := s.service.handlePartyStateResponse response
      responses := s.responses.eraseIdx i }
  | none => none

def requestEnded (s : PartySync) (i : Nat) (success : Bool) : Option PartySync :=
  match s.requests[i]? with
  | some ⟨answered, none⟩ =>
    (s.service.step (.stateRequestEnded success)).map fun service =>
      { s with service := service, requests := s.requests.set i ⟨answered, some success⟩ }
  | _ => none

def step (s : PartySync) : Action → Option PartySync
  | .update versionNumber payload => some (s.update versionNumber payload)
  | .answer i response => s.answer i response
  | .push response => some { s with responses := s.responses ++ [response] }
  | .deliver i => s.deliver i
  | .requestEnded i success => s.requestEnded i success

/-! ## The property -/

/-- A call has not ended, or its response is still to come. -/
def Outstanding (s : PartySync) : Prop :=
  (∃ r ∈ s.requests, r.ended = none) ∨ (∃ r ∈ s.requests, r.ended = some true ∧ r.answered = false) ∨
    s.responses ≠ []

def NotStuck (s : PartySync) : Prop :=
  s.service.isPendingStateSync = true → s.Outstanding

/-! ## The condition -/

/-- A response that cannot be decoded is handled only when the flag is not set, another response
is on its way, or a response is still owed. -/
def leavesAnswer (s : PartySync) : Action → Bool
  | .deliver i =>
    s.responses[i]?.join.isSome || !s.service.isPendingStateSync ||
      decide (1 < s.responses.length) || s.requests.any StateRequest.owed
  | _ => true

abbrev LeavesAnswer (s : PartySync) (a : Action) : Prop := s.leavesAnswer a = true

/-! ## The invariants -/

/-- The service counts the calls that have not ended. -/
def Counted (s : PartySync) : Prop :=
  s.service.stateRequests = s.requests.countP fun r => decide (r.ended = none)

/-- While the flag is set a response is on its way or owed. -/
def ToCome (s : PartySync) : Prop :=
  s.service.isPendingStateSync = true → s.responses ≠ [] ∨ ∃ r ∈ s.requests, r.owed = true

/-! ## Helpers -/

namespace ResyncLemmas

open PartyService PartyService.ServiceLemmas

variable {s s' : PartySync}

/-- What the handlers do to the flag and to the calls: nothing, or a new call. -/
def Syncs (p p' : PartyService) : Prop :=
  (p'.isPendingStateSync = p.isPendingStateSync ∧ p'.stateRequests = p.stateRequests) ∨
    (p'.isPendingStateSync = true ∧ p'.stateRequests = p.stateRequests + 1)

/-- The flag and the calls are the same. -/
structure SameSync (p p' : PartyService) : Prop where
  flag : p'.isPendingStateSync = p.isPendingStateSync
  calls : p'.stateRequests = p.stateRequests

theorem same_updateGameFinder (p : PartyService) : SameSync p p.updateGameFinder := by
  unfold updateGameFinder
  split <;> exact ⟨rfl, rfl⟩

theorem syncs_syncPartyState (p : PartyService) : Syncs p p.syncPartyState := by
  unfold syncPartyState
  split
  · exact .inl ⟨rfl, rfl⟩
  · exact .inr ⟨rfl, rfl⟩

theorem syncs_handleUpdate {α : Type} (p : PartyService) (versionNumber : Option Int)
    (payload : Option α) {apply : α → PartyService → PartyService}
    (happly : ∀ a p, SameSync p (apply a p)) :
    Syncs p (p.handleUpdate versionNumber payload apply) := by
  cases versionNumber with
  | none => exact .inl ⟨rfl, rfl⟩
  | some v =>
    by_cases hv : 0 < p.state.version ∧ v = p.state.version + 1
    · cases payload with
      | none =>
        rw [handleUpdate_unread hv]
        exact .inl ⟨rfl, rfl⟩
      | some a =>
        rw [handleUpdate_read hv]
        have hsame := happly a { p with
          state := { p.state with version := v }
          applied := p.applied ++ [v] }
        exact .inl ⟨hsame.flag, hsame.calls⟩
    · rw [handleUpdate_refused hv]
      exact syncs_syncPartyState p

theorem syncs_receiveUpdate (p : PartyService) (versionNumber : Option Int) (payload : Payload) :
    Syncs p (p.receiveUpdate versionNumber payload) := by
  cases payload with
  | settingsUpdated payload =>
    refine syncs_handleUpdate p versionNumber payload fun settings p => ?_
    have hfinder := same_updateGameFinder { p with state := { p.state with settings := settings } }
    exact ⟨hfinder.flag, hfinder.calls⟩
  | memberDataUpdated payload =>
    refine syncs_handleUpdate p versionNumber payload fun update p => ?_
    dsimp only
    split <;> exact ⟨rfl, rfl⟩
  | memberStatusUpdated payload =>
    exact syncs_handleUpdate p versionNumber payload fun _ _ => ⟨rfl, rfl⟩
  | memberConnected payload =>
    exact syncs_handleUpdate p versionNumber payload fun _ _ => ⟨rfl, rfl⟩
  | memberDisconnected payload =>
    refine syncs_handleUpdate p versionNumber payload fun message p => ?_
    dsimp only
    split <;> exact ⟨rfl, rfl⟩
  | leaderChanged payload =>
    refine syncs_handleUpdate p versionNumber payload fun leaderId p => ?_
    dsimp only
    split <;> exact ⟨rfl, rfl⟩

theorem flag_of_response (p : PartyService) (state : PartyState) :
    (p.handlePartyStateResponse (some state)).isPendingStateSync = false ∧
      (p.handlePartyStateResponse (some state)).stateRequests = p.stateRequests := by
  have hfinder := same_updateGameFinder ({ p with state := state.read } : PartyService).updateLeader
  exact ⟨rfl, hfinder.calls⟩

theorem answer_eq_some {i : Nat} {response : Option PartyState}
    (h : s.answer i response = some s') : ∃ ended, s.requests[i]? = some ⟨false, ended⟩ ∧
      s' = { s with
        requests := s.requests.set i ⟨true, ended⟩
        responses := s.responses ++ [response] } := by
  unfold answer at h
  split at h
  case h_2 => cases h
  case h_1 ended hr =>
    cases h
    exact ⟨ended, hr, rfl⟩

theorem deliver_eq_some {i : Nat} (h : s.deliver i = some s') :
    ∃ response, s.responses[i]? = some response ∧
      s' = { s with
        service := s.service.handlePartyStateResponse response
        responses := s.responses.eraseIdx i } := by
  unfold deliver at h
  split at h
  case h_2 => cases h
  case h_1 response hresponse =>
    cases h
    exact ⟨response, hresponse, rfl⟩

/-- An update makes a new call or none. -/
theorem update_requests (s : PartySync) (versionNumber : Option Int) (payload : Payload) :
    (∃ p, SameSync s.service p ∧ s.update versionNumber payload = { s with service := p }) ∨
    (∃ p, p.stateRequests = s.service.stateRequests + 1 ∧
      s.update versionNumber payload =
        { s with service := p, requests := s.requests ++ [⟨false, none⟩] }) := by
  generalize hp : s.service.receiveUpdate versionNumber payload = p
  have hsyncs := hp ▸ syncs_receiveUpdate s.service versionNumber payload
  have hupdate : s.update versionNumber payload = { s with
      service := p
      requests := s.requests ++
        List.replicate (p.stateRequests - s.service.stateRequests) ⟨false, none⟩ } := by
    rw [← hp]
    rfl
  rcases hsyncs with ⟨hflag, hcalls⟩ | ⟨-, hcalls⟩
  · rw [hcalls, Nat.sub_self, List.replicate_zero, List.append_nil] at hupdate
    exact .inl ⟨p, ⟨hflag, hcalls⟩, hupdate⟩
  · rw [hcalls, Nat.add_sub_cancel_left] at hupdate
    exact .inr ⟨p, hcalls, hupdate⟩

/-- What the end of a call does. -/
theorem requestEnded_cases {i : Nat} {success : Bool} (h : s.requestEnded i success = some s') :
    ∃ answered, s.requests[i]? = some ⟨answered, none⟩ ∧
      s'.service.stateRequests = s.service.stateRequests - 1 ∧
      (s'.service.isPendingStateSync = true →
        success = true ∧ s.service.isPendingStateSync = true) ∧
      s'.responses = s.responses ∧ s'.requests = s.requests.set i ⟨answered, some success⟩ := by
  unfold requestEnded at h
  split at h
  case h_2 => cases h
  case h_1 answered hr =>
    obtain ⟨p, hp, rfl⟩ := Option.map_eq_some_iff.mp h
    unfold PartyService.step at hp
    dsimp only at hp
    split at hp
    · cases hp
    · cases hp
      cases success with
      | true => exact ⟨answered, hr, rfl, fun hflag => ⟨rfl, hflag⟩, rfl, rfl⟩
      | false => exact ⟨answered, hr, rfl, fun hflag => absurd hflag Bool.false_ne_true, rfl, rfl⟩

theorem counted_step (hs : Counted s) {a : Action} (hstep : s.step a = some s') : Counted s' := by
  unfold Counted at hs ⊢
  cases a with
  | update versionNumber payload =>
    cases hstep
    rcases update_requests s versionNumber payload with ⟨p, hsame, heq⟩ | ⟨p, hcalls, heq⟩
    · rw [heq]
      exact hsame.calls.trans hs
    · rw [heq, List.countP_append, ← hs]
      exact hcalls
  | answer i response =>
    obtain ⟨ended, hr, rfl⟩ := answer_eq_some hstep
    obtain ⟨before, after, hrequests, hset⟩ := Heap.split hr
    dsimp only
    rw [hs, hset, hrequests, List.countP_append, List.countP_append, List.countP_cons,
      List.countP_cons]
  | push response =>
    cases hstep
    exact hs
  | deliver i =>
    obtain ⟨response, -, rfl⟩ := deliver_eq_some hstep
    cases response with
    | none => exact hs
    | some state => exact (flag_of_response s.service state).2.trans hs
  | requestEnded i success =>
    obtain ⟨answered, hr, hcalls, -, -, hrequests'⟩ := requestEnded_cases hstep
    obtain ⟨before, after, hrequests, hset⟩ := Heap.split hr
    have hended : ¬ decide (some success = none) = true :=
      mt of_decide_eq_true (Option.some_ne_none success)
    rw [hrequests, List.countP_append, List.countP_cons, if_pos (decide_eq_true rfl)] at hs
    rw [hcalls, hrequests', hset, List.countP_append, List.countP_cons, if_neg hended]
    exact Nat.sub_eq_of_eq_add hs

theorem counted_init : Counted init := rfl

theorem toCome_deliver {i : Nat} (hguard : s.LeavesAnswer (.deliver i))
    (hstep : s.deliver i = some s') : ToCome s' := by
  obtain ⟨response, hresponse, rfl⟩ := deliver_eq_some hstep
  intro hflag
  cases response with
  | some state =>
    rw [(flag_of_response s.service state).1] at hflag
    cases hflag
  | none =>
    replace hflag : s.service.isPendingStateSync = true := hflag
    unfold LeavesAnswer leavesAnswer at hguard
    dsimp only at hguard
    rw [hresponse, hflag, Bool.or_eq_true, Bool.or_eq_true, decide_eq_true_eq,
      List.any_eq_true] at hguard
    rcases hguard with (hfalse | hmore) | howed
    · cases hfalse
    · refine .inl fun hnil => ?_
      have hlength := congrArg List.length hnil
      rw [List.length_eraseIdx_of_lt (List.getElem?_eq_some_iff.mp hresponse).1] at hlength
      exact absurd hlength (Nat.sub_ne_zero_of_lt hmore)
    · exact .inr howed

/-- A success takes nothing away: the response is on its way, or still owed. -/
theorem toCome_requestEnded (hs : ToCome s) {i : Nat} {success : Bool}
    (hstep : s.requestEnded i success = some s') : ToCome s' := by
  obtain ⟨answered, hr, -, hflag', hresponses', hrequests'⟩ := requestEnded_cases hstep
  obtain ⟨before, after, hrequests, hset⟩ := Heap.split hr
  intro h
  obtain ⟨rfl, hflag⟩ := hflag' h
  rcases hs hflag with hresponses | ⟨r, hmem, howed⟩
  · exact .inl (hresponses' ▸ hresponses)
  · refine .inr ?_
    rw [hrequests', hset]
    rw [hrequests, List.mem_append, List.mem_cons] at hmem
    rcases hmem with hbefore | rfl | hafter
    · exact ⟨r, List.mem_append_left _ hbefore, howed⟩
    · refine ⟨⟨answered, some true⟩, List.mem_append_right _ List.mem_cons_self, ?_⟩
      cases answered with
      | true => cases howed
      | false => rfl
    · exact ⟨r, List.mem_append_right _ (List.mem_cons_of_mem _ hafter), howed⟩

theorem toCome_step (hs : ToCome s) {a : Action} (hguard : s.LeavesAnswer a)
    (hstep : s.step a = some s') : ToCome s' := by
  have hsent : ∀ response, s.responses ++ [response] ≠ [] := fun response =>
    List.append_ne_nil_of_right_ne_nil _ (List.cons_ne_nil _ _)
  cases a with
  | update versionNumber payload =>
    cases hstep
    rcases update_requests s versionNumber payload with ⟨p, hsame, heq⟩ | ⟨p, -, heq⟩
    · rw [heq]
      exact fun hflag => hs (hsame.flag ▸ hflag)
    · rw [heq]
      exact fun _ => .inr ⟨_, List.mem_append_right _ (List.mem_singleton_self _), rfl⟩
  | answer i response =>
    obtain ⟨ended, -, rfl⟩ := answer_eq_some hstep
    exact fun _ => .inl (hsent response)
  | push response =>
    cases hstep
    exact fun _ => .inl (hsent response)
  | deliver i => exact toCome_deliver hguard hstep
  | requestEnded i success => exact toCome_requestEnded hs hstep

/-- What is to come is outstanding. -/
theorem notStuck_of_toCome (hs : ToCome s) : s.NotStuck := by
  intro hflag
  rcases hs hflag with hresponses | ⟨⟨answered, ended⟩, hmem, howed⟩
  · exact .inr (.inr hresponses)
  · unfold StateRequest.owed at howed
    rw [Bool.and_eq_true, Bool.not_eq_true', decide_eq_true_eq] at howed
    obtain ⟨hanswered, hended⟩ := howed
    rcases ended with _ | _ | _
    · exact .inl ⟨_, hmem, rfl⟩
    · exact absurd rfl hended
    · exact .inr (.inl ⟨_, hmem, rfl, hanswered⟩)

end ResyncLemmas

open ResyncLemmas

/-! ## Results -/

/-- In every run whose messages meet the condition, a flag that is set has a call or a response
that is outstanding. -/
theorem resync_pending {s : PartySync} (h : Lts.Reachable step LeavesAnswer init s) : s.NotStuck :=
  notStuck_of_toCome (h.invariant (fun hflag => absurd hflag Bool.false_ne_true)
    fun _ _ _ hs hguard hstep => toCome_step hs hguard hstep)

/-- The count of the service does not stop a call from ending. -/
theorem requests_end {s : PartySync} (h : Lts.Reachable step Lts.anyStep init s) {i : Nat}
    {answered : Bool} (hr : s.requests[i]? = some ⟨answered, none⟩) (success : Bool) :
    (s.requestEnded i success).isSome = true := by
  have hs : Counted s :=
    h.invariant counted_init fun _ _ _ hs _ hstep => counted_step hs hstep
  have hpos : s.service.stateRequests ≠ 0 := by
    rw [hs, ← Nat.pos_iff_ne_zero, List.countP_pos_iff]
    exact ⟨_, List.mem_of_getElem? hr, rfl⟩
  unfold requestEnded PartyService.step
  rw [hr]
  dsimp only
  rw [if_neg hpos]
  rfl

/-- The full state of an empty party. -/
def exState : PartyState := ⟨⟨"", "", 0⟩, "", [], 1⟩

/-- The update that finds the version gap, and makes the first call. -/
def exGap : Action := .update (some 5) (.leaderChanged none)

/-- The first call fails, the second is answered before it ends. -/
theorem resync_pending_retried : ∃ s : PartySync, s.service.isPendingStateSync = true ∧
    s.requests.length = 2 ∧ s.NotStuck := by
  obtain ⟨s, hreach, htest⟩ := Lts.Reachable.of_exec step LeavesAnswer init
    [exGap, .requestEnded 0 false, exGap, .push none, .deliver 0, .answer 1 (some exState)]
    (fun s => s.service.isPendingStateSync && decide (s.requests.length = 2)) (by decide +kernel)
  rw [Bool.and_eq_true, decide_eq_true_eq] at htest
  exact ⟨s, htest.1, htest.2, resync_pending hreach⟩

/-- A response that cannot be decoded: the call succeeds, and the flag stays. -/
theorem resync_stuck : ¬ ∀ s, Lts.Reachable step Lts.anyStep init s → s.NotStuck := by
  intro hall
  obtain ⟨s, hreach, htest⟩ := Lts.Reachable.of_exec step Lts.anyStep init
    [exGap, .answer 0 none, .deliver 0, .requestEnded 0 true]
    (fun s => s.service.isPendingStateSync && decide (s.requests = [⟨true, some true⟩]) &&
      decide (s.responses = []))
    (by decide +kernel)
  rw [Bool.and_eq_true, Bool.and_eq_true, decide_eq_true_eq, decide_eq_true_eq] at htest
  obtain ⟨⟨hflag, hrequests⟩, hresponses⟩ := htest
  rcases hall s hreach hflag with ⟨r, hmem, hended⟩ | ⟨r, hmem, -, hanswered⟩ | hsome
  · rw [hrequests, List.mem_singleton] at hmem
    subst hmem
    cases hended
  · rw [hrequests, List.mem_singleton] at hmem
    subst hmem
    cases hanswered
  · exact hsome hresponses

end PartySync

end Stormancer.Party
