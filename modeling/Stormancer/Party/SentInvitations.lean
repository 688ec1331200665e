import Mathlib.Data.List.Basic
import Stormancer.Lib.Heap
import Stormancer.Lib.Run
import Stormancer.Lib.Slots

/-!
# Sent invitations

`invitePlayer` registers a request under its recipient, sends it, and closes it in a continuation
that runs after a success. The cancellation of the caller's token closes it too. `PartyContainer`
keeps one pending request a recipient.

The request fails, succeeds, or is cancelled by the source that closing it cancels; a success may
arrive before a cancellation takes effect. The end of the container is left out: the callbacks do
nothing after it.

Results:
1. `sent_bookkept`: the bookkeeping is right as long as each step meets `endsByItself`, and the first
   step that does not breaks it.
2. `failed_request_kept`: a request that fails is never closed.
-/

namespace Stormancer.Party

/-! ## Definitions -/

inductive RequestPhase
  | running
  /-- The continuation has still to run. -/
  | succeeded
  | ended
deriving DecidableEq

/-- A call of `invitePlayer` that sent a request. -/
structure InvitationRequest where
  recipient : String
  phase : RequestPhase
  /-- The caller's token is cancelled. -/
  ctCanceled : Bool
  /-- The source that was registered is cancelled. -/
  ctsCanceled : Bool
deriving DecidableEq

/-- The request has left: it ended, or its token was cancelled. -/
def InvitationRequest.left (r : InvitationRequest) : Bool :=
  decide (r.phase = .ended) || r.ctCanceled

structure SentInvitations where
  /-- The recipients, each with the number of the request whose source is stored. -/
  pendingInvitationRequests : Slots.Table String Nat
  requests : List InvitationRequest
  /-- The requests whose entries were erased. -/
  closed : List Nat
  /-- The calls of `closeInvitationRequest` that threw. -/
  closesWithoutEntry : Nat

namespace SentInvitations

def init : SentInvitations := ⟨∅, [], [], 0⟩

def modify (s : SentInvitations) (i : Nat) (f : InvitationRequest → InvitationRequest) :
    SentInvitations :=
  { s with requests := s.requests.modify i f }

/-- `invitePlayer`. `registerInvitationRequest` throws when there is an entry. -/
def invitePlayer (s : SentInvitations) (recipient : String) : SentInvitations :=
  match s.pendingInvitationRequests.lookup recipient with
  | some _ => s
  | none =>
    { s with
      pendingInvitationRequests :=
        s.pendingInvitationRequests.insert recipient s.requests.length
      requests := s.requests ++ [⟨recipient, .running, false, false⟩] }

def closeInvitationRequest (s : SentInvitations) (recipient : String) : SentInvitations :=
  match s.pendingInvitationRequests.lookup recipient with
  | some j =>
    let s := s.modify j fun r => { r with ctsCanceled := true }
    { s with
      pendingInvitationRequests := s.pendingInvitationRequests.erase recipient
      closed := s.closed ++ [j] }
  | none => { s with closesWithoutEntry := s.closesWithoutEntry + 1 }

inductive Action
  | invitePlayer (recipient : String)
  | requestSucceeds (i : Nat)
  /-- The continuation of a request that succeeded. -/
  | continuation (i : Nat)
  | requestFails (i : Nat)
  /-- The request ends as its source is cancelled. -/
  | requestCanceled (i : Nat)
  /-- The caller's token is cancelled, which happens once. -/
  | cancel (i : Nat)
deriving DecidableEq

/-- The request changes its phase. -/
def enter (s : SentInvitations) (i : Nat) (phase : RequestPhase) : SentInvitations :=
  s.modify i fun r => { r with phase := phase }

def step (s : SentInvitations) : Action → Option SentInvitations
  | .invitePlayer recipient => some (s.invitePlayer recipient)
  | .requestSucceeds i =>
    match s.requests[i]? with
    | some ⟨_, .running, _, _⟩ => some (s.enter i .succeeded)
    | _ => none
  | .continuation i =>
    match s.requests[i]? with
    | some ⟨recipient, .succeeded, _, _⟩ =>
      some ((s.enter i .ended).closeInvitationRequest recipient)
    | _ => none
  | .requestFails i =>
    match s.requests[i]? with
    | some ⟨_, .running, _, _⟩ => some (s.enter i .ended)
    | _ => none
  | .requestCanceled i =>
    match s.requests[i]? with
    | some ⟨_, .running, _, true⟩ => some (s.enter i .ended)
    | _ => none
  | .cancel i =>
    match s.requests[i]? with
    | some ⟨recipient, _, false, _⟩ =>
      let s := s.modify i fun r => { r with ctCanceled := true }
      some (s.closeInvitationRequest recipient)
    | _ => none

/-! ## The property -/

/-- A request that ended has left once, one that has not ended and was not cancelled has its entry,
none has left twice, and no close found no entry. -/
structure Bookkept (s : SentInvitations) : Prop where
  ended : ∀ i r, s.requests[i]? = some r → r.phase = .ended → s.closed.count i = 1 ∧
    s.pendingInvitationRequests.lookup r.recipient ≠ some i
  pending : ∀ i r, s.requests[i]? = some r → r.phase ≠ .ended → r.ctCanceled = false →
    s.pendingInvitationRequests.lookup r.recipient = some i
  once : ∀ i, s.closed.count i ≤ 1
  closes : s.closesWithoutEntry = 0

/-! ## The condition -/

/-- A request fails only when its token was cancelled before, the continuation of one that succeeded
runs only when its token was not, and the token is cancelled only before the request ends. -/
def endsByItself (s : SentInvitations) : Action → Bool
  | .requestFails i => s.requests[i]?.all fun r => r.ctCanceled
  | .continuation i => s.requests[i]?.all fun r => !r.ctCanceled
  | .cancel i => s.requests[i]?.all fun r => decide (r.phase ≠ .ended)
  | _ => true

abbrev EndsByItself (s : SentInvitations) (a : Action) : Prop := s.endsByItself a = true

/-! ## The invariant -/

structure Inv (s : SentInvitations) : Prop where
  keyed : ∀ recipient i, s.pendingInvitationRequests.lookup recipient = some i →
    ∃ r, s.requests[i]? = some r ∧ r.recipient = recipient ∧ r.left = false
  pending : ∀ i r, s.requests[i]? = some r → r.left = false →
    s.pendingInvitationRequests.lookup r.recipient = some i
  canceled : ∀ (i : Nat) (r : InvitationRequest), s.requests[i]? = some r →
    r.ctsCanceled = true → r.left = true
  counted : ∀ i, s.closed.count i = if s.requests[i]?.any InvitationRequest.left then 1 else 0
  closes : s.closesWithoutEntry = 0

/-! ## Helpers -/

namespace SentLemmas

variable {s s' : SentInvitations} {i : Nat} {r : InvitationRequest}

theorem closed_of_entry {recipient : String} {j : Nat}
    (h : s.pendingInvitationRequests.lookup recipient = some j) :
    s.closeInvitationRequest recipient =
      { s.modify j fun r => { r with ctsCanceled := true } with
        pendingInvitationRequests := s.pendingInvitationRequests.erase recipient
        closed := s.closed ++ [j] } := by
  unfold closeInvitationRequest
  rw [h]
  rfl

/-- The request changes, and has left as much as before. -/
theorem inv_modify (hs : Inv s) (hr : s.requests[i]? = some r)
    {f : InvitationRequest → InvitationRequest} (hrecipient : (f r).recipient = r.recipient)
    (hleft : (f r).left = r.left) (hcts : (f r).ctsCanceled = r.ctsCanceled) :
    Inv (s.modify i f) := by
  have hself : (s.modify i f).requests[i]? = some (f r) := by
    rw [modify, List.getElem?_modify_eq, hr]
    rfl
  have hother : ∀ j, j ≠ i → (s.modify i f).requests[j]? = s.requests[j]? :=
    fun j hne => List.getElem?_modify_ne f _ hne.symm
  constructor
  case keyed =>
    intro recipient j hj
    obtain ⟨q, hq, hrec, hnot⟩ := hs.keyed recipient j hj
    rcases eq_or_ne j i with rfl | hne
    · cases hr.symm.trans hq
      exact ⟨f r, hself, hrecipient.trans hrec, hleft.trans hnot⟩
    · exact ⟨q, (hother j hne).trans hq, hrec, hnot⟩
  case pending =>
    intro j q hq hnot
    rcases eq_or_ne j i with rfl | hne
    · cases hself.symm.trans hq
      rw [hrecipient]
      exact hs.pending j r hr (hleft.symm.trans hnot)
    · exact hs.pending j q ((hother j hne).symm.trans hq) hnot
  case canceled =>
    intro j q hq hcanceled
    rcases eq_or_ne j i with rfl | hne
    · cases hself.symm.trans hq
      exact hleft.trans (hs.canceled j r hr (hcts.symm.trans hcanceled))
    · exact hs.canceled j q ((hother j hne).symm.trans hq) hcanceled
  case counted =>
    intro j
    refine (hs.counted j).trans ?_
    rcases eq_or_ne j i with rfl | hne
    · rw [hself, hr, Option.any_some, Option.any_some, hleft]
    · rw [hother j hne]
  case closes => exact hs.closes

/-- A request that has not left leaves, with its entry. -/
theorem inv_erase (hs : Inv s) (hr : s.requests[i]? = some r) (hstays : r.left = false)
    {requests : List InvitationRequest} (r' : InvitationRequest)
    (hself : requests[i]? = some r') (hleft : r'.left = true)
    (hother : ∀ j, j ≠ i → requests[j]? = s.requests[j]?) :
    Inv { s with
      requests := requests
      pendingInvitationRequests := s.pendingInvitationRequests.erase r.recipient
      closed := s.closed ++ [i] } := by
  have hentry := hs.pending i r hr hstays
  constructor
  case keyed =>
    intro recipient j hj
    replace hj := (Slots.Table.lookup_erase_eq _ _ _).symm.trans hj
    split at hj
    · cases hj
    · next hne =>
      obtain ⟨q, hq, hrec, hnot⟩ := hs.keyed recipient j hj
      refine ⟨q, (hother j ?_).trans hq, hrec, hnot⟩
      rintro rfl
      cases hr.symm.trans hq
      exact hne hrec.symm
  case pending =>
    intro j q hq hnot
    rcases eq_or_ne j i with rfl | hne
    · cases hself.symm.trans hq
      rw [hleft] at hnot
      cases hnot
    · have hlookup := hs.pending j q ((hother j hne).symm.trans hq) hnot
      refine (Slots.Table.lookup_erase_eq _ _ _).trans ((if_neg ?_).trans hlookup)
      intro hsame
      rw [hsame, hentry] at hlookup
      exact hne (Option.some.inj hlookup).symm
  case canceled =>
    intro j q hq hcanceled
    rcases eq_or_ne j i with rfl | hne
    · cases hself.symm.trans hq
      exact hleft
    · exact hs.canceled j q ((hother j hne).symm.trans hq) hcanceled
  case counted =>
    intro j
    dsimp only
    rw [List.count_append, hs.counted j]
    rcases eq_or_ne j i with rfl | hne
    · rw [hself, hr, Option.any_some, Option.any_some, hleft, hstays, List.count_singleton_self]
      rfl
    · rw [hother j hne, List.count_singleton, if_neg (mt beq_iff_eq.mp hne.symm), Nat.add_zero]
  case closes => exact hs.closes

theorem inv_leave (hs : Inv s) (hr : s.requests[i]? = some r) (hstays : r.left = false)
    {f : InvitationRequest → InvitationRequest} (hleft : (f r).left = true) :
    Inv ((s.modify i f).closeInvitationRequest r.recipient) := by
  rw [closed_of_entry (s := s.modify i f) (hs.pending i r hr hstays)]
  refine inv_erase hs hr hstays { f r with ctsCanceled := true } ?_ hleft fun j hne => ?_
  · show ((s.requests.modify i f).modify i _)[i]? = _
    rw [List.getElem?_modify_eq, List.getElem?_modify_eq, hr]
    rfl
  · exact (List.getElem?_modify_ne _ _ hne.symm).trans (List.getElem?_modify_ne _ _ hne.symm)

/-- A request that has left closes again: there is no entry, or that of another request. -/
theorem not_bookkept_of_close (hs : Inv s) (hr : s.requests[i]? = some r) (hleft : r.left = true)
    (f : InvitationRequest → InvitationRequest) :
    ¬ Bookkept ((s.modify i f).closeInvitationRequest r.recipient) := by
  intro hbook
  cases hlookup : s.pendingInvitationRequests.lookup r.recipient with
  | none =>
    have hcloses := hbook.closes
    unfold closeInvitationRequest at hcloses
    rw [show (s.modify i f).pendingInvitationRequests.lookup r.recipient = none from hlookup]
      at hcloses
    exact absurd hcloses (Nat.succ_ne_zero _)
  | some j =>
    obtain ⟨q, hq, hrec, hnot⟩ := hs.keyed _ j hlookup
    have hne : j ≠ i := by
      rintro rfl
      cases hr.symm.trans hq
      rw [hleft] at hnot
      cases hnot
    rw [closed_of_entry (s := s.modify i f) hlookup] at hbook
    have hmodified : ((s.requests.modify i f).modify j fun r =>
        { r with ctsCanceled := true })[j]? = some { q with ctsCanceled := true } := by
      rw [List.getElem?_modify_eq, List.getElem?_modify_ne f _ hne.symm, hq]
      rfl
    obtain ⟨hphase, hct⟩ := Bool.or_eq_false_iff.mp hnot
    have hentry := hbook.pending j _ hmodified (of_decide_eq_false hphase) hct
    have hgone : (s.pendingInvitationRequests.erase r.recipient).lookup q.recipient = none := by
      rw [Slots.Table.lookup_erase_eq, if_pos hrec]
    exact absurd (hgone.symm.trans hentry) (Option.some_ne_none j).symm

theorem inv_invitePlayer (hs : Inv s) (recipient : String) : Inv (s.invitePlayer recipient) := by
  unfold invitePlayer
  split
  · exact hs
  · next hnone =>
    have hnew : ∀ {j q}, (s.requests ++ [⟨recipient, .running, false, false⟩])[j]? = some q →
        s.requests[j]? = some q ∨
          j = s.requests.length ∧ q = ⟨recipient, .running, false, false⟩ := Heap.of_make
    have hold : ∀ {j q}, s.requests[j]? = some q →
        (s.requests ++ [⟨recipient, .running, false, false⟩])[j]? = some q := fun h => by
      rw [List.getElem?_append_left (List.getElem?_eq_some_iff.mp h).1, h]
    constructor
    case keyed =>
      intro recipient' j hj
      replace hj := (Slots.Table.lookup_insert_eq _ _ _ _).symm.trans hj
      split at hj
      · next heq =>
        cases hj
        exact ⟨_, List.getElem?_concat_length, heq.symm, rfl⟩
      · obtain ⟨q, hq, hrec, hnot⟩ := hs.keyed recipient' j hj
        exact ⟨q, hold hq, hrec, hnot⟩
    case pending =>
      intro j q hq hnot
      refine (Slots.Table.lookup_insert_eq _ _ _ _).trans ?_
      rcases hnew hq with hq | ⟨rfl, rfl⟩
      · have hlookup := hs.pending j q hq hnot
        rw [if_neg, hlookup]
        intro hsame
        rw [hsame, hnone] at hlookup
        cases hlookup
      · exact if_pos rfl
    case canceled =>
      intro j q hq hcanceled
      rcases hnew hq with hq | ⟨-, rfl⟩
      · exact hs.canceled j q hq hcanceled
      · cases hcanceled
    case counted =>
      intro j
      rw [hs.counted j, Heap.get_make]
      rcases eq_or_ne j s.requests.length with rfl | hne
      · rw [if_pos rfl, List.getElem?_eq_none (Nat.le_refl _)]
        rfl
      · rw [if_neg hne]
    case closes => exact hs.closes

theorem inv_init : Inv init where
  keyed := by
    intro recipient j h
    cases h
  pending := by
    intro j q h
    cases h
  canceled := by
    intro j q h
    cases h
  counted := fun _ => rfl
  closes := rfl

theorem bookkept_of_inv (hs : Inv s) : Bookkept s where
  ended := by
    intro j q hq hended
    have hleft : q.left = true := by
      rw [InvitationRequest.left, hended]
      rfl
    refine ⟨?_, fun hlookup => ?_⟩
    · rw [hs.counted, hq, Option.any_some, if_pos hleft]
    · obtain ⟨q', hq', -, hnot⟩ := hs.keyed _ j hlookup
      cases hq.symm.trans hq'
      rw [hleft] at hnot
      cases hnot
  pending := by
    intro j q hq hphase hct
    exact hs.pending j q hq (Bool.or_eq_false_iff.mpr ⟨decide_eq_false hphase, hct⟩)
  once := by
    intro j
    rw [hs.counted]
    split
    · exact Nat.le_refl 1
    · exact Nat.zero_le 1
  closes := hs.closes

/-- What a step does: the bookkeeping stays right under the condition, and only then. -/
theorem step_spec (hs : Inv s) {a : Action} (hstep : s.step a = some s') :
    (s.EndsByItself a → Inv s') ∧ (s'.Bookkept → s.EndsByItself a) := by
  unfold step at hstep
  cases a with
  | invitePlayer recipient =>
    cases hstep
    exact ⟨fun _ => inv_invitePlayer hs recipient, fun _ => rfl⟩
  | requestSucceeds i =>
    dsimp only at hstep
    split at hstep
    case h_2 => cases hstep
    case h_1 hr =>
      cases hstep
      exact ⟨fun _ => inv_modify hs hr rfl rfl rfl, fun _ => rfl⟩
  | continuation i =>
    dsimp only at hstep
    split at hstep
    case h_2 => cases hstep
    case h_1 ct cts hr =>
      cases hstep
      unfold EndsByItself endsByItself
      dsimp only
      rw [hr, Option.all_some]
      cases ct with
      | false => exact ⟨fun _ => inv_leave hs hr rfl rfl, fun _ => rfl⟩
      | true =>
        exact ⟨fun h => absurd h Bool.false_ne_true,
          fun hbook => absurd hbook (not_bookkept_of_close hs hr rfl _)⟩
  | requestFails i =>
    dsimp only at hstep
    split at hstep
    case h_2 => cases hstep
    case h_1 ct cts hr =>
      cases hstep
      unfold EndsByItself endsByItself
      dsimp only
      rw [hr, Option.all_some]
      cases ct with
      | true => exact ⟨fun _ => inv_modify hs hr rfl rfl rfl, fun _ => rfl⟩
      | false =>
        refine ⟨fun h => absurd h Bool.false_ne_true, fun hbook => ?_⟩
        have hended := List.getElem?_modify_eq (fun r => { r with phase := RequestPhase.ended }) i
          s.requests
        rw [hr] at hended
        have hcount := (hbook.ended i _ hended rfl).1
        replace hcount := (hs.counted i).symm.trans hcount
        rw [hr] at hcount
        cases hcount
  | requestCanceled i =>
    dsimp only at hstep
    split at hstep
    case h_2 => cases hstep
    case h_1 ct hr =>
      cases hstep
      have hleft := hs.canceled i _ hr rfl
      exact ⟨fun _ => inv_modify hs hr rfl hleft.symm rfl, fun _ => rfl⟩
  | cancel i =>
    dsimp only at hstep
    split at hstep
    case h_2 => cases hstep
    case h_1 recipient phase cts hr =>
      cases hstep
      unfold EndsByItself endsByItself
      dsimp only
      rw [hr, Option.all_some, decide_eq_true_eq]
      by_cases hended : phase = .ended
      · have hleft : InvitationRequest.left ⟨recipient, phase, false, cts⟩ = true :=
          Bool.or_eq_true_iff.mpr (.inl (decide_eq_true hended))
        exact ⟨fun h => absurd hended h,
          fun hbook => absurd hbook (not_bookkept_of_close hs hr hleft _)⟩
      · have hstays : InvitationRequest.left ⟨recipient, phase, false, cts⟩ = false :=
          Bool.or_eq_false_iff.mpr ⟨decide_eq_false hended, rfl⟩
        exact ⟨fun _ => inv_leave hs hr hstays (Bool.or_true _), fun _ => hended⟩

end SentLemmas

open SentLemmas

/-! ## Results -/

/-- As long as each step meets the condition the bookkeeping is right, and the first step that does
not meet it breaks it. -/
theorem sent_bookkept {s : SentInvitations} (h : Lts.Reachable step EndsByItself init s) :
    s.Bookkept ∧ ∀ a s', s.step a = some s' → (s'.Bookkept ↔ s.EndsByItself a) := by
  have hs : Inv s :=
    h.invariant inv_init fun _ _ _ hs hguard hstep => (step_spec hs hstep).1 hguard
  refine ⟨bookkept_of_inv hs, fun a s' hstep => ?_⟩
  have hspec := step_spec hs hstep
  exact ⟨hspec.2, fun hguard => bookkept_of_inv (hspec.1 hguard)⟩

/-- A request that succeeds, one that is cancelled, and a new one to the same recipient. -/
theorem sent_bookkept_again : ∃ s : SentInvitations, s.closed = [0, 1] ∧ s.requests.length = 3 ∧
    s.Bookkept ∧ ∀ a s', s.step a = some s' → (s'.Bookkept ↔ s.EndsByItself a) := by
  obtain ⟨s, hreach, htest⟩ := Lts.Reachable.of_exec step EndsByItself init
    [.invitePlayer "a", .requestSucceeds 0, .continuation 0, .invitePlayer "a", .cancel 1,
      .requestCanceled 1, .invitePlayer "a"]
    (fun s => decide (s.closed = [0, 1] ∧ s.requests.length = 3)) (by decide +kernel)
  obtain ⟨hclosed, hlength⟩ := of_decide_eq_true htest
  exact ⟨s, hclosed, hlength, sent_bookkept hreach⟩

/-- A request that fails keeps its entry. -/
theorem failed_request_kept :
    ¬ ∀ s, Lts.Reachable step Lts.anyStep init s → s.Bookkept := by
  intro hall
  obtain ⟨s, hreach, htest⟩ := Lts.Reachable.of_exec step Lts.anyStep init
    [.invitePlayer "a", .requestFails 0]
    (fun s => decide (s.requests = [⟨"a", .ended, false, false⟩] ∧ s.closed = []))
    (by decide +kernel)
  obtain ⟨hrequests, hclosed⟩ := of_decide_eq_true htest
  have hcount := ((hall s hreach).ended 0 _ (congrArg (·[0]?) hrequests) rfl).1
  rw [hclosed] at hcount
  cases hcount

end SentInvitations

end Stormancer.Party
