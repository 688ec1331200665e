import Mathlib.Data.List.Basic
import Stormancer.Lib.Run
import Stormancer.Lib.Slots

/-!
# Received invitations

`Party_Impl` keeps one pending invitation a sender. The operation `party.invite` of the sender is
open until the invitation's completion event is set. When the sender cancels it, a callback posts
an action to the dispatcher, which erases the entry of the sender and notifies the game later.
`joinParty` for an invitation takes the entry of its sender. There is no operation that refuses
an invitation.

What follows in `joinParty`, the log and the game's reactions to the events are left out.

Results:
1. `invitations_isolated_iff`: in every reachable state a step concerns its own invitation only
   exactly when it meets `findsOwn`.
2. `invitation_accounted`: in a run of such steps an invitation that is not pending any more was
   cancelled, accepted or replaced itself.
3. `late_cancellation`: a cancellation that runs late takes the next invitation of its sender.
-/

namespace Stormancer.Party

/-! ## Definitions -/

structure PartyInvitation where
  userId : String
  sceneId : String
deriving DecidableEq

/-- The completion event is the number of the invitation. -/
structure InvitePair where
  invite : PartyInvitation
  tce : Nat
deriving DecidableEq

structure Invitations where
  /-- By the sender. -/
  invitations : Slots.Table String InvitePair
  /-- All that were received, oldest first. -/
  received : List PartyInvitation
  /-- The completion events that are set. -/
  completed : List Nat
  /-- The cancellations that the dispatcher has not run, and those that it has. -/
  posted : List Nat
  ran : List Nat
  /-- The senders that `_onInvitationCanceled` was called with. -/
  notified : List String
  /-- The invitations that `joinParty` found an entry for. -/
  joined : List PartyInvitation

namespace Invitations

def init : Invitations := ⟨∅, [], [], [], [], [], []⟩

inductive Action
  | invitationHandler (senderId sceneId : String)
  /-- The sender's token is cancelled, which happens once. -/
  | cancel (i : Nat)
  /-- The dispatcher runs one of the posted actions. -/
  | runPosted (j : Nat)
  | joinParty (invitation : PartyInvitation)
deriving DecidableEq

/-- Sets the completion event of an entry and erases the entry. -/
def close (s : Invitations) (it : InvitePair) (userId : String) : Invitations :=
  { s with completed := s.completed ++ [it.tce], invitations := s.invitations.erase userId }

def onInvitationCanceled (s : Invitations) (senderId : String) : Invitations :=
  { s with notified := s.notified ++ [senderId] }

def invitationHandler (s : Invitations) (senderId sceneId : String) : Invitations :=
  let invite : PartyInvitation := ⟨senderId, sceneId⟩
  let s := match s.invitations.lookup senderId with
    | some it => (s.close it senderId).onInvitationCanceled senderId
    | none => s
  { s with
    invitations := s.invitations.insert senderId ⟨invite, s.received.length⟩
    received := s.received ++ [invite] }

/-- The callback of the cancellation token. -/
def cancel (s : Invitations) (i : Nat) : Option Invitations :=
  if i < s.received.length ∧ i ∉ s.posted ∧ i ∉ s.ran then some { s with posted := s.posted ++ [i] }
  else none

/-- The action that the callback posts. It knows the sender. -/
def runPosted (s : Invitations) (j : Nat) : Option Invitations :=
  s.posted[j]?.bind fun i => s.received[i]?.map fun invite =>
    let s := { s with
      posted := s.posted.eraseIdx j
      ran := s.ran ++ [i]
      invitations := s.invitations.erase invite.userId }
    s.onInvitationCanceled invite.userId

/-- The part of `joinParty` under the lock. Without an entry the task fails. -/
def joinParty (s : Invitations) (invitation : PartyInvitation) : Invitations :=
  match s.invitations.lookup invitation.userId with
  | none => s
  | some it =>
    let s := s.close it invitation.userId
    { s with joined := s.joined ++ [invitation] }

def step (s : Invitations) : Action → Option Invitations
  | .invitationHandler senderId sceneId => some (s.invitationHandler senderId sceneId)
  | .cancel i => s.cancel i
  | .runPosted j => s.runPosted j
  | .joinParty invitation => some (s.joinParty invitation)

/-! ## The property -/

/-- The entries that are removed, the events that are set and the entries of the senders that are
notified are those of invitations in `own`. -/
structure Concerns (own : Nat → Prop) (s s' : Invitations) : Prop where
  removed : ∀ userId it, s.invitations.lookup userId = some it →
    s'.invitations.lookup userId ≠ some it → own it.tce
  completed : ∀ k ∈ s'.completed, k ∉ s.completed → own k
  notified : ∀ userId ∈ s'.notified.drop s.notified.length, ∀ it,
    s.invitations.lookup userId = some it → own it.tce

/-- A step concerns its own invitation: for a new one those of its sender, for a cancellation the
one that is cancelled, for an acceptance those that are the same as the accepted one. -/
def Isolated (s : Invitations) (a : Action) (s' : Invitations) : Prop :=
  match a with
  | .invitationHandler senderId _ =>
    Concerns (fun k => (s.received[k]?.map (·.userId)) = some senderId) s s'
  | .cancel _ => Concerns (fun _ => False) s s'
  | .runPosted j => Concerns (fun k => s.posted[j]? = some k) s s'
  | .joinParty invitation => Concerns (fun k => s.received[k]? = some invitation) s s'

/-! ## The condition -/

/-- When a cancellation runs, its sender has no entry or that of the invitation, and when an
invitation is accepted, its sender has no entry or one of the same invitation. -/
def findsOwn (s : Invitations) : Action → Bool
  | .runPosted j =>
    s.posted[j]?.all fun i => s.received[i]?.all fun invite =>
      (s.invitations.lookup invite.userId).all fun it => decide (it.tce = i)
  | .joinParty invitation =>
    (s.invitations.lookup invitation.userId).all fun it => decide (it.invite = invitation)
  | _ => true

abbrev FindsOwn (s : Invitations) (a : Action) : Prop := s.findsOwn a = true

/-! ## The invariants -/

/-- An entry is that of an invitation of its key, and its event is not set. -/
structure Keyed (s : Invitations) : Prop where
  invite : ∀ userId it, s.invitations.lookup userId = some it →
    it.invite.userId = userId ∧ s.received[it.tce]? = some it.invite
  pending : ∀ userId it, s.invitations.lookup userId = some it → it.tce ∉ s.completed
  made : ∀ k ∈ s.completed, k < s.received.length

/-- An invitation is pending, or was cancelled, accepted or replaced by a later one. -/
def Accounted (s : Invitations) : Prop :=
  ∀ k invite, s.received[k]? = some invite →
    s.invitations.lookup invite.userId = some ⟨invite, k⟩ ∨ k ∈ s.ran ∨ invite ∈ s.joined ∨
      ∃ k' invite', k < k' ∧ s.received[k']? = some invite' ∧ invite'.userId = invite.userId

/-! ## Helpers -/

namespace InvitationsLemmas

variable {s s' : Invitations}

theorem cancel_eq_some {i : Nat} (h : s.cancel i = some s') :
    s' = { s with posted := s.posted ++ [i] } := by
  unfold cancel at h
  split at h
  · exact (Option.some.inj h).symm
  · cases h

theorem runPosted_eq_some {j : Nat} (h : s.runPosted j = some s') :
    ∃ i invite, s.posted[j]? = some i ∧ s.received[i]? = some invite ∧
      s' = { s with
        posted := s.posted.eraseIdx j
        ran := s.ran ++ [i]
        invitations := s.invitations.erase invite.userId
        notified := s.notified ++ [invite.userId] } := by
  obtain ⟨i, hi, h⟩ := Option.bind_eq_some_iff.mp h
  obtain ⟨invite, hinvite, rfl⟩ := Option.map_eq_some_iff.mp h
  exact ⟨i, invite, hi, hinvite, rfl⟩

theorem joinParty_cases (s : Invitations) (invitation : PartyInvitation) :
    (s.invitations.lookup invitation.userId = none ∧ s.joinParty invitation = s) ∨
      ∃ it, s.invitations.lookup invitation.userId = some it ∧
        s.joinParty invitation =
          { s.close it invitation.userId with joined := s.joined ++ [invitation] } := by
  unfold joinParty
  cases hlookup : s.invitations.lookup invitation.userId with
  | none => exact .inl ⟨rfl, rfl⟩
  | some it => exact .inr ⟨it, rfl, rfl⟩

/-- A new invitation, with what is done for an older one of its sender before. -/
theorem invitationHandler_cases (s : Invitations) (senderId sceneId : String) :
    ∃ t, s.invitationHandler senderId sceneId = { t with
        invitations := t.invitations.insert senderId ⟨⟨senderId, sceneId⟩, t.received.length⟩
        received := t.received ++ [⟨senderId, sceneId⟩] } ∧
      ((s.invitations.lookup senderId = none ∧ t = s) ∨
        ∃ it, s.invitations.lookup senderId = some it ∧
          t = (s.close it senderId).onInvitationCanceled senderId) := by
  unfold invitationHandler
  cases hlookup : s.invitations.lookup senderId with
  | none => exact ⟨s, rfl, .inl ⟨rfl, rfl⟩⟩
  | some it =>
    exact ⟨(s.close it senderId).onInvitationCanceled senderId, rfl, .inr ⟨it, rfl, rfl⟩⟩

/-! ### The entries -/

theorem keyed_close (hs : Keyed s) {userId : String} {it : InvitePair}
    (hlookup : s.invitations.lookup userId = some it) : Keyed (s.close it userId) := by
  obtain ⟨hid, hreceived⟩ := hs.invite userId it hlookup
  have hold : ∀ {u it'}, (s.invitations.erase userId).lookup u = some it' →
      u ≠ userId ∧ s.invitations.lookup u = some it' := by
    intro u it' h
    rw [Slots.Table.lookup_erase_eq] at h
    split at h
    · cases h
    · next hne => exact ⟨hne, h⟩
  constructor
  case invite => exact fun u it' h => hs.invite u it' (hold h).2
  case pending =>
    intro u it' h hmem
    obtain ⟨hne, h⟩ := hold h
    obtain ⟨hid', hreceived'⟩ := hs.invite u it' h
    rcases List.mem_append.mp hmem with hbefore | hnew
    · exact hs.pending u it' h hbefore
    · rw [List.mem_singleton.mp hnew, hreceived] at hreceived'
      refine hne ?_
      rw [← hid', ← Option.some.inj hreceived', hid]
  case made =>
    refine List.forall_mem_append.mpr ⟨hs.made, List.forall_mem_singleton.mpr ?_⟩
    exact (List.getElem?_eq_some_iff.mp hreceived).1

theorem keyed_insert (hs : Keyed s) (invite : PartyInvitation) : Keyed { s with
    invitations := s.invitations.insert invite.userId ⟨invite, s.received.length⟩
    received := s.received ++ [invite] } := by
  have hcases : ∀ {u it}, (s.invitations.insert invite.userId
      ⟨invite, s.received.length⟩).lookup u = some it →
        (u = invite.userId ∧ it = ⟨invite, s.received.length⟩) ∨
          s.invitations.lookup u = some it := by
    intro u it h
    rw [Slots.Table.lookup_insert_eq] at h
    split at h
    · next heq => exact .inl ⟨heq, (Option.some.inj h).symm⟩
    · exact .inr h
  constructor
  case invite =>
    intro u it h
    rcases hcases h with ⟨rfl, rfl⟩ | hold
    · exact ⟨rfl, List.getElem?_concat_length⟩
    · obtain ⟨hid, hreceived⟩ := hs.invite u it hold
      refine ⟨hid, ?_⟩
      rw [List.getElem?_append_left (List.getElem?_eq_some_iff.mp hreceived).1]
      exact hreceived
  case pending =>
    intro u it h hmem
    rcases hcases h with ⟨rfl, rfl⟩ | hold
    · exact absurd (hs.made _ hmem) (Nat.lt_irrefl _)
    · exact hs.pending u it hold hmem
  case made =>
    intro k hk
    rw [List.length_append]
    exact Nat.lt_add_right _ (hs.made k hk)

theorem keyed_step (hs : Keyed s) {a : Action} (hstep : s.step a = some s') : Keyed s' := by
  cases a with
  | invitationHandler senderId sceneId =>
    cases hstep
    obtain ⟨t, heq, ⟨-, rfl⟩ | ⟨it, hlookup, rfl⟩⟩ := invitationHandler_cases s senderId sceneId
    · rw [heq]
      exact keyed_insert hs ⟨senderId, sceneId⟩
    · rw [heq]
      have hclose := keyed_close hs hlookup
      exact keyed_insert (s := (s.close it senderId).onInvitationCanceled senderId)
        ⟨hclose.invite, hclose.pending, hclose.made⟩ ⟨senderId, sceneId⟩
  | cancel i =>
    cases cancel_eq_some hstep
    exact ⟨hs.invite, hs.pending, hs.made⟩
  | runPosted j =>
    obtain ⟨i, invite, -, -, rfl⟩ := runPosted_eq_some hstep
    have hold : ∀ {u it}, (s.invitations.erase invite.userId).lookup u = some it →
        s.invitations.lookup u = some it := by
      intro u it h
      rw [Slots.Table.lookup_erase_eq] at h
      split at h
      · cases h
      · exact h
    exact ⟨fun u it h => hs.invite u it (hold h), fun u it h => hs.pending u it (hold h), hs.made⟩
  | joinParty invitation =>
    cases hstep
    rcases joinParty_cases s invitation with ⟨-, heq⟩ | ⟨it, hlookup, heq⟩
    · rw [heq]
      exact hs
    · rw [heq]
      have hclose := keyed_close hs hlookup
      exact ⟨hclose.invite, hclose.pending, hclose.made⟩

theorem keyed_init : Keyed init where
  invite := by
    intro u it h
    cases h
  pending := by
    intro u it h
    cases h
  made := List.forall_mem_nil _

/-! ### What a step concerns -/

/-- Entries that one key loses, and notifications of that key. -/
theorem concerns_of_key {own : Nat → Prop} (userId : String)
    (hown : ∀ it, s.invitations.lookup userId = some it → own it.tce)
    (hothers : ∀ u, u ≠ userId → s'.invitations.lookup u = s.invitations.lookup u)
    (hcompleted : ∀ k ∈ s'.completed, k ∉ s.completed →
      ∃ it, s.invitations.lookup userId = some it ∧ it.tce = k)
    (hnotified : ∃ l, s'.notified = s.notified ++ l ∧ ∀ u ∈ l, u = userId) :
    Concerns own s s' where
  removed := by
    intro u it hlookup hlost
    rcases eq_or_ne u userId with rfl | hne
    · exact hown it hlookup
    · exact absurd ((hothers u hne).trans hlookup) hlost
  completed := by
    intro k hk hnot
    obtain ⟨it, hlookup, rfl⟩ := hcompleted k hk hnot
    exact hown it hlookup
  notified := by
    intro u hu it hlookup
    obtain ⟨l, heq, hl⟩ := hnotified
    rw [heq, List.drop_left] at hu
    exact hown it (hl u hu ▸ hlookup)

theorem concerns_self (own : Nat → Prop) (h : s'.invitations = s.invitations)
    (hcompleted : s'.completed = s.completed) (hnotified : s'.notified = s.notified) :
    Concerns own s s' where
  removed := fun _ _ hlookup hlost => absurd (h ▸ hlookup) hlost
  completed := fun _ hk hnot => absurd (hcompleted ▸ hk) hnot
  notified := by
    intro u hu
    rw [hnotified, List.drop_length] at hu
    cases hu

theorem isolated_invitationHandler (hs : Keyed s) (senderId sceneId : String) :
    Isolated s (.invitationHandler senderId sceneId) (s.invitationHandler senderId sceneId) := by
  obtain ⟨t, heq, ⟨hnone, rfl⟩ | ⟨it, hlookup, rfl⟩⟩ :=
    invitationHandler_cases s senderId sceneId
  · rw [heq]
    refine concerns_of_key senderId (fun it h => ?_) (fun u hu => ?_)
      (fun k hk hnot => absurd hk hnot) ⟨[], (List.append_nil _).symm, List.forall_mem_nil _⟩
    · rw [hnone] at h
      cases h
    · exact (Slots.Table.lookup_insert_eq _ _ _ _).trans (if_neg hu)
  · rw [heq]
    refine concerns_of_key senderId (fun it' h => ?_) (fun u hu => ?_)
      (fun k hk hnot => ?_) ⟨[senderId], rfl, List.forall_mem_singleton.mpr rfl⟩
    · obtain ⟨hid, hreceived⟩ := hs.invite senderId it' h
      rw [hreceived]
      exact congrArg some hid
    · refine (Slots.Table.lookup_insert_eq _ _ _ _).trans ((if_neg hu).trans ?_)
      exact (Slots.Table.lookup_erase_eq _ _ _).trans (if_neg hu)
    · rcases List.mem_append.mp hk with hold | hnew
      · exact absurd hold hnot
      · exact ⟨it, hlookup, (List.mem_singleton.mp hnew).symm⟩

theorem isolated_runPosted_iff {j : Nat} (h : s.runPosted j = some s') :
    Isolated s (.runPosted j) s' ↔ s.FindsOwn (.runPosted j) := by
  obtain ⟨i, invite, hi, hinvite, rfl⟩ := runPosted_eq_some h
  unfold FindsOwn findsOwn
  dsimp only
  rw [hi, Option.all_some, hinvite, Option.all_some, Option.all_eq_true]
  constructor
  · intro hisolated it hlookup
    refine decide_eq_true (Option.some.inj (hi.symm.trans ?_)).symm
    refine hisolated.removed invite.userId it hlookup ?_
    dsimp only
    rw [Slots.Table.lookup_erase_eq, if_pos rfl]
    exact (Option.some_ne_none it).symm
  · intro hown
    refine concerns_of_key invite.userId (fun it hlookup => ?_) (fun u hu => ?_)
      (fun k hk hnot => absurd hk hnot) ⟨[invite.userId], rfl, List.forall_mem_singleton.mpr rfl⟩
    · rw [of_decide_eq_true (hown it hlookup)]
      exact hi
    · exact (Slots.Table.lookup_erase_eq _ _ _).trans (if_neg hu)

theorem isolated_joinParty_iff (hs : Keyed s) (invitation : PartyInvitation) :
    Isolated s (.joinParty invitation) (s.joinParty invitation) ↔
      s.FindsOwn (.joinParty invitation) := by
  unfold FindsOwn findsOwn
  dsimp only
  rcases joinParty_cases s invitation with ⟨hnone, heq⟩ | ⟨it, hlookup, heq⟩
  · rw [heq, hnone]
    exact iff_of_true (concerns_self _ rfl rfl rfl) rfl
  · obtain ⟨-, hreceived⟩ := hs.invite _ it hlookup
    rw [heq, hlookup, Option.all_some, decide_eq_true_eq]
    constructor
    · intro hisolated
      refine Option.some.inj (hreceived.symm.trans ?_)
      refine hisolated.removed _ it hlookup ?_
      show (s.invitations.erase invitation.userId).lookup invitation.userId ≠ some it
      rw [Slots.Table.lookup_erase_eq, if_pos rfl]
      exact (Option.some_ne_none it).symm
    · intro hsame
      refine concerns_of_key invitation.userId (fun it' hlookup' => ?_)
        (fun u hu => ?_) (fun k hk hnot => ?_)
        ⟨[], (List.append_nil _).symm, List.forall_mem_nil _⟩
      · cases hlookup.symm.trans hlookup'
        rw [hreceived, hsame]
      · exact (Slots.Table.lookup_erase_eq _ _ _).trans (if_neg hu)
      · rcases List.mem_append.mp hk with hold | hnew
        · exact absurd hold hnot
        · exact ⟨it, hlookup, (List.mem_singleton.mp hnew).symm⟩

theorem isolated_iff (hs : Keyed s) {a : Action} (hstep : s.step a = some s') :
    Isolated s a s' ↔ s.FindsOwn a := by
  cases a with
  | invitationHandler senderId sceneId =>
    cases hstep
    exact iff_of_true (isolated_invitationHandler hs senderId sceneId) rfl
  | cancel i =>
    cases cancel_eq_some hstep
    exact iff_of_true (concerns_self _ rfl rfl rfl) rfl
  | runPosted j => exact isolated_runPosted_iff hstep
  | joinParty invitation =>
    cases hstep
    exact isolated_joinParty_iff hs invitation

/-! ### What becomes of an invitation -/

theorem accounted_step (hs : Accounted s) {a : Action} (hguard : s.FindsOwn a)
    (hstep : s.step a = some s') : Accounted s' := by
  cases a with
  | invitationHandler senderId sceneId =>
    cases hstep
    obtain ⟨t, heq, hbefore⟩ := invitationHandler_cases s senderId sceneId
    have hsame : t.received = s.received ∧ t.ran = s.ran ∧ t.joined = s.joined ∧
        ∀ u, u ≠ senderId → t.invitations.lookup u = s.invitations.lookup u := by
      rcases hbefore with ⟨-, rfl⟩ | ⟨it, -, rfl⟩
      · exact ⟨rfl, rfl, rfl, fun _ _ => rfl⟩
      · exact ⟨rfl, rfl, rfl, fun u hu => (Slots.Table.lookup_erase_eq _ _ _).trans (if_neg hu)⟩
    obtain ⟨hreceived, hran, hjoined, hlookup⟩ := hsame
    rw [heq]
    intro k invite hk
    dsimp only at hk ⊢
    rw [hreceived] at hk ⊢
    rw [hran, hjoined, Slots.Table.lookup_insert_eq]
    rcases Nat.lt_or_ge k s.received.length with hlt | hge
    · rw [List.getElem?_append_left hlt] at hk
      rcases eq_or_ne invite.userId senderId with hsender | hother
      · -- The new invitation replaces it, if it was still pending.
        exact .inr (.inr (.inr ⟨_, _, hlt, List.getElem?_concat_length, hsender.symm⟩))
      · rw [if_neg hother, hlookup _ hother]
        rcases hs k invite hk with h | h | h | ⟨k', invite', hlater, hk', huser⟩
        · exact .inl h
        · exact .inr (.inl h)
        · exact .inr (.inr (.inl h))
        · refine .inr (.inr (.inr ⟨k', invite', hlater, ?_, huser⟩))
          rw [List.getElem?_append_left (List.getElem?_eq_some_iff.mp hk').1]
          exact hk'
    · have hlast := (List.getElem?_eq_some_iff.mp hk).1
      rw [List.length_append, List.length_singleton] at hlast
      obtain rfl : k = s.received.length := Nat.le_antisymm (Nat.le_of_lt_succ hlast) hge
      rw [List.getElem?_concat_length] at hk
      cases hk
      exact .inl (if_pos rfl)
  | cancel i =>
    cases cancel_eq_some hstep
    exact hs
  | runPosted j =>
    obtain ⟨i, canceled, hi, hcanceled, rfl⟩ := runPosted_eq_some hstep
    unfold FindsOwn findsOwn at hguard
    dsimp only at hguard
    rw [hi, Option.all_some, hcanceled, Option.all_some, Option.all_eq_true] at hguard
    intro k invite hk
    dsimp only
    rw [Slots.Table.lookup_erase_eq]
    rcases hs k invite hk with h | h | h
    · split
      · next heq =>
        have hown := of_decide_eq_true (hguard _ (heq ▸ h))
        exact .inr (.inl (hown ▸ List.mem_append_right _ (List.mem_singleton_self _)))
      · exact .inl h
    · exact .inr (.inl (List.mem_append_left _ h))
    · exact .inr (.inr h)
  | joinParty invitation =>
    cases hstep
    rcases joinParty_cases s invitation with ⟨-, heq⟩ | ⟨it, hlookup, heq⟩
    · rw [heq]
      exact hs
    · unfold FindsOwn findsOwn at hguard
      dsimp only at hguard
      rw [hlookup, Option.all_some, decide_eq_true_eq] at hguard
      rw [heq]
      intro k invite hk
      show (s.invitations.erase invitation.userId).lookup invite.userId = _ ∨ k ∈ s.ran ∨
        invite ∈ s.joined ++ [invitation] ∨ _
      rw [Slots.Table.lookup_erase_eq]
      rcases hs k invite hk with h | h | h | h
      · split
        · next hsame =>
          rw [hsame, hlookup] at h
          cases h
          exact .inr (.inr (.inl (hguard ▸ List.mem_append_right _ (List.mem_singleton_self _))))
        · exact .inl h
      · exact .inr (.inl h)
      · exact .inr (.inr (.inl (List.mem_append_left _ h)))
      · exact .inr (.inr (.inr h))

theorem accounted_init : Accounted init := by
  intro k invite hk
  cases hk

end InvitationsLemmas

open InvitationsLemmas

/-! ## Results -/

/-- In every reachable state, whatever happened before, a step concerns its own invitation
exactly when it finds its own entry or none. -/
theorem invitations_isolated_iff {s s' : Invitations} {a : Action}
    (h : Lts.Reachable step Lts.anyStep init s) (hstep : s.step a = some s') :
    Isolated s a s' ↔ s.FindsOwn a :=
  isolated_iff (h.invariant keyed_init fun _ _ _ hs _ hstep => keyed_step hs hstep) hstep

/-- A cancellation that runs while two senders have invitations. -/
theorem invitations_isolated_twoSenders : ∃ s s', s.step (.runPosted 0) = some s' ∧
    (s'.invitations.lookup "b").isSome = true ∧ Isolated s (.runPosted 0) s' := by
  obtain ⟨s, hreach, htest⟩ := Lts.Reachable.of_exec step Lts.anyStep init
    [.invitationHandler "a" "A", .invitationHandler "b" "B", .cancel 0]
    (fun s => (s.step (.runPosted 0)).any fun s' =>
      s.findsOwn (.runPosted 0) && (s'.invitations.lookup "b").isSome) (by decide +kernel)
  obtain ⟨s', hstep, htest⟩ := (Option.any_eq_true _ _).mp htest
  obtain ⟨hown, hkept⟩ := (Bool.and_eq_true _ _).mp htest
  exact ⟨s, s', hstep, hkept, (invitations_isolated_iff hreach hstep).mpr hown⟩

/-- In a run of steps that find their own entry or none, each invitation is pending, or its own
cancellation ran, or it was accepted, or replaced by a later one of its sender. -/
theorem invitation_accounted {s : Invitations} (h : Lts.Reachable step FindsOwn init s) :
    s.Accounted :=
  h.invariant accounted_init fun _ _ _ hs hguard hstep => accounted_step hs hguard hstep

/-- The sender cancels and invites again before the dispatcher runs the cancellation, which then
takes the new invitation. -/
theorem late_cancellation : ¬ ∀ s a s', Lts.Reachable step Lts.anyStep init s →
    s.step a = some s' → Isolated s a s' := by
  intro hall
  obtain ⟨s, hreach, htest⟩ := Lts.Reachable.of_exec step Lts.anyStep init
    [.invitationHandler "a" "A", .cancel 0, .invitationHandler "a" "B"]
    (fun s => (s.step (.runPosted 0)).any fun s' =>
      decide (s.posted = [0] ∧ s.invitations.lookup "a" = some ⟨⟨"a", "B"⟩, 1⟩) &&
        (s'.invitations.lookup "a").isNone) (by decide +kernel)
  obtain ⟨s', hstep, htest⟩ := (Option.any_eq_true _ _).mp htest
  obtain ⟨htest, hgone⟩ := (Bool.and_eq_true _ _).mp htest
  obtain ⟨hposted, hentry⟩ := of_decide_eq_true htest
  have hisolated : Concerns (fun k => s.posted[0]? = some k) s s' :=
    hall s (.runPosted 0) s' hreach hstep
  have hlost : s'.invitations.lookup "a" ≠ some ⟨⟨"a", "B"⟩, 1⟩ := by
    rw [Option.isNone_iff_eq_none.mp hgone]
    exact (Option.some_ne_none _).symm
  have hown := hisolated.removed "a" _ hentry hlost
  rw [hposted] at hown
  exact absurd hown (by decide)

end Invitations

end Stormancer.Party
