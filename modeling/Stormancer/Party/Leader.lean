import Mathlib.Data.List.Induction
import Mathlib.Logic.Basic
import Stormancer.Lib.Run
import Stormancer.Party.Service

/-!
# The leader of the party and the flags of its members

`isLeader` of a member is computed locally: `updateLeader` clears the first flag that is set and
sets the flag of the first member with the id of the leader. It is called for a full state and
for a change of the leader, not when a member connects.

Results:
1. `leader_flags`: the flags say who leads as long as each message meets `keepsFlags`, and the
   first message that does not breaks them.
2. `leader_without_flag`: a leader that leaves and comes back has no flag.
-/

namespace Stormancer.Party.PartyService

/-! ## The property -/

/-- A member is flagged exactly when it is the leader. -/
def LeaderFlags (s : PartyService) : Prop :=
  ∀ m ∈ s.state.members, m.isLeader = true ↔ m.userId = s.state.leaderId

/-! ## The condition -/

/-- How many members have the id. -/
def countMember (members : List PartyUserDto) (userId : String) : Nat :=
  members.countP fun m => userId == m.userId

/-- The version check lets the update through. -/
def accepts (s : PartyService) (versionNumber : Option Int) : Bool :=
  versionNumber.any fun v => decide (0 < s.state.version ∧ v = s.state.version + 1)

/-- What is read of an update after the version check. -/
def applies {α : Type} (s : PartyService) (versionNumber : Option Int) (payload : Option α) :
    Option α :=
  if s.accepts versionNumber then payload else none

/-- At most one member has the id of the leader in a full state, and of the new leader in a change
of the leader, and the member that connects is not the leader. -/
def keepsFlags (s : PartyService) : Action → Bool
  | .getPartyStateResponse (some state) =>
    decide (countMember state.members state.leaderId ≤ 1)
  | .update versionNumber (.memberConnected payload) =>
    (s.applies versionNumber payload).all fun m => decide (m.userId ≠ s.state.leaderId)
  | .update versionNumber (.leaderChanged payload) =>
    (s.applies versionNumber payload).all fun leaderId =>
      decide (countMember s.state.members leaderId ≤ 1)
  | _ => true

abbrev KeepsFlags (s : PartyService) (a : Action) : Prop := s.keepsFlags a = true

/-! ## The invariant -/

structure Led (s : PartyService) : Prop where
  flags : s.LeaderFlags
  single : countMember s.state.members s.state.leaderId ≤ 1

/-- The flags of the state are right only under the condition, and the state is led under it. -/
def BreaksUnless (s : PartyService) (p : Prop) : Prop :=
  (s.LeaderFlags → p) ∧ (p → Led s)

/-! ## Helpers -/

namespace LeaderLemmas

open ServiceLemmas

variable {s s' : PartyService} {members : List PartyUserDto} {userId : String}

theorem countMember_cons (userId : String) (m : PartyUserDto) (members : List PartyUserDto) :
    countMember (m :: members) userId =
      countMember members userId + if m.userId = userId then 1 else 0 := by
  rw [countMember, List.countP_cons]
  simp only [beq_iff_eq, eq_comm (a := userId), countMember]

theorem countMember_eq_zero : countMember members userId = 0 ↔
    ∀ m ∈ members, m.userId ≠ userId := by
  rw [countMember, List.countP_eq_zero]
  refine forall₂_congr fun m _ => not_congr ?_
  rw [beq_iff_eq]
  exact eq_comm

/-! ### The flags and ids alone -/

/-- What the property reads of a member. -/
def badge (m : PartyUserDto) : String × Bool := (m.userId, m.isLeader)

theorem countMember_badges (members : List PartyUserDto) (userId : String) :
    countMember members userId = (members.map badge).countP fun b => userId == b.1 := by
  rw [List.countP_map]
  rfl

/-- The members may have changed, but not the flags and the ids. -/
structure SameBadges (s s' : PartyService) : Prop where
  leaderId : s'.state.leaderId = s.state.leaderId
  badges : s'.state.members.map badge = s.state.members.map badge

theorem SameBadges.refl (s : PartyService) : SameBadges s s := ⟨rfl, rfl⟩

theorem SameBadges.trans {t : PartyService} (h : SameBadges s t) (h' : SameBadges t s') :
    SameBadges s s' :=
  ⟨h'.leaderId.trans h.leaderId, h'.badges.trans h.badges⟩

theorem leaderFlags_badges : s.LeaderFlags ↔
    ∀ b ∈ s.state.members.map badge, b.2 = true ↔ b.1 = s.state.leaderId := by
  rw [List.forall_mem_map]
  rfl

theorem led_of_same (h : SameBadges s s') (hs : Led s) : Led s' := by
  constructor
  · rw [leaderFlags_badges, h.badges, h.leaderId]
    exact leaderFlags_badges.mp hs.flags
  · rw [countMember_badges, h.badges, h.leaderId, ← countMember_badges]
    exact hs.single

theorem modifyFirst_badges {p : PartyUserDto → Bool} {f : PartyUserDto → PartyUserDto}
    (hf : ∀ m, badge (f m) = badge m) (members : List PartyUserDto) :
    (modifyFirst p f members).map badge = members.map badge := by
  refine List.lookmap_map_eq _ _ ?_ members
  intro m m' hm
  split at hm
  · cases hm
    exact (hf m).symm
  · cases hm

/-! ### `updateLeader` -/

theorem modifyFirst_cons (p : PartyUserDto → Bool) (f : PartyUserDto → PartyUserDto)
    (m : PartyUserDto) (members : List PartyUserDto) :
    modifyFirst p f (m :: members) =
      if p m then f m :: members else m :: modifyFirst p f members := by
  unfold modifyFirst
  rw [List.lookmap_cons]
  cases p m <;> rfl

theorem countMember_setLeader (p : PartyUserDto → Bool) (isLeader : Bool)
    (members : List PartyUserDto) (userId : String) :
    countMember (modifyFirst p (·.setLeader isLeader) members) userId =
      countMember members userId := by
  have hids : (modifyFirst p (·.setLeader isLeader) members).map (·.userId) =
      members.map (·.userId) := by
    refine List.lookmap_map_eq _ _ ?_ members
    intro m m' hm
    split at hm
    · cases hm
      rfl
    · cases hm
  have hcount : ∀ l : List PartyUserDto,
      countMember l userId = (l.map (·.userId)).countP fun id => userId == id := by
    intro l
    rw [List.countP_map]
    rfl
  rw [hcount, hids, ← hcount]

/-- Clearing the first flag clears the only one. -/
theorem none_flagged (h : members.countP (·.isLeader) ≤ 1) :
    ∀ m ∈ modifyFirst (·.isLeader) (·.setLeader false) members, m.isLeader = false := by
  induction members with
  | nil => exact List.forall_mem_nil _
  | cons m members ih =>
    rw [List.countP_cons] at h
    rw [modifyFirst_cons]
    cases hm : m.isLeader with
    | true =>
      rw [hm, if_pos rfl] at h
      have hrest := List.countP_eq_zero.mp (Nat.le_zero.mp (Nat.le_of_succ_le_succ h))
      rw [if_pos rfl]
      refine List.forall_mem_cons.mpr ⟨rfl, fun m' hm' => ?_⟩
      exact Bool.eq_false_iff.mpr (hrest m' hm')
    | false =>
      rw [hm, if_neg Bool.false_ne_true, Nat.add_zero] at h
      rw [if_neg Bool.false_ne_true]
      exact List.forall_mem_cons.mpr ⟨hm, ih h⟩

/-- Flagging the first member with the id is enough exactly when there is no second. -/
theorem flagged_iff (h : ∀ m ∈ members, m.isLeader = false) :
    (∀ m ∈ modifyMember userId (·.setLeader true) members,
      m.isLeader = true ↔ m.userId = userId) ↔ countMember members userId ≤ 1 := by
  induction members with
  | nil => exact iff_of_true (List.forall_mem_nil _) (Nat.zero_le _)
  | cons m members ih =>
    obtain ⟨hm, hrest⟩ := List.forall_mem_cons.mp h
    rw [modifyMember, modifyFirst_cons, countMember_cons]
    rcases eq_or_ne m.userId userId with heq | hne
    · subst heq
      rw [if_pos (beq_self_eq_true _), if_pos rfl, List.forall_mem_cons, Nat.succ_le_succ_iff,
        Nat.le_zero, countMember_eq_zero]
      refine (and_iff_right (iff_of_true rfl rfl)).trans (forall₂_congr fun m' hm' => ?_)
      rw [hrest m' hm']
      exact ⟨fun hiff heq => Bool.false_ne_true (hiff.mpr heq),
        fun hne => iff_of_false Bool.false_ne_true hne⟩
    · rw [if_neg (mt beq_iff_eq.mp hne.symm), if_neg hne, List.forall_mem_cons, Nat.add_zero,
        ← ih hrest]
      exact and_iff_right (iff_of_false (by rw [hm]; exact Bool.false_ne_true) hne)

theorem updateLeader_iff (h : s.state.members.countP (·.isLeader) ≤ 1) :
    s.updateLeader.LeaderFlags ↔ countMember s.state.members s.state.leaderId ≤ 1 := by
  refine (flagged_iff (none_flagged h)).trans ?_
  rw [countMember_setLeader]

theorem led_updateLeader_iff (h : s.state.members.countP (·.isLeader) ≤ 1) :
    Led s.updateLeader ↔ countMember s.state.members s.state.leaderId ≤ 1 := by
  have hsingle : countMember s.updateLeader.state.members s.state.leaderId =
      countMember s.state.members s.state.leaderId :=
    (countMember_setLeader _ _ _ _).trans (countMember_setLeader _ _ _ _)
  constructor
  · exact fun hled => hsingle ▸ hled.single
  · exact fun hcount => ⟨(updateLeader_iff h).mpr hcount, Nat.le_trans (Nat.le_of_eq hsingle) hcount⟩

/-- In a party that is led at most one flag is set. -/
theorem count_flags (h : Led s) : s.state.members.countP (·.isLeader) ≤ 1 := by
  refine Nat.le_trans (Nat.le_of_eq (List.countP_congr fun m hm => ?_)) h.single
  rw [beq_iff_eq, h.flags m hm]
  exact eq_comm

/-! ### One message -/

theorem same_updateGameFinder (s : PartyService) : SameBadges s s.updateGameFinder := by
  unfold updateGameFinder
  split <;> exact ⟨rfl, rfl⟩

theorem same_syncPartyState (s : PartyService) : SameBadges s s.syncPartyState := by
  unfold syncPartyState
  split <;> exact ⟨rfl, rfl⟩

/-- What an update does, by whether it is read. -/
theorem handleUpdate_spec {α : Type} (s : PartyService) (versionNumber : Option Int)
    (payload : Option α) (apply : α → PartyService → PartyService) :
    ∃ t, SameBadges s t ∧ s.handleUpdate versionNumber payload apply =
      (s.applies versionNumber payload).elim t fun a => apply a t := by
  unfold applies accepts
  cases versionNumber with
  | none => exact ⟨s, SameBadges.refl s, rfl⟩
  | some v =>
    rw [Option.any_some]
    by_cases hv : 0 < s.state.version ∧ v = s.state.version + 1
    · rw [if_pos (decide_eq_true hv)]
      cases payload with
      | none =>
        refine ⟨_, ?_, handleUpdate_unread hv apply⟩
        exact ⟨rfl, rfl⟩
      | some a =>
        refine ⟨_, ?_, handleUpdate_read hv a apply⟩
        exact ⟨rfl, rfl⟩
    · rw [if_neg (mt of_decide_eq_true hv)]
      exact ⟨_, same_syncPartyState s, handleUpdate_refused hv payload apply⟩

/-- An update that changes no flag and no id, once it is read. -/
theorem led_handleUpdate {α : Type} (hs : Led s) (versionNumber : Option Int)
    (payload : Option α) {apply : α → PartyService → PartyService}
    (happly : ∀ a t, Led t → Led (apply a t)) :
    Led (s.handleUpdate versionNumber payload apply) := by
  obtain ⟨t, hsame, heq⟩ := handleUpdate_spec s versionNumber payload apply
  rw [heq]
  cases s.applies versionNumber payload with
  | none => exact led_of_same hsame hs
  | some a => exact happly a t (led_of_same hsame hs)

theorem led_setMembers {members : List PartyUserDto} (hs : Led s)
    (h : members.map badge = s.state.members.map badge) : Led (s.setMembers members).raiseMembers :=
  led_of_same (SameBadges.mk (s := s) rfl h) hs

theorem led_settingsUpdate (hs : Led s) (versionNumber : Option Int)
    (payload : Option PartySettingsInternal) :
    Led (s.handleSettingsUpdate versionNumber payload) := by
  refine led_handleUpdate hs versionNumber payload fun settings t ht => ?_
  let t' := { t with state := { t.state with settings := settings } }
  have hset : SameBadges t t' := ⟨rfl, rfl⟩
  have hsame := hset.trans (same_updateGameFinder t')
  exact led_of_same ⟨hsame.leaderId, hsame.badges⟩ ht

theorem led_userDataUpdate (hs : Led s) (versionNumber : Option Int)
    (payload : Option PartyUserData) : Led (s.handleUserDataUpdate versionNumber payload) := by
  refine led_handleUpdate hs versionNumber payload fun update t ht => ?_
  dsimp only
  split
  · exact led_setMembers ht
      (modifyFirst_badges (f := (·.setUserData update.userData)) (fun _ => rfl) _)
  · exact ht

theorem led_memberStatusUpdate (hs : Led s) (versionNumber : Option Int)
    (payload : Option BatchStatusUpdate) :
    Led (s.handleMemberStatusUpdate versionNumber payload) := by
  refine led_handleUpdate hs versionNumber payload fun updates t ht => ?_
  refine led_setMembers ht ?_
  induction updates.memberStatus using List.reverseRecOn with
  | nil => rfl
  | append_singleton statuses status ih =>
    rw [List.foldl_append, List.foldl_cons, List.foldl_nil]
    exact (modifyFirst_badges (f := (·.setStatus status.status)) (fun _ => rfl) _).trans ih

theorem led_memberDisconnected (hs : Led s) (versionNumber : Option Int)
    (payload : Option MemberDisconnection) :
    Led (s.handleMemberDisconnected versionNumber payload) := by
  refine led_handleUpdate hs versionNumber payload fun message t ht => ?_
  dsimp only
  split
  · have hsub := List.eraseP_sublist (p := fun m => message.userId == m.userId)
      (l := t.state.members)
    exact ⟨fun m hm => ht.flags m (hsub.subset hm), Nat.le_trans hsub.countP_le ht.single⟩
  · exact ht

/-- A member that connects is not flagged, so it must not be the leader. -/
theorem led_memberConnected (hs : Led s) (versionNumber : Option Int)
    (payload : Option PartyUserDto) :
    BreaksUnless (s.handleMemberConnected versionNumber payload)
      ((s.applies versionNumber payload).all (fun m => decide (m.userId ≠ s.state.leaderId)) =
        true) := by
  obtain ⟨t, hsame, heq⟩ := handleUpdate_spec s versionNumber payload fun member s =>
    (s.setMembers (s.state.members ++ [member.read])).raiseMembers
  have ht := led_of_same hsame hs
  unfold handleMemberConnected
  rw [heq]
  cases s.applies versionNumber payload with
  | none => exact ⟨fun _ => rfl, fun _ => ht⟩
  | some m =>
    rw [Option.all_some, decide_eq_true_eq, ← hsame.leaderId]
    constructor
    · intro hflags heq
      have hflag := hflags m.read (List.mem_append_right _ (List.mem_singleton_self _))
      exact Bool.false_ne_true (hflag.mpr heq)
    · intro hne
      constructor
      · refine List.forall_mem_append.mpr ⟨ht.flags, List.forall_mem_singleton.mpr ?_⟩
        exact iff_of_false Bool.false_ne_true hne
      · show countMember (t.state.members ++ [m.read]) t.state.leaderId ≤ 1
        have hnone : countMember [m.read] t.state.leaderId = 0 :=
          countMember_eq_zero.mpr (List.forall_mem_singleton.mpr hne)
        rw [countMember, List.countP_append]
        exact Nat.le_trans (Nat.le_of_eq (congrArg _ hnone)) ht.single

theorem led_leaderChanged (hs : Led s) (versionNumber : Option Int) (payload : Option String) :
    BreaksUnless (s.handleLeaderChanged versionNumber payload)
      ((s.applies versionNumber payload).all
        (fun leaderId => decide (countMember s.state.members leaderId ≤ 1)) = true) := by
  obtain ⟨t, hsame, heq⟩ := handleUpdate_spec s versionNumber payload fun leaderId s =>
    if s.state.leaderId = leaderId then s
    else
      let s := { s with state := { s.state with leaderId := leaderId } }
      s.updateLeader.raiseMembers
  have ht := led_of_same hsame hs
  unfold handleLeaderChanged
  rw [heq]
  cases s.applies versionNumber payload with
  | none => exact ⟨fun _ => rfl, fun _ => ht⟩
  | some leaderId =>
    rw [Option.all_some, decide_eq_true_eq, countMember_badges, ← hsame.badges,
      ← countMember_badges, Option.elim_some]
    split
    · next hsameId => exact ⟨fun _ => hsameId ▸ ht.single, fun _ => ht⟩
    · let t' := { t with state := { t.state with leaderId := leaderId } }
      have hcount := count_flags ht
      constructor
      · exact fun hflags => (updateLeader_iff (s := t') hcount).mp hflags
      · intro hone
        have hled := (led_updateLeader_iff (s := t') hcount).mpr hone
        exact ⟨hled.flags, hled.single⟩

theorem led_partyStateResponse (s : PartyService) (state : PartyState) :
    BreaksUnless (s.handlePartyStateResponse (some state))
      (decide (countMember state.members state.leaderId ≤ 1) = true) := by
  let t := { s with state := state.read }
  have hread : t.state.members.countP (·.isLeader) ≤ 1 := by
    refine Nat.le_trans (Nat.le_of_eq (List.countP_eq_zero.mpr ?_)) (Nat.zero_le 1)
    intro m hm
    obtain ⟨m', -, rfl⟩ := List.mem_map.mp hm
    exact Bool.false_ne_true
  have hids : countMember t.state.members t.state.leaderId =
      countMember state.members state.leaderId :=
    List.countP_map
  have hfinder := same_updateGameFinder t.updateLeader
  have hsame : SameBadges t.updateLeader (s.handlePartyStateResponse (some state)) :=
    ⟨hfinder.leaderId, hfinder.badges⟩
  rw [decide_eq_true_eq, ← hids]
  constructor
  · intro hflags
    rw [leaderFlags_badges, hsame.badges, hsame.leaderId, ← leaderFlags_badges] at hflags
    exact (updateLeader_iff hread).mp hflags
  · exact fun hone => led_of_same hsame ((led_updateLeader_iff hread).mpr hone)

theorem led_step {a : Action} (hs : Led s) (hstep : s.step a = some s') :
    BreaksUnless s' (s.KeepsFlags a) := by
  have hkeeps : ∀ {t : PartyService}, Led t → BreaksUnless t (true = true) := fun ht =>
    ⟨fun _ => rfl, fun _ => ht⟩
  cases a with
  | getPartyStateResponse state =>
    cases hstep
    cases state with
    | none => exact hkeeps hs
    | some state => exact led_partyStateResponse s state
  | update versionNumber payload =>
    cases hstep
    cases payload with
    | settingsUpdated payload => exact hkeeps (led_settingsUpdate hs versionNumber payload)
    | memberDataUpdated payload => exact hkeeps (led_userDataUpdate hs versionNumber payload)
    | memberStatusUpdated payload => exact hkeeps (led_memberStatusUpdate hs versionNumber payload)
    | memberConnected payload => exact led_memberConnected hs versionNumber payload
    | memberDisconnected payload => exact hkeeps (led_memberDisconnected hs versionNumber payload)
    | leaderChanged payload => exact led_leaderChanged hs versionNumber payload
  | stateRequestEnded success =>
    unfold step at hstep
    dsimp only at hstep
    split at hstep
    · cases hstep
    · cases hstep
      refine hkeeps (led_of_same ?_ hs)
      split <;> exact ⟨rfl, rfl⟩

theorem led_init : Led init := ⟨List.forall_mem_nil _, Nat.zero_le _⟩

end LeaderLemmas

open LeaderLemmas

/-! ## Results -/

/-- As long as each message meets the condition the flags say who leads, and a message that does
not meet it breaks them. -/
theorem leader_flags {s : PartyService} (h : Lts.Reachable step KeepsFlags init s) :
    s.LeaderFlags ∧ ∀ a s', s.step a = some s' → (s'.LeaderFlags ↔ s.KeepsFlags a) := by
  have hled : Led s :=
    h.invariant led_init fun _ _ _ hs hguard hstep => (led_step hs hstep).2 hguard
  refine ⟨hled.flags, fun a s' hstep => ?_⟩
  have hbreaks := led_step hled hstep
  exact ⟨hbreaks.1, fun hguard => (hbreaks.2 hguard).flags⟩

def exMember (userId : String) : PartyUserDto := ⟨userId, .notReady, "", false⟩

/-- The full state of a party that "a" leads. -/
def exLed : PartyState := ⟨⟨"", "", 0⟩, "a", [exMember "a"], 1⟩

/-- A second member connects and takes over. -/
theorem leader_flags_handedOver : ∃ s : PartyService, s.state.leaderId = "b" ∧ s.LeaderFlags ∧
    ∀ a s', s.step a = some s' → (s'.LeaderFlags ↔ s.KeepsFlags a) := by
  obtain ⟨s, hreach, htest⟩ := Lts.Reachable.of_exec step KeepsFlags init
    [.getPartyStateResponse (some exLed), .update (some 2) (.memberConnected (some (exMember "b"))),
      .update (some 3) (.leaderChanged (some "b"))]
    (fun s => decide (s.state.leaderId = "b")) (by decide +kernel)
  exact ⟨s, of_decide_eq_true htest, leader_flags hreach⟩

/-- The leader leaves and comes back, and no message changes the leader. -/
theorem leader_without_flag : ¬ ∀ s, Lts.Reachable step Lts.anyStep init s → s.LeaderFlags := by
  intro hall
  obtain ⟨s, hreach, htest⟩ := Lts.Reachable.of_exec step Lts.anyStep init
    [.getPartyStateResponse (some exLed), .update (some 2) (.memberDisconnected (some ⟨"a", .left⟩)),
      .update (some 3) (.memberConnected (some (exMember "a")))]
    (fun s => decide (s.state.leaderId = "a" ∧ s.state.members = [exMember "a"]))
    (by decide +kernel)
  obtain ⟨hleader, hmembers⟩ := of_decide_eq_true htest
  have hflag := hall s hreach (exMember "a") (hmembers ▸ List.mem_singleton_self _)
  exact Bool.false_ne_true (hflag.mpr hleader.symm)

end Stormancer.Party.PartyService
