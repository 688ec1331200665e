import Mathlib.Data.List.Sigma
import Mathlib.Logic.Function.Basic
import Stormancer.Lib.Replica
import Stormancer.Lib.Run
import Stormancer.Party.Service

/-!
# Replication of the party

The server's party is a value of its own: the settings, the leader, and what is known of each
member. An update is a function on parties. The party of the client is one by `abs`, which
forgets the order of the members and the flags that are computed locally.

Results:
1. `receiveUpdate_of_next`: after the version check each handler does to the client's party what its
   update means.
2. `party_replicated`: the client's party is the server's at the version that is stored, the
   updates that are applied are those with the next version, none twice, and the others change
   nothing. The condition: the payload of an update with the next version can be decoded, and a
   full state has a positive version and does not take back an update that was applied.
3. `party_diverges`: a payload that cannot be decoded takes the version but not the update.
-/

namespace Stormancer.Party

/-! ## The party of the server -/

structure MemberInfo where
  partyUserStatus : PartyUserStatus
  userData : String
deriving DecidableEq

def MemberInfo.setUserData (userData : String) (i : MemberInfo) : MemberInfo :=
  { i with userData := userData }

def MemberInfo.setStatus (status : PartyUserStatus) (i : MemberInfo) : MemberInfo :=
  { i with partyUserStatus := status }

structure PartyData where
  settings : PartySettingsInternal
  leaderId : String
  members : String → Option MemberInfo

inductive Update
  | settings (settings : PartySettingsInternal)
  | userData (userId userData : String)
  | memberStatus (updates : List MemberStatusUpdate)
  | memberConnected (userId : String) (info : MemberInfo)
  | memberDisconnected (userId : String)
  | leaderChanged (leaderId : String)
deriving DecidableEq

/-- Changes what is known of a member, if there is one. -/
def changeMember (userId : String) (f : MemberInfo → MemberInfo)
    (members : String → Option MemberInfo) : String → Option MemberInfo :=
  Function.update members userId ((members userId).map f)

/-- A batch of statuses, one after the other. -/
def changeStatuses (updates : List MemberStatusUpdate)
    (members : String → Option MemberInfo) : String → Option MemberInfo :=
  updates.foldl (fun members u =>
    changeMember u.userId (MemberInfo.setStatus u.status) members) members

def Update.apply : Update → PartyData → PartyData
  | .settings x, p => { p with settings := x }
  | .userData userId data, p =>
    { p with members := changeMember userId (MemberInfo.setUserData data) p.members }
  | .memberStatus updates, p =>
    { p with members := changeStatuses updates p.members }
  | .memberConnected userId info, p =>
    { p with members := Function.update p.members userId (some info) }
  | .memberDisconnected userId, p =>
    { p with members := Function.update p.members userId none }
  | .leaderChanged leaderId, p => { p with leaderId := leaderId }

/-- A member connects only once. -/
def Update.Fits : Update → PartyData → Prop
  | .memberConnected userId _, p => p.members userId = none
  | _, _ => True

/-- What the server's party went through. -/
structure ServerHistory extends Replica.History Update.apply where
  fits : ∀ v, 0 < v → (update (v + 1)).Fits (state v)

/-! ## The party of the client -/

def PartyUserDto.info (m : PartyUserDto) : MemberInfo := ⟨m.partyUserStatus, m.userData⟩

/-- The members as pairs of a user id and what is known of the user. -/
def entries (members : List PartyUserDto) : List (Sigma fun _ : String => MemberInfo) :=
  members.map fun m => ⟨m.userId, m.info⟩

def abs (state : PartyState) : PartyData :=
  ⟨state.settings, state.leaderId, fun userId => (entries state.members).dlookup userId⟩

/-- What the payload says when it can be decoded. -/
def PartyService.Payload.decode : PartyService.Payload → Option Update
  | .settingsUpdated payload => payload.map .settings
  | .memberDataUpdated payload => payload.map fun u => .userData u.userId u.userData
  | .memberStatusUpdated payload => payload.map fun u => .memberStatus u.memberStatus
  | .memberConnected payload => payload.map fun m => .memberConnected m.userId m.info
  | .memberDisconnected payload => payload.map fun d => .memberDisconnected d.userId
  | .leaderChanged payload => payload.map .leaderChanged

/-! ## Conditions -/

/-- The message is the server's: a full state lists the party at its version, each member once,
and an update is the one that led to its version. -/
def Genuine (h : ServerHistory) : PartyService.Action → Prop
  | .getPartyStateResponse (some state) =>
    abs state = h.state state.version ∧ (entries state.members).NodupKeys
  | .update (some version) payload =>
    ∀ u, payload.decode = some u → u = h.update version
  | _ => True

/-- The condition under which a message keeps the replica in order. -/
def Orderly (s : PartyService) : PartyService.Action → Prop
  | .getPartyStateResponse (some state) =>
    0 < state.version ∧ ∀ w ∈ s.applied, w ≤ state.version
  | .update versionNumber payload =>
    0 < s.state.version → versionNumber = some (s.state.version + 1) →
      payload.decode.isSome = true
  | _ => True

/-- Once a full state was received, the client's party is the server's at its version. -/
def Replicated (h : ServerHistory) (s : PartyService) : Prop :=
  s.partyStateReceived = true → abs s.state = h.state s.state.version

/-- An update that cannot be decoded changes nothing. One that can is applied exactly when its
version is the next, once there is a party. -/
def UpdatesExactly (s : PartyService) (a : PartyService.Action) (s' : PartyService) : Prop :=
  match a with
  | .update versionNumber payload =>
    (payload.decode = none → s'.state = s.state ∧ s'.applied = s.applied) ∧
    ∀ u, payload.decode = some u → s.partyStateReceived = true →
      (versionNumber = some (s.state.version + 1) →
        s'.applied = s.applied ++ [s.state.version + 1] ∧
        s'.state.version = s.state.version + 1 ∧ abs s'.state = u.apply (abs s.state)) ∧
      (versionNumber ≠ some (s.state.version + 1) →
        s'.state = s.state ∧ s'.applied = s.applied)
  | _ => True

namespace ReplicationLemmas

open PartyService PartyService.ServiceLemmas

/-! ## Members -/

theorem userId_setLeader (isLeader : Bool) (m : PartyUserDto) :
    (m.setLeader isLeader).userId = m.userId := rfl

theorem info_setLeader (isLeader : Bool) (m : PartyUserDto) :
    (m.setLeader isLeader).info = m.info := rfl

theorem userId_setUserData (userData : String) (m : PartyUserDto) :
    (m.setUserData userData).userId = m.userId := rfl

theorem info_setUserData (userData : String) (m : PartyUserDto) :
    (m.setUserData userData).info = m.info.setUserData userData := rfl

theorem userId_setStatus (status : PartyUserStatus) (m : PartyUserDto) :
    (m.setStatus status).userId = m.userId := rfl

theorem info_setStatus (status : PartyUserStatus) (m : PartyUserDto) :
    (m.setStatus status).info = m.info.setStatus status := rfl

theorem keys_entries (members : List PartyUserDto) :
    (entries members).keys = members.map (·.userId) := by
  unfold entries List.keys
  rw [List.map_map]
  rfl

theorem entries_modifyFirst {p : PartyUserDto → Bool} {f : PartyUserDto → PartyUserDto}
    (hid : ∀ m, (f m).userId = m.userId) (hinfo : ∀ m, (f m).info = m.info)
    (members : List PartyUserDto) : entries (modifyFirst p f members) = entries members := by
  refine List.lookmap_map_eq _ _ ?_ members
  intro m m' hm
  split at hm
  · cases hm
    rw [hid, hinfo]
  · cases hm

theorem dlookup_entries_cons (m : PartyUserDto) (members : List PartyUserDto) (k : String) :
    (entries (m :: members)).dlookup k =
      if k = m.userId then some m.info else (entries members).dlookup k := by
  by_cases hk : k = m.userId
  · rw [if_pos hk, hk]
    exact List.dlookup_cons_eq _ _ _
  · rw [if_neg hk]
    exact List.dlookup_cons_ne _ _ hk

theorem modifyMember_cons (userId : String) (f : PartyUserDto → PartyUserDto)
    (m : PartyUserDto) (members : List PartyUserDto) :
    modifyMember userId f (m :: members) =
      if userId = m.userId then f m :: members else m :: modifyMember userId f members := by
  unfold modifyMember modifyFirst
  rw [List.lookmap_cons]
  by_cases hm : userId = m.userId <;> simp [hm]

/-- The change of the first member with a user id changes what is known of that user. -/
theorem dlookup_modifyMember {userId : String} {f : PartyUserDto → PartyUserDto}
    {g : MemberInfo → MemberInfo} (hid : ∀ m, (f m).userId = m.userId)
    (hinfo : ∀ m, (f m).info = g m.info) (members : List PartyUserDto) :
    (fun k => (entries (modifyMember userId f members)).dlookup k) =
      changeMember userId g fun k => (entries members).dlookup k := by
  funext k
  unfold changeMember
  induction members with
  | nil =>
    by_cases hk : k = userId
    · rw [hk, Function.update_self]
      rfl
    · rw [Function.update_of_ne hk]
      rfl
  | cons m members ih =>
    rw [modifyMember_cons]
    by_cases hk : k = userId
    · subst hk
      rw [Function.update_self] at ih ⊢
      simp only [dlookup_entries_cons] at ih ⊢
      by_cases hm : k = m.userId
      · rw [if_pos hm, if_pos hm, dlookup_entries_cons, hid, if_pos hm, hinfo]
        rfl
      · rw [if_neg hm, if_neg hm, dlookup_entries_cons, if_neg hm]
        exact ih
    · rw [Function.update_of_ne hk] at ih ⊢
      by_cases hm : userId = m.userId
      · rw [if_pos hm, dlookup_entries_cons, dlookup_entries_cons, hid, if_neg (hm ▸ hk),
          if_neg (hm ▸ hk)]
      · rw [if_neg hm, dlookup_entries_cons, dlookup_entries_cons, ih]

theorem keys_modifyMember {userId : String} {f : PartyUserDto → PartyUserDto}
    (hid : ∀ m, (f m).userId = m.userId) (members : List PartyUserDto) :
    (entries (modifyMember userId f members)).keys = (entries members).keys := by
  rw [keys_entries, keys_entries]
  refine List.lookmap_map_eq _ _ ?_ members
  intro m m' hm
  split at hm
  · cases hm
    exact (hid m).symm
  · cases hm

theorem entries_erase (userId : String) (members : List PartyUserDto) :
    entries (members.eraseP fun m => userId == m.userId) =
      (entries members).kerase userId := by
  unfold entries List.kerase
  rw [List.eraseP_map]
  congr 1

theorem hasMember_iff (members : List PartyUserDto) (userId : String) :
    hasMember members userId = true ↔ userId ∈ (entries members).keys := by
  rw [keys_entries, hasMember, List.any_eq_true]
  simp only [beq_iff_eq, List.mem_map]
  exact exists_congr fun m => and_congr_right fun _ => eq_comm

/-! ## What the handlers leave alone -/

/-- The party and the record of what was applied are the same. -/
structure Unchanged (s s' : PartyService) : Prop where
  state : s'.state = s.state
  applied : s'.applied = s.applied
  received : s'.partyStateReceived = s.partyStateReceived

theorem unchanged_refl (s : PartyService) : Unchanged s s := ⟨rfl, rfl, rfl⟩

theorem unchanged_updateGameFinder (s : PartyService) : Unchanged s s.updateGameFinder := by
  unfold updateGameFinder
  split <;> exact ⟨rfl, rfl, rfl⟩

theorem unchanged_syncPartyState (s : PartyService) : Unchanged s s.syncPartyState := by
  unfold syncPartyState
  split <;> exact ⟨rfl, rfl, rfl⟩

/-- `s'` is `s` with the update performed on the party. -/
structure Performs (u : Update) (s s' : PartyService) : Prop where
  version : s'.state.version = s.state.version
  abs : abs s'.state = u.apply (abs s.state)
  nodup : (entries s'.state.members).NodupKeys
  applied : s'.applied = s.applied
  received : s'.partyStateReceived = s.partyStateReceived

theorem performs_unchanged {u : Update} {s t s' : PartyService} (h : Performs u s t)
    (ht : Unchanged t s') : Performs u s s' where
  version := by rw [ht.state, h.version]
  abs := by rw [ht.state, h.abs]
  nodup := by rw [ht.state]; exact h.nodup
  applied := ht.applied.trans h.applied
  received := ht.received.trans h.received

/-- An update that only replaces the members. -/
theorem performs_setMembers {u : Update} {s : PartyService} {members : List PartyUserDto}
    (hu : u.apply (abs s.state) =
      { abs s.state with members := fun k => (entries members).dlookup k })
    (hnodup : (entries members).NodupKeys) : Performs u s (s.setMembers members) :=
  ⟨rfl, hu.symm, hnodup, rfl, rfl⟩

theorem performs_nothing {u : Update} {s : PartyService} (hu : u.apply (abs s.state) = abs s.state)
    (hnodup : (entries s.state.members).NodupKeys) : Performs u s s :=
  ⟨rfl, hu.symm, hnodup, rfl, rfl⟩

theorem entries_updateLeader (s : PartyService) :
    entries s.updateLeader.state.members = entries s.state.members := by
  unfold updateLeader modifyMember
  show entries (modifyFirst _ (·.setLeader true) (modifyFirst _ (·.setLeader false) _)) = _
  rw [entries_modifyFirst (userId_setLeader true) (info_setLeader true),
    entries_modifyFirst (userId_setLeader false) (info_setLeader false)]

theorem abs_updateLeader (s : PartyService) : abs s.updateLeader.state = abs s.state := by
  unfold abs
  rw [entries_updateLeader]
  rfl

theorem entries_read (members : List PartyUserDto) :
    entries (members.map PartyUserDto.read) = entries members := by
  unfold entries
  rw [List.map_map]
  rfl

/-! ## What the updates do -/

theorem dlookup_of_not_hasMember {members : List PartyUserDto} {userId : String}
    (h : hasMember members userId = false) : (entries members).dlookup userId = none := by
  rw [List.dlookup_eq_none, ← hasMember_iff, h]
  exact Bool.false_ne_true

theorem performs_settings (s : PartyService) (x : PartySettingsInternal)
    (hnodup : (entries s.state.members).NodupKeys) :
    Performs (.settings x) s
      ({ s with state := { s.state with settings := x } }).updateGameFinder.raiseSettings := by
  have hset : Performs (.settings x) s { s with state := { s.state with settings := x } } :=
    ⟨rfl, rfl, hnodup, rfl, rfl⟩
  refine performs_unchanged (performs_unchanged hset (unchanged_updateGameFinder _)) ?_
  exact ⟨rfl, rfl, rfl⟩

theorem performs_userData (s : PartyService) (u : PartyUserData)
    (hnodup : (entries s.state.members).NodupKeys) :
    Performs (.userData u.userId u.userData) s
      (if hasMember s.state.members u.userId then
        (s.setMembers (modifyMember u.userId (·.setUserData u.userData)
          s.state.members)).raiseMembers
      else s) := by
  split
  · refine performs_unchanged (performs_setMembers ?_ ?_) ⟨rfl, rfl, rfl⟩
    · rw [dlookup_modifyMember (userId_setUserData _) (info_setUserData _)]
      rfl
    · rw [List.NodupKeys, keys_modifyMember (userId_setUserData _)]
      exact hnodup
  · next hmember =>
    have hnone := dlookup_of_not_hasMember (Bool.eq_false_iff.mpr hmember)
    refine performs_nothing ?_ hnodup
    simp [Update.apply, changeMember, abs, hnone, Function.update_eq_self_iff]

/-- By induction on the batch. -/
theorem foldl_statuses (updates : List MemberStatusUpdate) (members : List PartyUserDto) :
    let members' := updates.foldl (fun members update => modifyMember update.userId
      (·.setStatus update.status) members) members
    (fun k => (entries members').dlookup k) =
      changeStatuses updates (fun k => (entries members).dlookup k) ∧
    (entries members').keys = (entries members).keys := by
  induction updates generalizing members with
  | nil => exact ⟨rfl, rfl⟩
  | cons u updates ih =>
    obtain ⟨hlookup, hkeys⟩ := ih (modifyMember u.userId
      (·.setStatus u.status) members)
    refine ⟨hlookup.trans ?_, hkeys.trans (keys_modifyMember (userId_setStatus _) members)⟩
    rw [dlookup_modifyMember (userId_setStatus _) (info_setStatus _)]
    rfl

theorem performs_memberStatus (s : PartyService) (updates : List MemberStatusUpdate)
    (hnodup : (entries s.state.members).NodupKeys) :
    Performs (.memberStatus updates) s
      (s.setMembers (updates.foldl (fun members update => modifyMember update.userId
        (·.setStatus update.status) members)
          s.state.members)).raiseMembers := by
  obtain ⟨hlookup, hkeys⟩ := foldl_statuses updates s.state.members
  refine performs_unchanged (performs_setMembers ?_ ?_) ⟨rfl, rfl, rfl⟩
  · rw [hlookup]
    rfl
  · rw [List.NodupKeys, hkeys]
    exact hnodup

theorem performs_memberConnected (s : PartyService) (m : PartyUserDto)
    (hnodup : (entries s.state.members).NodupKeys)
    (hfits : (entries s.state.members).dlookup m.userId = none) :
    Performs (.memberConnected m.userId m.info) s
      (s.setMembers (s.state.members ++ [m.read])).raiseMembers := by
  have happend : entries (s.state.members ++ [m.read]) =
      entries s.state.members ++ [⟨m.userId, m.info⟩] := by
    unfold entries
    rw [List.map_append]
    rfl
  refine performs_unchanged (performs_setMembers ?_ ?_) ⟨rfl, rfl, rfl⟩
  · rw [happend]
    simp only [Update.apply, abs, PartyData.mk.injEq, true_and]
    funext k
    rw [List.dlookup_append]
    by_cases hk : k = m.userId
    · rw [hk, Function.update_self, hfits, Option.none_or, List.dlookup_cons_eq]
    · rw [Function.update_of_ne hk, List.dlookup_cons_ne _ _ hk, List.dlookup_nil, Option.or_none]
  · rw [happend, List.NodupKeys, List.keys_append]
    refine List.nodup_append.mpr ⟨hnodup, List.nodup_singleton _, ?_⟩
    rw [List.dlookup_eq_none] at hfits
    intro k hk k' hk' heq
    have hkey : k = m.userId := heq.trans (List.mem_singleton.mp hk')
    exact hfits (hkey ▸ hk)

theorem performs_memberDisconnected (s : PartyService) (userId : String)
    (hnodup : (entries s.state.members).NodupKeys) :
    Performs (.memberDisconnected userId) s
      (if hasMember s.state.members userId then
        (s.setMembers (s.state.members.eraseP fun m => userId == m.userId)).raiseMembers
      else s) := by
  split
  · refine performs_unchanged (performs_setMembers ?_ ?_) ⟨rfl, rfl, rfl⟩
    · rw [entries_erase]
      simp only [Update.apply, abs, PartyData.mk.injEq, true_and]
      funext k
      by_cases hk : k = userId
      · rw [hk, Function.update_self, List.dlookup_kerase _ hnodup]
      · rw [Function.update_of_ne hk, List.dlookup_kerase_ne hk]
    · rw [entries_erase]
      exact hnodup.kerase userId
  · next hmember =>
    have hnone := dlookup_of_not_hasMember (Bool.eq_false_iff.mpr hmember)
    refine performs_nothing ?_ hnodup
    simp [Update.apply, abs, hnone, Function.update_eq_self_iff]

theorem performs_leaderChanged (s : PartyService) (leaderId : String)
    (hnodup : (entries s.state.members).NodupKeys) :
    Performs (.leaderChanged leaderId) s
      (if s.state.leaderId = leaderId then s
      else ({ s with
        state := { s.state with leaderId := leaderId } }).updateLeader.raiseMembers) := by
  split
  · next heq =>
    subst heq
    exact performs_nothing rfl hnodup
  · refine ⟨rfl, abs_updateLeader _, ?_, rfl, rfl⟩
    show (entries (updateLeader _).state.members).NodupKeys
    rw [entries_updateLeader]
    exact hnodup

/-! ## The version check -/

/-- The version of an update is the next one. -/
def IsNext (s : PartyService) (versionNumber : Option Int) : Prop :=
  0 < s.state.version ∧ versionNumber = some (s.state.version + 1)

/-- The state in which the payload of the next update is applied. -/
def advance (s : PartyService) : PartyService :=
  { s with
    state := { s.state with version := s.state.version + 1 }
    applied := s.applied ++ [s.state.version + 1] }

theorem handleUpdate_of_not_next {α : Type} {s : PartyService} {versionNumber : Option Int}
    (payload : Option α) (apply : α → PartyService → PartyService)
    (h : ¬ IsNext s versionNumber) : Unchanged s (s.handleUpdate versionNumber payload apply) := by
  cases versionNumber with
  | none => exact unchanged_refl s
  | some v =>
    rw [handleUpdate_refused fun hv => h ⟨hv.1, congrArg some hv.2⟩]
    exact unchanged_syncPartyState s

theorem handleUpdate_of_next {α : Type} {s : PartyService} (hv : 0 < s.state.version) (a : α)
    (apply : α → PartyService → PartyService) :
    s.handleUpdate (some (s.state.version + 1)) (some a) apply = apply a (advance s) :=
  handleUpdate_read ⟨hv, rfl⟩ a apply

theorem receiveUpdate_of_not_next {s : PartyService} {versionNumber : Option Int}
    (payload : Payload) (h : ¬ IsNext s versionNumber) :
    Unchanged s (s.receiveUpdate versionNumber payload) := by
  cases payload <;>
    simp only [receiveUpdate, handleSettingsUpdate, handleUserDataUpdate, handleMemberStatusUpdate,
      handleMemberConnected, handleMemberDisconnected, handleLeaderChanged] <;>
    exact handleUpdate_of_not_next _ _ h

/-- One case for each handler: it does what its update means. -/
theorem receiveUpdate_of_next {s : PartyService} {payload : Payload} {u : Update}
    (hv : 0 < s.state.version) (hnodup : (entries s.state.members).NodupKeys)
    (hdecode : payload.decode = some u) (hfits : u.Fits (abs s.state)) :
    Performs u (advance s) (s.receiveUpdate (some (s.state.version + 1)) payload) := by
  cases payload with
  | settingsUpdated payload =>
    obtain ⟨x, rfl, rfl⟩ := Option.map_eq_some_iff.mp hdecode
    show Performs _ _ (s.handleSettingsUpdate (some (s.state.version + 1)) (some x))
    rw [handleSettingsUpdate, handleUpdate_of_next hv]
    exact performs_settings (advance s) x hnodup
  | memberDataUpdated payload =>
    obtain ⟨x, rfl, rfl⟩ := Option.map_eq_some_iff.mp hdecode
    show Performs _ _ (s.handleUserDataUpdate (some (s.state.version + 1)) (some x))
    rw [handleUserDataUpdate, handleUpdate_of_next hv]
    exact performs_userData (advance s) x hnodup
  | memberStatusUpdated payload =>
    obtain ⟨x, rfl, rfl⟩ := Option.map_eq_some_iff.mp hdecode
    show Performs _ _ (s.handleMemberStatusUpdate (some (s.state.version + 1)) (some x))
    rw [handleMemberStatusUpdate, handleUpdate_of_next hv]
    exact performs_memberStatus (advance s) x.memberStatus hnodup
  | memberConnected payload =>
    obtain ⟨x, rfl, rfl⟩ := Option.map_eq_some_iff.mp hdecode
    show Performs _ _ (s.handleMemberConnected (some (s.state.version + 1)) (some x))
    rw [handleMemberConnected, handleUpdate_of_next hv]
    exact performs_memberConnected (advance s) x hnodup hfits
  | memberDisconnected payload =>
    obtain ⟨x, rfl, rfl⟩ := Option.map_eq_some_iff.mp hdecode
    show Performs _ _ (s.handleMemberDisconnected (some (s.state.version + 1)) (some x))
    rw [handleMemberDisconnected, handleUpdate_of_next hv]
    exact performs_memberDisconnected (advance s) x.userId hnodup
  | leaderChanged payload =>
    obtain ⟨x, rfl, rfl⟩ := Option.map_eq_some_iff.mp hdecode
    show Performs _ _ (s.handleLeaderChanged (some (s.state.version + 1)) (some x))
    rw [handleLeaderChanged, handleUpdate_of_next hv]
    exact performs_leaderChanged (advance s) x hnodup

/-! ## Steps -/

/-- The invariant of the runs. -/
structure InStep (h : ServerHistory) (s : PartyService) : Prop where
  applied : Replica.Applied s.applied s.state.version
  unsynced : s.partyStateReceived = false → s.state.version = 0
  positive : s.partyStateReceived = true → 0 < s.state.version
  tracks : s.partyStateReceived = true →
    Replica.Tracks h.toHistory s.state.version (abs s.state)
  nodup : (entries s.state.members).NodupKeys

theorem inStep_unchanged {h : ServerHistory} {s s' : PartyService} (hs : InStep h s)
    (hu : Unchanged s s') : InStep h s' where
  applied := by rw [hu.applied, hu.state]; exact hs.applied
  unsynced := by rw [hu.received, hu.state]; exact hs.unsynced
  positive := by rw [hu.received, hu.state]; exact hs.positive
  tracks := by rw [hu.received, hu.state]; exact hs.tracks
  nodup := by rw [hu.state]; exact hs.nodup

/-- A full state replaces the party, whatever the version of the replica is. -/
theorem inStep_partyState {h : ServerHistory} {s : PartyService} {state : PartyState}
    (hs : InStep h s) (hgenuine : Genuine h (.getPartyStateResponse (some state)))
    (horderly : Orderly s (.getPartyStateResponse (some state))) :
    InStep h (s.handlePartyStateResponse (some state)) := by
  obtain ⟨hstate, hnodup⟩ := hgenuine
  obtain ⟨hpositive, hle⟩ := horderly
  let read : PartyService := { s with state := state.read }
  have hgame := unchanged_updateGameFinder read.updateLeader
  have hs' : (s.handlePartyStateResponse (some state)).state = read.updateLeader.state :=
    hgame.state
  have happlied : (s.handlePartyStateResponse (some state)).applied = s.applied := hgame.applied
  have hversion : (s.handlePartyStateResponse (some state)).state.version = state.version := by
    rw [hs']
    rfl
  have hentries : entries (s.handlePartyStateResponse (some state)).state.members =
      entries state.members := by
    rw [hs', entries_updateLeader]
    exact entries_read state.members
  have habs : abs (s.handlePartyStateResponse (some state)).state = abs state := by
    rw [hs', abs_updateLeader]
    show PartyData.mk _ _ (fun k => (entries (state.members.map _)).dlookup k) = _
    rw [entries_read]
    rfl
  refine ⟨?_, nofun, ?_, ?_, hentries ▸ hnodup⟩
  · rw [happlied, hversion]
    exact hs.applied.jump hle
  · intro _
    rw [hversion]
    exact hpositive
  · intro _
    rw [hversion, habs]
    exact hstate

theorem received_of_positive {h : ServerHistory} {s : PartyService} (hs : InStep h s)
    (hv : 0 < s.state.version) : s.partyStateReceived = true := by
  cases hr : s.partyStateReceived with
  | true => rfl
  | false =>
    have := hs.unsynced hr
    omega

/-- The next update takes the replica to the next state of the server. -/
theorem inStep_performs {h : ServerHistory} {s s' : PartyService} (hs : InStep h s)
    (hv : 0 < s.state.version)
    (hp : Performs (h.update (s.state.version + 1)) (advance s) s') : InStep h s' := by
  have hreceived := received_of_positive hs hv
  have hversion : s'.state.version = s.state.version + 1 := hp.version
  have hreceived' : s'.partyStateReceived = true := hp.received.trans hreceived
  have htracks := (hs.tracks hreceived).next hv
  refine ⟨?_, ?_, ?_, ?_, hp.nodup⟩
  · rw [hp.applied, hversion]
    exact hs.applied.next
  · rw [hreceived']
    nofun
  · intro _
    omega
  · intro _
    rw [hversion, hp.abs]
    exact htracks

theorem fits_of_inStep {h : ServerHistory} {s : PartyService} (hs : InStep h s)
    (hv : 0 < s.state.version) : (h.update (s.state.version + 1)).Fits (abs s.state) := by
  have hstate : abs s.state = h.state s.state.version := hs.tracks (received_of_positive hs hv)
  rw [hstate]
  exact h.fits s.state.version hv

/-- The step lemma. An update is either not the next one, and changes nothing, or it is what
took the server to its version. -/
theorem step_inStep {h : ServerHistory} {s s' : PartyService} {a : Action} (hs : InStep h s)
    (hgenuine : Genuine h a) (horderly : Orderly s a) (hstep : step s a = some s') :
    InStep h s' ∧ UpdatesExactly s a s' := by
  cases a with
  | getPartyStateResponse state =>
    cases hstep
    refine ⟨?_, trivial⟩
    cases state with
    | none => exact hs
    | some state => exact inStep_partyState hs hgenuine horderly
  | stateRequestEnded success =>
    refine ⟨inStep_unchanged hs ?_, trivial⟩
    simp only [step] at hstep
    split at hstep
    · cases hstep
    · cases hstep
      split <;> exact ⟨rfl, rfl, rfl⟩
  | update versionNumber payload =>
    cases hstep
    by_cases hnext : IsNext s versionNumber
    · obtain ⟨hv, rfl⟩ := hnext
      obtain ⟨u, hdecode⟩ := Option.isSome_iff_exists.mp (horderly hv rfl)
      have hu : u = h.update (s.state.version + 1) := hgenuine u hdecode
      have hfits := fits_of_inStep hs hv
      have hp := receiveUpdate_of_next hv hs.nodup hdecode (hu ▸ hfits)
      refine ⟨inStep_performs hs hv (hu ▸ hp), ?_, ?_⟩
      · intro hnone
        rw [hdecode] at hnone
        cases hnone
      · intro u' hu' _
        rw [hdecode] at hu'
        cases hu'
        exact ⟨fun _ => ⟨hp.applied, hp.version, hp.abs⟩, fun hne => absurd rfl hne⟩
    · have hsame := receiveUpdate_of_not_next payload hnext
      refine ⟨inStep_unchanged hs hsame, fun _ => ⟨hsame.state, hsame.applied⟩, ?_⟩
      intro u _ hreceived
      refine ⟨?_, fun _ => ⟨hsame.state, hsame.applied⟩⟩
      intro heq
      exact absurd ⟨hs.positive hreceived, heq⟩ hnext

theorem inStep_init (h : ServerHistory) : InStep h PartyService.init :=
  ⟨Replica.Applied.nil 0, fun _ => rfl, nofun, nofun, List.nodup_nil⟩

end ReplicationLemmas

open ReplicationLemmas

/-! ## Main results -/

/-- In every run over the server's messages, in any order, with losses and repetitions, and
under the condition: once a full state was received the party is the server's at the version
that is stored, no update is applied twice, and each update is applied exactly when its version
is the next. -/
theorem party_replicated (h : ServerHistory) {s : PartyService}
    (hreach : Lts.Reachable PartyService.step (fun s a => Genuine h a ∧ Orderly s a)
      PartyService.init s) :
    Replicated h s ∧ s.applied.Nodup ∧
      ∀ a s', Genuine h a → Orderly s a → PartyService.step s a = some s' →
        UpdatesExactly s a s' := by
  have hs : InStep h s :=
    hreach.invariant (inStep_init h) fun _ _ _ hi hg hstep =>
      (step_inStep hi hg.1 hg.2 hstep).1
  refine ⟨hs.tracks, hs.applied.nodup, ?_⟩
  intro a s' hgenuine horderly hstep
  exact (step_inStep hs hgenuine horderly hstep).2

/-! ## A server that changes its settings -/

/-- The party of a server before and after it named its game finder. -/
def exParty (gameFinderName : String) : PartyData :=
  ⟨⟨gameFinderName, "", 0⟩, "", fun _ => none⟩

/-- The settings change with version 2, and then they stay. -/
def exHistory : ServerHistory where
  state v := if v ≤ 1 then exParty "" else exParty "finder"
  update _ := .settings ⟨"finder", "", 0⟩
  state_succ v hv := by
    rw [if_neg (by omega)]
    split <;> rfl
  fits _ _ := trivial

/-- The full state of version 1. -/
def exFull : PartyState := ⟨⟨"", "", 0⟩, "", [], 1⟩

theorem genuine_exFull : Genuine exHistory (.getPartyStateResponse (some exFull)) :=
  ⟨rfl, List.nodup_nil⟩

/-- The full state of version 1, and the update to version 2. -/
theorem party_replicated_settings : ∃ s : PartyService, s.state.version = 2 ∧
    Replicated exHistory s ∧ s.applied.Nodup ∧
      ∀ a s', Genuine exHistory a → Orderly s a → PartyService.step s a = some s' →
        UpdatesExactly s a s' := by
  let s1 := PartyService.init.handlePartyStateResponse (some exFull)
  let payload := PartyService.Payload.settingsUpdated (some ⟨"finder", "", 0⟩)
  have hgenuine : Genuine exHistory (.update (some 2) payload) := by
    intro u hu
    cases hu
    rfl
  have horderly : Orderly PartyService.init (.getPartyStateResponse (some exFull)) :=
    ⟨by decide, nofun⟩
  have hreach1 : Lts.Reachable PartyService.step (fun s a => Genuine exHistory a ∧ Orderly s a)
      PartyService.init s1 :=
    Lts.Reachable.start.next ⟨genuine_exFull, horderly⟩ rfl
  have hreach2 : Lts.Reachable PartyService.step (fun s a => Genuine exHistory a ∧ Orderly s a)
      PartyService.init (s1.receiveUpdate (some 2) payload) :=
    hreach1.next ⟨hgenuine, fun _ _ => rfl⟩ rfl
  exact ⟨_, rfl, party_replicated exHistory hreach2⟩

/-- Without the condition the update to version 2 may be lost: its payload cannot be decoded,
and the version is stored. -/
theorem party_diverges : ¬ ∀ (h : ServerHistory) (s : PartyService),
    Lts.Reachable PartyService.step (fun _ a => Genuine h a) PartyService.init s →
      Replicated h s ∧ s.applied.Nodup ∧
        ∀ a s', Genuine h a → PartyService.step s a = some s' → UpdatesExactly s a s' := by
  intro hall
  let s1 := PartyService.init.handlePartyStateResponse (some exFull)
  let payload := PartyService.Payload.settingsUpdated none
  have hgenuine : Genuine exHistory (.update (some 2) payload) := by
    intro u hu
    cases hu
  have hreach1 : Lts.Reachable PartyService.step (fun _ a => Genuine exHistory a)
      PartyService.init s1 :=
    Lts.Reachable.start.next genuine_exFull rfl
  have hreach2 : Lts.Reachable PartyService.step (fun _ a => Genuine exHistory a)
      PartyService.init (s1.receiveUpdate (some 2) payload) :=
    hreach1.next hgenuine rfl
  have hparty := congrArg PartyData.settings ((hall exHistory _ hreach2).1 rfl)
  have hname : "" = "finder" := congrArg PartySettingsInternal.gameFinderName hparty
  exact absurd hname (by decide)

end Stormancer.Party
