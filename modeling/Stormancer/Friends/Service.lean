import Mathlib.Data.List.Infix
import Stormancer.Lib.Slots

/-!
# The friend list of `FriendsService`

The notifications of the route `friends.notification` change the map `friends` and fire
`friendListChanged`. The entries of the map are pointers: `none` stands for a null one, which
`friends[id]` inserts when there is no entry. An event carries the pointer of the entry; the
model keeps what it points to when the event is fired.

The subscribers of the event, the log, the requests that the client sends and the game's own
`IFriendsEventHandler`s are left out. A notification that cannot be read leaves the service as
it is.

Results:
1. `replay_iff`: the replay of the events is the map after every notification exactly when each
   notification meets `keepsReplay`.
2. `removed_friend_replayed`: a friend that is removed is fired as added.
-/

namespace Stormancer.Friends

/-! ## Data -/

inductive FriendStatus
  | online
  | away
  | invitationPending
  | disconnected
deriving DecidableEq

structure Friend where
  userId : String
  details : String
  lastConnected : UInt64
  status : FriendStatus
  tags : List String
deriving DecidableEq

structure FriendListUpdateDto where
  itemId : String
  operation : String
  data : Friend
deriving DecidableEq

inductive FriendListUpdateOperation
  | add
  | remove
  | update
deriving DecidableEq

structure FriendListUpdateEvent where
  op : FriendListUpdateOperation
  value : Friend
deriving DecidableEq

structure FriendsService where
  friends : Slots.Table String (Option Friend)
  /-- What `friendListChanged` was called with, oldest first. -/
  fired : List FriendListUpdateEvent

/-! ## `FriendsService` -/

namespace FriendsService

def init : FriendsService where
  friends := ∅
  fired := []

/-- `friends[id]`: inserts a null entry when there is none. -/
def index (s : FriendsService) (id : String) : FriendsService × Option Friend :=
  let friends := s.friends.emplace id none
  ({ s with friends := friends }, (friends.lookup id).join)

def friendListChanged (s : FriendsService) (op : FriendListUpdateOperation)
    (value : Friend) : FriendsService :=
  { s with fired := s.fired ++ [⟨op, value⟩] }

/-- Writes what the pointer of the entry points to. -/
def write (s : FriendsService) (id : String) (fr : Friend) : FriendsService :=
  { s with friends := s.friends.insert id (some fr) }

def onFriendAdd (s : FriendsService) (update : FriendListUpdateDto) : FriendsService :=
  (s.write update.itemId update.data).friendListChanged .add update.data

def onFriendUpdate (s : FriendsService) (update : FriendListUpdateDto) : FriendsService :=
  match s.index update.itemId with
  | (s, some fr) =>
    let fr := { fr with
      status := update.data.status
      details := update.data.details
      lastConnected := update.data.lastConnected
      userId := update.data.userId }
    (s.write update.itemId fr).friendListChanged .update fr
  | (s, none) => s

def onFriendUpdateStatus (s : FriendsService) (update : FriendListUpdateDto) : FriendsService :=
  match s.index update.itemId with
  | (s, some fr) =>
    let fr := { fr with status := update.data.status }
    (s.write update.itemId fr).friendListChanged .update fr
  | (s, none) => s

def onFriendRemove (s : FriendsService) (update : FriendListUpdateDto) : FriendsService :=
  match s.index update.itemId with
  | (s, some fr) =>
    let s := { s with friends := s.friends.erase update.itemId }
    -- The operation is `Add` here too.
    s.friendListChanged .add fr
  | (s, none) => s

def onFriendNotification (s : FriendsService) (update : FriendListUpdateDto) : FriendsService :=
  if update.operation = "remove" then s.onFriendRemove update
  else if update.operation = "update" then s.onFriendUpdate update
  else if update.operation = "add" then s.onFriendAdd update
  else if update.operation = "update.status" then s.onFriendUpdateStatus update
  else s

/-- The service after the notifications, from its construction on. -/
def receive (updates : List FriendListUpdateDto) : FriendsService :=
  updates.foldl onFriendNotification init

/-! ## The property -/

/-- What a subscriber that keeps its own map does with an event. -/
def replayEvent (replica : Slots.Table String Friend) (ev : FriendListUpdateEvent) :
    Slots.Table String Friend :=
  match ev.op with
  | .add | .update => replica.insert ev.value.userId ev.value
  | .remove => replica.erase ev.value.userId

def replay (events : List FriendListUpdateEvent) : Slots.Table String Friend :=
  events.foldl replayEvent ∅

def NoNullEntry (s : FriendsService) : Prop := ∀ id, s.friends.lookup id ≠ some none

/-- The replay of the events is the map. -/
def Replays (s : FriendsService) : Prop :=
  ∀ id, (s.friends.lookup id).join = (replay s.fired).lookup id

/-- The two together: the map is the replay, entry by entry. -/
def Exact (s : FriendsService) : Prop :=
  ∀ id, s.friends.lookup id = ((replay s.fired).lookup id).map some

/-! ## The condition -/

/-- There is a friend under the id. -/
def isKnown (s : FriendsService) (id : String) : Bool := (s.friends.lookup id).join.isSome

/-- The notification is no removal, it updates a friend that is known, and the data that it
brings are those of the friend that it names. -/
def keepsReplay (s : FriendsService) (update : FriendListUpdateDto) : Bool :=
  if update.operation = "remove" then false
  else if update.operation = "update" then
    s.isKnown update.itemId && decide (update.data.userId = update.itemId)
  else if update.operation = "add" then decide (update.data.userId = update.itemId)
  else if update.operation = "update.status" then s.isKnown update.itemId
  else true

/-! ## Helpers -/

namespace ServiceLemmas

variable {s : FriendsService} {update : FriendListUpdateDto}

theorem replays_iff : (s.Replays ∧ s.NoNullEntry) ↔ s.Exact := by
  constructor
  · rintro ⟨hreplays, hnull⟩ id
    rw [← hreplays id]
    rcases hentry : s.friends.lookup id with _ | _ | fr
    · rfl
    · exact absurd hentry (hnull id)
    · rfl
  · intro h
    constructor
    · intro id
      rw [h id]
      cases (replay s.fired).lookup id <;> rfl
    · intro id hnull
      rw [h id] at hnull
      cases hreplica : (replay s.fired).lookup id <;> rw [hreplica] at hnull <;> cases hnull

theorem replay_append (events : List FriendListUpdateEvent) (ev : FriendListUpdateEvent) :
    replay (events ++ [ev]) = replayEvent (replay events) ev :=
  List.foldl_concat ..

/-- A replica keeps each value under the id in it. -/
theorem replay_keyed (events : List FriendListUpdateEvent) {id : String} {fr : Friend}
    (h : (replay events).lookup id = some fr) : fr.userId = id := by
  induction events using List.reverseRecOn with
  | nil => cases h
  | append_singleton events ev ih =>
    rw [replay_append] at h
    unfold replayEvent at h
    split at h
    case h_3 =>
      rw [Slots.Table.lookup_erase_eq] at h
      split at h
      · cases h
      · exact ih h
    all_goals
      rw [Slots.Table.lookup_insert_eq] at h
      split at h
      · next hid =>
        cases h
        exact hid.symm
      · exact ih h

/-- An entry that is written and fired as added or updated is replayed under the id in it. -/
theorem exact_write_iff (op : FriendListUpdateOperation) {id : String} {fr : Friend}
    (hop : op ≠ .remove) (hs : s.Exact) :
    ((s.write id fr).friendListChanged op fr).Exact ↔ fr.userId = id := by
  have hreplay : replay (s.fired ++ [⟨op, fr⟩]) = (replay s.fired).insert fr.userId fr := by
    rw [replay_append]
    cases op with
    | add => rfl
    | update => rfl
    | remove => exact absurd rfl hop
  constructor
  · intro h
    have hwritten : some (some fr) = ((replay (s.fired ++ [⟨op, fr⟩])).lookup id).map some :=
      (AList.lookup_insert s.friends).symm.trans (h id)
    obtain ⟨fr', hfr', heq⟩ := Option.map_eq_some_iff.mp hwritten.symm
    cases heq
    exact replay_keyed _ hfr'
  · rintro rfl id
    change (s.friends.insert fr.userId (some fr)).lookup id =
      ((replay (s.fired ++ [⟨op, fr⟩])).lookup id).map some
    rw [hreplay, Slots.Table.lookup_insert_eq, Slots.Table.lookup_insert_eq]
    split
    · rfl
    · exact hs id

theorem index_of_some {id : String} {fr : Friend} (h : s.friends.lookup id = some (some fr)) :
    s.index id = (s, some fr) := by
  have hmem : id ∈ s.friends := AList.lookup_isSome.mp (by rw [h]; rfl)
  unfold index Slots.Table.emplace
  rw [if_pos hmem]
  exact congrArg (fun entry => (s, entry.join)) h

/-- The null entry that `friends[id]` inserts is in no replica. -/
theorem index_of_none {id : String} (h : s.friends.lookup id = none) :
    ∃ s', s.index id = (s', none) ∧ ¬ s'.Exact := by
  have hentry : (s.friends.emplace id none).lookup id = some none := by
    rw [Slots.Table.lookup_emplace, if_pos rfl, h]
    rfl
  refine ⟨{ s with friends := s.friends.emplace id none }, ?_, fun hexact => ?_⟩
  · unfold index
    exact congrArg (fun entry => (_, entry.join)) hentry
  · exact (replays_iff.mpr hexact).2 id hentry

/-- What `friends[id]` finds when the map is the replay. -/
theorem index_cases (hs : s.Exact) (id : String) :
    (∃ fr, s.index id = (s, some fr) ∧ s.isKnown id = true ∧ fr.userId = id ∧
      s.friends.lookup id = some (some fr)) ∨
    (∃ s', s.index id = (s', none) ∧ s.isKnown id = false ∧ ¬ s'.Exact) := by
  rcases hentry : s.friends.lookup id with _ | _ | fr
  · obtain ⟨s', hindex, hnot⟩ := index_of_none hentry
    exact .inr ⟨s', hindex, by rw [isKnown, hentry]; rfl, hnot⟩
  · exact absurd hentry ((replays_iff.mpr hs).2 id)
  · have hreplica : (replay s.fired).lookup id = some fr := by
      rw [← (replays_iff.mpr hs).1 id, hentry]
      rfl
    exact .inl ⟨fr, index_of_some hentry, by rw [isKnown, hentry]; rfl,
      replay_keyed _ hreplica, rfl⟩

theorem exact_update_iff (hs : s.Exact) : (s.onFriendUpdate update).Exact ↔
    s.isKnown update.itemId = true ∧ update.data.userId = update.itemId := by
  unfold onFriendUpdate
  rcases index_cases hs update.itemId with ⟨fr, hindex, hknown, -, -⟩ | ⟨s', hindex, hknown, hnot⟩
  · rw [hindex, hknown]
    exact (exact_write_iff .update (by decide) hs).trans (and_iff_right rfl).symm
  · rw [hindex, hknown]
    exact iff_of_false hnot fun h => Bool.false_ne_true h.1

theorem exact_updateStatus_iff (hs : s.Exact) :
    (s.onFriendUpdateStatus update).Exact ↔ s.isKnown update.itemId = true := by
  unfold onFriendUpdateStatus
  rcases index_cases hs update.itemId with ⟨fr, hindex, hknown, hid, -⟩ | ⟨s', hindex, hknown, hnot⟩
  · rw [hindex, hknown]
    exact iff_of_true ((exact_write_iff .update (by decide) hs).mpr hid) rfl
  · rw [hindex, hknown]
    exact iff_of_false hnot Bool.false_ne_true

/-- The friend that is removed comes back with the event. -/
theorem not_exact_remove (hs : s.Exact) : ¬ (s.onFriendRemove update).Exact := by
  unfold onFriendRemove
  rcases index_cases hs update.itemId with ⟨fr, hindex, -, hid, -⟩ | ⟨s', hindex, -, hnot⟩
  · rw [hindex]
    intro hexact
    have hback : (replay (s.fired ++ [⟨.add, fr⟩])).lookup fr.userId = some fr := by
      rw [replay_append]
      exact AList.lookup_insert (replay s.fired)
    have hgone : none = ((replay (s.fired ++ [⟨.add, fr⟩])).lookup update.itemId).map some :=
      (AList.lookup_erase update.itemId s.friends).symm.trans (hexact update.itemId)
    rw [← hid, hback] at hgone
    cases hgone
  · rw [hindex]
    exact hnot

/-- One notification: the map stays the replay exactly under the condition. -/
theorem step_iff (hs : s.Exact) :
    (s.onFriendNotification update).Exact ↔ s.keepsReplay update = true := by
  unfold onFriendNotification keepsReplay
  split
  · exact iff_of_false (not_exact_remove hs) Bool.false_ne_true
  · split
    · rw [exact_update_iff hs, Bool.and_eq_true, decide_eq_true_eq]
    · split
      · rw [decide_eq_true_eq]
        exact exact_write_iff .add (by decide) hs
      · split
        · exact exact_updateStatus_iff hs
        · exact iff_of_true hs rfl

theorem receive_concat (updates : List FriendListUpdateDto) (update : FriendListUpdateDto) :
    receive (updates ++ [update]) = (receive updates).onFriendNotification update :=
  List.foldl_concat ..

theorem exact_init : init.Exact := fun _ => rfl

end ServiceLemmas

open ServiceLemmas

/-! ## Results -/

/-- After each of the notifications the replay of the events is the map and no entry is null,
exactly when each of them meets the condition. -/
theorem replay_iff (updates : List FriendListUpdateDto) :
    (∀ us, us <+: updates → (receive us).Replays ∧ (receive us).NoNullEntry) ↔
      ∀ us update, us ++ [update] <+: updates → (receive us).keepsReplay update = true := by
  constructor
  · intro h us update hprefix
    have hbefore := replays_iff.mp (h us ((List.prefix_append us [update]).trans hprefix))
    have hafter := replays_iff.mp (h _ hprefix)
    rw [receive_concat] at hafter
    exact (step_iff hbefore).mp hafter
  · intro h us
    induction us using List.reverseRecOn with
    | nil => exact fun _ => replays_iff.mpr exact_init
    | append_singleton us update ih =>
      intro hprefix
      have hbefore := replays_iff.mp (ih ((List.prefix_append us [update]).trans hprefix))
      rw [receive_concat]
      exact replays_iff.mpr ((step_iff hbefore).mpr (h us update hprefix))

def exFriend (userId : String) : Friend := ⟨userId, "", 0, .online, []⟩

/-- A friend that was added and removed is still in the replay. -/
theorem removed_friend_replayed : ¬ ∀ updates : List FriendListUpdateDto,
    (receive updates).Replays ∧ (receive updates).NoNullEntry := by
  intro hall
  have hreplays := (hall [⟨"a", "add", exFriend "a"⟩, ⟨"a", "remove", exFriend "a"⟩]).1 "a"
  revert hreplays
  decide +kernel

/-- An update of a friend that is not known leaves a null entry. -/
example : (receive [⟨"a", "update", exFriend "a"⟩]).friends.lookup "a" = some none := by
  decide +kernel

end FriendsService

end Stormancer.Friends
