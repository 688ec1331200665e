import Mathlib.Data.Int.Order.Basic
import Stormancer.Lib.Newest
import Stormancer.Lib.Run
import Stormancer.Utilities.StringSplit

/-!
# `PlayerDataService`

The cache of the data of players. A message brings updates, which the handler of its route takes one
after the other: each is stored under the lock, and a call of the application is posted for it. When
the data of an update is outdated, the handler drops it together with the updates behind it.

The application may read the cache and set its callback between any two updates. A message is the
list of its updates; what sends data to the server is left out, and so is the log.

Results:
1. `cache_newest`: the cache holds the newest of the data that the handler has looked at, and the
   application is told of the data of each player in the order of its versions.
2. `caches_agree`: services that got the same updates, in any order, hold the same data.
-/

namespace Stormancer.PlayerData

/-! ## Data -/

structure PlayerDataEntry where
  data : List UInt8
  version : Int
deriving DecidableEq

/-- A new entry of the cache. -/
def PlayerDataEntry.new : PlayerDataEntry := ⟨[], 0⟩

structure PlayerDataUpdate where
  playerId : Str
  dataKey : Str
  data : PlayerDataEntry
  playerPlatformId : Str
deriving DecidableEq

/-- The service, with what happened to the updates that it got. An entry of `_dataCache` that is not
there is made when it is looked for. -/
structure PlayerDataService where
  dataCache : Str → Str → PlayerDataEntry
  /-- The callback `_onDataUpdated`. -/
  onDataUpdated : Option Nat
  /-- The scene still exists. -/
  scene : Bool
  /-- What is left of the message that is handled. -/
  updates : List PlayerDataUpdate
  received : List PlayerDataUpdate
  /-- The updates whose versions were compared with the cache. -/
  considered : List PlayerDataUpdate
  stored : List PlayerDataUpdate
  /-- The updates behind an outdated one. -/
  skipped : List PlayerDataUpdate
  /-- The calls of callbacks that were posted. -/
  posted : List (Nat × PlayerDataUpdate)

inductive Action
  /-- A message on `playerdata.updated`. -/
  | onUpdateReceived (updates : List PlayerDataUpdate)
  /-- The handler takes the next update of its message. -/
  | next
  | onPlayerDataUpdated (callback : Nat)
  | destroyScene
deriving DecidableEq

/-! ## The code -/

def setScene : PlayerDataService :=
  ⟨fun _ _ => .new, none, true, [], [], [], [], [], []⟩

/-- `GetPlayerData`: the data, if it is present. -/
def getPlayerData (s : PlayerDataService) (stormancerId dataKey : Str) : Option (List UInt8) :=
  let entry := s.dataCache stormancerId dataKey
  if entry.version ≤ 0 then none else some entry.data

/-- The lock section of `onUpdateReceived` for data that is not outdated, and what follows it. -/
def store (s : PlayerDataService) (update : PlayerDataUpdate) : PlayerDataService :=
  { s with
    dataCache := fun playerId dataKey =>
      if playerId = update.playerId ∧ dataKey = update.dataKey then update.data
      else s.dataCache playerId dataKey
    stored := s.stored ++ [update]
    posted := s.posted ++
      match s.onDataUpdated with
      | some callback => if s.scene then [(callback, update)] else []
      | none => [] }

/-- One turn of the loop of `onUpdateReceived`. -/
def next (s : PlayerDataService) : Option PlayerDataService :=
  match s.updates with
  | [] => none
  | update :: updates =>
    let s := { s with considered := s.considered ++ [update] }
    let existingOrNewEntry := s.dataCache update.playerId update.dataKey
    if existingOrNewEntry.version > update.data.version then
      some { s with updates := [], skipped := s.skipped ++ updates }
    else some (store { s with updates := updates } update)

def step (s : PlayerDataService) : Action → Option PlayerDataService
  | .onUpdateReceived updates =>
    if s.updates = [] then some { s with updates := updates, received := s.received ++ updates }
    else none
  | .next => next s
  | .onPlayerDataUpdated callback => some { s with onDataUpdated := some callback }
  | .destroyScene => some { s with scene := false }

abbrev Reachable : PlayerDataService → Prop := Lts.Reachable step Lts.anyStep setScene

/-! ## The property -/

/-- The data of the player among the updates, and the entry of a new cache in front. -/
def entries (updates : List PlayerDataUpdate) (playerId dataKey : Str) : List PlayerDataEntry :=
  .new :: (updates.filter fun u => u.playerId = playerId ∧ u.dataKey = dataKey).map (·.data)

abbrev Newest (held : PlayerDataEntry) (log : List PlayerDataEntry) : Prop :=
  Newest.IsNewest PlayerDataEntry.version held log

/-- The updates are for the same data, and the second one is as new as the first. -/
def Advances (u u' : PlayerDataUpdate) : Prop :=
  u.playerId = u'.playerId → u.dataKey = u'.dataKey → u.data.version ≤ u'.data.version

/-- A message brings one update at most. -/
def Single : PlayerDataService → Action → Prop
  | _, .onUpdateReceived updates => updates.length ≤ 1
  | _, _ => True

instance : ∀ (s : PlayerDataService) (a : Action), Decidable (Single s a)
  | _, .onUpdateReceived updates => inferInstanceAs (Decidable (updates.length ≤ 1))
  | _, .next => inferInstanceAs (Decidable True)
  | _, .onPlayerDataUpdated _ => inferInstanceAs (Decidable True)
  | _, .destroyScene => inferInstanceAs (Decidable True)

/-! ## The invariant -/

structure Inv (s : PlayerDataService) : Prop where
  newest : ∀ playerId dataKey, Newest (s.dataCache playerId dataKey)
    (entries s.considered playerId dataKey)
  received : ∀ u, u ∈ s.received ↔ u ∈ s.considered ∨ u ∈ s.skipped ∨ u ∈ s.updates
  stored : ∀ u ∈ s.stored, u ∈ s.considered
  advances : s.stored.Pairwise Advances
  posted : (s.posted.map Prod.snd).Sublist s.stored

namespace ServiceLemmas

variable {s s' : PlayerDataService}

theorem mem_entries {updates : List PlayerDataUpdate} {playerId dataKey : Str}
    {e : PlayerDataEntry} : e ∈ entries updates playerId dataKey ↔
      e = .new ∨ ∃ u ∈ updates, u.playerId = playerId ∧ u.dataKey = dataKey ∧ u.data = e := by
  unfold entries
  rw [List.mem_cons, List.mem_map]
  refine or_congr_right (exists_congr fun u => ?_)
  rw [List.mem_filter, decide_eq_true_eq]
  simp only [and_assoc]

theorem entries_snoc (updates : List PlayerDataUpdate) (u : PlayerDataUpdate)
    (playerId dataKey : Str) : entries (updates ++ [u]) playerId dataKey =
      entries updates playerId dataKey ++
        if u.playerId = playerId ∧ u.dataKey = dataKey then [u.data] else [] := by
  unfold entries
  rw [List.filter_append, List.map_append, List.cons_append]
  split
  · rename_i hkey
    rw [List.filter_cons_of_pos (by simpa using hkey)]
    rfl
  · rename_i hkey
    rw [List.filter_cons_of_neg (by simpa using hkey)]
    rfl

/-! ## Steps -/

/-- What a turn of the loop does: the update is outdated, or stored. -/
theorem next_cases (h : next s = some s') : ∃ update updates, s.updates = update :: updates ∧
    (update.data.version < (s.dataCache update.playerId update.dataKey).version ∧
        s' = { s with considered := s.considered ++ [update], updates := [],
                      skipped := s.skipped ++ updates } ∨
      ¬ update.data.version < (s.dataCache update.playerId update.dataKey).version ∧
        s' = store { s with considered := s.considered ++ [update], updates := updates }
          update) := by
  unfold next at h
  split at h
  · nomatch h
  · rename_i update updates heq
    refine ⟨update, updates, heq, ?_⟩
    dsimp only at h
    split at h
    · rename_i hold
      exact .inl ⟨hold, (Option.some.inj h).symm⟩
    · rename_i hnew
      exact .inr ⟨hnew, (Option.some.inj h).symm⟩

/-- In both cases the cache holds what is newer. -/
theorem next_dataCache (h : next s = some s') : ∃ update updates, s.updates = update :: updates ∧
    s'.considered = s.considered ++ [update] ∧ ∀ playerId dataKey, s'.dataCache playerId dataKey =
      if update.playerId = playerId ∧ update.dataKey = dataKey then
        Newest.keep PlayerDataEntry.version (s.dataCache playerId dataKey) update.data
      else s.dataCache playerId dataKey := by
  obtain ⟨update, updates, heq, ⟨hold, rfl⟩ | ⟨hnew, rfl⟩⟩ := next_cases h
  · refine ⟨update, updates, heq, rfl, fun playerId dataKey => ?_⟩
    split
    · rename_i hkey
      obtain ⟨rfl, rfl⟩ := hkey
      exact (Newest.keep_old hold).symm
    · rfl
  · refine ⟨update, updates, heq, rfl, fun playerId dataKey => ?_⟩
    unfold store
    dsimp only
    by_cases hkey : update.playerId = playerId ∧ update.dataKey = dataKey
    · obtain ⟨rfl, rfl⟩ := hkey
      rw [if_pos ⟨rfl, rfl⟩, if_pos ⟨rfl, rfl⟩, Newest.keep_new hnew]
    · rw [if_neg hkey, if_neg fun h => hkey ⟨h.1.symm, h.2.symm⟩]

/-! ## The invariant -/

theorem inv_setScene : Inv setScene where
  newest _ _ := Newest.IsNewest.single _
  received _ := by simp [setScene]
  stored := nofun
  advances := List.Pairwise.nil
  posted := List.Sublist.slnil

/-- What was looked at is not newer than the cache. -/
theorem le_cache (hi : Inv s) {u : PlayerDataUpdate} (hu : u ∈ s.considered) :
    u.data.version ≤ (s.dataCache u.playerId u.dataKey).version :=
  (hi.newest u.playerId u.dataKey).le u.data (mem_entries.mpr (.inr ⟨u, hu, rfl, rfl, rfl⟩))

/-- What is posted with an update is at most a call for it. -/
theorem posted_store (s : PlayerDataService) (update : PlayerDataUpdate) :
    ∃ calls, (store s update).posted = s.posted ++ calls ∧
      (calls.map Prod.snd).Sublist [update] := by
  refine ⟨_, rfl, ?_⟩
  split
  · split
    · exact List.Sublist.refl _
    · exact List.nil_sublist _
  · exact List.nil_sublist _

theorem newest_next (hi : Inv s) (h : next s = some s') (playerId dataKey : Str) :
    Newest (s'.dataCache playerId dataKey) (entries s'.considered playerId dataKey) := by
  obtain ⟨update, updates, -, hconsidered, hcache⟩ := next_dataCache h
  rw [hconsidered, entries_snoc, hcache]
  split
  · exact (hi.newest playerId dataKey).keep update.data
  · rw [List.append_nil]
    exact hi.newest playerId dataKey

theorem inv_next (hi : Inv s) (h : next s = some s') : Inv s' := by
  have hnewest := newest_next hi h
  obtain ⟨update, updates, heq, ⟨hold, rfl⟩ | ⟨hnew, rfl⟩⟩ := next_cases h
  · refine ⟨hnewest, fun u => ?_, fun u hu => List.mem_append_left _ (hi.stored u hu),
      hi.advances, hi.posted⟩
    rw [hi.received u, heq]
    simp only [List.mem_append, List.mem_cons, List.not_mem_nil, or_false]
    tauto
  · obtain ⟨calls, hposted, hcalls⟩ := posted_store
      { s with considered := s.considered ++ [update], updates := updates } update
    refine ⟨hnewest, fun u => ?_, fun u hu => ?_, ?_, ?_⟩
    · change u ∈ s.received ↔ u ∈ s.considered ++ [update] ∨ u ∈ s.skipped ∨ u ∈ updates
      rw [hi.received u, heq]
      simp only [List.mem_append, List.mem_cons, List.not_mem_nil, or_false]
      tauto
    · change u ∈ s.stored ++ [update] at hu
      exact List.mem_append.mpr ((List.mem_append.mp hu).imp (hi.stored u) id)
    · change (s.stored ++ [update]).Pairwise Advances
      refine List.pairwise_append.mpr ⟨hi.advances, List.pairwise_singleton _ _, ?_⟩
      intro u hu u' hu'
      rw [List.mem_singleton.mp hu']
      intro hplayer hkey
      have hle := le_cache hi (hi.stored u hu)
      rw [hplayer, hkey] at hle
      exact le_trans hle (not_lt.mp hnew)
    · rw [hposted, List.map_append]
      exact hi.posted.append hcalls

theorem inv_step {a : Action} (hi : Inv s) (h : step s a = some s') : Inv s' := by
  cases a with
  | onUpdateReceived updates =>
    unfold step at h
    dsimp only at h
    split at h
    · rename_i hidle
      obtain rfl := Option.some.inj h
      refine ⟨hi.newest, fun u => ?_, hi.stored, hi.advances, hi.posted⟩
      rw [List.mem_append, hi.received u, hidle]
      simp only [List.not_mem_nil, or_false, or_assoc]
    · nomatch h
  | next => exact inv_next hi h
  | onPlayerDataUpdated callback =>
    cases h
    exact ⟨hi.newest, hi.received, hi.stored, hi.advances, hi.posted⟩
  | destroyScene =>
    cases h
    exact ⟨hi.newest, hi.received, hi.stored, hi.advances, hi.posted⟩

theorem inv_of_reachable (h : Reachable s) : Inv s :=
  h.invariant inv_setScene fun _ _ _ hi _ hs => inv_step hi hs

/-- No step takes a version back. -/
theorem le_step {a : Action} (h : step s a = some s') (playerId dataKey : Str) :
    (s.dataCache playerId dataKey).version ≤ (s'.dataCache playerId dataKey).version := by
  cases a with
  | onUpdateReceived updates =>
    unfold step at h
    dsimp only at h
    split at h
    · cases h
      exact le_refl _
    · nomatch h
  | next =>
    obtain ⟨update, updates, -, -, hcache⟩ := next_dataCache h
    rw [hcache]
    split
    · exact (Newest.le_keep PlayerDataEntry.version _ _).1
    · exact le_refl _
  | onPlayerDataUpdated callback =>
    cases h
    exact le_refl _
  | destroyScene =>
    cases h
    exact le_refl _

theorem isSome_getPlayerData (s : PlayerDataService) (stormancerId dataKey : Str) :
    (getPlayerData s stormancerId dataKey).isSome = true ↔
      0 < (s.dataCache stormancerId dataKey).version := by
  unfold getPlayerData
  dsimp only
  split
  · rename_i hle
    exact ⟨nofun, fun h => absurd hle (not_le.mpr h)⟩
  · rename_i hlt
    exact ⟨fun _ => not_le.mp hlt, fun _ => rfl⟩

/-- With one update in each message, nothing is skipped. -/
theorem skipped_of_single (h : Lts.Reachable step Single setScene s) :
    s.updates.length ≤ 1 ∧ s.skipped = [] := by
  refine h.invariant (I := fun s => s.updates.length ≤ 1 ∧ s.skipped = [])
    ⟨Nat.zero_le _, rfl⟩ ?_
  rintro s a s' ⟨hlength, hskipped⟩ hsingle hs
  cases a with
  | onUpdateReceived updates =>
    unfold step at hs
    dsimp only at hs
    split at hs
    · cases hs
      exact ⟨hsingle, hskipped⟩
    · nomatch hs
  | next =>
    obtain ⟨update, updates, heq, hcases⟩ := next_cases hs
    rw [heq, List.length_cons] at hlength
    obtain rfl := List.eq_nil_of_length_eq_zero (Nat.le_zero.mp (Nat.le_of_succ_le_succ hlength))
    rcases hcases with ⟨-, rfl⟩ | ⟨-, rfl⟩
    · exact ⟨Nat.zero_le _, by rw [hskipped]; rfl⟩
    · exact ⟨Nat.zero_le _, hskipped⟩
  | onPlayerDataUpdated callback =>
    cases hs
    exact ⟨hlength, hskipped⟩
  | destroyScene =>
    cases hs
    exact ⟨hlength, hskipped⟩

end ServiceLemmas

open ServiceLemmas

/-! ## Results -/

/-- For every player and key, of all the data that the handler has looked at. What the application
has been told and what it reads does not go back to an older version, and what was present once
stays so. -/
theorem cache_newest {s s' : PlayerDataService} {as : List Action} (h : Reachable s)
    (hrun : Lts.Run step Lts.anyStep s as s') :
    (∀ playerId dataKey,
      Newest (s'.dataCache playerId dataKey) (entries s'.considered playerId dataKey) ∧
        (s.dataCache playerId dataKey).version ≤ (s'.dataCache playerId dataKey).version ∧
        ((getPlayerData s playerId dataKey).isSome = true →
          (getPlayerData s' playerId dataKey).isSome = true)) ∧
      (s'.posted.map Prod.snd).Pairwise Advances := by
  have hi := inv_of_reachable (h.append hrun)
  refine ⟨fun playerId dataKey => ?_, hi.advances.sublist hi.posted⟩
  have hle := hrun.invariant
    (I := fun t => (s.dataCache playerId dataKey).version ≤ (t.dataCache playerId dataKey).version)
    (le_refl _) fun t a t' ht _ hs => le_trans ht (le_step hs playerId dataKey)
  refine ⟨hi.newest playerId dataKey, hle, fun hpresent => ?_⟩
  rw [isSome_getPlayerData] at hpresent ⊢
  exact lt_of_lt_of_le hpresent hle

/-- A version of the data of a player. -/
def version (n : UInt8) : PlayerDataUpdate := ⟨['p'], ['k'], ⟨[n], n.toNat⟩, []⟩

/-- The second update is outdated. -/
theorem cache_newest_outdated : ∃ s s' : PlayerDataService, s.considered.length = 1 ∧
    s'.considered.length = 2 ∧
    Newest (s'.dataCache ['p'] ['k']) (entries s'.considered ['p'] ['k']) ∧
    (getPlayerData s' ['p'] ['k']).isSome = true := by
  obtain ⟨s, h, hs⟩ := Lts.Reachable.of_exec step Lts.anyStep setScene
    [.onPlayerDataUpdated 1, .onUpdateReceived [version 2, version 1], .next]
    (fun s => s.considered.length = 1 ∧ (getPlayerData s ['p'] ['k']).isSome ∧
      (Lts.exec step Lts.anyStep s [.next]).any fun s' => s'.considered.length = 2) (by decide)
  obtain ⟨hlength, hpresent, hnext⟩ := of_decide_eq_true hs
  obtain ⟨s', hexec, hlength'⟩ := (Option.any_eq_true _ _).mp hnext
  obtain ⟨hkeys, -⟩ := cache_newest h (Lts.Run.of_exec hexec)
  obtain ⟨hnewest, -, hstays⟩ := hkeys ['p'] ['k']
  exact ⟨s, s', hlength, of_decide_eq_true hlength', hnewest, hstays hpresent⟩

/-- Two services that have handled the same updates, none of which was skipped. With one version
there is one content of the data. -/
theorem caches_agree {s s' : PlayerDataService} (h : Reachable s) (h' : Reachable s')
    (hdone : s.updates = [] ∧ s.skipped = []) (hdone' : s'.updates = [] ∧ s'.skipped = [])
    (hsame : ∀ u, u ∈ s.received ↔ u ∈ s'.received)
    (hversions : ∀ u ∈ s.received, 0 < u.data.version ∧ ∀ u' ∈ s.received,
      u.playerId = u'.playerId → u.dataKey = u'.dataKey → u.data.version = u'.data.version →
        u.data = u'.data) :
    s.dataCache = s'.dataCache := by
  have hi := inv_of_reachable h
  have hi' := inv_of_reachable h'
  have hall : ∀ u, u ∈ s.considered ↔ u ∈ s.received := fun u => by
    rw [hi.received u, hdone.1, hdone.2]
    simp only [List.not_mem_nil, or_false]
  have hall' : ∀ u, u ∈ s'.considered ↔ u ∈ s'.received := fun u => by
    rw [hi'.received u, hdone'.1, hdone'.2]
    simp only [List.not_mem_nil, or_false]
  funext playerId dataKey
  refine (hi.newest playerId dataKey).unique (hi'.newest playerId dataKey) (fun e => ?_) ?_
  · simp only [mem_entries, hall, hall', hsame]
  · intro e he e' he' hrank
    rcases mem_entries.mp he with rfl | ⟨u, hu, hplayer, hkey, rfl⟩ <;>
      rcases mem_entries.mp he' with rfl | ⟨u', hu', hplayer', hkey', rfl⟩
    · rfl
    · have hpos := (hversions u' ((hall u').mp hu')).1
      exact absurd hrank (ne_of_lt hpos)
    · have hpos := (hversions u ((hall u).mp hu)).1
      exact absurd hrank.symm (ne_of_lt hpos)
    · exact (hversions u ((hall u).mp hu)).2 u' ((hall u').mp hu') (hplayer.trans hplayer'.symm)
        (hkey.trans hkey'.symm) hrank

/-- Two versions that come in the other order. -/
theorem caches_agree_two : ∃ s s' : PlayerDataService,
    s.received = [version 1, version 2] ∧ s'.received = [version 2, version 1] ∧
    s.dataCache = s'.dataCache := by
  obtain ⟨s, h, hs⟩ := Lts.Reachable.of_exec step Single setScene
    [.onUpdateReceived [version 1], .next, .onUpdateReceived [version 2], .next]
    (fun s => s.received = [version 1, version 2] ∧ s.updates = []) (by decide)
  obtain ⟨s', h', hs'⟩ := Lts.Reachable.of_exec step Single setScene
    [.onUpdateReceived [version 2], .next, .onUpdateReceived [version 1], .next]
    (fun s => s.received = [version 2, version 1] ∧ s.updates = []) (by decide)
  obtain ⟨hreceived, hdone⟩ := of_decide_eq_true hs
  obtain ⟨hreceived', hdone'⟩ := of_decide_eq_true hs'
  refine ⟨s, s', hreceived, hreceived', caches_agree (h.mono fun _ _ _ => trivial)
    (h'.mono fun _ _ _ => trivial) ⟨hdone, (skipped_of_single h).2⟩
    ⟨hdone', (skipped_of_single h').2⟩ ?_ ?_⟩
  · intro u
    rw [hreceived, hreceived']
    exact (List.Perm.swap (version 2) (version 1) []).mem_iff
  · rw [hreceived]
    decide

end Stormancer.PlayerData
