import Mathlib.Data.Int.ConditionallyCompleteOrder
import Mathlib.Data.List.FinRange
import Mathlib.Logic.Function.Basic
import Mathlib.Order.ConditionallyCompleteLattice.Basic
import Mathlib.Order.Monotone.Basic
import Stormancer.Lib.Lru
import Stormancer.Utilities.StringSplit

/-!
# `ChannelUidStore`

`getChannelUid` gives an identifier of a channel one of 16 uids: the one that is reserved for it,
or the one that has not been used for the longest time. No uid is reserved for an identifier at
first; the empty identifier marks these, so it is not an identifier of a channel here.

The clock is a function of the number of times that it has been read. Its readings are strictly
increasing in the results about the table.

Results:
1. `refines_touch`: a call of `getChannelUid` is a use of a table that replaces the least
   recently used key.
2. `channelUids_lru`: over every sequence of calls, the uids are those of that table, and what
   this says about the identifiers.
3. `channelUid_any`: an identifier may get any uid next, whatever it has.
4. `getChannelUids_isSome_iff`: with any clock, when all calls return a uid.
-/

namespace Stormancer.Packets

/-! ## Data -/

def channelUidsCount : Nat := 16

structure ChannelInfos where
  channelIdentifier : Str
  lastUsed : Int
deriving DecidableEq

structure ChannelUidStore where
  channelsInfos : Fin channelUidsCount → ChannelInfos
  /-- How often the clock has been read. -/
  reads : Nat

namespace ChannelUidStore

variable (clock : Nat → Int)

/-! ## Operations -/

/-- The constructor. -/
def init : ChannelUidStore where
  channelsInfos := fun _ => ⟨[], clock 0⟩
  reads := 1

def getReservedChannel (s : ChannelUidStore) (channelIdentifier : Str) :
    Option (Fin channelUidsCount) :=
  (List.finRange channelUidsCount).find? fun channelUid =>
    decide ((s.channelsInfos channelUid).channelIdentifier = channelIdentifier)

/-- The loop of `getOlderChannel`. `none` is the uid -1. -/
def olderFrom (s : ChannelUidStore) (minChannelUid : Option (Fin channelUidsCount))
    (minDate : Int) : List (Fin channelUidsCount) → Option (Fin channelUidsCount)
  | [] => minChannelUid
  | channelUid :: rest =>
    if (s.channelsInfos channelUid).lastUsed < minDate then
      olderFrom s (some channelUid) (s.channelsInfos channelUid).lastUsed rest
    else olderFrom s minChannelUid minDate rest

/-- `getOlderChannel`, which reads the clock once. -/
def getOlderChannel (s : ChannelUidStore) : Option (Fin channelUidsCount) × ChannelUidStore :=
  (s.olderFrom none (clock s.reads) (List.finRange channelUidsCount),
    { s with reads := s.reads + 1 })

/-- `_channelsInfos[channelUid].channelIdentifier = channelIdentifier`. -/
def reserve (s : ChannelUidStore) (channelUid : Fin channelUidsCount)
    (channelIdentifier : Str) : ChannelUidStore where
  channelsInfos := Function.update s.channelsInfos channelUid
    { s.channelsInfos channelUid with channelIdentifier := channelIdentifier }
  reads := s.reads

/-- `_channelsInfos[channelUid].lastUsed = now()`. -/
def use (s : ChannelUidStore) (channelUid : Fin channelUidsCount) : ChannelUidStore where
  channelsInfos := Function.update s.channelsInfos channelUid
    { s.channelsInfos channelUid with lastUsed := clock s.reads }
  reads := s.reads + 1

/-- `getChannelUid`. `none`: it throws, as no uid is available. -/
def getChannelUid (s : ChannelUidStore) (channelIdentifier : Str) :
    Option (Fin channelUidsCount × ChannelUidStore) :=
  match s.getReservedChannel channelIdentifier with
  | some channelUid => some (channelUid, s.use clock channelUid)
  | none =>
    match s.getOlderChannel clock with
    | (none, _) => none
    | (some channelUid, s) =>
      some (channelUid, (s.reserve channelUid channelIdentifier).use clock channelUid)

/-- The calls of `getChannelUid` for the identifiers of a list, with the uids. -/
def getChannelUids (s : ChannelUidStore) :
    List Str → Option (List (Fin channelUidsCount) × ChannelUidStore)
  | [] => some ([], s)
  | id :: ids =>
    (s.getChannelUid clock id).bind fun (uid, s) =>
      (getChannelUids s ids).map fun (uids, s) => (uid :: uids, s)

/-- The identifier that the uid is reserved for; empty if there is none. -/
def identifier (s : ChannelUidStore) (uid : Fin channelUidsCount) : Str :=
  (s.channelsInfos uid).channelIdentifier

def lastUsed (s : ChannelUidStore) (uid : Fin channelUidsCount) : Int :=
  (s.channelsInfos uid).lastUsed

/-! ## The table that the store refines -/

/-- A table of identifiers and uids with every uid free. -/
def emptyTable : Lru.Table Str (Fin channelUidsCount) :=
  Lru.Table.empty (List.finRange channelUidsCount) (List.nodup_finRange _)

/-- The store has the entries of the table, and the times of use are in the order of the table:
the free uids have the first time, and the clock is after all of them. -/
structure Refines (s : ChannelUidStore) (t : Lru.Table Str (Fin channelUidsCount)) : Prop where
  ids : ∀ e ∈ t.used, e.1 ≠ [] ∧ s.identifier e.2 = e.1
  entries : ∀ uid, s.identifier uid ≠ [] → (s.identifier uid, uid) ∈ t.used
  free : t.free = (List.finRange channelUidsCount).filter fun uid => s.identifier uid = []
  order : t.used.Pairwise fun e e' => s.lastUsed e.2 < s.lastUsed e'.2
  first : ∀ uid, s.identifier uid = [] → s.lastUsed uid = clock 0
  later : ∀ e ∈ t.used, clock 0 < s.lastUsed e.2
  past : ∀ uid, s.lastUsed uid < clock s.reads

namespace ChannelUidStoreLemmas

variable {clock} {s : ChannelUidStore} {t : Lru.Table Str (Fin channelUidsCount)}

@[simp] theorem identifier_use (uid u : Fin channelUidsCount) :
    (s.use clock uid).identifier u = s.identifier u := by
  rcases eq_or_ne u uid with rfl | hne
  · simp only [identifier, use, Function.update_self]
  · simp only [identifier, use, Function.update_of_ne hne]

theorem lastUsed_use_self (uid : Fin channelUidsCount) :
    (s.use clock uid).lastUsed uid = clock s.reads := by
  simp only [lastUsed, use, Function.update_self]

theorem lastUsed_use_of_ne {uid u : Fin channelUidsCount} (hne : u ≠ uid) :
    (s.use clock uid).lastUsed u = s.lastUsed u := by
  simp only [lastUsed, use, Function.update_of_ne hne]

theorem identifier_reserve_self (uid : Fin channelUidsCount) (id : Str) :
    (s.reserve uid id).identifier uid = id := by
  simp only [identifier, reserve, Function.update_self]

theorem identifier_reserve_of_ne {uid u : Fin channelUidsCount} (hne : u ≠ uid) (id : Str) :
    (s.reserve uid id).identifier u = s.identifier u := by
  simp only [identifier, reserve, Function.update_of_ne hne]

@[simp] theorem lastUsed_reserve (uid u : Fin channelUidsCount) (id : Str) :
    (s.reserve uid id).lastUsed u = s.lastUsed u := by
  rcases eq_or_ne u uid with rfl | hne
  · simp only [lastUsed, reserve, Function.update_self]
  · simp only [lastUsed, reserve, Function.update_of_ne hne]

/-! ### Lookups -/

theorem getReservedChannel_of_mem (h : Refines clock s t) {id : Str} {uid : Fin channelUidsCount}
    (hmem : (id, uid) ∈ t.used) : s.getReservedChannel id = some uid := by
  have hid := (h.ids _ hmem).2
  have hsome : (s.getReservedChannel id).isSome :=
    List.find?_isSome.mpr ⟨uid, List.mem_finRange uid, decide_eq_true hid⟩
  obtain ⟨u, hu⟩ := Option.isSome_iff_exists.mp hsome
  have hidu : s.identifier u = id := of_decide_eq_true (List.find?_some hu :)
  have hmemu := h.entries u (hidu.trans_ne (h.ids _ hmem).1)
  rw [hidu] at hmemu
  rw [hu, Lru.slot_unique hmem hmemu]

theorem getReservedChannel_of_notMem (h : Refines clock s t) {id : Str} (hne : id ≠ [])
    (hk : id ∉ t.keys) : s.getReservedChannel id = none := by
  refine List.find?_eq_none.mpr fun u _ hu => hk ?_
  have hidu : s.identifier u = id := of_decide_eq_true hu
  subst hidu
  exact List.mem_map_of_mem (f := Prod.fst) (h.entries u hne)

theorem mem_of_getReservedChannel (h : Refines clock s t) {id : Str} (hne : id ≠ [])
    {uid : Fin channelUidsCount} (hsome : s.getReservedChannel id = some uid) :
    (id, uid) ∈ t.used := by
  have hid : s.identifier uid = id := of_decide_eq_true (List.find?_some hsome :)
  subst hid
  exact h.entries uid hne

theorem olderFrom_of_le {minDate : Int} {uids : List (Fin channelUidsCount)}
    (hle : ∀ u ∈ uids, minDate ≤ s.lastUsed u) (m : Option (Fin channelUidsCount)) :
    s.olderFrom m minDate uids = m := by
  induction uids with
  | nil => rfl
  | cons u uids ih =>
    refine (if_neg (not_lt.mpr (hle u List.mem_cons_self))).trans ?_
    exact ih fun u' hu' => hle u' (List.mem_cons_of_mem _ hu')

/-- The loop ends with the first one of the uids that have the least time. -/
theorem olderFrom_eq {before after : List (Fin channelUidsCount)} {uid : Fin channelUidsCount}
    (hbefore : ∀ u ∈ before, s.lastUsed uid < s.lastUsed u)
    (hafter : ∀ u ∈ after, s.lastUsed uid ≤ s.lastUsed u) {minDate : Int}
    (hdate : s.lastUsed uid < minDate) (m : Option (Fin channelUidsCount)) :
    s.olderFrom m minDate (before ++ uid :: after) = some uid := by
  induction before generalizing m minDate with
  | nil =>
    exact (if_pos hdate).trans (olderFrom_of_le hafter _)
  | cons u before ih =>
    rw [List.forall_mem_cons] at hbefore
    rw [List.cons_append, olderFrom]
    split
    · exact ih hbefore.2 hbefore.1 _
    · exact ih hbefore.2 hdate _

/-! ### One call -/

theorem clock_zero_le (h : Refines clock s t) (uid : Fin channelUidsCount) :
    clock 0 ≤ s.lastUsed uid := by
  by_cases hid : s.identifier uid = []
  · exact (h.first uid hid).ge
  · exact (h.later _ (h.entries uid hid)).le

/-- The uid that `getOlderChannel` finds for a new identifier. -/
theorem getOlderChannel_of_touched (h : Refines clock s t) {id : Str} (hk : id ∉ t.keys)
    {uid : Fin channelUidsCount} {t' : Lru.Table Str (Fin channelUidsCount)}
    (htouched : Lru.Touched t id uid t') : (s.getOlderChannel clock).1 = some uid := by
  cases htouched with
  | hit hmem => exact absurd (List.mem_map_of_mem (f := Prod.fst) hmem) hk
  | fill _ hfree _ =>
    rw [h.free] at hfree
    obtain ⟨before, after, hall, hbefore, huid, -⟩ := List.filter_eq_cons_iff.mp hfree
    have hid : s.identifier uid = [] := of_decide_eq_true huid
    rw [getOlderChannel, hall]
    refine olderFrom_eq (fun u hu => ?_) (fun u _ => ?_) (h.past uid) _
    · have hidu : s.identifier u ≠ [] := fun heq => hbefore u hu (decide_eq_true heq)
      rw [h.first uid hid]
      exact h.later _ (h.entries u hidu)
    · rw [h.first uid hid]
      exact clock_zero_le h u
  | replace old rest _ hfree hold _ _ =>
    have hreserved : ∀ u, s.identifier u ≠ [] := by
      intro u hu
      rw [h.free, List.filter_eq_nil_iff] at hfree
      exact hfree u (List.mem_finRange u) (decide_eq_true hu)
    have holdest : ∀ u, u ≠ uid → s.lastUsed uid < s.lastUsed u := by
      intro u hu
      have hmem := h.entries u (hreserved u)
      have horder := h.order
      rw [hold] at hmem horder
      refine (List.pairwise_cons.mp horder).1 _ ((List.mem_cons.mp hmem).resolve_left ?_)
      exact fun heq => hu (Prod.mk.inj heq).2
    obtain ⟨before, after, hall⟩ := List.append_of_mem (List.mem_finRange uid)
    have hnodup := List.nodup_finRange channelUidsCount
    rw [hall] at hnodup
    rw [getOlderChannel, hall]
    refine olderFrom_eq (fun u hu => holdest u ?_) (fun u hu => (holdest u ?_).le) (h.past uid) _
    · rintro rfl
      exact List.disjoint_of_nodup_append hnodup hu List.mem_cons_self
    · rintro rfl
      exact (List.nodup_cons.mp (List.Nodup.of_append_right hnodup)).1 hu

/-- The uid `uid` is reserved for `id` and was used at the reading `n`; the others are as they
were. -/
structure Stored (clock : Nat → Int) (s : ChannelUidStore) (id : Str)
    (uid : Fin channelUidsCount) (n : Nat) (s' : ChannelUidStore) : Prop where
  identifier_self : s'.identifier uid = id
  identifier_of_ne : ∀ u, u ≠ uid → s'.identifier u = s.identifier u
  lastUsed_self : s'.lastUsed uid = clock n
  lastUsed_of_ne : ∀ u, u ≠ uid → s'.lastUsed u = s.lastUsed u
  le_reading : s.reads ≤ n
  reading_lt : n < s'.reads

theorem stored_use (uid : Fin channelUidsCount) :
    Stored clock s (s.identifier uid) uid s.reads (s.use clock uid) where
  identifier_self := identifier_use uid uid
  identifier_of_ne := fun u _ => identifier_use uid u
  lastUsed_self := lastUsed_use_self uid
  lastUsed_of_ne := fun _ hu => lastUsed_use_of_ne hu
  le_reading := le_rfl
  reading_lt := Nat.lt_succ_self _

theorem stored_reserve_use (uid : Fin channelUidsCount) (id : Str) :
    Stored clock s id uid (s.reads + 1)
      (((s.getOlderChannel clock).2.reserve uid id).use clock uid) where
  identifier_self := (identifier_use uid uid).trans (identifier_reserve_self uid id)
  identifier_of_ne := fun u hu => (identifier_use uid u).trans (identifier_reserve_of_ne hu id)
  lastUsed_self := lastUsed_use_self uid
  lastUsed_of_ne := fun u hu => (lastUsed_use_of_ne hu).trans (lastUsed_reserve uid u id)
  le_reading := Nat.le_succ _
  reading_lt := Nat.lt_succ_self _

/-- The entry of the uid moves to the end of the table, and leaves the place that it had. -/
theorem Stored.refines {id : Str} {uid : Fin channelUidsCount} {n : Nat} {s' : ChannelUidStore}
    (hstored : Stored clock s id uid n s') (hclock : StrictMono clock) (hne : id ≠ [])
    (h : Refines clock s t) {t' : Lru.Table Str (Fin channelUidsCount)}
    {kept : List (Str × Fin channelUidsCount)} (hused : t'.used = kept ++ [(id, uid)])
    (hsub : kept.Sublist t.used) (hkept : ∀ e ∈ t.used, e ∈ kept ↔ e.2 ≠ uid)
    (hfree : t'.free = t.free.filter fun u => !decide (u = uid)) : Refines clock s' t' := by
  have hslot : ∀ e ∈ kept, e.2 ≠ uid := fun e he => (hkept e (hsub.subset he)).mp he
  have hreading : clock s.reads ≤ clock n := hclock.monotone hstored.le_reading
  have hlast : clock n < clock s'.reads := hclock hstored.reading_lt
  have hzero : clock 0 < clock n :=
    ((clock_zero_le h uid).trans_lt (h.past uid)).trans_le hreading
  constructor
  case ids =>
    rw [hused, List.forall_mem_append, List.forall_mem_singleton]
    refine ⟨fun e he => ?_, hne, hstored.identifier_self⟩
    rw [hstored.identifier_of_ne _ (hslot e he)]
    exact h.ids e (hsub.subset he)
  case entries =>
    intro u hu
    rw [hused]
    rcases eq_or_ne u uid with rfl | huid
    · rw [hstored.identifier_self]
      exact List.mem_append_right _ List.mem_cons_self
    · rw [hstored.identifier_of_ne u huid] at hu ⊢
      exact List.mem_append_left _ ((hkept _ (h.entries u hu)).mpr huid)
  case free =>
    rw [hfree, h.free, List.filter_filter]
    refine List.filter_congr fun u _ => ?_
    rcases eq_or_ne u uid with rfl | huid
    · simp [hstored.identifier_self, hne]
    · simp [hstored.identifier_of_ne u huid, huid]
  case order =>
    rw [hused, List.pairwise_append]
    refine ⟨?_, List.pairwise_singleton _ _, ?_⟩
    · refine (h.order.sublist hsub).imp_of_mem fun {e e'} he he' hlt => ?_
      rw [hstored.lastUsed_of_ne _ (hslot e he), hstored.lastUsed_of_ne _ (hslot e' he')]
      exact hlt
    · intro e he e' he'
      rw [List.mem_singleton.mp he', hstored.lastUsed_self,
        hstored.lastUsed_of_ne _ (hslot e he)]
      exact (h.past e.2).trans_le hreading
  case first =>
    intro u hu
    have huid : u ≠ uid := by
      rintro rfl
      exact hne (hstored.identifier_self.symm.trans hu)
    rw [hstored.identifier_of_ne u huid] at hu
    rw [hstored.lastUsed_of_ne u huid]
    exact h.first u hu
  case later =>
    rw [hused, List.forall_mem_append, List.forall_mem_singleton]
    refine ⟨fun e he => ?_, hzero.trans_eq hstored.lastUsed_self.symm⟩
    rw [hstored.lastUsed_of_ne _ (hslot e he)]
    exact h.later e (hsub.subset he)
  case past =>
    intro u
    rcases eq_or_ne u uid with rfl | huid
    · rw [hstored.lastUsed_self]
      exact hlast
    · rw [hstored.lastUsed_of_ne u huid]
      exact ((h.past u).trans_le hreading).trans hlast

theorem getChannelUid_of_reserved {id : Str} {uid : Fin channelUidsCount}
    (h : s.getReservedChannel id = some uid) :
    s.getChannelUid clock id = some (uid, s.use clock uid) := by
  rw [getChannelUid, h]

theorem getChannelUid_of_new {id : Str} {uid : Fin channelUidsCount}
    (hnone : s.getReservedChannel id = none) (h : (s.getOlderChannel clock).1 = some uid) :
    s.getChannelUid clock id =
      some (uid, ((s.getOlderChannel clock).2.reserve uid id).use clock uid) := by
  rw [getChannelUid, hnone]
  have hpair : s.getOlderChannel clock = (some uid, (s.getOlderChannel clock).2) := by rw [← h]
  rw [hpair]

theorem free_ne_of_mem {e : Str × Fin channelUidsCount} (he : e ∈ t.used)
    {u : Fin channelUidsCount} (hu : u ∈ t.free) : e.2 ≠ u := by
  rintro rfl
  exact List.disjoint_of_nodup_append t.slots_nodup (List.mem_map_of_mem he) hu

theorem filter_free_of_mem {id : Str} {uid : Fin channelUidsCount} (hmem : (id, uid) ∈ t.used) :
    t.free.filter (fun u => !decide (u = uid)) = t.free := by
  refine Lru.filter_ne_self fun hfree => ?_
  exact free_ne_of_mem hmem hfree (Eq.refl uid)

end ChannelUidStoreLemmas

open ChannelUidStoreLemmas

variable {clock} {s : ChannelUidStore} {t : Lru.Table Str (Fin channelUidsCount)}

/-! ## The refinement -/

theorem refines_init (hclock : StrictMono clock) : Refines clock (init clock) emptyTable where
  ids := fun _ he => absurd he List.not_mem_nil
  entries := fun _ hne => absurd rfl hne
  free := (List.filter_eq_self.mpr fun _ _ => decide_eq_true rfl).symm
  order := List.Pairwise.nil
  first := fun _ _ => rfl
  later := fun _ he => absurd he List.not_mem_nil
  past := fun _ => hclock Nat.zero_lt_one

/-- A call of `getChannelUid` is a use of the table. -/
theorem refines_touch (hclock : StrictMono clock) (h : Refines clock s t) {id : Str}
    (hne : id ≠ []) {uid : Fin channelUidsCount} {t' : Lru.Table Str (Fin channelUidsCount)}
    (htouch : Lru.touch t id = some (uid, t')) :
    ∃ s', s.getChannelUid clock id = some (uid, s') ∧ Refines clock s' t' := by
  have htouched := Lru.touched_of_touch htouch
  by_cases hk : id ∈ t.keys
  · obtain ⟨⟨_, x⟩, hmem, rfl⟩ := List.mem_map.mp hk
    have huid := htouched.slot_of_mem hmem
    subst huid
    refine ⟨_, getChannelUid_of_reserved (getReservedChannel_of_mem h hmem), ?_⟩
    have hstored : Stored clock s (s.identifier uid) uid s.reads (s.use clock uid) :=
      stored_use uid
    rw [(h.ids _ hmem).2] at hstored
    cases htouched with
    | fill hk' => exact absurd hk hk'
    | replace _ _ hk' => exact absurd hk hk'
    | hit _ hused hfree =>
      refine hstored.refines hclock hne h hused List.filter_sublist (fun e he => ?_)
        (hfree.trans (filter_free_of_mem hmem).symm)
      rw [List.mem_filter, Bool.not_eq_true', decide_eq_false_iff_not]
      refine ⟨fun hkept heq => hkept.2 ?_, fun hslot => ⟨he, fun heq => hslot ?_⟩⟩
      · rw [← (h.ids e he).2, heq]
        exact (h.ids _ hmem).2
      · have hmem' : (e.1, e.2) ∈ t.used := he
        rw [heq] at hmem'
        exact Lru.slot_unique hmem' hmem
  · have holder := getOlderChannel_of_touched h hk htouched
    refine ⟨_, getChannelUid_of_new (getReservedChannel_of_notMem h hne hk) holder, ?_⟩
    have hstored : Stored clock s id uid (s.reads + 1)
        (((s.getOlderChannel clock).2.reserve uid id).use clock uid) := stored_reserve_use uid id
    cases htouched with
    | hit hmem => exact absurd (List.mem_map_of_mem (f := Prod.fst) hmem) hk
    | fill _ hfree hused =>
      have hmem : uid ∈ t.free := by rw [hfree]; exact List.mem_cons_self
      refine hstored.refines hclock hne h hused (List.Sublist.refl _)
        (fun e he => ⟨fun _ => free_ne_of_mem he hmem, fun _ => he⟩) ?_
      have hnodup := List.Nodup.of_append_right t.slots_nodup
      rw [hfree] at hnodup
      rw [hfree, List.filter_cons_of_neg (by simp),
        Lru.filter_ne_self (List.nodup_cons.mp hnodup).1]
    | replace old rest _ hfree hold hused hfree' =>
      refine hstored.refines hclock hne h hused (by rw [hold]; exact List.sublist_cons_self _ _)
        (fun e he => ?_) (by rw [hfree', hfree]; rfl)
      have horder := h.order
      rw [hold] at he horder
      refine ⟨fun hrest heq => ?_, fun hslot => (List.mem_cons.mp he).resolve_left ?_⟩
      · have hlt := (List.pairwise_cons.mp horder).1 e hrest
        rw [heq] at hlt
        exact lt_irrefl _ hlt
      · rintro rfl
        exact hslot rfl

theorem getChannelUids_cons {id : Str} {ids : List Str} {uid : Fin channelUidsCount}
    {uids : List (Fin channelUidsCount)} {s₁ s' : ChannelUidStore}
    (hcall : s.getChannelUid clock id = some (uid, s₁))
    (hrun : s₁.getChannelUids clock ids = some (uids, s')) :
    s.getChannelUids clock (id :: ids) = some (uid :: uids, s') := by
  rw [getChannelUids, hcall, Option.bind_some]
  show (s₁.getChannelUids clock ids).map _ = _
  rw [hrun, Option.map_some]

theorem refines_run (hclock : StrictMono clock) (h : Refines clock s t) {ids : List Str}
    (hids : ∀ id ∈ ids, id ≠ []) {uids : List (Fin channelUidsCount)}
    {t' : Lru.Table Str (Fin channelUidsCount)} (hrun : Lru.run t ids = some (uids, t')) :
    ∃ s', s.getChannelUids clock ids = some (uids, s') ∧ Refines clock s' t' := by
  induction ids generalizing s t uids with
  | nil =>
    cases hrun
    exact ⟨s, rfl, h⟩
  | cons id ids ih =>
    rw [List.forall_mem_cons] at hids
    obtain ⟨uid, t₁, rest, htouch, hrest, rfl⟩ := Lru.run_cons.mp hrun
    obtain ⟨s₁, hcall, h₁⟩ := refines_touch hclock h hids.1 htouch
    obtain ⟨s', hcalls, h'⟩ := ih h₁ hids.2 hrest
    exact ⟨s', getChannelUids_cons hcall hcalls, h'⟩

/-! ## The least recently used identifiers -/

/-- After the calls for `ids`, which returned `uids`, the store is that of a table of 16 uids
with the most recently used identifiers. `List.dedup` has the identifiers in the order of their
last use. -/
structure LeastRecentlyUsed (clock : Nat → Int) (ids : List Str)
    (uids : List (Fin channelUidsCount)) (s : ChannelUidStore) : Prop where
  table : ∃ t, Lru.run emptyTable ids = some (uids, t) ∧ Refines clock s t
  reserved : ∀ id, id ≠ [] →
    ((s.getReservedChannel id).isSome ↔ id ∈ ids.dedup.rtake channelUidsCount)
  distinct : ∀ id id', id ≠ id' → id ≠ [] → id' ≠ [] → ∀ uid uid',
    s.getReservedChannel id = some uid → s.getReservedChannel id' = some uid' → uid ≠ uid'
  once : ∀ uid, s.identifier uid ≠ [] → s.getReservedChannel (s.identifier uid) = some uid
  keeps : ∀ before id after uid, ids = before ++ id :: after →
    uids[before.length]? = some uid → (after.toFinset.erase id).card < channelUidsCount →
    s.getReservedChannel id = some uid
  hit : ∀ id uid, s.getReservedChannel id = some uid →
    s.getChannelUid clock id = some (uid, s.use clock uid)
  new : ∀ id, id ≠ [] → s.getReservedChannel id = none →
    ∃ uid s', s.getChannelUid clock id = some (uid, s') ∧
      (s.identifier uid = [] ∨ (∀ u, s.identifier u ≠ []) ∧
        (ids.dedup.rtake channelUidsCount).head? = some (s.identifier uid))

namespace ChannelUidStoreLemmas

theorem reserved_iff (h : Refines clock s t) {id : Str} (hne : id ≠ []) :
    (s.getReservedChannel id).isSome ↔ id ∈ t.keys := by
  constructor
  · intro hsome
    obtain ⟨uid, huid⟩ := Option.isSome_iff_exists.mp hsome
    exact List.mem_map_of_mem (f := Prod.fst) (mem_of_getReservedChannel h hne huid)
  · intro hk
    obtain ⟨e, hmem, rfl⟩ := List.mem_map.mp hk
    rw [getReservedChannel_of_mem h hmem]
    rfl

theorem distinct_of_refines (h : Refines clock s t) {id id' : Str} (hne : id ≠ id')
    (hid : id ≠ []) (hid' : id' ≠ []) {uid uid' : Fin channelUidsCount}
    (huid : s.getReservedChannel id = some uid) (huid' : s.getReservedChannel id' = some uid') :
    uid ≠ uid' := by
  rintro rfl
  have hmem := h.ids _ (mem_of_getReservedChannel h hid huid)
  have hmem' := h.ids _ (mem_of_getReservedChannel h hid' huid')
  exact hne (hmem.2.symm.trans hmem'.2)

/-- The uid of a new identifier: a free one, or that of the first key of the table. -/
theorem free_or_first (h : Refines clock s t) {id : Str} (hk : id ∉ t.keys)
    {uid : Fin channelUidsCount} {t' : Lru.Table Str (Fin channelUidsCount)}
    (htouched : Lru.Touched t id uid t') :
    s.identifier uid = [] ∨
      (∀ u, s.identifier u ≠ []) ∧ t.keys.head? = some (s.identifier uid) := by
  cases htouched with
  | hit hmem => exact absurd (List.mem_map_of_mem (f := Prod.fst) hmem) hk
  | fill _ hfree _ =>
    have hmem : uid ∈ t.free := by rw [hfree]; exact List.mem_cons_self
    rw [h.free] at hmem
    exact .inl (of_decide_eq_true (List.mem_filter.mp hmem).2)
  | replace old rest _ hfree hold _ _ =>
    refine .inr ⟨fun u hu => ?_, ?_⟩
    · rw [h.free, List.filter_eq_nil_iff] at hfree
      exact hfree u (List.mem_finRange u) (decide_eq_true hu)
    · have hmem : (old, uid) ∈ t.used := by rw [hold]; exact List.mem_cons_self
      rw [Lru.Table.keys, hold, (h.ids _ hmem).2]
      rfl

theorem emptyTable_size : emptyTable.size = channelUidsCount := by
  simp [emptyTable, Lru.Table.empty, Lru.Table.size]

theorem leastRecentlyUsed_of_run (hclock : StrictMono clock) {ids : List Str}
    {uids : List (Fin channelUidsCount)} (hrun : Lru.run emptyTable ids = some (uids, t))
    (h : Refines clock s t) : LeastRecentlyUsed clock ids uids s := by
  have hkeys : t.keys = ids.dedup.rtake channelUidsCount := by
    have hall := Lru.run_keys (List.nodup_finRange channelUidsCount) hrun
    rw [List.length_finRange] at hall
    exact hall
  have hsize : t.size = channelUidsCount := (Lru.run_size hrun).trans emptyTable_size
  constructor
  case table => exact ⟨t, hrun, h⟩
  case reserved =>
    intro id hne
    rw [← hkeys]
    exact reserved_iff h hne
  case distinct => exact fun _ _ hne hid hid' _ _ => distinct_of_refines h hne hid hid'
  case once => exact fun uid hne => getReservedChannel_of_mem h (h.entries uid hne)
  case keeps =>
    rintro before id after uid rfl huid hcard
    rw [← emptyTable_size] at hcard
    exact getReservedChannel_of_mem h
      (Lru.run_slot (Lru.window_empty (List.nodup_finRange _)) hrun hcard huid)
  case hit => exact fun _ _ => getChannelUid_of_reserved
  case new =>
    intro id hne hnone
    have hk : id ∉ t.keys := by
      rw [← reserved_iff h hne, hnone]
      exact Bool.false_ne_true
    have hpos : t.size ≠ 0 := by
      rw [hsize]
      exact Nat.succ_ne_zero _
    obtain ⟨uid, t', htouch⟩ := Lru.exists_touch hpos id
    obtain ⟨s', hcall, -⟩ := refines_touch hclock h hne htouch
    refine ⟨uid, s', hcall, ?_⟩
    rw [← hkeys]
    exact free_or_first h hk (Lru.touched_of_touch htouch)

end ChannelUidStoreLemmas

/-- Over every sequence of calls, `getChannelUid` never throws and is a table of 16 uids that
replaces the least recently used identifier. -/
theorem channelUids_lru (hclock : StrictMono clock) {ids : List Str}
    (hids : ∀ id ∈ ids, id ≠ []) :
    ∃ uids s, (init clock).getChannelUids clock ids = some (uids, s) ∧
      LeastRecentlyUsed clock ids uids s := by
  have hpos : emptyTable.size ≠ 0 := by
    rw [emptyTable_size]
    exact Nat.succ_ne_zero _
  obtain ⟨uids, t, hrun⟩ := Lru.exists_run hpos ids
  obtain ⟨s, hcalls, h⟩ := refines_run hclock (refines_init hclock) hids hrun
  exact ⟨uids, s, hcalls, leastRecentlyUsed_of_run hclock hrun h⟩

/-- The clock that counts its readings, and three calls of which two are for one identifier. -/
theorem channelUids_lru_chat :
    ∃ uids s, (init fun n => (n : Int)).getChannelUids (fun n => (n : Int))
        [['c', 'h', 'a', 't'], ['v', 'o', 'i', 'c', 'e'], ['c', 'h', 'a', 't']] =
          some (uids, s) ∧
      LeastRecentlyUsed (fun n => (n : Int))
        [['c', 'h', 'a', 't'], ['v', 'o', 'i', 'c', 'e'], ['c', 'h', 'a', 't']] uids s :=
  channelUids_lru (fun _ _ hlt => Int.ofNat_lt.mpr hlt) (by decide)

/-- After any calls, calls for other identifiers can give an identifier any uid. -/
theorem channelUid_any (hclock : StrictMono clock) {ids : List Str} (hids : ∀ id ∈ ids, id ≠ [])
    {uids : List (Fin channelUidsCount)} {s : ChannelUidStore}
    (hcalls : (init clock).getChannelUids clock ids = some (uids, s)) {id : Str} (hid : id ≠ [])
    (uid : Fin channelUidsCount) : ∃ others uids' s₁ s₂, (∀ x ∈ others, x ≠ [] ∧ x ≠ id) ∧
      s.getChannelUids clock others = some (uids', s₁) ∧
      s₁.getChannelUid clock id = some (uid, s₂) := by
  obtain ⟨uids₀, s₀, hcalls₀, hlru⟩ := channelUids_lru hclock hids
  rw [hcalls] at hcalls₀
  cases hcalls₀
  obtain ⟨t, -, h⟩ := hlru.table
  have hline : uid ∈ t.line := by
    by_cases hnone : s.identifier uid = []
    · refine List.mem_append_left _ ?_
      rw [h.free]
      exact List.mem_filter.mpr ⟨List.mem_finRange uid, decide_eq_true hnone⟩
    · exact List.mem_append_right _ (List.mem_map_of_mem (f := Prod.snd) (h.entries uid hnone))
  obtain ⟨others, uids', t₁, t₂, hothers, hrun, htouch⟩ := Lru.exists_run_slot t {[]} id hline
  have hne : ∀ x ∈ others, x ≠ [] ∧ x ≠ id := by
    intro x hx
    simpa using hothers x hx
  obtain ⟨s₁, hcalls₁, h₁⟩ := refines_run hclock h (fun x hx => (hne x hx).1) hrun
  obtain ⟨s₂, hcall, -⟩ := refines_touch hclock h₁ hid htouch
  exact ⟨others, uids', s₁, s₂, hne, hcalls₁, hcall⟩

/-! ## Calls that throw -/

/-- The call finds a uid: the one that is reserved, or one whose last use is before the clock's
next reading. -/
def hasUid (clock : Nat → Int) (s : ChannelUidStore) (channelIdentifier : Str) : Bool :=
  (s.getReservedChannel channelIdentifier).isSome ||
    (List.finRange channelUidsCount).any fun uid => decide (s.lastUsed uid < clock s.reads)

/-- Every call for the identifiers finds a uid, in the store that the calls before it left. -/
def AllHaveUid (clock : Nat → Int) : ChannelUidStore → List Str → Prop
  | _, [] => True
  | s, id :: ids => s.hasUid clock id = true ∧
    ∀ uid s', s.getChannelUid clock id = some (uid, s') → AllHaveUid clock s' ids

namespace ChannelUidStoreLemmas

/-- The loop ends with no uid when it starts with none and every date is at or after the first. -/
theorem olderFrom_isSome_iff (m : Option (Fin channelUidsCount)) (minDate : Int)
    (uids : List (Fin channelUidsCount)) :
    (s.olderFrom m minDate uids).isSome = true ↔
      m.isSome = true ∨ ∃ uid ∈ uids, s.lastUsed uid < minDate := by
  induction uids generalizing m minDate with
  | nil => simp [olderFrom]
  | cons c uids ih =>
    rw [olderFrom, List.exists_mem_cons_iff]
    split
    · next hlt => exact iff_of_true ((ih _ _).mpr (.inl rfl)) (.inr (.inl hlt))
    · next hnot =>
      rw [ih]
      refine or_congr_right ⟨.inr, fun h => h.resolve_left hnot⟩

end ChannelUidStoreLemmas

/-- A call returns a uid exactly when it finds one. Without one that is reserved, this needs a uid
whose last use is before the time of the call. -/
theorem getChannelUid_isSome_iff (clock : Nat → Int) (s : ChannelUidStore)
    (channelIdentifier : Str) :
    (s.getChannelUid clock channelIdentifier).isSome = true ↔
      s.hasUid clock channelIdentifier = true := by
  have holder := olderFrom_isSome_iff (s := s) none (clock s.reads)
    (List.finRange channelUidsCount)
  unfold getChannelUid hasUid getOlderChannel
  cases s.getReservedChannel channelIdentifier with
  | some uid => exact iff_of_true rfl rfl
  | none =>
    rw [Option.isSome_none, Bool.false_or, List.any_eq_true]
    simp only [decide_eq_true_eq]
    rw [Option.isSome_none, Bool.false_eq_true, false_or] at holder
    rw [← holder]
    cases s.olderFrom none (clock s.reads) (List.finRange channelUidsCount) <;> rfl

/-- Over every sequence of calls, from every store: all of them return a uid exactly when each finds
one. -/
theorem getChannelUids_isSome_iff (clock : Nat → Int) (s : ChannelUidStore) (ids : List Str) :
    (s.getChannelUids clock ids).isSome = true ↔ s.AllHaveUid clock ids := by
  induction ids generalizing s with
  | nil => simp [getChannelUids, AllHaveUid]
  | cons id ids ih =>
    have hcall := getChannelUid_isSome_iff clock s id
    unfold getChannelUids AllHaveUid
    rw [← hcall]
    cases s.getChannelUid clock id with
    | none => simp
    | some r =>
      obtain ⟨uid, s'⟩ := r
      simp [ih]

/-- When the clock shows the same time as at the construction, the first call throws. -/
theorem first_call_throws :
    ¬ ∀ clock : Nat → Int, Monotone clock → ∀ ids uids s, (∀ id ∈ ids, id ≠ []) →
      (init clock).getChannelUids clock ids = some (uids, s) →
      ∀ id, id ≠ [] → (s.getChannelUid clock id).isSome = true := by
  intro h
  have hcall := h (fun _ => 0) monotone_const [] [] _ (List.forall_mem_nil _) rfl ['a'] (by decide)
  exact absurd hcall (by decide)

end ChannelUidStore

end Stormancer.Packets
