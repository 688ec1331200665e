import Mathlib.Data.Finset.Card
import Mathlib.Data.Fintype.EquivFin
import Mathlib.Data.List.Dedup
import Mathlib.Data.List.DropRight
import Mathlib.Data.List.Nodup
import Mathlib.Data.List.Rotate

/-!
# Tables that replace the least recently used key

A table gives each key in it one of a fixed set of slots. A key that is used keeps its slot and
becomes the most recent one; a new key takes a free slot or, when there is none, the slot of the
least recently used key. `List.dedup` keeps the last use of each key, so the keys of a history
in the order of their last use are its `dedup`.

Results:
1. `Touched`, `touched_of_touch`: the three ways in which a use changes the table.
2. `exists_touch`: a table with a slot serves every use.
3. `run_keys`: the keys of the table are the most recently used ones of the history.
4. `run_slot`: a key keeps its slot while fewer other keys are used than there are slots.
5. `exists_run_slot`: uses of enough other keys can give a key any slot.
-/

namespace Lru

variable {κ σ : Type*}

/-! ## Definitions -/

/-- The keys with their slots, the least recently used first, and the slots without a key. -/
structure Table (κ σ : Type*) where
  used : List (κ × σ)
  free : List σ
  keys_nodup : (used.map Prod.fst).Nodup
  slots_nodup : (used.map Prod.snd ++ free).Nodup

namespace Table

def keys (t : Table κ σ) : List κ := t.used.map Prod.fst

/-- The number of slots. -/
def size (t : Table κ σ) : Nat := t.used.length + t.free.length

/-- The slots in the order in which new keys take them. -/
def line (t : Table κ σ) : List σ := t.free ++ t.used.map Prod.snd

/-- The table in which every slot is free. -/
def empty (slots : List σ) (h : slots.Nodup) : Table κ σ where
  used := []
  free := slots
  keys_nodup := List.nodup_nil
  slots_nodup := by simpa using h

end Table

variable [DecidableEq κ]

theorem filter_key {used : List (κ × σ)} (hnodup : (used.map Prod.fst).Nodup) {k : κ} {slot : σ}
    (hmem : (k, slot) ∈ used) : used.filter (fun e => decide (e.1 = k)) = [(k, slot)] := by
  induction used with
  | nil => cases hmem
  | cons e used ih =>
    rw [List.map_cons, List.nodup_cons] at hnodup
    have hother : ∀ e' ∈ used, e'.1 ≠ e.1 := fun e' he' heq =>
      hnodup.1 (heq ▸ List.mem_map_of_mem he')
    rcases List.mem_cons.mp hmem with rfl | htail
    · rw [List.filter_cons_of_pos (by simp), List.filter_eq_nil_iff.mpr]
      intro e' he'
      simpa using hother e' he'
    · rw [List.filter_cons_of_neg, ih hnodup.2 htail]
      simpa using (hother _ htail).symm

/-- Moving the entry of a key to the end permutes the entries. -/
theorem perm_of_moved {used : List (κ × σ)} (hnodup : (used.map Prod.fst).Nodup) {k : κ}
    {slot : σ} (hmem : (k, slot) ∈ used) :
    (used.filter (fun e => !decide (e.1 = k)) ++ [(k, slot)]).Perm used := by
  rw [← filter_key hnodup hmem]
  exact List.perm_append_comm.trans (List.filter_append_perm _ _)

namespace Table

/-- The entry of a key that is in the table moves to the end. -/
def refresh (t : Table κ σ) (k : κ) (slot : σ) (hmem : (k, slot) ∈ t.used) : Table κ σ where
  used := t.used.filter (fun e => !decide (e.1 = k)) ++ [(k, slot)]
  free := t.free
  keys_nodup := ((perm_of_moved t.keys_nodup hmem).map Prod.fst).nodup_iff.mpr t.keys_nodup
  slots_nodup := (((perm_of_moved t.keys_nodup hmem).map Prod.snd).append_right _).nodup_iff.mpr
    t.slots_nodup

/-- A key that is not in the table takes the slot that an entry or a free slot left. -/
def insert (k : κ) (slot : σ) (used : List (κ × σ)) (free : List σ)
    (hk : k ∉ used.map Prod.fst) (hkeys : (used.map Prod.fst).Nodup)
    (hslots : (slot :: (used.map Prod.snd ++ free)).Nodup) : Table κ σ where
  used := used ++ [(k, slot)]
  free := free
  keys_nodup := by
    rw [List.map_append, List.map_singleton, ← List.concat_eq_append, List.nodup_concat]
    exact ⟨hk, hkeys⟩
  slots_nodup := by
    rw [List.map_append, List.map_singleton, List.append_assoc]
    exact List.perm_middle.nodup_iff.mpr hslots

end Table

theorem not_mem_of_find?_none {t : Table κ σ} {k : κ}
    (h : t.used.find? (fun e => decide (e.1 = k)) = none) : k ∉ t.used.map Prod.fst := by
  intro hk
  obtain ⟨e, he, heq⟩ := List.mem_map.mp hk
  exact List.find?_eq_none.mp h e he (decide_eq_true heq)

theorem mem_of_find? {t : Table κ σ} {k : κ} {e : κ × σ}
    (h : t.used.find? (fun e => decide (e.1 = k)) = some e) : (k, e.2) ∈ t.used := by
  have hkey : e.1 = k := of_decide_eq_true (List.find?_some h :)
  subst hkey
  exact List.mem_of_find?_eq_some h

/-- The use of a key: its slot and the table after it. `none`: the table has no slot. -/
def touch (t : Table κ σ) (k : κ) : Option (σ × Table κ σ) :=
  match h : t.used.find? (fun e => decide (e.1 = k)) with
  | some e => some (e.2, t.refresh k e.2 (mem_of_find? h))
  | none =>
    match hfree : t.free with
    | slot :: free =>
      some (slot, Table.insert k slot t.used free (not_mem_of_find?_none h) t.keys_nodup (by
        have hslots := t.slots_nodup
        rw [hfree] at hslots
        exact List.perm_middle.nodup_iff.mp hslots))
    | [] =>
      match hused : t.used with
      | [] => none
      | (old, slot) :: used =>
        some (slot, Table.insert k slot used []
          (fun hk => not_mem_of_find?_none h (by rw [hused]; exact List.mem_cons_of_mem _ hk))
          (by
            have hkeys := t.keys_nodup
            rw [hused] at hkeys
            exact (List.nodup_cons.mp hkeys).2)
          (by
            have hslots := t.slots_nodup
            rw [hused, hfree] at hslots
            exact hslots))

/-- The uses of the keys of a list, with the slots that they were given. -/
def run (t : Table κ σ) : List κ → Option (List σ × Table κ σ)
  | [] => some ([], t)
  | k :: ks =>
    (touch t k).bind fun (slot, t) => (run t ks).map fun (slots, t) => (slot :: slots, t)

/-! ## One use -/

/-- What the use of a key does: `hit` moves its entry to the end, `fill` takes a free slot, and
`replace` takes the slot of the first entry. -/
inductive Touched (t : Table κ σ) (k : κ) (slot : σ) (t' : Table κ σ) : Prop
  | hit (hmem : (k, slot) ∈ t.used)
      (hused : t'.used = t.used.filter (fun e => !decide (e.1 = k)) ++ [(k, slot)])
      (hfree : t'.free = t.free)
  | fill (hk : k ∉ t.keys) (hfree : t.free = slot :: t'.free)
      (hused : t'.used = t.used ++ [(k, slot)])
  | replace (old : κ) (rest : List (κ × σ)) (hk : k ∉ t.keys) (hfree : t.free = [])
      (hold : t.used = (old, slot) :: rest) (hused : t'.used = rest ++ [(k, slot)])
      (hfree' : t'.free = [])

theorem touched_of_touch {t t' : Table κ σ} {k : κ} {slot : σ}
    (h : touch t k = some (slot, t')) : Touched t k slot t' := by
  unfold touch at h
  split at h
  · next e he =>
    cases h
    exact .hit (mem_of_find? he) rfl rfl
  · next hnone =>
    have hk : k ∉ t.keys := not_mem_of_find?_none hnone
    split at h
    · next slot free hfree =>
      cases h
      exact .fill hk hfree rfl
    · next hfree =>
      split at h
      · cases h
      · next old slot used hused =>
        cases h
        exact .replace old used hk hfree hused rfl rfl

theorem exists_touch {t : Table κ σ} (h : t.size ≠ 0) (k : κ) :
    ∃ slot t', touch t k = some (slot, t') := by
  unfold touch
  split
  · exact ⟨_, _, rfl⟩
  · split
    · exact ⟨_, _, rfl⟩
    · next hfree =>
      split
      · next hused =>
        rw [Table.size, hused, hfree] at h
        exact absurd rfl h
      · exact ⟨_, _, rfl⟩

theorem slot_unique {t : Table κ σ} {k : κ} {x y : σ} (hx : (k, x) ∈ t.used)
    (hy : (k, y) ∈ t.used) : x = y := by
  have hone := filter_key t.keys_nodup hx
  have hmem : (k, y) ∈ t.used.filter (fun e => decide (e.1 = k)) := by simp [hy]
  rw [hone, List.mem_singleton] at hmem
  exact (Prod.mk.inj hmem).2.symm

namespace Touched

variable {t t' : Table κ σ} {k : κ} {slot : σ}

theorem mem_used (h : Touched t k slot t') : (k, slot) ∈ t'.used := by
  cases h with
  | hit _ hused | fill _ _ hused | replace _ _ _ _ _ hused =>
    rw [hused]
    exact List.mem_append_right _ List.mem_cons_self

theorem size_eq (h : Touched t k slot t') : t'.size = t.size := by
  unfold Table.size
  cases h with
  | hit hmem hused hfree => rw [hused, hfree, (perm_of_moved t.keys_nodup hmem).length_eq]
  | fill hk hfree hused =>
    rw [hused, hfree]
    simp only [List.length_append, List.length_cons, List.length_nil]
    omega
  | replace old rest hk hfree hold hused hfree' =>
    rw [hused, hfree', hfree, hold, List.length_append]
    rfl

/-- The use of a key gives no other key a slot. -/
theorem mem_of_mem (h : Touched t k slot t') {k' : κ} (hne : k' ≠ k) {x : σ}
    (hmem : (k', x) ∈ t'.used) : (k', x) ∈ t.used := by
  have hlast : (k', x) ∉ [(k, slot)] := by
    rw [List.mem_singleton]
    exact fun heq => hne (Prod.mk.inj heq).1
  cases h with
  | hit _ hused =>
    rw [hused] at hmem
    exact (List.mem_filter.mp ((List.mem_append.mp hmem).resolve_right hlast)).1
  | fill _ _ hused =>
    rw [hused] at hmem
    exact (List.mem_append.mp hmem).resolve_right hlast
  | replace old rest _ _ hold hused =>
    rw [hused] at hmem
    rw [hold]
    exact List.mem_cons_of_mem _ ((List.mem_append.mp hmem).resolve_right hlast)

theorem slot_of_mem (h : Touched t k slot t') {x : σ} (hmem : (k, x) ∈ t.used) : slot = x := by
  cases h with
  | hit hmem' => exact slot_unique hmem' hmem
  | fill hk | replace _ _ hk => exact absurd (List.mem_map_of_mem (f := Prod.fst) hmem) hk

end Touched

/-! ## The most recent keys -/

/-- `recent` are the last keys of `all`, at most `n` and fewer only if they are all of them. -/
def Window (n : Nat) (all recent : List κ) : Prop :=
  recent.length ≤ n ∧ ∃ older, all = older ++ recent ∧ (older = [] ∨ recent.length = n)

omit [DecidableEq κ] in
theorem Window.eq_rtake {n : Nat} {all recent : List κ} (h : Window n all recent) :
    recent = all.rtake n := by
  obtain ⟨hle, older, rfl, rfl | hn⟩ := h
  · rw [List.nil_append, List.rtake, Nat.sub_eq_zero_of_le hle, List.drop_zero]
  · rw [List.rtake, List.length_append, hn, Nat.add_sub_cancel, List.drop_left]

omit [DecidableEq κ] in
/-- A key with fewer than `n` keys after it is among the last `n`. -/
theorem Window.mem {n : Nat} {all recent before after : List κ} {k : κ}
    (h : Window n all recent) (hall : all = before ++ k :: after) (hlt : after.length < n) :
    k ∈ recent := by
  obtain ⟨-, older, holder, rfl | hn⟩ := h
  · rw [List.nil_append, hall] at holder
    rw [← holder]
    exact List.mem_append_right _ List.mem_cons_self
  · have hsuffix : k :: after <:+ recent :=
      List.suffix_of_suffix_length_le ⟨before, hall.symm⟩ ⟨older, holder.symm⟩ (by
        rw [List.length_cons]
        omega)
    exact hsuffix.subset List.mem_cons_self

theorem dedup_snoc (ks : List κ) (k : κ) :
    (ks ++ [k]).dedup = ks.dedup.filter (fun x => !decide (x = k)) ++ [k] := by
  induction ks with
  | nil => rfl
  | cons a ks ih =>
    rw [List.cons_append]
    by_cases hmem : a ∈ ks
    · rw [List.dedup_cons_of_mem (List.mem_append_left _ hmem), ih, List.dedup_cons_of_mem hmem]
    · rw [List.dedup_cons_of_notMem hmem]
      by_cases heq : a = k
      · subst heq
        rw [List.dedup_cons_of_mem (by simp), ih, List.filter_cons_of_neg (by simp)]
      · rw [List.dedup_cons_of_notMem (by simp [hmem, heq]), ih,
          List.filter_cons_of_pos (by simp [heq]), List.cons_append]

theorem filter_ne_self {ks : List κ} {k : κ} (hk : k ∉ ks) :
    ks.filter (fun x => !decide (x = k)) = ks := by
  rw [List.filter_eq_self]
  intro x hx
  simp only [Bool.not_eq_true', decide_eq_false_iff_not]
  rintro rfl
  exact hk hx

theorem keys_filter (used : List (κ × σ)) (k : κ) :
    (used.filter fun e => !decide (e.1 = k)).map Prod.fst =
      (used.map Prod.fst).filter fun x => !decide (x = k) := by
  rw [List.filter_map]
  rfl

/-- The keys of the table stay the most recent ones. -/
theorem Touched.window {t t' : Table κ σ} {k : κ} {slot : σ} (h : Touched t k slot t')
    {history : List κ} (hwindow : Window t.size history.dedup t.keys) :
    Window t'.size (history ++ [k]).dedup t'.keys := by
  have hsize := h.size_eq
  have hle' : t'.keys.length ≤ t'.size := by
    rw [Table.keys, List.length_map]
    exact Nat.le_add_right _ _
  obtain ⟨-, older, hall, hfull⟩ := hwindow
  have hnodup := List.nodup_dedup history
  rw [hall] at hnodup
  rw [dedup_snoc, hall, List.filter_append]
  refine ⟨hle', ?_⟩
  cases h with
  | hit hmem hused hfree =>
    have hkeys : t'.keys = t.keys.filter (fun x => !decide (x = k)) ++ [k] := by
      rw [Table.keys, hused, List.map_append, keys_filter]
      rfl
    have hk : k ∉ older := fun hk =>
      (List.disjoint_of_nodup_append hnodup) hk (List.mem_map_of_mem (f := Prod.fst) hmem)
    refine ⟨older, by rw [hkeys, filter_ne_self hk, List.append_assoc], ?_⟩
    have hlength : t'.keys.length = t.keys.length := by
      rw [Table.keys, Table.keys, List.length_map, List.length_map, hused,
        (perm_of_moved t.keys_nodup hmem).length_eq]
    rw [hlength, hsize]
    exact hfull
  | fill hk hfree hused =>
    have hkeys : t'.keys = t.keys ++ [k] := by
      rw [Table.keys, hused, List.map_append]
      rfl
    have holder : older = [] := by
      refine hfull.resolve_right ?_
      rw [Table.size, hfree, Table.keys, List.length_map, List.length_cons]
      omega
    refine ⟨[], ?_, .inl rfl⟩
    rw [holder, hkeys, filter_ne_self hk]
    rfl
  | replace old rest hk hfree hold hused hfree' =>
    have hkeys : t.keys = old :: rest.map Prod.fst := by
      rw [Table.keys, hold]
      rfl
    have hkeys' : t'.keys = rest.map Prod.fst ++ [k] := by
      rw [Table.keys, hused, List.map_append]
      rfl
    refine ⟨older.filter (fun x => !decide (x = k)) ++ [old], ?_, .inr ?_⟩
    · rw [filter_ne_self hk, hkeys, hkeys']
      simp
    · rw [hsize, Table.size, hfree, hkeys', hold]
      simp

/-! ## Runs -/

theorem run_cons {t t' : Table κ σ} {k : κ} {ks : List κ} {slots : List σ} :
    run t (k :: ks) = some (slots, t') ↔
      ∃ slot t₁ rest, touch t k = some (slot, t₁) ∧ run t₁ ks = some (rest, t') ∧
        slots = slot :: rest := by
  rw [run]
  constructor
  · intro h
    obtain ⟨⟨slot, t₁⟩, htouch, hmap⟩ := Option.bind_eq_some_iff.mp h
    obtain ⟨⟨rest, t₂⟩, hrun, heq⟩ := Option.map_eq_some_iff.mp hmap
    cases heq
    exact ⟨slot, t₁, rest, htouch, hrun, rfl⟩
  · rintro ⟨slot, t₁, rest, htouch, hrun, rfl⟩
    rw [htouch, Option.bind_some]
    show (run t₁ ks).map _ = _
    rw [hrun, Option.map_some]

theorem exists_run {t : Table κ σ} (h : t.size ≠ 0) (ks : List κ) :
    ∃ slots t', run t ks = some (slots, t') := by
  induction ks generalizing t with
  | nil => exact ⟨[], t, rfl⟩
  | cons k ks ih =>
    obtain ⟨slot, t₁, htouch⟩ := exists_touch h k
    obtain ⟨rest, t', hrun⟩ := ih ((touched_of_touch htouch).size_eq.trans_ne h)
    exact ⟨slot :: rest, t', run_cons.mpr ⟨slot, t₁, rest, htouch, hrun, rfl⟩⟩

/-- A run up to the use of a key, that use, and the run after it. -/
theorem run_split {t t' : Table κ σ} {before after : List κ} {k : κ} {slots : List σ}
    (h : run t (before ++ k :: after) = some (slots, t')) :
    ∃ t₁ t₂ slot first last, run t before = some (first, t₁) ∧ touch t₁ k = some (slot, t₂) ∧
      run t₂ after = some (last, t') ∧ slots[before.length]? = some slot := by
  induction before generalizing t slots with
  | nil =>
    obtain ⟨slot, t₂, last, htouch, hrun, rfl⟩ := run_cons.mp h
    exact ⟨t, t₂, slot, [], last, rfl, htouch, hrun, rfl⟩
  | cons k' before ih =>
    obtain ⟨slot', t₀, rest, htouch', hrest, rfl⟩ := run_cons.mp h
    obtain ⟨t₁, t₂, slot, first, last, hfirst, htouch, hlast, hslot⟩ := ih hrest
    refine ⟨t₁, t₂, slot, slot' :: first, last, ?_, htouch, hlast, ?_⟩
    · exact run_cons.mpr ⟨slot', t₀, first, htouch', hfirst, rfl⟩
    · rw [List.length_cons, List.getElem?_cons_succ]
      exact hslot

theorem run_window {t t' : Table κ σ} {history ks : List κ} {slots : List σ}
    (hwindow : Window t.size history.dedup t.keys) (h : run t ks = some (slots, t')) :
    Window t'.size (history ++ ks).dedup t'.keys := by
  induction ks generalizing t history slots with
  | nil =>
    cases h
    rw [List.append_nil]
    exact hwindow
  | cons k ks ih =>
    obtain ⟨slot, t₁, rest, htouch, hrun, rfl⟩ := run_cons.mp h
    have hnext := ih ((touched_of_touch htouch).window hwindow) hrun
    rw [List.append_assoc, List.singleton_append] at hnext
    exact hnext

theorem run_size {t t' : Table κ σ} {ks : List κ} {slots : List σ}
    (h : run t ks = some (slots, t')) : t'.size = t.size := by
  induction ks generalizing t slots with
  | nil =>
    cases h
    rfl
  | cons k ks ih =>
    obtain ⟨slot, t₁, rest, htouch, hrun, rfl⟩ := run_cons.mp h
    exact (ih hrun).trans (touched_of_touch htouch).size_eq

omit [DecidableEq κ] in
theorem window_empty {slots : List σ} (hslots : slots.Nodup) :
    Window (Table.size (Table.empty slots hslots : Table κ σ)) []
      (Table.keys (Table.empty slots hslots : Table κ σ)) :=
  ⟨Nat.zero_le _, [], rfl, .inl rfl⟩

/-- The keys of the table are the last ones of the history, in the order of their last use. -/
theorem run_keys {slots rest : List σ} (hslots : slots.Nodup) {ks : List κ} {t : Table κ σ}
    (h : run (Table.empty slots hslots) ks = some (rest, t)) :
    t.keys = ks.dedup.rtake slots.length := by
  have hwindow : Window t.size ([] ++ ks).dedup t.keys := run_window (window_empty hslots) h
  rw [List.nil_append, run_size h] at hwindow
  have hkeys := hwindow.eq_rtake
  rw [Table.size] at hkeys
  simpa [Table.empty] using hkeys

theorem exists_dedup_append_cons (history after : List κ) (k : κ) :
    ∃ before later, (history ++ k :: after).dedup = before ++ k :: later ∧ later ⊆ after := by
  induction after using List.reverseRecOn with
  | nil => exact ⟨_, [], dedup_snoc history k, List.nil_subset _⟩
  | append_singleton after y ih =>
    obtain ⟨before, later, hall, hsub⟩ := ih
    have hsnoc := dedup_snoc (history ++ k :: after) y
    rw [List.append_assoc, List.cons_append, hall, List.filter_append] at hsnoc
    by_cases hy : k = y
    · subst hy
      rw [List.filter_cons_of_neg (by simp)] at hsnoc
      exact ⟨_, [], hsnoc, List.nil_subset _⟩
    · rw [List.filter_cons_of_pos (by simp [hy]), List.append_assoc, List.cons_append] at hsnoc
      refine ⟨_, _, hsnoc, ?_⟩
      intro x hx
      rcases List.mem_append.mp hx with hlater | hlast
      · exact List.mem_append_left _ (hsub (List.mem_of_mem_filter hlater))
      · exact List.mem_append_right _ hlast

/-- A key with fewer than `n` other keys used after it is among the last `n`. -/
theorem Window.mem_of_card {n : Nat} {history after recent : List κ} {k : κ}
    (h : Window n (history ++ k :: after).dedup recent)
    (hcard : (after.toFinset.erase k).card < n) : k ∈ recent := by
  obtain ⟨before, later, hall, hsub⟩ := exists_dedup_append_cons history after k
  refine h.mem hall (Nat.lt_of_le_of_lt ?_ hcard)
  have hnodup := List.nodup_dedup (history ++ k :: after)
  rw [hall] at hnodup
  obtain ⟨hk, hlater⟩ := List.nodup_cons.mp (List.Nodup.of_append_right hnodup)
  rw [← List.toFinset_card_of_nodup hlater]
  refine Finset.card_le_card fun x hx => ?_
  rw [List.mem_toFinset] at hx
  refine Finset.mem_erase.mpr ⟨?_, List.mem_toFinset.mpr (hsub hx)⟩
  rintro rfl
  exact hk hx

/-- By induction on what is used after the key. At each of these uses the key is still among
the last ones, so its entry stays, and only its own use could give it another slot. -/
theorem run_keeps {t t' : Table κ σ} {history used after : List κ} {k : κ} {slot : σ}
    {slots : List σ} (hwindow : Window t.size (history ++ k :: used).dedup t.keys)
    (hmem : (k, slot) ∈ t.used) (hcard : ((used ++ after).toFinset.erase k).card < t.size)
    (h : run t after = some (slots, t')) : (k, slot) ∈ t'.used := by
  induction after generalizing t used slots with
  | nil =>
    cases h
    exact hmem
  | cons y after ih =>
    obtain ⟨slot', t₁, rest, htouch, hrun, rfl⟩ := run_cons.mp h
    have htouched := touched_of_touch htouch
    have hwindow' := htouched.window hwindow
    rw [List.append_assoc, List.cons_append] at hwindow'
    have hcard' : ((used ++ [y] ++ after).toFinset.erase k).card < t₁.size := by
      rw [htouched.size_eq, List.append_assoc, List.singleton_append]
      exact hcard
    refine ih hwindow' ?_ hcard' hrun
    by_cases hy : y = k
    · subst hy
      have hslot := htouched.slot_of_mem hmem
      subst hslot
      exact htouched.mem_used
    · have hsub : (used ++ [y]).toFinset.erase k ⊆ (used ++ [y] ++ after).toFinset.erase k := by
        refine Finset.erase_subset_erase _ fun x hx => ?_
        rw [List.mem_toFinset] at hx ⊢
        exact List.mem_append_left _ hx
      have hkey : k ∈ t₁.keys :=
        hwindow'.mem_of_card (Nat.lt_of_le_of_lt (Finset.card_le_card hsub) hcard')
      obtain ⟨⟨_, x⟩, hx, rfl⟩ := List.mem_map.mp hkey
      have hx' := htouched.mem_of_mem (Ne.symm hy) hx
      rw [slot_unique hmem hx']
      exact hx

/-- A key that was used has the slot of that use as long as fewer other keys were used since
than there are slots. -/
theorem run_slot {t t' : Table κ σ} (hempty : Window t.size [] t.keys) {before after : List κ}
    {k : κ} {slots : List σ} (h : run t (before ++ k :: after) = some (slots, t'))
    (hcard : (after.toFinset.erase k).card < t.size) {slot : σ}
    (hslot : slots[before.length]? = some slot) : (k, slot) ∈ t'.used := by
  obtain ⟨t₁, t₂, x, first, last, hfirst, htouch, hlast, hx⟩ := run_split h
  have heq : x = slot := Option.some.inj (hx.symm.trans hslot)
  subst heq
  have htouched := touched_of_touch htouch
  have hbefore : Window t₁.size ([] ++ before).dedup t₁.keys := run_window hempty hfirst
  have hwindow : Window t₂.size (before ++ k :: []).dedup t₂.keys := htouched.window hbefore
  rw [← run_size hfirst, ← htouched.size_eq] at hcard
  exact run_keeps hwindow htouched.mem_used hcard hlast

/-! ## New keys -/

theorem Touched.new {t t' : Table κ σ} {k : κ} {slot : σ} (h : Touched t k slot t')
    (hk : k ∉ t.keys) : (∃ rest, t.line = slot :: rest ∧ t'.line = rest ++ [slot]) ∧
      t'.keys <:+ t.keys ++ [k] := by
  unfold Table.line Table.keys
  cases h with
  | hit hmem => exact absurd (List.mem_map_of_mem (f := Prod.fst) hmem) hk
  | fill _ hfree hused =>
    refine ⟨⟨t'.free ++ t.used.map Prod.snd, by rw [hfree]; rfl, by simp [hused]⟩, ?_⟩
    rw [hused, List.map_append]
    exact List.suffix_refl _
  | replace old rest _ hfree hold hused hfree' =>
    refine ⟨⟨rest.map Prod.snd, by rw [hfree, hold]; rfl, by simp [hused, hfree']⟩, ?_⟩
    rw [hused, hold, List.map_append]
    exact ⟨[old], rfl⟩

/-- New keys take the slots in line, one after the other, and displace the other keys. -/
theorem run_new {t t' : Table κ σ} {ks : List κ} {slots : List σ} (hnodup : ks.Nodup)
    (hnew : ∀ k ∈ ks, k ∉ t.keys) (h : run t ks = some (slots, t')) :
    t'.line = t.line.rotate ks.length ∧ t'.keys <:+ t.keys ++ ks := by
  induction ks generalizing t slots with
  | nil =>
    cases h
    rw [List.append_nil]
    exact ⟨(List.rotate_zero _).symm, List.suffix_refl _⟩
  | cons k ks ih =>
    obtain ⟨slot, t₁, rest, htouch, hrun, rfl⟩ := run_cons.mp h
    obtain ⟨hk, hks⟩ := List.nodup_cons.mp hnodup
    obtain ⟨⟨line, hline, hline₁⟩, hkeys₁⟩ :=
      (touched_of_touch htouch).new (hnew k List.mem_cons_self)
    have hnew₁ : ∀ x ∈ ks, x ∉ t₁.keys := by
      intro x hx hmem
      rcases List.mem_append.mp (hkeys₁.subset hmem) with hold | hlast
      · exact hnew x (List.mem_cons_of_mem _ hx) hold
      · exact hk (List.mem_singleton.mp hlast ▸ hx)
    obtain ⟨hline', hkeys'⟩ := ih hks hnew₁ hrun
    constructor
    · rw [hline', hline₁, hline, List.length_cons, List.rotate_cons_succ]
    · have hsuffix : t₁.keys ++ ks <:+ t.keys ++ k :: ks := by
        obtain ⟨older, holder⟩ := hkeys₁
        refine ⟨older, ?_⟩
        rw [← List.append_assoc, holder, List.append_assoc]
        rfl
      exact hkeys'.trans hsuffix

omit [DecidableEq κ] in
theorem line_length (t : Table κ σ) : t.line.length = t.size := by
  simp [Table.line, Table.size, Nat.add_comm]

omit [DecidableEq κ] in
theorem exists_new [Infinite κ] (avoid : Finset κ) (n : ℕ) :
    ∃ ks : List κ, ks.length = n ∧ ks.Nodup ∧ ∀ x ∈ ks, x ∉ avoid := by
  classical
  obtain ⟨all, hsub, hcard⟩ := Infinite.exists_superset_card_eq avoid (avoid.card + n)
    (Nat.le_add_right _ _)
  refine ⟨(all \ avoid).toList, ?_, Finset.nodup_toList _, fun x hx => ?_⟩
  · rw [Finset.length_toList, Finset.card_sdiff_of_subset hsub, hcard, Nat.add_sub_cancel_left]
  · exact (Finset.mem_sdiff.mp (Finset.mem_toList.mp hx)).2

/-- Whatever slot a key has, uses of other keys can give it any slot. -/
theorem exists_run_slot [Infinite κ] (t : Table κ σ) (avoid : Finset κ) (k : κ) {slot : σ}
    (hslot : slot ∈ t.line) : ∃ ks slots t₁ t₂, (∀ x ∈ ks, x ∉ avoid ∧ x ≠ k) ∧
      run t ks = some (slots, t₁) ∧ touch t₁ k = some (slot, t₂) := by
  have hpos : t.size ≠ 0 := by
    rw [← line_length]
    exact (List.length_pos_of_mem hslot).ne'
  obtain ⟨before, after, hsplit⟩ := List.append_of_mem hslot
  -- As many new keys as there are slots displace `k`, and some more bring the slot to the front.
  obtain ⟨ks, hlength, hnodup, hnew⟩ :=
    exists_new (insert k (avoid ∪ t.keys.toFinset)) (t.size + before.length)
  have hother : ∀ x ∈ ks, x ≠ k ∧ x ∉ avoid ∧ x ∉ t.keys := by
    intro x hx
    simpa using hnew x hx
  obtain ⟨slots, t₁, hrun⟩ := exists_run hpos ks
  obtain ⟨hline, hkeys⟩ := run_new hnodup (fun x hx => (hother x hx).2.2) hrun
  have hfront : t₁.line = slot :: after ++ before := by
    rw [hline, hlength, ← line_length, ← List.rotate_rotate, List.rotate_length, hsplit,
      List.rotate_append_length_eq]
  have hk : k ∉ t₁.keys := by
    have hle : t₁.keys.length ≤ ks.length := by
      have hsize := run_size hrun
      rw [Table.keys, List.length_map, hlength]
      unfold Table.size at hsize ⊢
      omega
    have hsuffix := List.suffix_of_suffix_length_le hkeys (List.suffix_append _ _) hle
    exact fun hmem => (hother k (hsuffix.subset hmem)).1 rfl
  obtain ⟨slot', t₂, htouch⟩ := exists_touch ((run_size hrun).trans_ne hpos) k
  obtain ⟨⟨rest, hrest, -⟩, -⟩ := (touched_of_touch htouch).new hk
  rw [hfront] at hrest
  cases hrest
  exact ⟨ks, slots, t₁, t₂, fun x hx => ⟨(hother x hx).2.1, (hother x hx).1⟩, hrun, htouch⟩

end Lru
