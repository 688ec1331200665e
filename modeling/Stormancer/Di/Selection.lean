import Mathlib.Data.List.Nodup
import Stormancer.Di.Identity

/-!
# Which registrations are selected, and how often they are instantiated

What the scopes answer is compared with what is registered along their chains, for factories
that do not throw and do not return null.

Results:
1. `listed_once`: what `resolveAll` goes through has every registration once.
2. `answers_of_path`: the answers in a run, those to factories included, are as the registrations
   say.
3. `once_of_path`: a factory call for an owner completes once, unless it is transient.
4. `selection`: the answers are those that the registrations along the chain give, in the states
   of all runs in which no factory is called again for a slot before it has returned, no two scopes
   share a slot, and no scope has lost its parent when it is asked.
5. `single_instance_twice`: a factory that requests its own type completes twice.
-/

namespace Stormancer.Di

/-! ## Definitions -/

/-- What the registration gives when it is requested from `requesting`, and its own factory made
that for the owner. -/
def Supplies (s : Container) (requesting : ScopeId) (p : ScopeId × RegistrationInternal)
    (object : Option Instance) : Prop :=
  ∃ owner, s.scopes.ownerOf p.1 p.2 requesting = some owner ∧ Found s p.1 p.2 owner object ∧
    ⟨⟨p.1, p.2.id⟩, owner, object⟩ ∈ s.completions

/-- What the answers and the factory calls of a container have in common with its scopes. -/
structure Selection (s : Container) : Prop where
  /-- `resolve` gives what the last registration of the type gives, in the nearest scope that has
  one. -/
  picks : ∀ z t object, .resolve z t (.ok object) ∈ s.answers → object ≠ none ∧
    ∃ i reg, Picked s.scopes t (s.scopes.chain z) i reg ∧ Supplies s z (i, reg) object
  throws_iff : ∀ z t r, .resolve z t r ∈ s.answers → ((∃ e, r = .error e) ↔
    (∀ i ∈ s.scopes.chain z, s.scopes.localRegs i t = []) ∨
      ∃ i reg, Picked s.scopes t (s.scopes.chain z) i reg ∧
        reg.lifetime = .instancePerMatchingScope ∧
        s.scopes.findMatchingScope z reg.tag = none)
  /-- `resolveAll` gives what each registration along the chain gives, in order. -/
  lists : ∀ z t r, .resolveAll z t r ∈ s.answers →
    ∃ objects : List Instance, r = .ok (objects.map some) ∧
      List.Forall₂ (fun p object => Supplies s z p (some object))
        (s.scopes.instantiable t z (s.scopes.chain z)) objects
  listed_once : ∀ z t, ((s.scopes.instantiable t z (s.scopes.chain z)).map
    fun p => RegistrationKey.mk p.1 p.2.id).Nodup
  resolved_listed : ∀ z t object objects i reg, .resolve z t (.ok object) ∈ s.answers →
    .resolveAll z t (.ok objects) ∈ s.answers →
    Picked s.scopes t (s.scopes.chain z) i reg → reg.lifetime ≠ .instancePerRequest →
    object ∈ objects
  single_once : ∀ (key : RegistrationKey) t, ∀ reg ∈ s.scopes.localRegs key.scope t,
    reg.id = key.id → reg.lifetime = .singleInstance →
    (s.completions.filter fun c => c.registration = key).length ≤ 1

/-- No factory call threw, or returned null. -/
structure Dependable (s : Container) : Prop where
  none_thrown : s.thrown = 0
  none_null : ∀ c ∈ s.completions, c.object ≠ none

/-- Requests to a valid scope are answered, if the factories return or throw. -/
structure Responds (calls : Nat → FactoryCall) (s : Container) : Prop where
  resolve : ∀ depth z t,
    (∀ running f scope, Prog.Returns (Container.callFactory calls depth running f scope)) →
    z < s.scopes.length → z ∉ s.destroyed → ∃ r s',
      Container.resolve (Container.callFactory calls depth) [] z t s = some (r, s') ∧
        .resolve z t r ∈ s'.answers
  resolveAll : ∀ depth z t,
    (∀ running f scope, Prog.Returns (Container.callFactory calls depth running f scope)) →
    z < s.scopes.length → z ∉ s.destroyed → ∃ r s',
      Container.resolveAll (Container.callFactory calls depth) [] z t s = some (r, s') ∧
        .resolveAll z t r ∈ s'.answers

namespace SelectionLemmas

open Container TreeLemmas EventLemmas IdentityLemmas

/-! ## Registrations along a chain -/

theorem picked_find {scopes : Scopes} {t : TypeHash} {chain : List ScopeId} {i : ScopeId}
    {reg : RegistrationInternal} (h : Picked scopes t chain i reg) :
    chain.find? (fun j => !(scopes.localRegs j t).isEmpty) = some i := by
  obtain ⟨nearer, further, hchain, hnearer⟩ := h.nearest
  refine List.find?_eq_some_iff_append.mpr ⟨?_, nearer, further, hchain, ?_⟩
  · have hne : scopes.localRegs i t ≠ [] := List.ne_nil_of_mem (List.mem_of_getLast? h.last)
    simpa using hne
  · intro j hj
    simp [hnearer j hj]

theorem picked_unique {scopes : Scopes} {t : TypeHash} {chain : List ScopeId} {i j : ScopeId}
    {reg reg' : RegistrationInternal} (h : Picked scopes t chain i reg)
    (h' : Picked scopes t chain j reg') : i = j ∧ reg = reg' := by
  have hij : i = j := Option.some.inj ((picked_find h).symm.trans (picked_find h'))
  subst hij
  exact ⟨rfl, Option.some.inj (h.last.symm.trans h'.last)⟩

theorem registered_of_picked {scopes : Scopes} {t : TypeHash} {chain : List ScopeId} {i : ScopeId}
    {reg : RegistrationInternal} (h : Picked scopes t chain i reg) :
    i ∈ chain ∧ reg ∈ scopes.localRegs i t := by
  obtain ⟨nearer, further, hchain, _⟩ := h.nearest
  exact ⟨hchain ▸ List.mem_append_right _ List.mem_cons_self, List.mem_of_getLast? h.last⟩

theorem ownerOf_eq_none_iff {scopes : Scopes} {i z : ScopeId} {reg : RegistrationInternal} :
    scopes.ownerOf i reg z = none ↔
      reg.lifetime = .instancePerMatchingScope ∧ scopes.findMatchingScope z reg.tag = none := by
  unfold Scopes.ownerOf
  cases reg.lifetime <;> simp

theorem mem_instantiable {scopes : Scopes} {t : TypeHash} {i z : ScopeId} {chain : List ScopeId}
    {reg : RegistrationInternal} :
    (i, reg) ∈ scopes.instantiable t z chain ↔
      i ∈ chain ∧ reg ∈ scopes.localRegs i t ∧ (scopes.ownerOf i reg z).isSome := by
  simp only [Scopes.instantiable, Scopes.owned, List.mem_flatMap, List.mem_map, List.mem_filter,
    Prod.mk.injEq]
  constructor
  · rintro ⟨j, hj, q, ⟨hq, howner⟩, rfl, rfl⟩
    exact ⟨hj, hq, howner⟩
  · rintro ⟨hi, hreg, howner⟩
    exact ⟨i, hi, reg, ⟨hreg, howner⟩, rfl, rfl⟩

theorem localRegs_nodup {scopes : Scopes} (h : WellFormed scopes) (i : ScopeId) (t : TypeHash) :
    ((scopes.localRegs i t).map (·.id)).Nodup := by
  unfold Scopes.localRegs
  cases hi : scopes[i]? with
  | none => exact List.nodup_nil
  | some impl =>
    obtain ⟨_, hbegun⟩ := begun_of_wellFormed h hi
    exact hbegun.nodup t

/-- Within a scope the ids differ, and between scopes the scopes do. -/
theorem listed_once {scopes : Scopes} (h : WellFormed scopes) (z : ScopeId) (t : TypeHash) :
    ((scopes.instantiable t z (scopes.chain z)).map
      fun p => RegistrationKey.mk p.1 p.2.id).Nodup := by
  unfold Scopes.instantiable Scopes.owned
  rw [List.map_flatMap, List.nodup_flatMap]
  constructor
  · intro i _
    have hids : (((scopes.localRegs i t).filter fun reg => (scopes.ownerOf i reg z).isSome).map
        RegistrationInternal.id).Nodup :=
      (localRegs_nodup h i t).sublist (List.filter_sublist.map _)
    have hkeys := hids.map (f := RegistrationKey.mk i) fun _ _ heq =>
      congrArg RegistrationKey.id heq
    rw [List.map_map] at hkeys ⊢
    exact hkeys
  · refine (chain_nodup h z).imp ?_
    intro i j hne key hi hj
    simp only [List.mem_map] at hi hj
    obtain ⟨_, ⟨_, _, rfl⟩, rfl⟩ := hi
    obtain ⟨_, ⟨_, _, rfl⟩, heq⟩ := hj
    exact hne (congrArg RegistrationKey.scope heq).symm

/-! ## Listings -/

theorem exists_of_forall₂ {α β : Type} {R : α → β → Prop} {as : List α} {bs : List β}
    (h : List.Forall₂ R as bs) {a : α} (ha : a ∈ as) : ∃ b ∈ bs, R a b := by
  induction h with
  | nil => cases ha
  | cons hab _ ih =>
    rcases List.mem_cons.mp ha with rfl | ha
    · exact ⟨_, List.mem_cons_self, hab⟩
    · obtain ⟨b, hb, hr⟩ := ih ha
      exact ⟨b, List.mem_cons_of_mem _ hb, hr⟩

theorem forall₂_imp_mem {α β : Type} {R S : α → β → Prop} {as : List α} {bs : List β}
    (h : List.Forall₂ R as bs) (hS : ∀ a ∈ as, ∀ b, R a b → S a b) : List.Forall₂ S as bs := by
  induction h with
  | nil => exact .nil
  | cons hab _ ih =>
    refine .cons (hS _ List.mem_cons_self _ hab) (ih fun a ha => ?_)
    exact hS a (List.mem_cons_of_mem _ ha)

/-- What a registration that is not transient gives does not depend on who asks. -/
theorem gives_unique {s : Container} {z : ScopeId} {p : ScopeId × RegistrationInternal}
    {o o' : Option Instance} (hl : p.2.lifetime ≠ .instancePerRequest) (h : Gives s z p o)
    (h' : Gives s z p o') : o = o' := by
  obtain ⟨owner, howner, hfound⟩ := h
  obtain ⟨owner', howner', hfound'⟩ := h'
  rw [howner] at howner'
  cases howner'
  exact Option.some.inj ((hfound.2 hl).symm.trans (hfound'.2 hl))

/-- Dependable factories give no null. -/
theorem gives_isSome {s : Container} (hledger : Ledger s) (hd : Dependable s) {z : ScopeId}
    {p : ScopeId × RegistrationInternal} {object : Option Instance} (h : Gives s z p object) :
    object ≠ none := by
  obtain ⟨owner, _, hfound⟩ := h
  by_cases hl : p.2.lifetime = .instancePerRequest
  · exact hd.none_null _ (hfound.1 hl)
  · obtain ⟨_, _, _, _, _, _, _, hmem⟩ := hledger.filled _ _ _ (hfound.2 hl)
    exact hd.none_null _ hmem

theorem all_of_dependable {s : Container} (hledger : Ledger s) (hd : Dependable s) {z : ScopeId}
    {ps : List (ScopeId × RegistrationInternal)} {all : List (Option Instance)}
    (h : List.Forall₂ (Gives s z) ps all) : ∃ objects : List Instance, all = objects.map some := by
  induction h with
  | nil => exact ⟨[], rfl⟩
  | @cons p o ps all hgives _ ih =>
    obtain ⟨objects, rfl⟩ := ih
    obtain ⟨object, rfl⟩ := Option.ne_none_iff_exists'.mp (gives_isSome hledger hd hgives)
    exact ⟨object :: objects, rfl⟩

/-! ## Answers -/

/-- What was answered stays right. -/
theorem answered_later {s s' : Container} (hw : WellFormed s.scopes) (hl : Later s s')
    (hk : Kept s s') {x : Answer} (hz : x.requesting < s.scopes.length) (h : Answered s x) :
    Answered s' x := by
  have hgives : ∀ {z p o}, z < s.scopes.length → Gives s z p o → Gives s' z p o :=
    fun hz hg => gives_later hw hl hk hz hg
  cases x with
  | resolve z t r =>
    cases r with
    | ok object =>
      obtain ⟨i, reg, hpicked, hg⟩ := h
      exact ⟨i, reg, picked_of_growth hw hl.scopes hpicked, hgives hz hg⟩
    | error e =>
      rcases h with ⟨he, hnone⟩ | ⟨i, reg, hpicked, hnone, he⟩ | hfailed
      · exact .inl ⟨he, unregistered_of_growth hw hl.scopes hz hnone⟩
      · refine .inr (.inl ⟨i, reg, picked_of_growth hw hl.scopes hpicked, ?_, he⟩)
        exact (ownerOf_of_growth hw hl.scopes i reg hz).trans hnone
      · exact .inr (.inr (Nat.lt_of_lt_of_le hfailed (failures_later hl)))
  | resolveAll z t r =>
    cases r with
    | ok objects =>
      obtain ⟨all, hall, rfl⟩ := h
      have hz : z < s.scopes.length := hz
      refine ⟨all, ?_, rfl⟩
      rw [chain_of_growth hl.scopes hz, instantiable_of_growth hw hl.scopes hz t fun _ h => h]
      exact hall.imp fun _ _ => hgives hz
    | error e => exact Nat.lt_of_lt_of_le h (failures_later hl)

def AnswersRight (s : Container) : Prop :=
  ∀ x ∈ s.answers, x.requesting < s.scopes.length ∧ Answered s x

theorem answers_of_event {running : List Slot} {s s' : Container} (hw : WellFormed s.scopes)
    (hre : s'.reentered = []) (he : Event running s s') (h : AnswersRight s) :
    AnswersRight s' := by
  have hl := later_of_event he
  have hk := kept_of_event he hre
  have hold : ∀ x, x.requesting < s.scopes.length ∧ Answered s x →
      x.requesting < s'.scopes.length ∧ Answered s' x :=
    fun x hx => ⟨Nat.lt_of_lt_of_le hx.1 hl.scopes.length_le, answered_later hw hl hk hx.1 hx.2⟩
  cases he with
  | call | fail | begin | reenter | destroy | orphan | make | store | record =>
    exact fun x hx => hold x (h x hx)
  | answer x hz hok =>
    intro y hy
    rcases List.mem_append.mp hy with hy | hy
    · exact hold y (h y hy)
    · rw [List.mem_singleton.mp hy]
      exact hold x ⟨hz, hok⟩

theorem answers_of_path {s : Container} (h : Path [] Container.init s)
    (hre : s.reentered = []) : AnswersRight s :=
  (invariant_of_path (I := AnswersRight) nofun (fun _ _ => answers_of_event) h hre).2

/-! ## Factory calls -/

def Transient (scopes : Scopes) (key : RegistrationKey) : Prop :=
  ∃ t, ∃ reg ∈ scopes.localRegs key.scope t, reg.id = key.id ∧
    reg.lifetime = .instancePerRequest

/-- A factory call that completed was for an owner, and filled its slot; two calls for one owner
are of a transient registration. -/
structure Once (s : Container) : Prop where
  filled : ∀ c ∈ s.completions, ∃ t reg z, Selects s.scopes t c.registration.scope reg z c.scope ∧
    reg.id = c.registration.id ∧
    (reg.lifetime ≠ .instancePerRequest → s.stored (c.scope, reg.id) ≠ none)
  once : s.completions.Pairwise fun c d => c.registration = d.registration → c.scope = d.scope →
    Transient s.scopes c.registration

theorem filled_later {s s' : Container} (hw : WellFormed s.scopes) (hl : Later s s')
    (hk : Kept s s') (h : Once s) : ∀ c ∈ s.completions, ∃ t reg z,
    Selects s'.scopes t c.registration.scope reg z c.scope ∧ reg.id = c.registration.id ∧
    (reg.lifetime ≠ .instancePerRequest → s'.stored (c.scope, reg.id) ≠ none) := by
  intro c hc
  obtain ⟨t, reg, z, hs, hid, hfilled⟩ := h.filled c hc
  refine ⟨t, reg, z, selects_later hw hl hs, hid, ?_⟩
  intro hlife
  obtain ⟨object, hobject⟩ := Option.ne_none_iff_exists'.mp (hfilled hlife)
  rw [hk _ _ hobject]
  nofun

theorem once_later {s s' : Container} (hw : WellFormed s.scopes) (hl : Later s s') (h : Once s) :
    s.completions.Pairwise fun c d => c.registration = d.registration → c.scope = d.scope →
      Transient s'.scopes c.registration := by
  refine h.once.imp_of_mem ?_
  intro c d hc _ hpair hreg hscope
  obtain ⟨_, _, _, hs, _, _⟩ := h.filled c hc
  obtain ⟨t, reg, hmem, htransient⟩ := hpair hreg hscope
  refine ⟨t, reg, ?_, htransient⟩
  rw [localRegs_of_growth hl.scopes (lt_length_of_mem_chain hw hs.enclosing)]
  exact hmem

/-- One case for each event. When a factory returns whose slot is empty, it has not returned for
the slot before. -/
theorem once_of_event {running : List Slot} {s s' : Container} (hw : WellFormed s.scopes)
    (hre : s'.reentered = []) (he : Event running s s') (h : Once s) : Once s' := by
  have hl := later_of_event he
  have hfilled := filled_later hw hl (kept_of_event he hre) h
  have honce := once_later hw hl h
  cases he with
  | call | fail | begin | reenter | destroy | orphan | record | answer => exact ⟨hfilled, honce⟩
  | @make t i z owner reg object hs hlife =>
    refine ⟨?_, List.pairwise_append.mpr ⟨honce, List.pairwise_singleton _ _, ?_⟩⟩
    · intro c hc
      rcases List.mem_append.mp hc with hc | hc
      · exact hfilled c hc
      · rw [List.mem_singleton.mp hc]
        exact ⟨t, reg, z, hs, rfl, fun hne => absurd hlife hne⟩
    · intro c _ d hd hreg _
      rw [List.mem_singleton.mp hd] at hreg
      rw [hreg]
      exact ⟨t, reg, hs.registered, rfl, hlife⟩
  | @store t i z owner reg object hs hlife hslot =>
    have hempty := empty_of_store hslot hre
    refine ⟨?_, List.pairwise_append.mpr ⟨honce, List.pairwise_singleton _ _, ?_⟩⟩
    · intro c hc
      rcases List.mem_append.mp hc with hc | hc
      · exact hfilled c hc
      · rw [List.mem_singleton.mp hc]
        refine ⟨t, reg, z, hs, rfl, fun _ => ?_⟩
        rw [stored_store, if_pos rfl]
        nofun
    · intro c hc d hd hreg hscope
      rw [List.mem_singleton.mp hd] at hreg hscope
      obtain ⟨u, q, w, hq, hid, hqfilled⟩ := h.filled c hc
      have hqid : q.id = reg.id := by rw [hid, hreg]
      rw [hqid, hscope] at hqfilled
      by_cases hql : q.lifetime = .instancePerRequest
      · exact ⟨u, q, hq.registered, hid, hql⟩
      · exact absurd hempty (hqfilled hql)

theorem once_of_path {s : Container} (h : Path [] Container.init s) (hre : s.reentered = []) :
    Once s :=
  (invariant_of_path ⟨nofun, .nil⟩ (fun _ _ => once_of_event) h hre).2

/-- All calls of a `SingleInstance` factory are for the scope of its registration. -/
theorem single_once {s : Container} (hw : WellFormed s.scopes) (h : Once s)
    {key : RegistrationKey} {t : TypeHash} {reg : RegistrationInternal}
    (hreg : reg ∈ s.scopes.localRegs key.scope t) (hid : reg.id = key.id)
    (hsingle : reg.lifetime = .singleInstance) :
    (s.completions.filter fun c => c.registration = key).length ≤ 1 := by
  have hscope : ∀ c ∈ s.completions, c.registration = key → c.scope = key.scope := by
    intro c hc hkey
    obtain ⟨u, q, z, hs, hqid, _⟩ := h.filled c hc
    rw [hkey] at hs hqid
    have hsame := reg_unique hw hs.registered hreg (hqid.trans hid.symm)
    have howner := hs.owner_eq
    rw [hsame] at howner
    simp only [Scopes.ownerOf, hsingle] at howner
    exact (Option.some.inj howner).symm
  have hnot : ¬ Transient s.scopes key := by
    rintro ⟨u, q, hq, hqid, htransient⟩
    have hsame := reg_unique hw hq hreg (hqid.trans hid.symm)
    rw [hsame, hsingle] at htransient
    cases htransient
  have hnone : (s.completions.filter fun c => c.registration = key).Pairwise
      fun _ _ => False := by
    refine (h.once.sublist List.filter_sublist).imp_of_mem ?_
    intro c d hc hd hpair
    obtain ⟨hc, hckey⟩ := List.mem_filter.mp hc
    obtain ⟨hd, hdkey⟩ := List.mem_filter.mp hd
    have hckey := of_decide_eq_true hckey
    have hdkey := of_decide_eq_true hdkey
    refine hnot (hckey ▸ hpair (hckey.trans hdkey.symm) ?_)
    exact (hscope c hc hckey).trans (hscope d hd hdkey).symm
  generalize (s.completions.filter fun c => c.registration = key) = calls at hnone
  cases hnone with
  | nil => exact Nat.zero_le _
  | @cons c cs hfalse _ =>
    cases cs with
    | nil => exact Nat.le_refl _
    | cons d ds => exact (hfalse d List.mem_cons_self).elim

/-! ## What the answers say -/

theorem failures_eq_zero {s : Container} (hd : Dependable s) (horphaned : s.orphaned = []) :
    s.failures = 0 := by
  unfold failures
  rw [hd.none_thrown, horphaned]
  rfl

theorem supplies_of_gives {s : Container} (hw : WellFormed s.scopes)
    (hshare : NoSharedSlot s.scopes) (hledger : Ledger s) {t : TypeHash} {z : ScopeId}
    {p : ScopeId × RegistrationInternal} {object : Option Instance}
    (hreg : p.2 ∈ s.scopes.localRegs p.1 t) (hi : p.1 ∈ s.scopes.chain z)
    (h : Gives s z p object) : Supplies s z p object := by
  obtain ⟨owner, howner, hfound⟩ := h
  exact ⟨owner, howner, hfound, made_of_found hw hshare hledger ⟨hreg, hi, howner⟩ hfound⟩

theorem lists_of_answer {s : Container} (hledger : Ledger s) (hanswers : AnswersRight s)
    (hd : Dependable s) (horphaned : s.orphaned = []) {z : ScopeId} {t : TypeHash}
    {r : Except Error (List (Option Instance))} (h : .resolveAll z t r ∈ s.answers) :
    ∃ objects : List Instance, r = .ok (objects.map some) ∧
      List.Forall₂ (fun p object => Gives s z p (some object))
        (s.scopes.instantiable t z (s.scopes.chain z)) objects := by
  have hok := (hanswers _ h).2
  cases r with
  | error e => exact absurd (failures_eq_zero hd horphaned) (Nat.ne_of_gt hok)
  | ok objects =>
    obtain ⟨all, hall, rfl⟩ := hok
    obtain ⟨objects, rfl⟩ := all_of_dependable hledger hd hall
    have hsome : (objects.map some).filter (·.isSome) = objects.map some :=
      List.filter_eq_self.mpr fun o ho => by
        obtain ⟨_, _, rfl⟩ := List.mem_map.mp ho
        rfl
    exact ⟨objects, congrArg _ hsome, List.forall₂_map_right_iff.mp hall⟩

theorem throws_of_answer {s : Container} (hanswers : AnswersRight s) (hd : Dependable s)
    (horphaned : s.orphaned = []) {z : ScopeId} {t : TypeHash} {r : Except Error (Option Instance)}
    (h : .resolve z t r ∈ s.answers) : (∃ e, r = .error e) ↔
      (∀ i ∈ s.scopes.chain z, s.scopes.localRegs i t = []) ∨
        ∃ i reg, Picked s.scopes t (s.scopes.chain z) i reg ∧
          reg.lifetime = .instancePerMatchingScope ∧
          s.scopes.findMatchingScope z reg.tag = none := by
  have hok := (hanswers _ h).2
  cases r with
  | error e =>
    refine ⟨fun _ => ?_, fun _ => ⟨e, rfl⟩⟩
    rcases hok with ⟨_, hnone⟩ | ⟨i, reg, hpicked, howner, _⟩ | hfailed
    · exact .inl hnone
    · exact .inr ⟨i, reg, hpicked, ownerOf_eq_none_iff.mp howner⟩
    · exact absurd (failures_eq_zero hd horphaned) (Nat.ne_of_gt hfailed)
  | ok object =>
    obtain ⟨i, reg, hpicked, owner, howner, _⟩ := hok
    refine ⟨nofun, ?_⟩
    rintro (hnone | ⟨j, q, hq, hnone⟩)
    · obtain ⟨hi, hreg⟩ := registered_of_picked hpicked
      rw [hnone i hi] at hreg
      cases hreg
    · obtain ⟨rfl, rfl⟩ := picked_unique hpicked hq
      rw [ownerOf_eq_none_iff.mpr hnone] at howner
      cases howner

/-! ## Requests return -/

section
variable {factory : FactoryProg} {running : List Slot}

theorem getInstanceForScope_returns
    (hf : ∀ running f scope, Prog.Returns (factory running f scope)) (i z : ScopeId)
    (reg : RegistrationInternal) :
    Prog.Returns (getInstanceForScope factory running i reg z) := by
  refine .get_bind fun s => ?_
  cases s.stored (z, reg.id) with
  | some existing => exact .pure _
  | none =>
    exact .bind (.modify _) fun _ => .bind (hf _ _ _) fun _ => .bind (.modify _) fun _ => .pure _

theorem tryLockParent_returns (i : ScopeId) (parents : List ScopeId) :
    Prog.Returns (tryLockParent i parents) := by
  intro s
  rcases tryLockParent_cases i parents s with hlock | hlock
  · exact ⟨_, _, hlock⟩
  · exact ⟨_, _, hlock⟩

theorem findMatchingScope_returns (tag : String) (chain : List ScopeId) :
    Prog.Returns (findMatchingScope tag chain) := by
  induction chain with
  | nil => exact .pure _
  | cons i parents ih =>
    refine .get_bind fun s => ?_
    split
    · exact .pure _
    · exact .bind (tryLockParent_returns _ _) fun _ => ih

theorem instantiateRegistration_returns
    (hf : ∀ running f scope, Prog.Returns (factory running f scope)) (i z : ScopeId)
    (reg : RegistrationInternal) (throwOnNotFound : Bool) :
    Prog.Returns (instantiateRegistration factory running i reg z throwOnNotFound) := by
  unfold instantiateRegistration
  cases reg.lifetime with
  | instancePerRequest =>
    exact .bind (hf _ _ _) fun _ => .bind (.modify _) fun _ => .pure _
  | instancePerScope | singleInstance => exact getInstanceForScope_returns hf _ _ _
  | instancePerMatchingScope =>
    refine .get_bind fun s => .bind (findMatchingScope_returns _ _) fun matching => ?_
    cases matching with
    | some scope => exact getInstanceForScope_returns hf _ _ _
    | none =>
      cases throwOnNotFound with
      | true => exact .raise _
      | false => exact .pure _

theorem resolveRegistration_returns
    (hf : ∀ running f scope, Prog.Returns (factory running f scope)) (t : TypeHash)
    (i z : ScopeId) (reg : RegistrationInternal) (throwOnNotFound : Bool) :
    Prog.Returns (resolveRegistration factory running t i reg z throwOnNotFound) :=
  .bind (instantiateRegistration_returns hf _ _ _ _) fun _ => .bind (.modify _) fun _ => .pure _

theorem resolveLocal_returns
    (hf : ∀ running f scope, Prog.Returns (factory running f scope)) (t : TypeHash)
    (i z : ScopeId) (regs : List RegistrationInternal) :
    Prog.Returns (resolveLocal factory running t i z regs) := by
  induction regs with
  | nil => exact .pure _
  | cons reg regs ih =>
    refine .bind (resolveRegistration_returns hf _ _ _ _ _) fun object => .bind ih fun _ => ?_
    cases object <;> exact .pure _

theorem resolveInternal_returns
    (hf : ∀ running f scope, Prog.Returns (factory running f scope)) (t : TypeHash)
    (z : ScopeId) (resolveSingle : Bool) (chain : List ScopeId) :
    Prog.Returns (resolveInternal factory running t z resolveSingle chain) := by
  induction chain with
  | nil => exact .pure _
  | cons i parents ih =>
    refine .bind (tryLockParent_returns _ _) fun _ => .get_bind fun s => ?_
    cases resolveSingle with
    | true =>
      simp only [if_true]
      cases (s.scopes.localRegs i t).getLast? with
      | none => exact ih
      | some reg => exact .bind (resolveRegistration_returns hf _ _ _ _ _) fun _ => .pure _
    | false =>
      exact .bind (resolveLocal_returns hf _ _ _ _) fun _ => .bind ih fun _ => .pure _

/-- A request to a valid scope is answered with what it returned or threw. -/
theorem answer_returns {α : Type} {s : Container} {z : ScopeId} (hz : z < s.scopes.length)
    (hlive : z ∉ s.destroyed) (answer : Except Error α → Answer) {m : M α}
    (hm : Prog.Returns m) :
    ∃ r s', (throwIfNotValid z >>= fun _ => Prog.tap (fun r s => s.addAnswer (answer r)) m) s =
      some (r, s') ∧ answer r ∈ s'.answers := by
  obtain ⟨r, t, hrun⟩ := hm s
  have hvalid : throwIfNotValid z s = some (.ok (), s) := by
    simp only [throwIfNotValid, Prog.get_bind, if_neg (Nat.not_le_of_lt hz), if_neg hlive]
    rfl
  refine ⟨r, t.addAnswer (answer r), ?_, List.mem_append_right _ (List.mem_singleton_self _)⟩
  exact Prog.bind_eq_some.mpr (.inr ⟨(), s, hvalid, Prog.tap_eq_some.mpr ⟨t, hrun, rfl⟩⟩)

end

theorem responds (calls : Nat → FactoryCall) (s : Container) : Responds calls s := by
  refine ⟨?_, ?_⟩
  · intro depth z t hf hz hlive
    refine answer_returns hz hlive (.resolve z t) (.get_bind fun s => ?_)
    refine .bind (resolveInternal_returns hf _ _ _ _) fun instances => ?_
    cases instances with
    | nil => exact .raise _
    | cons object _ => exact .pure _
  · intro depth z t hf hz hlive
    exact answer_returns hz hlive (.resolveAll z t)
      (.get_bind fun s => resolveInternal_returns hf _ _ _ _)

end SelectionLemmas

open SelectionLemmas

/-! ## Main results -/

/-- In every state of every run in which no factory is called again for a slot before it has
returned, no two scopes share a slot, no scope has lost its parent when it is asked, and the
factories neither throw nor return null: `resolve` gives what the factory of the last
registration in the nearest scope made, and throws exactly when there is none or its matching
scope is absent; `resolveAll` gives what the factory of each registration along the chain made,
once and in order, so also what `resolve` gives; and a `SingleInstance` factory has completed at
most once. -/
theorem selection (calls : Nat → FactoryCall) {s : Container}
    (hreach : Lts.Reachable (Container.step calls) Lts.anyStep Container.init s)
    (hre : s.reentered = []) (hshare : NoSharedSlot s.scopes) (horphaned : s.orphaned = [])
    (hd : Dependable s) : Selection s ∧ Responds calls s := by
  have hpath := (path_of_reachable hreach).2
  obtain ⟨hw, hledger⟩ := IdentityLemmas.ledger_of_path hpath hre
  have hanswers := answers_of_path hpath hre
  refine ⟨⟨?_, ?_, ?_, ?_, ?_, ?_⟩, responds calls s⟩
  · intro z t object hx
    obtain ⟨i, reg, hpicked, hgives⟩ := (hanswers _ hx).2
    obtain ⟨hi, hreg⟩ := registered_of_picked hpicked
    exact ⟨gives_isSome hledger hd hgives, i, reg, hpicked,
      supplies_of_gives hw hshare hledger hreg hi hgives⟩
  · exact fun z t r hx => throws_of_answer hanswers hd horphaned hx
  · intro z t r hx
    obtain ⟨objects, hr, hall⟩ := lists_of_answer hledger hanswers hd horphaned hx
    refine ⟨objects, hr, forall₂_imp_mem hall ?_⟩
    intro p hp object hgives
    obtain ⟨hi, hreg, _⟩ := mem_instantiable.mp hp
    exact supplies_of_gives hw hshare hledger hreg hi hgives
  · exact fun z t => SelectionLemmas.listed_once hw z t
  · intro z t object objects i reg hx hy hpicked hlife
    obtain ⟨j, q, hq, hgives⟩ := (hanswers _ hx).2
    obtain ⟨rfl, rfl⟩ := picked_unique hpicked hq
    obtain ⟨owner, howner, _⟩ := id hgives
    obtain ⟨hi, hreg⟩ := registered_of_picked hpicked
    have hmem : (i, reg) ∈ s.scopes.instantiable t z (s.scopes.chain z) :=
      mem_instantiable.mpr ⟨hi, hreg, howner ▸ rfl⟩
    obtain ⟨listed, hr, hall⟩ := lists_of_answer hledger hanswers hd horphaned hy
    obtain ⟨o, ho, hsame⟩ := exists_of_forall₂ hall hmem
    cases hr
    rw [gives_unique hlife hgives hsame]
    exact List.mem_map_of_mem ho
  · intro key t reg hreg hid hsingle
    exact SelectionLemmas.single_once hw (once_of_path hpath hre) hreg hid hsingle

/-! ## Runs -/

/-- The first factory call makes the request, the others make none. -/
def exFirst (command : Command) (n : Nat) : FactoryCall :=
  if n = 0 then ⟨[⟨command, false⟩], .returns (some 0)⟩ else ⟨[], .returns (some n)⟩

/-- A dependency that is exposed as two types, and a scope that overrides it as one of them with
a factory that asks for the other. Once that scope is destroyed, its parent goes on. -/
def exOverride : List Container.Action :=
  [.run (.build [⟨7, 0, [.as 7, .as 8, .singleInstance]⟩]) 2,
    .run (.beginLifetimeScope 0 "" [⟨7, 1, []⟩]) 2, .run (.resolve 1 7) 2,
    .run (.resolveAll 1 7) 2, .run (.resolve 1 9) 2, .destroy 1, .run (.resolve 0 8) 2]

theorem selection_override : ∃ s : Container,
    s.answers = [.resolve 1 8 (.ok (some 1)), .resolve 1 7 (.ok (some 0)),
      .resolveAll 1 7 (.ok [some 2, some 1]), .resolve 1 9 (.error .notFound),
      .resolve 0 8 (.ok (some 1))] ∧
    Selection s ∧ Responds (exFirst (.resolve 1 8)) s := by
  obtain ⟨s, hreach, hs⟩ := Lts.Reachable.of_exec (Container.step (exFirst (.resolve 1 8)))
    Lts.anyStep Container.init exOverride
    (fun s => s.reentered = [] ∧ NoSharedSlot s.scopes ∧ s.orphaned = [] ∧ s.thrown = 0 ∧
      (∀ c ∈ s.completions, c.object ≠ none) ∧
      s.answers = [.resolve 1 8 (.ok (some 1)), .resolve 1 7 (.ok (some 0)),
        .resolveAll 1 7 (.ok [some 2, some 1]), .resolve 1 9 (.error .notFound),
        .resolve 0 8 (.ok (some 1))]) (by decide)
  obtain ⟨hre, hshare, horphaned, hthrown, hnull, hanswers⟩ := of_decide_eq_true hs
  exact ⟨s, hanswers, selection _ hreach hre hshare horphaned ⟨hthrown, hnull⟩⟩

/-- A `SingleInstance` factory that asks for its own type, the first time that it is called, is
called again: both calls complete. -/
theorem single_instance_twice : ¬ ∀ (calls : Nat → FactoryCall) (s : Container),
    Lts.Reachable (Container.step calls) Lts.anyStep Container.init s → Dependable s →
    Selection s := by
  intro hall
  obtain ⟨s, hreach, hs⟩ := Lts.Reachable.of_exec (Container.step (exFirst (.resolve 0 7)))
    Lts.anyStep Container.init
    [.run (.build [⟨7, 0, [.singleInstance]⟩]) 2, .run (.resolve 0 7) 2]
    (fun s => s.thrown = 0 ∧ (∀ c ∈ s.completions, c.object ≠ none) ∧
      (∃ reg ∈ s.scopes.localRegs 0 7, reg.id = 0 ∧ reg.lifetime = .singleInstance) ∧
      (s.completions.filter fun c => c.registration = ⟨0, 0⟩).length = 2) (by decide)
  obtain ⟨hthrown, hnull, ⟨reg, hreg, hid, hsingle⟩, hlength⟩ := of_decide_eq_true hs
  have hle := (hall _ s hreach ⟨hthrown, hnull⟩).single_once ⟨0, 0⟩ 7 reg hreg hid hsingle
  rw [hlength] at hle
  exact absurd hle (by decide)

end Stormancer.Di
