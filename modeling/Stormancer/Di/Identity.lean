import Stormancer.Di.Events

/-!
# Which resolutions give the same instance

Two resolutions of registrations that are not transient should give the same instance exactly
when they are of the same registration and belong to the same scope.

Results:
1. `ledger_of_path`: as long as no factory is called again before it returned, a slot holds what
   a factory call for it returned, and what was resolved stays in its slot.
2. `instance_identity`: the resolutions give the same instance exactly then, in the states of all
   runs in which, besides, the factory calls return different objects and no two scopes share a
   slot.
3. `siblings_share_instance`: registrations of two sibling scopes that share a slot of their
   parent give the same instance.
-/

namespace Stormancer.Di

/-! ## Definitions -/

/-- The registration is exposed as the type. -/
def RegisteredAs (scopes : Scopes) (key : RegistrationKey) (t : TypeHash) : Prop :=
  ∃ reg ∈ scopes.localRegs key.scope t, reg.id = key.id

/-- What the resolutions of a container say of each other. -/
structure Identity (s : Container) : Prop where
  /-- A resolution is of a registration of its type, for the scope that owns the instance. -/
  selected : ∀ x ∈ s.resolutions, ∃ reg,
    Selects s.scopes x.typeHash x.registration.scope reg x.requesting x.owner ∧
      reg.id = x.registration.id ∧ reg.lifetime = x.lifetime
  same_iff : ∀ x ∈ s.resolutions, ∀ y ∈ s.resolutions,
    x.lifetime ≠ .instancePerRequest → y.lifetime ≠ .instancePerRequest →
      (x.object = y.object ↔ x.registration = y.registration ∧ x.owner = y.owner)
  /-- The instance was made, and by factories that are registered for the type only. -/
  registered : ∀ x ∈ s.resolutions,
    (∃ c ∈ s.completions, c.object = some x.object) ∧
      ∀ c ∈ s.completions, c.object = some x.object →
        RegisteredAs s.scopes c.registration x.typeHash

/-- No two factory calls have returned the same object. -/
def FreshObjects (s : Container) : Prop := (s.completions.filterMap (·.object)).Nodup

instance (s : Container) : Decidable (FreshObjects s) :=
  inferInstanceAs (Decidable (List.Nodup _))

namespace IdentityLemmas

open Container TreeLemmas EventLemmas

/-! ## What the slots hold -/

/-- A filled slot holds what a factory call for it returned, and a resolution what its
registration gives. -/
structure Ledger (s : Container) : Prop where
  filled : ∀ owner id object, s.stored (owner, id) = some object →
    ∃ t i reg z, Selects s.scopes t i reg z owner ∧ reg.lifetime ≠ .instancePerRequest ∧
      reg.id = id ∧ ⟨⟨i, id⟩, owner, object⟩ ∈ s.completions
  resolved : ∀ x ∈ s.resolutions, ∃ reg,
    Selects s.scopes x.typeHash x.registration.scope reg x.requesting x.owner ∧
      reg.id = x.registration.id ∧ reg.lifetime = x.lifetime ∧
      Found s x.registration.scope reg x.owner (some x.object)

theorem resolved_of_later {s s' : Container} (hw : WellFormed s.scopes) (hl : Later s s')
    (hk : Kept s s') (h : Ledger s) : ∀ x ∈ s.resolutions, ∃ reg,
    Selects s'.scopes x.typeHash x.registration.scope reg x.requesting x.owner ∧
      reg.id = x.registration.id ∧ reg.lifetime = x.lifetime ∧
      Found s' x.registration.scope reg x.owner (some x.object) := by
  intro x hx
  obtain ⟨reg, hs, hid, hlife, hfound⟩ := h.resolved x hx
  exact ⟨reg, selects_later hw hl hs, hid, hlife, found_later hl hk hfound⟩

theorem filled_of_later {s s' : Container} (hw : WellFormed s.scopes) (hl : Later s s')
    (h : Ledger s) {owner : ScopeId} {id : RegistrationId} {object : Option Instance}
    (hstored : s.stored (owner, id) = some object) :
    ∃ t i reg z, Selects s'.scopes t i reg z owner ∧ reg.lifetime ≠ .instancePerRequest ∧
      reg.id = id ∧ ⟨⟨i, id⟩, owner, object⟩ ∈ s'.completions := by
  obtain ⟨t, i, reg, z, hs, hlife, hid, hmem⟩ := h.filled owner id object hstored
  exact ⟨t, i, reg, z, selects_later hw hl hs, hlife, hid, hl.completions.subset hmem⟩

/-- One case for each event; most neither store nor record. -/
theorem ledger_of_event {running : List Slot} {s s' : Container} (hw : WellFormed s.scopes)
    (hre : s'.reentered = []) (he : Event running s s') (h : Ledger s) : Ledger s' := by
  have hl := later_of_event he
  have hk := kept_of_event he hre
  have hres := resolved_of_later hw hl hk h
  cases he with
  | call | fail | begin | reenter | destroy | orphan | make | answer =>
    exact ⟨fun _ _ _ ho => filled_of_later hw hl h ho, hres⟩
  | @record t i z owner reg object hs hfound =>
    refine ⟨fun _ _ _ ho => filled_of_later hw hl h ho, ?_⟩
    intro x hx
    rcases List.mem_append.mp hx with hx | hx
    · exact hres x hx
    · rw [List.mem_singleton.mp hx]
      exact ⟨reg, hs, rfl, rfl, hfound⟩
  | @store t i z owner reg object hs hlife hslot =>
    refine ⟨?_, hres⟩
    intro owner' id o ho
    rw [stored_store] at ho
    split at ho
    · next heq =>
      cases heq
      cases ho
      exact ⟨t, i, reg, z, hs, hlife, rfl,
        List.mem_append_right _ (List.mem_singleton_self _)⟩
    · exact filled_of_later hw hl h ho

theorem ledger_init : Ledger Container.init := by
  refine ⟨?_, nofun⟩
  intro owner id object h
  cases h

theorem ledger_of_path {s : Container} (h : Path [] Container.init s) (hre : s.reentered = []) :
    WellFormed s.scopes ∧ Ledger s :=
  invariant_of_path ledger_init (fun _ _ => ledger_of_event) h hre

/-! ## Makers -/

/-- If no slot is shared, what a registration gives was returned by a call of its factory. -/
theorem made_of_found {s : Container} (hw : WellFormed s.scopes) (hshare : NoSharedSlot s.scopes)
    (h : Ledger s) {t : TypeHash} {i z owner : ScopeId} {reg : RegistrationInternal}
    {object : Option Instance} (hs : Selects s.scopes t i reg z owner)
    (hfound : Found s i reg owner object) :
    ⟨⟨i, reg.id⟩, owner, object⟩ ∈ s.completions := by
  by_cases hlife : reg.lifetime = .instancePerRequest
  · exact hfound.1 hlife
  · obtain ⟨u, j, q, w, hq, hql, hid, hmem⟩ := h.filled owner reg.id object (hfound.2 hlife)
    rw [selects_unique hw hshare hq hs hql hlife hid] at hmem
    exact hmem

theorem maker_mem {s : Container} (hw : WellFormed s.scopes) (hshare : NoSharedSlot s.scopes)
    (h : Ledger s) {x : Resolution} (hx : x ∈ s.resolutions) :
    ⟨x.registration, x.owner, some x.object⟩ ∈ s.completions := by
  obtain ⟨reg, hs, hid, _, hfound⟩ := h.resolved x hx
  have hmade := made_of_found hw hshare h hs hfound
  rw [hid] at hmade
  exact hmade

theorem completion_unique {s : Container} (hfresh : FreshObjects s) {c d : Completion}
    {object : Instance} (hc : c ∈ s.completions) (hd : d ∈ s.completions)
    (hco : c.object = some object) (hdo : d.object = some object) : c = d := by
  by_contra hne
  have hpair := List.pairwise_filterMap.mp hfresh
  have hsymm : Std.Symm fun c d : Completion =>
      ∀ o, c.object = some o → ∀ o', d.object = some o' → o ≠ o' :=
    ⟨fun _ _ h o ho o' ho' heq => h o' ho' o ho heq.symm⟩
  exact hpair.forall hc hd hne object hco object hdo rfl

end IdentityLemmas

open IdentityLemmas

/-! ## Main results -/

/-- In every state of every run in which no factory is called again for a slot before it has
returned, the factory calls return different objects, and no two scopes share a slot: the
resolutions that are not transient give the same instance exactly when they are of one
registration and belong to one scope, and no instance comes from a factory that was not
registered for the type. -/
theorem instance_identity (calls : Nat → FactoryCall) {s : Container}
    (hreach : Lts.Reachable (Container.step calls) Lts.anyStep Container.init s)
    (hre : s.reentered = []) (hfresh : FreshObjects s) (hshare : NoSharedSlot s.scopes) :
    Identity s := by
  obtain ⟨hw, hledger⟩ := ledger_of_path (path_of_reachable hreach).2 hre
  refine ⟨?_, ?_, ?_⟩
  · intro x hx
    obtain ⟨reg, hs, hid, hlife, _⟩ := hledger.resolved x hx
    exact ⟨reg, hs, hid, hlife⟩
  · intro x hx y hy hxl hyl
    constructor
    · intro heq
      have hmx := maker_mem hw hshare hledger hx
      have hmy := maker_mem hw hshare hledger hy
      have hsame := completion_unique hfresh hmx hmy rfl (congrArg some heq.symm)
      injection hsame with hreg howner _
      exact ⟨hreg, howner⟩
    · rintro ⟨hreg, howner⟩
      obtain ⟨r, _, hrid, hrl, hrfound⟩ := hledger.resolved x hx
      obtain ⟨q, _, hqid, hql, hqfound⟩ := hledger.resolved y hy
      have hx' := hrfound.2 (hrl ▸ hxl)
      have hy' := hqfound.2 (hql ▸ hyl)
      rw [hrid, hreg, howner, ← hqid, hy'] at hx'
      exact (Option.some.inj (Option.some.inj hx')).symm
  · intro x hx
    have hmaker := maker_mem hw hshare hledger hx
    refine ⟨⟨_, hmaker, rfl⟩, ?_⟩
    intro c hc hobject
    have hsame := completion_unique hfresh hc hmaker hobject rfl
    subst hsame
    obtain ⟨reg, hs, hid, _⟩ := hledger.resolved x hx
    exact ⟨reg, hs.registered, hid⟩

/-! ## Runs -/

/-- Every factory returns a new object and makes no requests. -/
def exCalls (n : Nat) : FactoryCall := ⟨[], .returns (some n)⟩

/-- A scope with the tag, and two scopes below it that register a matching-scope dependency
each, where `second` is what the second one registers first. -/
def exSiblings (second : List Registering) : List Container.Action :=
  [.run (.build []) 1, .run (.beginLifetimeScope 0 "party" []) 1,
    .run (.beginLifetimeScope 1 "" [⟨7, 0, [.instancePerMatchingScope "party"]⟩]) 1,
    .run (.beginLifetimeScope 1 "" (second ++ [⟨8, 1, [.instancePerMatchingScope "party"]⟩])) 1,
    .run (.resolve 2 7) 1, .run (.resolve 3 8) 1, .run (.resolveAll 2 7) 1]

/-- With another registration before it, the second one has an id of its own. -/
theorem instance_identity_siblings : ∃ s : Container,
    (s.resolutions.map (·.object) = [0, 1, 0]) ∧ Identity s := by
  obtain ⟨s, hreach, hs⟩ := Lts.Reachable.of_exec (Container.step exCalls) Lts.anyStep
    Container.init (exSiblings [⟨9, 2, []⟩])
    (fun s => s.reentered = [] ∧ FreshObjects s ∧ NoSharedSlot s.scopes ∧
      s.resolutions.map (·.object) = [0, 1, 0]) (by decide +kernel)
  obtain ⟨hre, hfresh, hshare, hobjects⟩ := of_decide_eq_true hs
  exact ⟨s, hobjects, instance_identity exCalls hreach hre hfresh hshare⟩

/-- Two sibling scopes count their registrations from the same number. What the first one
registers as 7 is then found when the second one asks for its 8. -/
theorem siblings_share_instance : ¬ ∀ (calls : Nat → FactoryCall) (s : Container),
    Lts.Reachable (Container.step calls) Lts.anyStep Container.init s →
    s.reentered = [] → FreshObjects s → Identity s := by
  intro hall
  obtain ⟨s, hreach, hs⟩ := Lts.Reachable.of_exec (Container.step exCalls) Lts.anyStep
    Container.init (exSiblings [])
    (fun s => s.reentered = [] ∧ FreshObjects s ∧ ∃ x ∈ s.resolutions, ∃ y ∈ s.resolutions,
      x.lifetime ≠ .instancePerRequest ∧ y.lifetime ≠ .instancePerRequest ∧
        x.object = y.object ∧ x.registration ≠ y.registration) (by decide +kernel)
  obtain ⟨hre, hfresh, x, hx, y, hy, hxl, hyl, hobject, hne⟩ := of_decide_eq_true hs
  have hid := hall exCalls s hreach hre hfresh
  exact hne ((hid.same_iff x hx y hy hxl hyl).mp hobject).1

end Stormancer.Di
